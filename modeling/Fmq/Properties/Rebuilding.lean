import Fmq.Lib.JsonTree
import Fmq.Model.Rebuilding
import Fmq.Properties.Codec
import Fmq.Properties.NamedRegions

/-!
# What a rebuilt descriptor restores

The grantors and the name come back from the text. The quantum and the flags do not, and a queue
always has a quantum.
-/
namespace Fmq.Msvc

open MessageQueueBase SystemPorting Fmq.Msvc.aidl
open Fmq.AidlMQDescriptorShim (exportGrantor)

/-! ## The rebuilt descriptor -/

section

variable {os : Platform} {typesDefined : Bool} {a_json_decriptor : String}
  {desc : NamedMQDescriptor}

@[simp] theorem fromJsonDescriptor_quantum :
    (desc.fromJsonDescriptor os typesDefined a_json_decriptor).2.quantum = desc.quantum := by
  cases typesDefined <;> rfl

@[simp] theorem fromJsonDescriptor_flags :
    (desc.fromJsonDescriptor os typesDefined a_json_decriptor).2.flags = desc.flags := by
  cases typesDefined <;> rfl

/-- The text of a shim has its grantors, and its name in a member that `dupeDesc` leaves empty. -/
theorem fromJsonDescriptor_toString (lawful : os.json.Lawful) (shim : AidlMQDescriptorShim)
    (roundTrips : ∀ v, document os.json shim.mGrantors shim.mHandle shim.mQuantum shim.mFlags
      shim.mName = some v → os.json.RoundTrips v) :
    (desc.fromJsonDescriptor os true (shim.toString os.json)).2 = { desc with
      grantors := shim.mGrantors.map exportGrantor
      name := shim.mName
      json_decriptor := shim.toString os.json } := by
  obtain ⟨raw, parsed, holds⟩ := parse_generateString lawful roundTrips
  unfold NamedMQDescriptor.fromJsonDescriptor fromString AidlMQDescriptorShim.toString
  rw [holds.fromStringHidl lawful parsed]
  rfl

end

/-! ## Valid queues -/

section

variable {os : Platform} {flavor : MQFlavor} {sizeofT : UInt64}

theorem ofDescriptor_valid {desc : AidlMQDescriptorShim} {resetPointers : Bool}
    {mq : MessageQueueBase} (done : ofDescriptor os flavor sizeofT desc resetPointers = .ok mq)
    (valid : mq.isValid = true) : ∃ mDesc, mq.Initialized sizeofT mDesc resetPointers := by
  unfold ofDescriptor at done
  obtain ⟨-, done⟩ := not_refused done valid
  obtain ⟨mDesc, -, done⟩ := bind_eq_ok.mp done
  split at done
  next => cases done
  next handle _ =>
    obtain ⟨handle_mod, -, done⟩ := bind_eq_ok.mp done
    exact ⟨_, initMemory_valid done valid⟩

/-- A valid queue was checked by `initMemory`, whatever it was built from. -/
theorem Origin.construct_valid {origin : Origin} {mq : AidlMessageQueue} (pos : sizeofT ≠ 0)
    (constructed : origin.construct os flavor sizeofT = .ok mq) (valid : mq.isValid = true) :
    ∃ mDesc resetPointers, mq.Initialized sizeofT mDesc resetPointers := by
  cases origin with
  | numElements numElementsInQueue configureEventFlagWord bufferFd bufferSize name rand =>
    obtain ⟨base, done, named⟩ := bind_eq_ok.mp constructed
    cases named
    obtain ⟨-, mDesc, initialized, -⟩ := ofNumElements_valid pos done valid
    exact ⟨mDesc, true, initialized⟩
  | mqDescriptor desc resetPointers =>
    obtain ⟨base, done, named⟩ := bind_eq_ok.mp constructed
    cases named
    obtain ⟨mDesc, initialized⟩ := ofDescriptor_valid done valid
    exact ⟨mDesc, resetPointers, initialized⟩
  | descriptor desc resetPointers =>
    obtain ⟨base, done, named⟩ := bind_eq_ok.mp constructed
    cases named
    obtain ⟨mDesc, initialized⟩ := ofDescriptor_valid done valid
    exact ⟨mDesc, resetPointers, initialized⟩

/-- A valid queue can be exported, with the quantum and the text of its shim. -/
theorem dupeDesc_valid {mq : AidlMessageQueue} {mDesc : Fmq.AidlMQDescriptorShim}
    {resetPointers : Bool} (initialized : mq.Initialized sizeofT mDesc resetPointers)
    (os : Platform) : ∃ handle, mDesc.mHandle = some handle ∧ mq.dupeDesc os = .ok
      { grantors := mDesc.mGrantors.map exportGrantor
        handle := ⟨handle.fds, .replicate handle.ints.length 0⟩
        quantum := mDesc.mQuantum.toInt32
        flags := mDesc.mFlags.toInt32
        json_decriptor := AidlMQDescriptorShim.toString os.json ⟨mDesc, mq.mName⟩
        name := "" } := by
  obtain ⟨handle, known⟩ := Option.isSome_iff_exists.mp initialized.handle
  refine ⟨handle, known, ?_⟩
  unfold AidlMessageQueue.dupeDesc AidlMessageQueue.getDesc
  rw [initialized.mDesc, Option.map_some]
  unfold AidlMQDescriptorShim.dupeDesc
  dsimp only
  rw [known, Fmq.AidlMQDescriptorShim.getQuantum, UInt32.toUInt32_toUInt64]
  rfl

/-- With the text of the queue, the grantors and the name are restored. -/
theorem restores_iff_zero (lawful : os.json.Lawful) {mq : AidlMessageQueue}
    {mDesc : Fmq.AidlMQDescriptorShim} {resetPointers : Bool}
    (initialized : mq.Initialized sizeofT mDesc resetPointers)
    (roundTrips : ∀ v, document os.json mDesc.mGrantors mDesc.mHandle mDesc.mQuantum mDesc.mFlags
      mq.mName = some v → os.json.RoundTrips v) :
    ∃ desc, mq.dupeDesc os = .ok desc ∧
      ((NamedMQDescriptor.default.fromJsonDescriptor os true desc.json_decriptor).2.Restores desc
          mq.mName ↔ desc.quantum = 0 ∧ desc.flags = 0) := by
  obtain ⟨handle, known, exported⟩ := dupeDesc_valid initialized os
  refine ⟨_, exported, ?_⟩
  dsimp only
  rw [fromJsonDescriptor_toString lawful ⟨mDesc, mq.mName⟩ roundTrips]
  constructor
  · intro restores
    exact ⟨restores.quantum.symm, restores.flags.symm⟩
  · rintro ⟨quantum, flags⟩
    exact ⟨rfl, quantum.symm, flags.symm, rfl⟩

/-- The quantum of a valid queue is the size of its elements, and no text restores that. -/
theorem not_restores {origin : Origin} {mq : AidlMessageQueue} (pos : sizeofT ≠ 0)
    (constructed : origin.construct os flavor sizeofT = .ok mq) (valid : mq.isValid = true)
    (importer : Platform) (typesDefined : Bool) :
    ∃ desc, mq.dupeDesc os = .ok desc ∧
      ¬ (NamedMQDescriptor.default.fromJsonDescriptor importer typesDefined
          desc.json_decriptor).2.Restores desc mq.mName := by
  obtain ⟨mDesc, resetPointers, initialized⟩ := origin.construct_valid pos constructed valid
  obtain ⟨handle, known, exported⟩ := dupeDesc_valid initialized os
  refine ⟨_, exported, fun restores => pos ?_⟩
  have zero : mDesc.mQuantum.toInt32 = 0 :=
    restores.quantum.symm.trans fromJsonDescriptor_quantum
  calc sizeofT = mDesc.mQuantum.toUInt64 := initialized.quantum.symm
    _ = mDesc.mQuantum.toInt32.toUInt32.toUInt64 := by rw [UInt32.toUInt32_toInt32]
    _ = 0 := by rw [zero]; rfl

end

/-! ## A queue of 64 elements of two bytes -/

def grantorTree (offset extent : UInt64) : JsonTree :=
  .member GrantorDescriptor_element_flags_key (.uint 0) <|
  .member GrantorDescriptor_element_fdIndex_key (.uint 0) <|
  .member GrantorDescriptor_element_offset_key (.uint offset) <|
  .member GrantorDescriptor_element_extent_key (.uint extent) .empty

/-- The document of the queue. -/
def sixtyFour : JsonTree :=
  .member GrantorDescriptor_size_key (.uint 3) <|
  .member GrantorDescriptor_key
    (.element (grantorTree 0 8) <| .element (grantorTree 8 8) <|
      .element (grantorTree 16 128) .nil) <|
  .member quantum_key (.uint 2) <|
  .member flags_key (.uint 1) <|
  .member native_handle_t_numFds_key (.uint 1) <|
  .member native_handle_t_numInts_key (.uint 0) <|
  .member name_key (.string "q") .empty

def grantorText (offset extent : String) : String :=
  "\n  \x7b\n   \"GrantorDescriptor_extent_key\" : " ++ extent ++
  ",\n   \"GrantorDescriptor_fdIndex_key\" : 0,\n   \"GrantorDescriptor_flags_key\" : 0," ++
  "\n   \"GrantorDescriptor_offset_key\" : " ++ offset ++ "\n  \x7d"

def sixtyFourText : String :=
  "\x7b\n \"GrantorDescriptor_key\" : \n [" ++
  grantorText "0" "8" ++ "," ++ grantorText "8" "8" ++ "," ++ grantorText "16" "128" ++
  "\n ],\n \"GrantorDescriptor_size_key\" : 3,\n \"flags_key\" : 1,\n \"name_key\" : \"q\"," ++
  "\n \"numFds_key\" : 1,\n \"numInts_key\" : 0,\n \"quantum_key\" : 2\n\x7d"

/-- Windows with the library that knows this text. -/
def exporter : Platform := .generous (JsonTree.library [(sixtyFourText, sixtyFour)])

def sixtyFourElements : AidlMessageQueue :=
  ⟨⟨some ⟨[⟨0, 0, 0, 8⟩, ⟨0, 0, 8, 8⟩, ⟨0, 0, 16, 128⟩], some ⟨[3], []⟩, 2, 1⟩, some 0x10010,
    some 0x10000, some 0x10008, none, some 0, some 0⟩, "q"⟩

theorem construct_sixtyFour : (Origin.numElements 64 false (-1) 0 "q" 17).construct exporter
    .kSynchronizedReadWrite 2 = .ok sixtyFourElements := by
  -- No answer depends on the library.
  have same : (Origin.numElements 64 false (-1) 0 "q" 17).construct exporter
      .kSynchronizedReadWrite 2 = (Origin.numElements 64 false (-1) 0 "q" 17).construct
        (.generous (JsonTree.library [])) .kSynchronizedReadWrite 2 := rfl
  rw [same]
  decide

theorem not_restores_sixtyFour : ∃ desc, sixtyFourElements.dupeDesc exporter = .ok desc ∧
    ¬ (NamedMQDescriptor.default.fromJsonDescriptor exporter true
        desc.json_decriptor).2.Restores desc "q" :=
  not_restores (by decide) construct_sixtyFour rfl exporter true

/-- The quantum of the queue is 2. -/
theorem not_restores_exported : ¬ ∀ (os : Platform) (flavor : MQFlavor) (sizeofT : UInt64)
    (origin : Origin) (mq : AidlMessageQueue), os.json.Lawful → sizeofT ≠ 0 →
    origin.construct os flavor sizeofT = .ok mq → mq.isValid = true →
    (∀ shim v, mq.getDesc = some shim → document os.json shim.mGrantors shim.mHandle
      shim.mQuantum shim.mFlags shim.mName = some v → os.json.RoundTrips v) →
    ∃ desc, mq.dupeDesc os = .ok desc ∧
      (NamedMQDescriptor.default.fromJsonDescriptor os true desc.json_decriptor).2.Restores desc
        mq.mName := by
  intro all
  have written : document exporter.json [⟨0, 0, 0, 8⟩, ⟨0, 0, 8, 8⟩, ⟨0, 0, 16, 128⟩]
      (some ⟨[3], []⟩) 2 1 "q" = some sixtyFour := by rfl
  obtain ⟨desc, exported, restores⟩ := all exporter .kSynchronizedReadWrite 2 _ _
    (JsonTree.lawful _) (by decide) construct_sixtyFour rfl (by
      intro shim v known wrote
      cases known
      cases written.symm.trans wrote
      exact JsonTree.roundTrips_singleton sixtyFourText sixtyFour)
  cases exported
  exact absurd (fromJsonDescriptor_quantum.symm.trans restores.quantum) (by decide)

end Fmq.Msvc
