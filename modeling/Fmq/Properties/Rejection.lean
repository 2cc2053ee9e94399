import Fmq.Properties.HandleIndices
import Fmq.Properties.Undecoded

/-!
# Bad descriptors in both builds

A queue is not to become valid from a descriptor with a wrong quantum or negative values. The
MSVC build looks at the text beside the fields only, so there it is refused for what the text says.
-/
namespace Fmq

open MessageQueueBase AidlMQDescriptorShim details

/-- The constructor returns, with an object that is not valid. -/
def Rejected (x : Call MessageQueueBase) : Prop := ∃ mq, x = .ok mq ∧ mq.isValid = false

/-- A quantum of another type, or a negative value. -/
inductive aidl.MQDescriptor.Bad (sizeofT : UInt64) (desc : aidl.MQDescriptor) : Prop where
  | mismatch : desc.quantum.toInt ≠ sizeofT.toNat → desc.Bad sizeofT
  | quantum : desc.quantum < 0 → desc.Bad sizeofT
  | flags : desc.flags < 0 → desc.Bad sizeofT
  | grantor : ∀ grantor ∈ desc.grantors,
      grantor.offset < 0 ∨ grantor.extent < 0 ∨ grantor.fdIndex < 0 → desc.Bad sizeofT

variable {os : Platform} {flavor : MQFlavor} {sizeofT : UInt64}

/-! ## `initMemory` -/

/-- A descriptor with which `initMemory` leaves the queue invalid. -/
inductive AidlMQDescriptorShim.Refused (sizeofT : UInt64) (desc : AidlMQDescriptorShim) : Prop where
  | handle : desc.isHandleValid = false → desc.Refused sizeofT
  | grantors : desc.countGrantors < kMinGrantorCount → desc.Refused sizeofT
  | quantum : desc.getQuantum ≠ sizeofT → desc.Refused sizeofT

/-- Beside the two early returns a fault is the only way not to become valid. -/
theorem rejected_initMemory_iff {desc : AidlMQDescriptorShim} {resetPointers : Bool} :
    Rejected (initMemory os flavor sizeofT desc resetPointers) ↔ desc.Refused sizeofT := by
  constructor
  · rintro ⟨mq, done, invalid⟩
    rcases initMemory_cases done with ⟨(missing | few) | mismatch, -⟩ | completed
    · exact .handle missing
    · exact .grantors few
    · exact .quantum mismatch
    · cases completed.valid.symm.trans invalid
  · intro refused
    refine ⟨withDesc desc, ?_, rfl⟩
    unfold initMemory
    by_cases incomplete : desc.isHandleValid = false ∨ desc.countGrantors < kMinGrantorCount
    · rw [if_pos incomplete]
      rfl
    · rw [if_neg incomplete]
      cases refused with
      | handle missing => exact absurd (.inl missing) incomplete
      | grantors few => exact absurd (.inr few) incomplete
      | quantum mismatch =>
        rw [if_pos mismatch]
        rfl

/-! ## The parcelable -/

theorem refused_of_bad {desc : aidl.MQDescriptor} (bad : desc.Bad sizeofT)
    (valid : (ofMQDescriptor os desc).isHandleValid = true) :
    (desc.shim os).Refused sizeofT := by
  obtain ⟨quantum, flags, nonnegative, -⟩ := ofMQDescriptor_valid.mp valid
  cases bad with
  | mismatch differs =>
    exact .quantum fun equal => differs ((aidl.MQDescriptor.getQuantum_shim quantum).mp equal)
  | quantum negative => exact absurd quantum (Int32.not_le.mpr negative)
  | flags negative => exact absurd flags (Int32.not_le.mpr negative)
  | grantor grantor member negative =>
    obtain ⟨offset, extent, fdIndex⟩ := nonnegative grantor member
    rcases negative with negative | negative | negative
    · exact absurd offset (Int32.not_le.mpr negative)
    · exact absurd extent (Int64.not_le.mpr negative)
    · exact absurd fdIndex (Int32.not_le.mpr negative)

theorem copy_of_invalid {desc : AidlMQDescriptorShim} (invalid : desc.isHandleValid = false) :
    desc.copy os = .ok desc := by
  obtain ⟨mGrantors, mHandle, mQuantum, mFlags⟩ := desc
  cases mHandle with
  | none => rfl
  | some handle => cases invalid

theorem rejected_ofDescriptor {desc copied : AidlMQDescriptorShim} {resetPointers : Bool}
    (done : desc.copy os = .ok copied) (refused : copied.Refused sizeofT) :
    Rejected (MessageQueueBase.ofDescriptor os flavor sizeofT desc resetPointers) := by
  unfold MessageQueueBase.ofDescriptor
  rw [done]
  cases os.newDescriptor with
  | false => exact ⟨withDesc none, rfl, rfl⟩
  | true => exact rejected_initMemory_iff.mpr refused

/-- Elsewhere than in the MSVC build every bad descriptor is rejected. -/
theorem rejected_of_bad {desc : aidl.MQDescriptor} (bad : desc.Bad sizeofT) (resetPointers : Bool) :
    Rejected ((Source.mqDescriptor desc resetPointers).construct os flavor sizeofT) := by
  cases valid : (ofMQDescriptor os desc).isHandleValid with
  | true =>
    exact rejected_ofDescriptor (aidl.MQDescriptor.copy_eq_shim valid) (refused_of_bad bad valid)
  | false => exact rejected_ofDescriptor (copy_of_invalid valid) (.handle valid)

namespace Msvc

open SystemPorting

/-- The number of grantors in a document. -/
def grantorCount (json : JsonLibrary) (raw : json.Value) : Nat :=
  ((json.memberOf raw GrantorDescriptor_key).map json.size).getD 0

/-- The document of a descriptor is bad by itself, and makes a handle with room for the region. -/
structure BadText (os : Platform) (sizeofT : UInt64) (desc : aidl.MQDescriptor)
    (raw : os.json.Value) : Prop where
  accepted : ¬ SystemPorting.Refused os.json raw
  handle : ∃ handle, handleRead os raw = some handle ∧ (handle.fds ≠ [] ∨ handle.ints ≠ [])
  bad : grantorCount os.json raw < kMinGrantorCount ∨
    ((quantumRead os.json raw).getD desc.quantum.toUInt32).toUInt64 ≠ sizeofT

variable {os : Platform} {desc : aidl.MQDescriptor} {raw : os.json.Value}

/-- A handle that was created can be copied. -/
theorem copy_created (counts : ∀ numFds numInts created,
      os.nativeHandleCreate numFds numInts = some created →
        created.numFds = numFds ∧ created.numInts = numInts)
    {shim : AidlMQDescriptorShim} (created : shim.mHandle = handleRead os raw) :
    shim.copy os = .ok shim := by
  obtain ⟨⟨mGrantors, mHandle, mQuantum, mFlags⟩, mName⟩ := shim
  cases mHandle with
  | none => rfl
  | some handle =>
    obtain ⟨numFds, numInts⟩ := counts _ _ _ created.symm
    unfold AidlMQDescriptorShim.copy
    dsimp only
    rw [numFds, numInts, ← handleRead, ← created]
    dsimp only
    rw [List.take_append_drop]
    rfl

theorem setData_eq (value : Int32) (handle : NativeHandle) :
    (handle.fds ≠ [] ∨ handle.ints ≠ []) ∧ (∃ handle', setData value handle = .ok handle') ∨
      ¬ (handle.fds ≠ [] ∨ handle.ints ≠ []) ∧ setData value handle = .error .fdOutOfRange := by
  rcases handle with ⟨_ | ⟨fd, fds⟩, _ | ⟨int, ints⟩⟩
  · exact .inr ⟨by simp, rfl⟩
  · exact .inl ⟨.inr nofun, _, rfl⟩
  · exact .inl ⟨.inl nofun, _, rfl⟩
  · exact .inl ⟨.inl nofun, _, rfl⟩

theorem not_rejected_error {fault : Fault} : ¬ Rejected (.error fault) := nofun

theorem refused_iff_of_handle {shim : Fmq.AidlMQDescriptorShim}
    (valid : shim.isHandleValid = true) : shim.Refused sizeofT ↔
      shim.mGrantors.length < kMinGrantorCount ∨ shim.mQuantum.toUInt64 ≠ sizeofT := by
  constructor
  · intro refused
    cases refused with
    | handle missing => cases valid.symm.trans missing
    | grantors few => exact .inl few
    | quantum mismatch => exact .inr mismatch
  · rintro (few | mismatch)
    · exact .grantors few
    · exact .quantum mismatch

/-- With a descriptor object, the queue is rejected for what the shim says, if that has a handle
for the region. -/
theorem rejected_ofDescriptor_iff {shim : AidlMQDescriptorShim} {resetPointers : Bool}
    (newDescriptor : os.newDescriptor = true) (copied : shim.copy os = .ok shim) :
    Rejected (ofDescriptor os flavor sizeofT shim resetPointers) ↔
      (∃ handle, shim.mHandle = some handle ∧ (handle.fds ≠ [] ∨ handle.ints ≠ [])) ∧
        (shim.mGrantors.length < kMinGrantorCount ∨ shim.mQuantum.toUInt64 ≠ sizeofT) := by
  unfold ofDescriptor
  rw [newDescriptor, copied]
  simp only [Bool.not_true, Bool.false_eq_true, if_false, bind, Except.bind]
  cases known : shim.mHandle with
  | none => exact iff_of_false not_rejected_error nofun
  | some handle =>
    simp only [Option.some.injEq, exists_eq_left']
    rcases setData_eq (os.openShmem shim.mName) handle with
      ⟨room, handle', set⟩ | ⟨full, set⟩
    · rw [set, and_iff_right room]
      exact rejected_initMemory_iff.trans (refused_iff_of_handle rfl)
    · rw [set]
      exact iff_of_false not_rejected_error fun rejected => full rejected.1

/-- The MSVC build rejects what the text says is bad, whatever the fields say. -/
theorem rejected_ofMQDescriptor_iff (lawful : os.json.Lawful)
    (counts : ∀ numFds numInts created, os.nativeHandleCreate numFds numInts = some created →
      created.numFds = numFds ∧ created.numInts = numInts) (resetPointers : Bool) :
    Rejected (ofMQDescriptor os flavor sizeofT desc resetPointers) ↔
      os.newDescriptor = false ∨ ∃ raw, os.json.parse desc.json_decriptor = some raw ∧
        BadText os sizeofT desc raw := by
  cases newDescriptor : os.newDescriptor with
  | false =>
    unfold ofMQDescriptor ofDescriptor
    rw [newDescriptor]
    exact iff_of_true ⟨withDesc none, rfl, rfl⟩ (.inl rfl)
  | true =>
    rw [or_iff_right (by decide)]
    -- Without a handle the copy is the shim itself, and the element of the region is missing.
    have unhandled (missing : (AidlMQDescriptorShim.ofMQDescriptor os desc).mHandle = none) :
        ¬ Rejected (ofMQDescriptor os flavor sizeofT desc resetPointers) := by
      have copied : (AidlMQDescriptorShim.ofMQDescriptor os desc).copy os =
          .ok (.ofMQDescriptor os desc) := by
        unfold AidlMQDescriptorShim.copy
        rw [missing]
        rfl
      intro rejected
      obtain ⟨⟨handle, known, -⟩, -⟩ := (rejected_ofDescriptor_iff newDescriptor copied).mp rejected
      cases missing.symm.trans known
    cases parsed : os.json.parse desc.json_decriptor with
    | none => exact iff_of_false (unhandled (mHandle_unparsed parsed)) nofun
    | some raw =>
      by_cases refused : SystemPorting.Refused os.json raw
      · refine iff_of_false (unhandled (mHandle_refused parsed refused)) ?_
        rintro ⟨raw', known, bad⟩
        cases known
        exact bad.accepted refused
      · obtain ⟨d, read, shim⟩ := ofMQDescriptor_accepted lawful parsed refused
        unfold ofMQDescriptor
        rw [shim, rejected_ofDescriptor_iff newDescriptor (copy_created counts rfl)]
        dsimp only
        rw [read.length, read.quantum]
        constructor
        · rintro ⟨handle, bad⟩
          exact ⟨raw, rfl, refused, handle, bad⟩
        · rintro ⟨raw', known, bad⟩
          cases known
          exact ⟨bad.handle, bad.bad⟩

/-- Both builds reject a bad descriptor if and only if the MSVC build has no room for a descriptor
or a document that is bad by itself. -/
theorem bothRejected_iff (lawful : os.json.Lawful)
    (counts : ∀ numFds numInts created, os.nativeHandleCreate numFds numInts = some created →
      created.numFds = numFds ∧ created.numInts = numInts)
    (bad : desc.Bad sizeofT) (posix : Fmq.Platform) (flavor : MQFlavor) (resetPointers : Bool) :
    (Rejected ((Source.mqDescriptor desc.toMQDescriptor resetPointers).construct posix flavor
        sizeofT) ∧ Rejected (ofMQDescriptor os flavor sizeofT desc resetPointers)) ↔
      os.newDescriptor = false ∨ ∃ raw, os.json.parse desc.json_decriptor = some raw ∧
        BadText os sizeofT desc raw := by
  rw [and_iff_right (rejected_of_bad bad resetPointers)]
  exact rejected_ofMQDescriptor_iff lawful counts resetPointers

/-- The document of a queue of 64 elements of two bytes. Members that are missing read as null. -/
def twoBytes : JsonTree :=
  .member GrantorDescriptor_key
    (.element (.member GrantorDescriptor_element_extent_key (.uint 8) .empty) <|
      .element (.member GrantorDescriptor_element_extent_key (.uint 8) <|
        .member GrantorDescriptor_element_offset_key (.uint 8) .empty) <|
      .element (.member GrantorDescriptor_element_extent_key (.uint 128) <|
        .member GrantorDescriptor_element_offset_key (.uint 16) .empty) .nil) <|
  .member quantum_key (.uint 2) <|
  .member flags_key (.uint 1) <|
  .member native_handle_t_numFds_key (.uint 1) .empty

def twoBytesText : String :=
  "\x7b\"GrantorDescriptor_key\":[\x7b\"GrantorDescriptor_extent_key\":8\x7d," ++
  "\x7b\"GrantorDescriptor_extent_key\":8,\"GrantorDescriptor_offset_key\":8\x7d," ++
  "\x7b\"GrantorDescriptor_extent_key\":128,\"GrantorDescriptor_offset_key\":16\x7d]," ++
  "\"quantum_key\":2,\"flags_key\":1,\"numFds_key\":1\x7d"

/-- The queue's own text beside the fields of another payload size. -/
def mismatched : aidl.MQDescriptor :=
  ⟨⟨[⟨0, 0, 8⟩, ⟨0, 8, 8⟩, ⟨0, 16, 128⟩], ⟨[3], []⟩, 8, 1⟩, twoBytesText⟩

/-- Windows with the library that knows this text. -/
def windows : Platform := .generous (JsonTree.library [(twoBytesText, twoBytes)])

theorem parse_twoBytes : windows.json.parse mismatched.json_decriptor = some twoBytes :=
  JsonTree.parse_singleton twoBytesText twoBytes

theorem accepted_twoBytes : ¬ SystemPorting.Refused windows.json twoBytes := by
  rintro ⟨array, member, isArray, -⟩
  cases member
  cases isArray

/-- A payload of four bytes fits neither the fields nor the text. -/
theorem bothRejected_iff_four :
    Rejected ((Source.mqDescriptor mismatched.toMQDescriptor true).construct .generous
        .kSynchronizedReadWrite 4) ∧
      Rejected (ofMQDescriptor windows .kSynchronizedReadWrite 4 mismatched true) := by
  refine (bothRejected_iff (JsonTree.lawful _) counts_create (.mismatch (by decide)) _ _ _).mpr
    (.inr ⟨twoBytes, parse_twoBytes, accepted_twoBytes, ⟨⟨[0], []⟩, rfl, .inl nofun⟩, .inr ?_⟩)
  decide

/-- A payload of two bytes fits the text, so that the MSVC build makes a valid queue. -/
theorem not_bothRejected : ¬ ∀ (os : Platform) (posix : Fmq.Platform), os.json.Lawful →
    (∀ numFds numInts created, os.nativeHandleCreate numFds numInts = some created →
      created.numFds = numFds ∧ created.numInts = numInts) →
    ∀ (flavor : MQFlavor) (sizeofT : UInt64) (desc : aidl.MQDescriptor) (resetPointers : Bool),
      desc.Bad sizeofT →
      Rejected ((Source.mqDescriptor desc.toMQDescriptor resetPointers).construct posix flavor
        sizeofT) ∧ Rejected (ofMQDescriptor os flavor sizeofT desc resetPointers) := by
  intro all
  obtain ⟨-, mq, constructed, invalid⟩ := all windows .generous (JsonTree.lawful _) counts_create
    .kSynchronizedReadWrite 2 mismatched true (.mismatch (by decide))
  obtain ⟨d, read, shim⟩ :=
    ofMQDescriptor_accepted (JsonTree.lawful _) parse_twoBytes accepted_twoBytes
  have grantors : d.grantors = [⟨0, 0, 0, 8⟩, ⟨0, 0, 8, 8⟩, ⟨0, 0, 16, 128⟩] :=
    read.grantors _ rfl
  have quantum : d.quantum = 2 := read.quantum
  have flags : d.flags = 1 := read.flags
  have name : d.name = "" := read.name _ rfl
  unfold ofMQDescriptor at constructed
  rw [shim, grantors, quantum, flags, name] at constructed
  have valid : ofDescriptor windows .kSynchronizedReadWrite 2
      ⟨⟨[⟨0, 0, 0, 8⟩, ⟨0, 0, 8, 8⟩, ⟨0, 0, 16, 128⟩], some ⟨[0], []⟩, 2, 1⟩, ""⟩ true =
    .ok ⟨some ⟨[⟨0, 0, 0, 8⟩, ⟨0, 0, 8, 8⟩, ⟨0, 0, 16, 128⟩], some ⟨[3], []⟩, 2, 1⟩,
      some 0x10010, some 0x10000, some 0x10008, none, some 0, some 0⟩ := by decide
  cases valid.symm.trans constructed
  cases invalid

end Msvc
end Fmq
