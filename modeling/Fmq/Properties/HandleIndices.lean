import Fmq.Properties.Mappings

/-!
# Indices into the handle

`mapGrantorDescr` checks the index of the grantor and not the index of the file descriptor that it
finds there. Behind the file descriptors of a handle lie its integers.
-/
namespace Fmq

open details MessageQueueBase AidlMQDescriptorShim

variable {os : Platform} {flavor : MQFlavor} {sizeofT : UInt64}

/-- The descriptor passes every check on its way to the mappings. -/
structure aidl.MQDescriptor.WellFormed (sizeofT : UInt64) (desc : aidl.MQDescriptor) : Prop where
  quantum : desc.quantum.toInt = sizeofT.toNat
  flags : 0 ≤ desc.flags
  nonnegative : ∀ grantor ∈ desc.grantors, Nonnegative grantor
  count : kMinGrantorCount ≤ desc.grantors.length
  aligned : ∀ grantor ∈ desc.grantors, (8 : Int) ∣ grantor.offset.toInt

/-- In an `AidlMessageQueue` from this descriptor every access `handle->data[fdIndex]` is one to a
file descriptor, or the queue is invalid. -/
structure aidl.MQDescriptor.FdsInRange (os : Platform) (flavor : MQFlavor) (sizeofT : UInt64)
    (desc : aidl.MQDescriptor) (resetPointers : Bool) : Prop where
  accesses : ∀ shim, os.newDescriptor = true → (ofMQDescriptor os desc).copy os = .ok shim →
    MessageQueueBase.FdsInRange os flavor sizeofT shim
  rejected : ∀ mq, (Source.mqDescriptor desc resetPointers).construct os flavor sizeofT = .ok mq →
    (¬ ∀ grantorIdx ∈ mappedGrantors flavor desc.grantors.length, ∀ grantor,
      desc.grantors[grantorIdx]? = some grantor →
        0 ≤ grantor.fdIndex ∧ grantor.fdIndex.toInt < desc.handle.fds.length) →
    mq.isValid = false

theorem isAlignedToWordBoundary_iff (offset : UInt64) :
    isAlignedToWordBoundary offset = true ↔ 8 ∣ offset.toNat := by
  have low : (offset &&& (8 - 1)).toNat = offset.toNat % 8 :=
    (UInt64.toNat_and _ _).trans (Nat.and_two_pow_sub_one_eq_mod offset.toNat 3)
  unfold isAlignedToWordBoundary
  rw [beq_iff_eq, ← UInt64.toNat_inj, low]
  exact (Nat.dvd_iff_mod_eq_zero).symm

namespace MessageQueueBase

/-- An index below the number of file descriptors finds a value. -/
theorem mapGrantorDescr_inRange (os : Platform) {desc : AidlMQDescriptorShim}
    {handle : NativeHandle} {grantor : GrantorDescriptor} {grantorIdx : Nat}
    (present : desc.mHandle = some handle)
    (known : desc.mGrantors[grantorIdx]? = some grantor)
    (nonneg : 0 ≤ grantor.fdIndex.toInt32)
    (inside : grantor.fdIndex.toInt32.toInt < handle.fds.length) :
    ∃ fd, mapGrantorDescr os desc grantorIdx =
      .ok ((os.mmap (mapRange grantor).2 fd (mapRange grantor).1).map
        (· + (grantor.offset - (mapRange grantor).1.toUInt32).toNat)) := by
  have within : grantor.fdIndex.toInt32.toNatClampNeg < (handle.fds ++ handle.ints).length := by
    have value : grantor.fdIndex.toInt32.toNatClampNeg = grantor.fdIndex.toInt32.toInt.toNat := rfl
    have positive : 0 ≤ grantor.fdIndex.toInt32.toInt := Int32.le_iff_toInt_le.mp nonneg
    rw [List.length_append]
    omega
  obtain ⟨fd, at_index⟩ : ∃ fd,
      (handle.fds ++ handle.ints)[grantor.fdIndex.toInt32.toNatClampNeg]? = some fd :=
    ⟨_, List.getElem?_eq_getElem within⟩
  refine ⟨fd, ?_⟩
  unfold mapGrantorDescr NativeHandle.data
  rw [present, known]
  dsimp only
  rw [if_neg (Int32.not_lt.mpr nonneg), at_index]
  rfl

theorem mem_of_mem_mapCallsFrom {desc : AidlMQDescriptorShim} {grantors : List Nat} {i : Nat}
    (member : i ∈ mapCallsFrom os desc grantors) : i ∈ grantors := by
  induction grantors with
  | nil => exact member
  | cons grantorIdx rest ih =>
    rw [mapCallsFrom] at member
    rcases List.mem_cons.mp member with rfl | later
    · exact List.mem_cons_self
    · split at later
      next => exact List.mem_cons_of_mem _ (ih later)
      next => cases later

/-- If all files can be mapped, only an index out of range ends the calls early. -/
theorem mapCallsFrom_inRange {desc : AidlMQDescriptorShim} {handle : NativeHandle}
    (maps : ∀ length fd offset, (os.mmap length fd offset).isSome = true)
    (present : desc.mHandle = some handle) {grantors : List Nat}
    (exist : ∀ grantorIdx ∈ grantors, grantorIdx < desc.countGrantors)
    (inRange : ∀ grantorIdx ∈ mapCallsFrom os desc grantors, ∀ grantor,
      desc.mGrantors[grantorIdx]? = some grantor →
      0 ≤ grantor.fdIndex.toInt32 ∧ grantor.fdIndex.toInt32.toInt < handle.fds.length) :
    mapCallsFrom os desc grantors = grantors := by
  induction grantors with
  | nil => rfl
  | cons grantorIdx rest ih =>
    obtain ⟨inside, exist⟩ := List.forall_mem_cons.mp exist
    have known := List.getElem?_eq_getElem inside
    rw [mapCallsFrom] at inRange ⊢
    obtain ⟨first, inRange⟩ := List.forall_mem_cons.mp inRange
    obtain ⟨nonneg, below⟩ := first _ known
    obtain ⟨fd, eq⟩ := mapGrantorDescr_inRange os present known nonneg below
    obtain ⟨address, mapped⟩ := Option.isSome_iff_exists.mp
      (maps (mapRange desc.mGrantors[grantorIdx]).2 fd (mapRange desc.mGrantors[grantorIdx]).1)
    rw [eq, mapped] at inRange ⊢
    exact congrArg _ (ih exist inRange)

end MessageQueueBase

/-! ## Descriptors from another process -/

namespace aidl.MQDescriptor

/-- The copy of the shim from a descriptor whose values are positive. -/
def shim (os : Platform) (desc : aidl.MQDescriptor) : AidlMQDescriptorShim :=
  ⟨desc.grantors.map converted, some ⟨(desc.handle.fds.map os.dup).map os.dup, desc.handle.ints⟩,
    desc.quantum.toUInt32, desc.flags.toUInt32⟩

variable {desc : aidl.MQDescriptor} {copied : AidlMQDescriptorShim}

/-- The handle that could be created once can be created again. -/
theorem copy_eq_shim (valid : (ofMQDescriptor os desc).isHandleValid = true) :
    (ofMQDescriptor os desc).copy os = .ok (desc.shim os) := by
  obtain ⟨-, -, -, created⟩ := ofMQDescriptor_valid.mp valid
  rw [ofMQDescriptor_eq valid]
  unfold copy
  dsimp only
  rw [List.length_map, if_pos created]
  rfl

theorem copied_eq (done : (ofMQDescriptor os desc).copy os = .ok copied)
    (handle : copied.isHandleValid = true) :
    (ofMQDescriptor os desc).isHandleValid = true ∧ copied = desc.shim os := by
  have valid := (copy_eq_ok done).2.symm.trans handle
  exact ⟨valid, Except.ok.inj (done.symm.trans (copy_eq_shim valid))⟩

theorem getQuantum_shim (nonneg : 0 ≤ desc.quantum) :
    (desc.shim os).getQuantum = sizeofT ↔ desc.quantum.toInt = sizeofT.toNat := by
  have value := Casts.toNat_toUInt32 nonneg
  rw [← UInt64.toNat_inj, getQuantum, shim, UInt32.toNat_toUInt64]
  dsimp only
  omega

theorem aligned_shim (nonnegative : ∀ grantor ∈ desc.grantors, Nonnegative grantor) :
    (desc.shim os).mGrantors.all (fun grantor => isAlignedToWordBoundary grantor.offset.toUInt64) =
        true ↔
      ∀ grantor ∈ desc.grantors, (8 : Int) ∣ grantor.offset.toInt := by
  rw [List.all_eq_true, shim, List.forall_mem_map]
  refine forall₂_congr fun grantor member => ?_
  have value := Casts.toNat_toUInt32 (nonnegative grantor member).offset
  rw [isAlignedToWordBoundary_iff, UInt32.toNat_toUInt64, ← value]
  exact Int.natCast_dvd_natCast.symm

/-- What has passed the checks was well-formed. -/
theorem wellFormed_of_passed (done : (ofMQDescriptor os desc).copy os = .ok copied)
    (handle : copied.isHandleValid = true) (grantors : kMinGrantorCount ≤ copied.countGrantors)
    (quantum : copied.getQuantum = sizeofT)
    (aligned : copied.mGrantors.all
      (fun grantor => isAlignedToWordBoundary grantor.offset.toUInt64) = true) :
    desc.WellFormed sizeofT ∧ copied = desc.shim os := by
  obtain ⟨valid, rfl⟩ := copied_eq done handle
  obtain ⟨positive, flags, nonnegative, -⟩ := ofMQDescriptor_valid.mp valid
  refine ⟨⟨(getQuantum_shim positive).mp quantum, flags, nonnegative, ?_,
    (aligned_shim nonnegative).mp aligned⟩, rfl⟩
  rw [countGrantors, shim, List.length_map] at grantors
  exact grantors

/-- Every request of the constructor succeeds, a mapping of any length included. -/
def obliging : Platform := { Platform.generous with mmap := fun _ _ _ => some 0x10000 }

/-- A well-formed descriptor gets as far as the mappings. -/
theorem ready_of_wellFormed (wellFormed : desc.WellFormed sizeofT) (flavor : MQFlavor) :
    (ofMQDescriptor obliging desc).copy obliging = .ok (desc.shim obliging) ∧
      Ready obliging flavor sizeofT (desc.shim obliging) := by
  obtain ⟨quantum, flags, nonnegative, count, aligned⟩ := wellFormed
  have positive : 0 ≤ desc.quantum := by
    rw [Int32.le_iff_toInt_le, quantum]
    exact Int.natCast_nonneg _
  have valid : (ofMQDescriptor obliging desc).isHandleValid = true :=
    ofMQDescriptor_valid.mpr ⟨positive, flags, nonnegative, rfl⟩
  refine ⟨copy_eq_shim valid, rfl, ?_, (getQuantum_shim positive).mpr quantum,
    (aligned_shim nonnegative).mpr aligned, nofun⟩
  rw [countGrantors, shim, List.length_map]
  exact count

theorem fdIndex_shim (os : Platform) (P : Int32 → Prop) {grantorIdx : Nat} :
    (∀ grantor, (desc.shim os).mGrantors[grantorIdx]? = some grantor →
        P grantor.fdIndex.toInt32) ↔
      ∀ grantor, desc.grantors[grantorIdx]? = some grantor → P grantor.fdIndex := by
  rw [shim, List.getElem?_map]
  cases desc.grantors[grantorIdx]? <;> simp [converted]

/-- All indices are in range exactly when those of the mapped grantors are, unless the descriptor
is refused before. -/
theorem fdsInRange_iff (flavor : MQFlavor) (sizeofT : UInt64) (desc : aidl.MQDescriptor) :
    (∀ os resetPointers, desc.FdsInRange os flavor sizeofT resetPointers) ↔
      (desc.WellFormed sizeofT → ∀ grantorIdx ∈ mappedGrantors flavor desc.grantors.length,
        ∀ grantor, desc.grantors[grantorIdx]? = some grantor →
          grantor.fdIndex.toInt < desc.handle.fds.length) := by
  constructor
  · intro all wellFormed
    obtain ⟨copied, ready⟩ := ready_of_wellFormed wellFormed flavor
    have inRange := (all obliging true).accesses _ rfl copied
    have count : (desc.shim obliging).countGrantors = desc.grantors.length := List.length_map _
    unfold MessageQueueBase.FdsInRange at inRange
    rw [mapCalls_of_ready ready, count] at inRange
    have maps : ∀ length fd offset, (obliging.mmap length fd offset).isSome = true :=
      fun _ _ _ => rfl
    have calls := mapCallsFrom_inRange maps rfl
      (fun grantorIdx member => (mem_mappedGrantors ready.grantors (count ▸ member)).1)
      (fun grantorIdx called grantor => inRange grantorIdx called _ grantor rfl)
    rw [calls] at inRange
    intro grantorIdx member
    refine (fdIndex_shim obliging (·.toInt < desc.handle.fds.length)).mp fun grantor known => ?_
    have inside := (inRange grantorIdx member _ grantor rfl known).2
    rw [List.length_map, List.length_map] at inside
    exact inside
  · intro inRange os resetPointers
    refine ⟨fun copied _ done => ?_, fun mq constructed outside => ?_⟩
    · by_cases ready : Ready os flavor sizeofT copied
      · obtain ⟨wellFormed, rfl⟩ := wellFormed_of_passed done ready.handle ready.grantors
          ready.quantum ready.aligned
        intro grantorIdx called handle grantor present known
        rw [mapCalls_of_ready ready] at called
        have mapped := mem_of_mem_mapCallsFrom called
        have count : (desc.shim os).countGrantors = desc.grantors.length := List.length_map _
        rw [count] at mapped
        cases present
        rw [List.length_map, List.length_map]
        have foreign := (fdIndex_shim os fun fdIndex =>
          0 ≤ fdIndex ∧ fdIndex.toInt < desc.handle.fds.length).mpr fun grantor known =>
            ⟨(wellFormed.nonnegative grantor (List.mem_of_getElem? known)).fdIndex,
              inRange wellFormed grantorIdx mapped grantor known⟩
        exact foreign grantor known
      · unfold MessageQueueBase.FdsInRange
        rw [mapCalls_of_not_ready ready]
        exact nofun
    · refine Bool.eq_false_iff.mpr fun valid => outside ?_
      obtain ⟨copied, done, initialized⟩ := ofDescriptor_valid constructed valid
      obtain ⟨wellFormed, -⟩ := wellFormed_of_passed done initialized.handle initialized.grantors
        initialized.quantum (List.all_eq_true.mpr initialized.aligned)
      intro grantorIdx member grantor known
      exact ⟨(wellFormed.nonnegative grantor (List.mem_of_getElem? known)).fdIndex,
        inRange wellFormed grantorIdx member grantor known⟩

/-- One file descriptor and one integer: index 1 of the write counter is the integer. -/
theorem not_fdsInRange : ¬ ∀ (os : Platform) (flavor : MQFlavor) (sizeofT : UInt64)
    (desc : aidl.MQDescriptor) (resetPointers : Bool),
    desc.FdsInRange os flavor sizeofT resetPointers := by
  intro all
  let desc : aidl.MQDescriptor := ⟨[⟨0, 0, 8⟩, ⟨1, 8, 8⟩, ⟨0, 16, 40⟩], ⟨[3], [5]⟩, 4, 1⟩
  let mq : MessageQueueBase :=
    ⟨some ⟨[⟨0, 0, 0, 8⟩, ⟨0, 1, 8, 8⟩, ⟨0, 0, 16, 40⟩], some ⟨[3], [5]⟩, 4, 1⟩,
      some 0x10010, some 0x10000, some 0x10008, none, some 0, some 0⟩
  have constructed : (Source.mqDescriptor desc true).construct .generous .kSynchronizedReadWrite 4 =
      .ok mq := by decide
  have inRange := all .generous .kSynchronizedReadWrite 4 desc true
  -- The queue is valid all the same.
  have invalid := inRange.rejected mq constructed fun within =>
    absurd (within WRITEPTRPOS (by decide) ⟨1, 8, 8⟩ rfl).2 (by decide)
  cases invalid

end aidl.MQDescriptor
end Fmq
