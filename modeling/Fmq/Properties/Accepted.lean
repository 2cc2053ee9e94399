import Fmq.Model.Construction

/-!
# The queues that the library accepts

What `isValid()` says about a queue, whichever way it was built: its descriptor is complete, its
quantum is the size of the payload type, and its data extent is the one that was asked for.
-/
namespace Fmq

open details

variable {α β : Type} {os : Platform} {flavor : MQFlavor} {sizeofT : UInt64}

theorem check_eq_ok {exp : Bool} {message : String} {u : Unit} :
    check exp message = .ok u ↔ exp = true := by
  unfold check
  split
  next holds => simp [holds]
  next fails => simp [fails]

/-! ## Descriptors -/

namespace AidlMQDescriptorShim

/-- The copy has the grantors of the original, and a handle if that has one. -/
theorem copy_eq_ok {desc desc' : AidlMQDescriptorShim} (copied : desc.copy os = .ok desc') :
    desc'.mGrantors = desc.mGrantors ∧ desc'.isHandleValid = desc.isHandleValid := by
  unfold copy at copied
  split at copied
  next missing =>
    cases copied
    exact ⟨rfl, by simp [isHandleValid, missing]⟩
  next handle present =>
    split at copied
    next =>
      cases copied
      exact ⟨rfl, by simp [isHandleValid, present]⟩
    next => cases copied

/-- None of the values that have to be positive is negative. -/
structure Nonnegative (grantor : aidl.GrantorDescriptor) : Prop where
  offset : 0 ≤ grantor.offset
  extent : 0 ≤ grantor.extent
  fdIndex : 0 ≤ grantor.fdIndex

/-- The same values in unsigned fields. -/
def converted (grantor : aidl.GrantorDescriptor) : GrantorDescriptor :=
  ⟨0, grantor.fdIndex.toUInt32, grantor.offset.toUInt32, grantor.extent.toUInt64⟩

theorem grantorOf_eq_some {grantor : aidl.GrantorDescriptor} {grantor' : GrantorDescriptor} :
    grantorOf grantor = some grantor' ↔ Nonnegative grantor ∧ converted grantor = grantor' := by
  unfold grantorOf
  split
  next negative =>
    refine iff_of_false nofun ?_
    rintro ⟨⟨offset, extent, fdIndex⟩, -⟩
    rw [← Int32.not_lt] at offset fdIndex
    rw [← Int64.not_lt] at extent
    exact negative.elim offset (Or.rec extent fdIndex)
  next positive =>
    rw [not_or, not_or, Int32.not_lt, Int64.not_lt, Int32.not_lt] at positive
    rw [Option.some.injEq]
    exact ⟨fun same => ⟨⟨positive.1, positive.2.1, positive.2.2⟩, same⟩, And.right⟩

/-- The loop completes if and only if nothing is negative, and then has converted everything. -/
theorem grantorsOf_completes (grantors : List aidl.GrantorDescriptor) :
    ((grantorsOf grantors).2 = true ↔ ∀ grantor ∈ grantors, Nonnegative grantor) ∧
      ((grantorsOf grantors).2 = true → (grantorsOf grantors).1 = grantors.map converted) := by
  induction grantors with
  | nil => exact ⟨⟨nofun, fun _ => rfl⟩, fun _ => rfl⟩
  | cons grantor rest ih =>
    unfold grantorsOf
    cases first : grantorOf grantor with
    | none =>
      refine ⟨iff_of_false Bool.false_ne_true ?_, nofun⟩
      intro all
      have some := grantorOf_eq_some.mpr ⟨all grantor List.mem_cons_self, rfl⟩
      cases first.symm.trans some
    | some grantor' =>
      obtain ⟨nonnegative, rfl⟩ := grantorOf_eq_some.mp first
      refine ⟨?_, fun positive => ?_⟩
      · rw [List.forall_mem_cons]
        exact ih.1.trans (and_iff_right nonnegative).symm
      · rw [List.map_cons, ← ih.2 positive]

/-- A shim with a handle comes from a descriptor without negative values. -/
theorem ofMQDescriptor_valid {desc : aidl.MQDescriptor} :
    (ofMQDescriptor os desc).isHandleValid = true ↔
      0 ≤ desc.quantum ∧ 0 ≤ desc.flags ∧ (∀ grantor ∈ desc.grantors, Nonnegative grantor) ∧
        os.nativeHandleCreate desc.handle.fds.length desc.handle.ints.length = true := by
  unfold ofMQDescriptor
  dsimp only
  split
  next negative =>
    rw [← Int32.not_lt, ← Int32.not_lt]
    exact iff_of_false nofun fun valid => negative.elim valid.1 valid.2.1
  next positive =>
    rw [not_or, Int32.not_lt, Int32.not_lt] at positive
    rw [← (grantorsOf_completes desc.grantors).1]
    split
    next refused =>
      rw [Bool.not_eq_true', ← Bool.not_eq_true] at refused
      exact iff_of_false nofun fun valid => refused valid.2.2.1
    next complete =>
      rw [Bool.not_eq_true', Bool.not_eq_false] at complete
      split
      next created => exact iff_of_true rfl ⟨positive.1, positive.2, complete, created⟩
      next failed => exact iff_of_false nofun fun valid => failed valid.2.2.2

theorem ofMQDescriptor_eq {desc : aidl.MQDescriptor}
    (valid : (ofMQDescriptor os desc).isHandleValid = true) :
    ofMQDescriptor os desc =
      ⟨desc.grantors.map converted, some ⟨desc.handle.fds.map os.dup, desc.handle.ints⟩,
        desc.quantum.toUInt32, desc.flags.toUInt32⟩ := by
  obtain ⟨quantum, flags, nonnegative, created⟩ := ofMQDescriptor_valid.mp valid
  have complete := (grantorsOf_completes desc.grantors).1.mpr nonnegative
  unfold ofMQDescriptor
  dsimp only
  rw [if_neg (by rw [not_or, Int32.not_lt, Int32.not_lt]; exact ⟨quantum, flags⟩),
    if_neg (by rw [complete]; decide), if_pos created, (grantorsOf_completes _).2 complete]

theorem copy_getSize {desc desc' : AidlMQDescriptorShim} (copied : desc.copy os = .ok desc') :
    desc'.getSize = desc.getSize := by
  rw [getSize, getSize, (copy_eq_ok copied).1]

/-- The loop gives every grantor its own size. -/
theorem contiguousGrantors_extents {offset : UInt64} {sizes : List UInt64}
    {grantors : List GrantorDescriptor}
    (built : contiguousGrantors offset sizes = .ok grantors) :
    grantors.map (·.extent) = sizes := by
  induction sizes generalizing offset grantors with
  | nil =>
    cases built
    rfl
  | cons size sizes ih =>
    obtain ⟨aligned, -, built⟩ := bind_eq_ok.mp built
    obtain ⟨rest, restBuilt, built⟩ := bind_eq_ok.mp built
    cases built
    rw [List.map_cons, ih restBuilt]

/-- The data grantor is the third one. -/
theorem getSize_of_extents {desc : AidlMQDescriptorShim} {bufferSize : UInt64}
    {configureEventFlag : Bool}
    (extents : desc.mGrantors.map (·.extent) =
      (memSize bufferSize).take (grantorCount configureEventFlag)) :
    desc.getSize = bufferSize := by
  -- Both lists have the data size in third place, with or without an event flag word.
  have third := congrArg (·[DATAPTRPOS]?) extents
  have value : ((memSize bufferSize).take (grantorCount configureEventFlag))[DATAPTRPOS]? =
      some bufferSize := by
    cases configureEventFlag <;> rfl
  rw [List.getElem?_map, value, Option.map_eq_some_iff] at third
  obtain ⟨grantor, known, extent⟩ := third
  unfold getSize
  rw [known]
  exact extent

theorem ofBufferSize_getSize {bufferSize messageSize : UInt64} {nHandle : Option NativeHandle}
    {configureEventFlag : Bool} {desc : AidlMQDescriptorShim}
    (built : ofBufferSize flavor bufferSize nHandle messageSize configureEventFlag = .ok desc)
    (grantors : kMinGrantorCount ≤ desc.countGrantors) : desc.getSize = bufferSize := by
  unfold ofBufferSize at built
  obtain ⟨largestOffset, -, built⟩ := bind_eq_ok.mp built
  split at built
  next =>
    cases built
    -- The refused size leaves the list of grantors empty.
    exact absurd grantors (Nat.not_succ_le_zero 2)
  next =>
    obtain ⟨mGrantors, laid, built⟩ := bind_eq_ok.mp built
    cases built
    exact getSize_of_extents (contiguousGrantors_extents laid)

end AidlMQDescriptorShim

/-! ## Queues -/

namespace MessageQueueBase

/-- A valid queue did not come out of an early return. -/
theorem not_refused {refused : Prop} [Decidable refused] {desc : Option AidlMQDescriptorShim}
    {rest : Call MessageQueueBase} {mq : MessageQueueBase}
    (done : (if refused then pure (withDesc desc) else rest) = .ok mq)
    (valid : mq.isValid = true) : ¬ refused ∧ rest = .ok mq := by
  split at done
  next =>
    cases done
    cases valid
  next accepted => exact ⟨accepted, done⟩

/-- A queue with a descriptor did not come out of one of the early returns of a constructor. -/
theorem not_returned {refused : Prop} [Decidable refused] {desc : AidlMQDescriptorShim}
    {rest : Call MessageQueueBase} {mq : MessageQueueBase}
    (done : (if refused then pure (withDesc none) else rest) = .ok mq)
    (mDesc : mq.mDesc = some desc) : ¬ refused ∧ rest = .ok mq := by
  split at done
  next =>
    cases done
    cases mDesc
  next accepted => exact ⟨accepted, done⟩

/-- What `initMemory` has checked when it leaves a valid object. -/
structure Initialized (mq : MessageQueueBase) (sizeofT : UInt64) (desc : AidlMQDescriptorShim)
    (resetPointers : Bool) : Prop where
  mDesc : mq.mDesc = some desc
  handle : desc.isHandleValid = true
  grantors : kMinGrantorCount ≤ desc.countGrantors
  quantum : desc.getQuantum = sizeofT
  aligned : ∀ grantor ∈ desc.mGrantors, isAlignedToWordBoundary grantor.offset.toUInt64 = true
  reset : resetPointers = true → mq.readStored = some 0 ∧ mq.writeStored = some 0

/-- A mapping that is checked for a null pointer before the rest of the constructor. -/
theorem mapped_of_ok {α : Type} {x : Call (Option Nat)} {message : String}
    {rest : Option Nat → Call α} {a : α}
    (done : (x >>= fun p => check p.isSome message >>= fun _ => rest p) = .ok a) :
    ∃ address, x = .ok (some address) ∧ rest (some address) = .ok a := by
  obtain ⟨p, mapped, done⟩ := bind_eq_ok.mp done
  obtain ⟨_, some, done⟩ := bind_eq_ok.mp done
  rw [check_eq_ok, Option.isSome_iff_exists] at some
  obtain ⟨address, rfl⟩ := some
  exact ⟨address, mapped, done⟩

/-- What `initMemory` has done when it gets to its end. -/
structure Completed (os : Platform) (flavor : MQFlavor) (sizeofT : UInt64)
    (desc : AidlMQDescriptorShim) (resetPointers : Bool) (mq : MessageQueueBase) : Prop where
  valid : mq.isValid = true
  initialized : mq.Initialized sizeofT desc resetPointers
  readPtr : ∃ address, mapReadPtr os flavor desc = .ok (some address)
  writePtr : ∃ address, mapGrantorDescr os desc WRITEPTRPOS = .ok (some address)
  ring : ∃ address, mapGrantorDescr os desc DATAPTRPOS = .ok (some address)
  evFlagWord : desc.countGrantors > EVFLAGWORDPOS →
    ∃ address, mapGrantorDescr os desc EVFLAGWORDPOS = .ok (some address)
  readStored : mq.readStored =
    if resetPointers = true ∨ flavor ≠ .kSynchronizedReadWrite then some 0 else none
  writeStored : mq.writeStored = if resetPointers = true then some 0 else none

/-- `initMemory` returns before the first mapping, or behind the last check. -/
theorem initMemory_cases {desc : AidlMQDescriptorShim} {resetPointers : Bool}
    {mq : MessageQueueBase} (done : initMemory os flavor sizeofT desc resetPointers = .ok mq) :
    ((desc.isHandleValid = false ∨ desc.countGrantors < kMinGrantorCount) ∨
        desc.getQuantum ≠ sizeofT) ∧ mq = withDesc desc ∨
      Completed os flavor sizeofT desc resetPointers mq := by
  unfold initMemory at done
  split at done
  next incomplete =>
    cases done
    exact .inl ⟨.inl incomplete, rfl⟩
  next complete =>
    split at done
    next mismatch =>
      cases done
      exact .inl ⟨.inr mismatch, rfl⟩
    next quantum =>
      right
      rw [not_or, Bool.not_eq_false, Nat.not_lt] at complete
      rw [ne_eq, not_not] at quantum
      obtain ⟨_, aligned, done⟩ := bind_eq_ok.mp done
      rw [check_eq_ok, List.all_eq_true] at aligned
      obtain ⟨readPtr, mappedRead, done⟩ := mapped_of_ok done
      obtain ⟨writePtr, mappedWrite, done⟩ := mapped_of_ok done
      obtain ⟨ring, mappedRing, done⟩ := mapped_of_ok done
      have reset : resetPointers = true →
          (if resetPointers = true ∨ flavor ≠ .kSynchronizedReadWrite then some 0 else none) =
            some (0 : UInt64) ∧
          (if resetPointers = true then some 0 else none) = some (0 : UInt64) :=
        fun set => ⟨if_pos (Or.inl set), if_pos set⟩
      split at done
      next =>
        obtain ⟨word, mappedWord, done⟩ := mapped_of_ok done
        cases done
        exact ⟨rfl, ⟨rfl, complete.1, complete.2, quantum, aligned, reset⟩, ⟨_, mappedRead⟩,
          ⟨_, mappedWrite⟩, ⟨_, mappedRing⟩, fun _ => ⟨_, mappedWord⟩, rfl, rfl⟩
      next absent =>
        cases done
        exact ⟨rfl, ⟨rfl, complete.1, complete.2, quantum, aligned, reset⟩, ⟨_, mappedRead⟩,
          ⟨_, mappedWrite⟩, ⟨_, mappedRing⟩, fun present => absurd present absent, rfl, rfl⟩

/-- A valid queue has gone through all of it. -/
theorem initMemory_completed {desc : AidlMQDescriptorShim} {resetPointers : Bool}
    {mq : MessageQueueBase} (done : initMemory os flavor sizeofT desc resetPointers = .ok mq)
    (valid : mq.isValid = true) : Completed os flavor sizeofT desc resetPointers mq := by
  rcases initMemory_cases done with ⟨-, rfl⟩ | completed
  · cases valid
  · exact completed

theorem initMemory_valid {desc : AidlMQDescriptorShim} {resetPointers : Bool}
    {mq : MessageQueueBase} (done : initMemory os flavor sizeofT desc resetPointers = .ok mq)
    (valid : mq.isValid = true) : mq.Initialized sizeofT desc resetPointers :=
  (initMemory_completed done valid).initialized

/-- The object keeps its descriptor, valid or not. -/
theorem initMemory_mDesc {desc : AidlMQDescriptorShim} {resetPointers : Bool}
    {mq : MessageQueueBase} (done : initMemory os flavor sizeofT desc resetPointers = .ok mq) :
    mq.mDesc = some desc := by
  rcases initMemory_cases done with ⟨-, rfl⟩ | completed
  · rfl
  · exact completed.initialized.mDesc

theorem ofDescriptor_done {desc : AidlMQDescriptorShim} {resetPointers : Bool}
    {mq : MessageQueueBase} (done : ofDescriptor os flavor sizeofT desc resetPointers = .ok mq)
    (valid : mq.isValid = true) :
    ∃ desc', desc.copy os = .ok desc' ∧
      initMemory os flavor sizeofT desc' resetPointers = .ok mq := by
  unfold ofDescriptor at done
  obtain ⟨-, done⟩ := not_refused done valid
  exact bind_eq_ok.mp done

theorem ofDescriptor_valid {desc : AidlMQDescriptorShim} {resetPointers : Bool}
    {mq : MessageQueueBase} (done : ofDescriptor os flavor sizeofT desc resetPointers = .ok mq)
    (valid : mq.isValid = true) :
    ∃ desc', desc.copy os = .ok desc' ∧ mq.Initialized sizeofT desc' resetPointers := by
  obtain ⟨desc', copied, done⟩ := ofDescriptor_done done valid
  exact ⟨desc', copied, initMemory_valid done valid⟩

theorem suppliedGrantors_extents {grantorPos : Nat} {offset : UInt64} {sizes : List UInt64}
    {grantors : List GrantorDescriptor}
    (built : suppliedGrantors grantorPos offset sizes = .ok grantors) :
    grantors.map (·.extent) = sizes := by
  induction sizes generalizing grantorPos offset grantors with
  | nil =>
    cases built
    rfl
  | cons size sizes ih =>
    unfold suppliedGrantors at built
    obtain ⟨aligned, -, built⟩ := bind_eq_ok.mp built
    obtain ⟨rest, restBuilt, built⟩ := bind_eq_ok.mp built
    cases built
    rw [List.map_cons, ih restBuilt]

/-- `numElementsInQueue <= SIZE_MAX / sizeof(T)`: the product does not wrap. -/
theorem product_lt {numElementsInQueue : UInt64}
    (fits : ¬ numElementsInQueue > 0xFFFFFFFFFFFFFFFF / sizeofT) :
    numElementsInQueue.toNat * sizeofT.toNat < 2 ^ 64 := by
  rw [gt_iff_lt, UInt64.lt_iff_toNat_lt, UInt64.toNat_div, Nat.not_lt] at fits
  have product := Nat.le_trans (Nat.mul_le_mul_right _ fits) (Nat.div_mul_le_self _ _)
  exact Nat.lt_succ_of_le product

/-- A valid queue of `numElementsInQueue` elements has room for exactly these. -/
theorem ofNumElements_valid {numElementsInQueue : UInt64} {configureEventFlagWord : Bool}
    {bufferFd : Int32} {bufferSize : UInt64} {mq : MessageQueueBase} (pos : sizeofT ≠ 0)
    (done : ofNumElements os flavor sizeofT numElementsInQueue configureEventFlagWord bufferFd
      bufferSize = .ok mq) (valid : mq.isValid = true) :
    numElementsInQueue.toNat * sizeofT.toNat < 2 ^ 64 ∧ ∃ desc, mq.Initialized sizeofT desc true ∧
      desc.getSize = numElementsInQueue * sizeofT := by
  unfold ofNumElements at done
  rw [div_ok _ pos] at done
  obtain ⟨most, quotient, done⟩ := bind_eq_ok.mp done
  cases quotient
  obtain ⟨fits, done⟩ := not_refused done valid
  obtain ⟨-, done⟩ := not_refused done valid
  obtain ⟨kAshmemSizePageAligned, -, done⟩ := bind_eq_ok.mp done
  obtain ⟨-, done⟩ := not_refused done valid
  refine ⟨product_lt fits, ?_⟩
  -- With a buffer descriptor, and without one.
  split at done
  next =>
    obtain ⟨grantors, laid, done⟩ := bind_eq_ok.mp done
    obtain ⟨-, done⟩ := not_refused done valid
    exact ⟨_, initMemory_valid done valid,
      AidlMQDescriptorShim.getSize_of_extents (suppliedGrantors_extents laid)⟩
  next =>
    obtain ⟨-, done⟩ := not_refused done valid
    obtain ⟨desc, built, done⟩ := bind_eq_ok.mp done
    have initialized := initMemory_valid done valid
    exact ⟨desc, initialized,
      AidlMQDescriptorShim.ofBufferSize_getSize built initialized.grantors⟩

end MessageQueueBase
end Fmq
