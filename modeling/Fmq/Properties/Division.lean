import Fmq.Properties.Accepted

/-!
# Division by zero

The divisors of the data path are `sizeof(T)`, the quantum and the data extent. A valid queue has
the first two positive; nothing makes the third one so.
-/
namespace Fmq

open MemTransaction

variable {α β : Type}

/-- The call does not divide by zero. -/
def NoDivision (x : Call α) : Prop := x ≠ .error .divideByZero

theorem noDivision_ok (a : α) : NoDivision (.ok a : Call α) := nofun

theorem NoDivision.bind {x : Call α} {f : α → Call β} (first : NoDivision x)
    (second : ∀ a, NoDivision (f a)) : NoDivision (x >>= f) := by
  cases x with
  | ok a => exact second a
  | error e =>
    intro divides
    cases divides
    exact first rfl

theorem NoDivision.ite {c : Prop} [Decidable c] {x y : Call α} (first : NoDivision x)
    (second : NoDivision y) : NoDivision (if c then x else y) := by
  split
  · exact first
  · exact second

theorem noDivision_div (a : UInt64) {b : UInt64} (pos : b ≠ 0) : NoDivision (div a b) := by
  rw [div_ok a pos]
  exact noDivision_ok _

theorem noDivision_mod (a : UInt64) {b : UInt64} (pos : b ≠ 0) : NoDivision (mod a b) := by
  rw [mod_ok a pos]
  exact noDivision_ok _

/-! ## Copies -/

theorem noDivision_memcpyTo (ring : Ring) (p : Ptr) (bytes : List UInt8)
    (sizeofT count : UInt64) : NoDivision (memcpyTo ring p bytes sizeofT count) := by
  unfold memcpyTo
  refine (noDivision_ok ring).ite ?_
  split <;> exact nofun

theorem noDivision_memcpyFrom (ring : Ring) (p : Ptr) (sizeofT count : UInt64) :
    NoDivision (memcpyFrom ring p sizeofT count) := by
  unfold memcpyFrom
  refine (noDivision_ok []).ite ?_
  split <;> exact nofun

theorem noDivision_copyTo (tx : MemTransaction) (sizeofT : UInt64) (ring : Ring)
    (data : Option (List UInt8)) (startIdx nMessages : UInt64) :
    NoDivision (tx.copyTo sizeofT ring data startIdx nMessages) := by
  unfold copyTo
  split
  next => exact noDivision_ok _
  next =>
    split
    next => exact noDivision_ok _
    next =>
      exact (noDivision_memcpyTo _ _ _ _ _).bind fun _ =>
        (noDivision_memcpyTo _ _ _ _ _).bind fun _ => noDivision_ok _

theorem noDivision_copyFrom (tx : MemTransaction) (sizeofT : UInt64) (ring : Ring)
    (hasData : Bool) (startIdx nMessages : UInt64) :
    NoDivision (tx.copyFrom sizeofT ring hasData startIdx nMessages) := by
  unfold copyFrom
  refine (noDivision_ok none).ite ?_
  split
  next => exact noDivision_ok _
  next =>
    exact (noDivision_memcpyFrom _ _ _ _).bind fun _ =>
      (noDivision_memcpyFrom _ _ _ _).bind fun _ => noDivision_ok _

/-! ## The data path -/

namespace Queue

variable {q : Queue}

/-- No call of the data path divides by zero, whatever its arguments and the counter values. -/
structure DivisionSafe (q : Queue) : Prop where
  availableToWrite : ∀ writePtr readPtr, NoDivision (q.availableToWrite writePtr readPtr)
  availableToRead : ∀ writePtr readPtr, NoDivision (q.availableToRead writePtr readPtr)
  getQuantumCount : NoDivision q.getQuantumCount
  beginWrite : ∀ loads nMessages old, NoDivision (q.beginWriteWith loads nMessages old)
  beginRead : ∀ loads nMessages, NoDivision (q.beginReadWith loads nMessages)
  write : ∀ σ data nMessages, NoDivision (q.write σ data nMessages)
  read : ∀ σ hasData nMessages, NoDivision (q.read σ hasData nMessages)

theorem noDivision_transactionFrom (sizeofT : q.sizeofT ≠ 0) (size : q.getSize ≠ 0)
    (ptr nMessages : UInt64) : NoDivision (q.transactionFrom ptr nMessages) :=
  (noDivision_mod ptr size).bind fun _ => (noDivision_div _ sizeofT).bind fun _ =>
    (noDivision_ok _).ite (noDivision_ok _)

theorem noDivision_getQuantumCount (quantum : q.getQuantum ≠ 0) : NoDivision q.getQuantumCount :=
  noDivision_div _ quantum

theorem noDivision_refusesWrite (sizeofT : q.sizeofT ≠ 0) (quantum : q.getQuantum ≠ 0)
    (loads : BeginWriteLoads) (nMessages : UInt64) :
    NoDivision (q.refusesWrite loads nMessages) := by
  -- The second operand of the disjunction, evaluated when the first one is false.
  have capacity : NoDivision (do return decide (nMessages > (← q.getQuantumCount))) :=
    (noDivision_getQuantumCount quantum).bind fun _ => noDivision_ok _
  unfold refusesWrite
  refine NoDivision.ite ?_ capacity
  exact (noDivision_div _ sizeofT).bind fun _ => (noDivision_ok true).ite capacity

theorem noDivision_beginWriteWith (sizeofT : q.sizeofT ≠ 0) (quantum : q.getQuantum ≠ 0)
    (size : q.getSize ≠ 0) (loads : BeginWriteLoads) (nMessages : UInt64) (old : MemTransaction) :
    NoDivision (q.beginWriteWith loads nMessages old) :=
  (noDivision_refusesWrite sizeofT quantum loads nMessages).bind fun _ =>
    (noDivision_ok _).ite ((noDivision_mod _ sizeofT).bind fun _ => (noDivision_ok _).ite
      ((noDivision_transactionFrom sizeofT size _ _).bind fun _ => noDivision_ok _))

theorem noDivision_beginReadWith (sizeofT : q.sizeofT ≠ 0) (size : q.getSize ≠ 0)
    (loads : BeginReadLoads) (nMessages : UInt64) :
    NoDivision (q.beginReadWith loads nMessages) :=
  (noDivision_mod _ sizeofT).bind fun _ => (noDivision_ok _).ite
    ((noDivision_mod _ sizeofT).bind fun _ => (noDivision_ok _).ite ((noDivision_ok _).ite
      ((noDivision_ok _).ite ((noDivision_transactionFrom sizeofT size _ _).bind fun _ =>
        noDivision_ok _))))

theorem noDivision_write (sizeofT : q.sizeofT ≠ 0) (quantum : q.getQuantum ≠ 0)
    (size : q.getSize ≠ 0) (σ : Storage) (data : Option (List UInt8)) (nMessages : UInt64) :
    NoDivision (q.write σ data nMessages) :=
  (noDivision_beginWriteWith sizeofT quantum size _ _ _).bind fun _ => (noDivision_ok _).ite
    ((noDivision_copyTo _ _ _ _ _ _).bind fun _ => (noDivision_ok _).ite (noDivision_ok _))

theorem noDivision_read (sizeofT : q.sizeofT ≠ 0) (size : q.getSize ≠ 0) (σ : Storage)
    (hasData : Bool) (nMessages : UInt64) : NoDivision (q.read σ hasData nMessages) := by
  have begun : NoDivision (q.beginRead σ nMessages) :=
    (noDivision_beginReadWith sizeofT size _ _).bind fun _ => noDivision_ok _
  refine begun.bind fun _ => (noDivision_ok _).ite ?_
  refine (noDivision_copyFrom _ _ _ _ _ _).bind fun copied => ?_
  split <;> exact noDivision_ok _

/-- An empty ring: the zero-message write passes every check. -/
theorem beginWriteWith_empty (sizeofT : q.sizeofT ≠ 0) (quantum : q.getQuantum ≠ 0)
    (empty : q.getSize = 0) (old : MemTransaction) :
    q.beginWriteWith ⟨0, 0, 0⟩ 0 old = .error .divideByZero := by
  -- No free space, no capacity, and no message: neither comparison is true.
  have accepts : q.refusesWrite ⟨0, 0, 0⟩ 0 = .ok false := by
    unfold refusesWrite availableToWrite getQuantumCount
    rw [div_ok _ sizeofT, div_ok _ quantum, empty, UInt64.zero_div]
    simp [bind, Except.bind, pure, Except.pure]
  have aligned : mod 0 q.sizeofT = .ok 0 := by
    rw [mod_ok _ sizeofT, UInt64.zero_mod]
  -- `writePtr % mDesc->getSize()`.
  have offset : mod 0 q.getSize = .error .divideByZero := if_pos empty
  unfold beginWriteWith transactionFrom
  simp only [accepts, aligned, offset, bind, Except.bind, ne_eq, not_true_eq_false, if_false,
    Bool.false_eq_true]

theorem divisionSafe_iff (sizeofT : q.sizeofT ≠ 0) (quantum : q.getQuantum ≠ 0) :
    q.DivisionSafe ↔ q.getSize ≠ 0 := by
  constructor
  · intro safe empty
    exact safe.beginWrite ⟨0, 0, 0⟩ 0 .empty (beginWriteWith_empty sizeofT quantum empty _)
  · intro size
    exact {
      availableToWrite := fun _ _ => noDivision_div _ sizeofT
      availableToRead := fun _ _ => noDivision_div _ sizeofT
      getQuantumCount := noDivision_getQuantumCount quantum
      beginWrite := noDivision_beginWriteWith sizeofT quantum size
      beginRead := noDivision_beginReadWith sizeofT size
      write := noDivision_write sizeofT quantum size
      read := noDivision_read sizeofT size }

end Queue

/-! ## Every way to build a queue -/

/-- The data grantor that the queue is built with is not empty. -/
def Source.Nonempty : Source → Prop
  | .numElements numElementsInQueue .. => numElementsInQueue ≠ 0
  | .mqDescriptor desc _ =>
    ∃ grantor, desc.grantors[details.DATAPTRPOS]? = some grantor ∧ grantor.extent ≠ 0
  | .descriptor desc _ => desc.getSize ≠ 0

variable {os : Platform} {flavor : MQFlavor} {sizeofT : UInt64}

namespace AidlMQDescriptorShim

/-- A shim with a handle comes from a descriptor without negative values. -/
theorem ofMQDescriptor_extents {desc : aidl.MQDescriptor}
    (handle : (ofMQDescriptor os desc).isHandleValid = true) :
    (ofMQDescriptor os desc).mGrantors.map (·.extent) =
      desc.grantors.map (·.extent.toUInt64) := by
  rw [ofMQDescriptor_eq handle, List.map_map]
  rfl

theorem getSize_ofMQDescriptor {desc : aidl.MQDescriptor} {resetPointers : Bool}
    (handle : (ofMQDescriptor os desc).isHandleValid = true) :
    (ofMQDescriptor os desc).getSize ≠ 0 ↔ (Source.mqDescriptor desc resetPointers).Nonempty := by
  have third := congrArg (·[details.DATAPTRPOS]?) (ofMQDescriptor_extents handle)
  simp only [List.getElem?_map] at third
  unfold getSize Source.Nonempty
  cases known : desc.grantors[details.DATAPTRPOS]? with
  | none =>
    rw [known, Option.map_none, Option.map_eq_none_iff] at third
    simp [third, known]
  | some grantor =>
    rw [known, Option.map_some, Option.map_eq_some_iff] at third
    obtain ⟨grantor', known', extent⟩ := third
    -- The conversion between the two integer types keeps zero.
    have zero : grantor.extent.toUInt64 = 0 ↔ grantor.extent = 0 :=
      ⟨congrArg Int64.ofUInt64, congrArg Int64.toUInt64⟩
    simp [known, known', extent, zero]

end AidlMQDescriptorShim

/-- A valid queue has the quantum of its payload type, and its data extent is zero only if it
was built that way. -/
theorem construct_valid {source : Source} {mq : MessageQueueBase} (pos : sizeofT ≠ 0)
    (constructed : source.construct os flavor sizeofT = .ok mq) (valid : mq.isValid = true) :
    ∃ desc, mq.mDesc = some desc ∧ desc.getQuantum = sizeofT ∧
      (desc.getSize ≠ 0 ↔ source.Nonempty) := by
  cases source with
  | numElements numElementsInQueue configureEventFlagWord bufferFd bufferSize =>
    obtain ⟨bytes, desc, initialized, size⟩ :=
      MessageQueueBase.ofNumElements_valid pos constructed valid
    have product : desc.getSize.toNat = numElementsInQueue.toNat * sizeofT.toNat := by
      rw [size, UInt64.toNat_mul, Nat.mod_eq_of_lt bytes]
    refine ⟨desc, initialized.mDesc, initialized.quantum, not_congr ?_⟩
    rw [← UInt64.toNat_inj, ← UInt64.toNat_inj, product, UInt64.toNat_zero, Nat.mul_eq_zero]
    -- The product did not wrap, so it is zero only if a factor is.
    exact or_iff_left fun zero => pos (UInt64.toNat_inj.mp zero)
  | mqDescriptor desc resetPointers =>
    obtain ⟨desc', copied, initialized⟩ := MessageQueueBase.ofDescriptor_valid constructed valid
    -- A valid queue has a handle, so its shim was converted to the end.
    have handle := (AidlMQDescriptorShim.copy_eq_ok copied).2.symm.trans initialized.handle
    refine ⟨desc', initialized.mDesc, initialized.quantum, ?_⟩
    rw [AidlMQDescriptorShim.copy_getSize copied]
    exact AidlMQDescriptorShim.getSize_ofMQDescriptor handle
  | descriptor desc resetPointers =>
    obtain ⟨desc', copied, initialized⟩ := MessageQueueBase.ofDescriptor_valid constructed valid
    refine ⟨desc', initialized.mDesc, initialized.quantum, ?_⟩
    rw [AidlMQDescriptorShim.copy_getSize copied]
    rfl

/-- A valid queue never divides by zero exactly when its data grantor is not empty. -/
theorem divisionSafe_iff_nonempty (source : Source) (mq : MessageQueueBase) (pos : sizeofT ≠ 0)
    (constructed : source.construct os flavor sizeofT = .ok mq) (valid : mq.isValid = true) :
    ∃ q, mq.queue flavor sizeofT = some q ∧ (q.DivisionSafe ↔ source.Nonempty) := by
  obtain ⟨desc, mDesc, quantum, nonempty⟩ := construct_valid pos constructed valid
  refine ⟨⟨flavor, sizeofT, desc.getSize, desc.getQuantum⟩, ?_, ?_⟩
  · rw [MessageQueueBase.queue, mDesc]
    rfl
  · rw [← nonempty]
    exact Queue.divisionSafe_iff pos (quantum ▸ pos)

/-- Ten elements of four bytes and an event flag word. -/
theorem divisionSafe_iff_nonempty_ten : ∃ mq q,
    (Source.numElements 10 true (-1) 0).construct .generous .kSynchronizedReadWrite 4 = .ok mq ∧
      mq.isValid = true ∧ mq.queue .kSynchronizedReadWrite 4 = some q ∧ q.DivisionSafe := by
  let desc : AidlMQDescriptorShim :=
    ⟨[⟨0, 0, 0, 8⟩, ⟨0, 0, 8, 8⟩, ⟨0, 0, 16, 40⟩, ⟨0, 0, 56, 4⟩], some ⟨[3], []⟩, 4, 1⟩
  let mq : MessageQueueBase :=
    ⟨desc, some 0x10010, some 0x10000, some 0x10008, some 0x10038, some 0, some 0⟩
  have constructed : (Source.numElements 10 true (-1) 0).construct .generous
      .kSynchronizedReadWrite 4 = .ok mq := by decide
  have nonempty : (Source.numElements 10 true (-1) 0).Nonempty := (by decide : (10 : UInt64) ≠ 0)
  obtain ⟨q, known, iff⟩ := divisionSafe_iff_nonempty _ mq (by decide) constructed rfl
  exact ⟨mq, q, constructed, rfl, known, iff.mpr nonempty⟩

/-- `mmap` succeeds for any positive length. -/
def Platform.MapsPositive (os : Platform) : Prop :=
  ∀ length fd offset, 0 < length → (os.mmap length fd offset).isSome = true

/-- A queue of no elements is valid, and divides by its size. -/
theorem not_divisionSafe : ¬ ∀ (os : Platform) (flavor : MQFlavor) (sizeofT : UInt64)
    (source : Source) (mq : MessageQueueBase) (q : Queue), os.MapsPositive → sizeofT ≠ 0 →
    source.construct os flavor sizeofT = .ok mq → mq.isValid = true →
    mq.queue flavor sizeofT = some q → q.DivisionSafe := by
  intro all
  let desc : AidlMQDescriptorShim :=
    ⟨[⟨0, 0, 0, 8⟩, ⟨0, 0, 8, 8⟩, ⟨0, 0, 16, 0⟩], some ⟨[3], []⟩, 4, 1⟩
  let mq : MessageQueueBase :=
    ⟨desc, some 0x10010, some 0x10000, some 0x10008, none, some 0, some 0⟩
  have constructed : (Source.numElements 0 false (-1) 0).construct .generous
      .kSynchronizedReadWrite 4 = .ok mq := by decide
  have maps : Platform.generous.MapsPositive := by
    intro length fd offset positive
    simp [Platform.generous, positive]
  have safe := all _ _ _ _ mq _ maps (by decide) constructed rfl rfl
  exact safe.beginWrite ⟨0, 0, 0⟩ 0 .empty
    (Queue.beginWriteWith_empty (by decide) (by decide) rfl _)

end Fmq
