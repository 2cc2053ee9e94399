import Fmq.Properties.Copies

/-!
# Ranges of a transaction

Which ranges `copyTo` and `copyFrom` accept, and what they access, for transactions of any two
regions; then `getSlot` against a copy of one message, for granted transactions.
-/
namespace Fmq

open Cyclic Memory RecordRing

/-! ## One `memcpy` -/

/-- A copy into the ring reaches only the `count` messages from its base on. -/
theorem memcpyTo_within {base : Ptr} {offset : Nat} {count : UInt64} (ring : Ring)
    (bytes : List UInt8) (sizeofT : UInt64) (known : count ≠ 0 → base = ⟨.ring, offset⟩) :
    ∃ ring', memcpyTo ring base bytes sizeofT count = .ok ring' ∧
      ∀ x, (x < offset ∨ offset + count.toNat * sizeofT.toNat ≤ x) → ring' x = ring x := by
  unfold memcpyTo
  split
  next => exact ⟨ring, rfl, fun _ _ => rfl⟩
  next some_count =>
    rw [known some_count]
    refine ⟨_, rfl, fun x apart => store_outside _ _ _ _ ?_⟩
    -- The number of bytes may wrap, and then it is smaller still.
    have bytes_le : (count * sizeofT).toNat ≤ count.toNat * sizeofT.toNat := by
      rw [UInt64.toNat_mul]
      exact Nat.mod_le _ _
    rw [List.length_take]
    dsimp only
    omega

/-- A copy out of the ring depends only on the `count` messages from its base on. -/
theorem memcpyFrom_within {base : Ptr} {offset : Nat} {count : UInt64} (ring : Ring)
    (sizeofT : UInt64) (known : count ≠ 0 → base = ⟨.ring, offset⟩) :
    ∃ bytes, memcpyFrom ring base sizeofT count = .ok bytes ∧
      ∀ ring', (∀ x, offset ≤ x → x < offset + count.toNat * sizeofT.toNat → ring' x = ring x) →
        memcpyFrom ring' base sizeofT count = .ok bytes := by
  unfold memcpyFrom
  split
  next => exact ⟨[], rfl, fun _ _ => rfl⟩
  next some_count =>
    rw [known some_count]
    refine ⟨_, rfl, fun ring' same => congrArg Except.ok (load_congr _ _ _ _ ?_)⟩
    intro x lower upper
    have bytes_le : (count * sizeofT).toNat ≤ count.toNat * sizeofT.toNat := by
      rw [UInt64.toNat_mul]
      exact Nat.mod_le _ _
    dsimp only at lower upper
    exact same x lower (by omega)

namespace MemTransaction

variable (tx : MemTransaction) (sizeofT startIdx nMessages : UInt64)

/-- The number of slots of both regions. -/
def slots : Nat := tx.first.length.toNat + tx.second.length.toNat

/-- The regions that have slots lie in the ring. -/
def Mapped : Prop :=
  (tx.first.length ≠ 0 → tx.first.address.block = .ring) ∧
    (tx.second.length ≠ 0 → tx.second.address.block = .ring)

/-- The byte `x` belongs to a slot of the transaction. -/
def Covers (s x : Nat) : Prop :=
  ∃ i < tx.slots, tx.slotOffset s i ≤ x ∧ x < tx.slotOffset s i + s

/-- The range is a range of slots. -/
def Inside : Prop := startIdx.toNat + nMessages.toNat ≤ tx.slots

/-- `copyTo` and `copyFrom` return `true` exactly for ranges of slots, and whatever they return,
they store to the bytes of slots only, and read no others. -/
structure AcceptsInside : Prop where
  copyTo : ∀ ring data, ∃ ok ring',
    tx.copyTo sizeofT ring (some data) startIdx nMessages = .ok (ok, ring') ∧
    (ok = true ↔ tx.Inside startIdx nMessages) ∧
    ∀ x, ¬ tx.Covers sizeofT.toNat x → ring' x = ring x
  copyFrom : ∀ ring, ∃ copied, tx.copyFrom sizeofT ring true startIdx nMessages = .ok copied ∧
    (copied.isSome = true ↔ tx.Inside startIdx nMessages) ∧
    ∀ ring', (∀ x, tx.Covers sizeofT.toNat x → ring' x = ring x) →
      tx.copyFrom sizeofT ring' true startIdx nMessages = .ok copied

variable {tx sizeofT startIdx nMessages}

theorem covers_first {s k n x : Nat} (room : k + n ≤ tx.first.length.toNat)
    (lower : tx.first.address.offset + k * s ≤ x)
    (upper : x < tx.first.address.offset + k * s + n * s) : tx.Covers s x := by
  obtain ⟨j, below, from_j, to_j⟩ := exists_record lower upper
  refine ⟨k + j, by unfold slots; omega, ?_⟩
  rw [slotOffset, if_pos (by omega), Nat.add_mul]
  omega

theorem covers_second {s k n x : Nat} (room : k + n ≤ tx.second.length.toNat)
    (lower : tx.second.address.offset + k * s ≤ x)
    (upper : x < tx.second.address.offset + k * s + n * s) : tx.Covers s x := by
  obtain ⟨j, below, from_j, to_j⟩ := exists_record lower upper
  refine ⟨tx.first.length.toNat + (k + j), by unfold slots; omega, ?_⟩
  rw [slotOffset, if_neg (by omega), Nat.add_sub_cancel_left, Nat.add_mul]
  omega

/-- `getMemRegionInfo` compares `size_t` sums. -/
theorem getMemRegionInfo_eq_none_iff (total : tx.slots < 2 ^ 64) :
    tx.getMemRegionInfo sizeofT startIdx nMessages = none ↔
      tx.slots < (startIdx.toNat + nMessages.toNat) % 2 ^ 64 := by
  have lengths : (tx.first.length + tx.second.length).toNat = tx.slots := by
    rw [UInt64.toNat_add]
    exact Nat.mod_eq_of_lt total
  have test : startIdx + nMessages > tx.first.length + tx.second.length ↔
      tx.slots < (startIdx.toNat + nMessages.toNat) % 2 ^ 64 := by
    rw [gt_iff_lt, UInt64.lt_iff_toNat_lt, lengths, UInt64.toNat_add]
  unfold getMemRegionInfo
  dsimp only
  split
  next refused => simpa using test.mp refused
  next accepted => simpa using fun beyond => accepted (test.mpr beyond)

/-- Once the range passes the test, the copy does not return `false`. -/
theorem copyTo_of_info {ring ring' : Ring} {data : List UInt8} {ok : Bool} {info : MemRegionInfo}
    (accepted : tx.getMemRegionInfo sizeofT startIdx nMessages = some info)
    (copied : tx.copyTo sizeofT ring (some data) startIdx nMessages = .ok (ok, ring')) :
    ok = true := by
  unfold copyTo at copied
  simp only [accepted] at copied
  obtain ⟨front, -, copied⟩ := bind_eq_ok.mp copied
  obtain ⟨back, -, copied⟩ := bind_eq_ok.mp copied
  cases copied
  rfl

/-- A sum that wraps below the number of slots. -/
theorem not_acceptsInside (total : tx.slots < 2 ^ 64)
    (wraps : 2 ^ 64 ≤ startIdx.toNat + nMessages.toNat)
    (small : (startIdx.toNat + nMessages.toNat) % 2 ^ 64 ≤ tx.slots) :
    ¬ tx.AcceptsInside sizeofT startIdx nMessages := by
  intro accepts
  obtain ⟨ok, ring', copied, meaning, -⟩ := accepts.copyTo (fun _ => 0) []
  have outside : ¬ tx.Inside startIdx nMessages := by
    unfold Inside
    omega
  cases info : tx.getMemRegionInfo sizeofT startIdx nMessages with
  | none => exact absurd ((getMemRegionInfo_eq_none_iff total).mp info) (Nat.not_lt.mpr small)
  | some _ => exact outside (meaning.mp (copyTo_of_info info copied))

theorem acceptsInside_outside (outside : ¬ tx.Inside startIdx nMessages)
    (refused : tx.getMemRegionInfo sizeofT startIdx nMessages = none) :
    tx.AcceptsInside sizeofT startIdx nMessages where
  copyTo ring data :=
    ⟨false, ring, by simp only [MemTransaction.copyTo, refused], by simp [outside], fun _ _ => rfl⟩
  copyFrom ring :=
    ⟨none, by simp [MemTransaction.copyFrom, refused], by simp [outside],
      fun _ _ => by simp [MemTransaction.copyFrom, refused]⟩

/-- A range of slots: where its two copies begin, and that they do not leave their regions. -/
theorem getMemRegionInfo_covered (sizeofT : UInt64) (mapped : tx.Mapped)
    (total : tx.slots < 2 ^ 64) (inside : tx.Inside startIdx nMessages) :
    ∃ info front back, tx.getMemRegionInfo sizeofT startIdx nMessages = some info ∧
      (info.firstCount ≠ 0 → info.firstBaseAddress = ⟨.ring, front⟩) ∧
      (info.secondCount ≠ 0 → info.secondBaseAddress = ⟨.ring, back⟩) ∧
      (∀ x, front ≤ x → x < front + info.firstCount.toNat * sizeofT.toNat →
        tx.Covers sizeofT.toNat x) ∧
      (∀ x, back ≤ x → x < back + info.secondCount.toNat * sizeofT.toNat →
        tx.Covers sizeofT.toNat x) := by
  obtain ⟨info, eq, first, second, firstBase, secondBase⟩ :=
    tx.getMemRegionInfo_inside sizeofT startIdx nMessages total inside
  unfold Inside slots at inside
  refine ⟨info, tx.first.address.offset + startIdx.toNat * sizeofT.toNat,
    tx.second.address.offset + (startIdx.toNat - tx.first.length.toNat) * sizeofT.toNat, eq,
    fun some_first => ?_, fun some_second => ?_, ?_, ?_⟩
  · have positive : info.firstCount.toNat ≠ 0 := fun zero => some_first (UInt64.toNat_inj.mp zero)
    have nonempty : tx.first.length ≠ 0 := by
      intro empty
      rw [empty, UInt64.toNat_zero] at first
      omega
    rw [firstBase some_first, Ptr.add, mapped.1 nonempty]
  · have positive : info.secondCount.toNat ≠ 0 :=
      fun zero => some_second (UInt64.toNat_inj.mp zero)
    have nonempty : tx.second.length ≠ 0 := by
      intro empty
      rw [empty, UInt64.toNat_zero] at inside
      omega
    rw [secondBase some_second, mapped.2 nonempty]
  · intro x lower upper
    by_cases before : startIdx.toNat ≤ tx.first.length.toNat
    · exact covers_first (by omega) lower upper
    · -- A range behind the first region takes nothing from it.
      rw [show info.firstCount.toNat = 0 by omega] at upper
      omega
  · intro x lower upper
    by_cases some_second : info.secondCount.toNat = 0
    · rw [some_second] at upper
      omega
    · exact covers_second (by omega) lower upper

theorem acceptsInside_inside (mapped : tx.Mapped) (total : tx.slots < 2 ^ 64)
    (inside : tx.Inside startIdx nMessages) : tx.AcceptsInside sizeofT startIdx nMessages := by
  obtain ⟨info, front, back, eq, firstBase, secondBase, firstCovered, secondCovered⟩ :=
    getMemRegionInfo_covered sizeofT mapped total inside
  constructor
  · intro ring data
    obtain ⟨ring₁, stored₁, frame₁⟩ := memcpyTo_within ring data sizeofT firstBase
    obtain ⟨ring₂, stored₂, frame₂⟩ := memcpyTo_within ring₁
      (data.drop (info.firstCount.toNat * sizeofT.toNat)) sizeofT secondBase
    refine ⟨true, ring₂, ?_, by simp [inside], ?_⟩
    · unfold MemTransaction.copyTo
      simp only [eq, stored₁, stored₂, bind, Except.bind, pure, Except.pure]
    · intro x uncovered
      rw [frame₂ x, frame₁ x]
      · by_contra between
        exact uncovered (firstCovered x (by omega) (by omega))
      · by_contra between
        exact uncovered (secondCovered x (by omega) (by omega))
  · intro ring
    obtain ⟨bytes₁, loaded₁, local₁⟩ := memcpyFrom_within ring sizeofT firstBase
    obtain ⟨bytes₂, loaded₂, local₂⟩ := memcpyFrom_within ring sizeofT secondBase
    refine ⟨some (bytes₁ ++ bytes₂), ?_, by simp [inside], fun ring' same => ?_⟩
    · unfold MemTransaction.copyFrom
      simp [eq, loaded₁, loaded₂, bind, Except.bind, pure, Except.pure]
    · have same₁ := local₁ ring' fun x lower upper => same x (firstCovered x lower upper)
      have same₂ := local₂ ring' fun x lower upper => same x (secondCovered x lower upper)
      unfold MemTransaction.copyFrom
      simp [eq, same₁, same₂, bind, Except.bind, pure, Except.pure]

variable (tx sizeofT startIdx nMessages)

/-- The ranges of slots are accepted, and no others, as long as the sum of the two arguments does
not wrap below the number of slots. -/
theorem acceptsInside_iff (mapped : tx.Mapped) (total : tx.slots < 2 ^ 64) :
    tx.AcceptsInside sizeofT startIdx nMessages ↔
      startIdx.toNat + nMessages.toNat < 2 ^ 64 ∨
        tx.slots < (startIdx.toNat + nMessages.toNat) % 2 ^ 64 := by
  constructor
  · intro accepts
    by_contra wrapped
    rw [not_or, Nat.not_lt, Nat.not_lt] at wrapped
    exact not_acceptsInside total wrapped.1 wrapped.2 accepts
  · intro condition
    by_cases inside : tx.Inside startIdx nMessages
    · exact acceptsInside_inside mapped total inside
    · refine acceptsInside_outside inside ((getMemRegionInfo_eq_none_iff total).mpr ?_)
      rcases condition with small | beyond
      · rw [Nat.mod_eq_of_lt small]
        exact Nat.not_le.mp inside
      · exact beyond

/-- The second of two slots. -/
theorem acceptsInside_iff_second :
    let tx : MemTransaction := ⟨⟨⟨.ring, 4⟩, 1⟩, ⟨⟨.ring, 0⟩, 1⟩⟩
    tx.AcceptsInside 4 1 1 :=
  (acceptsInside_iff ⟨⟨⟨.ring, 4⟩, 1⟩, ⟨⟨.ring, 0⟩, 1⟩⟩ 4 1 1 ⟨fun _ => rfl, fun _ => rfl⟩
    (by decide)).mpr (by decide)

/-- One message at the last index, of a transaction with one slot. -/
theorem not_acceptsInside_last :
    ¬ ∀ (tx : MemTransaction) sizeofT startIdx nMessages, tx.Mapped → tx.slots < 2 ^ 64 →
      tx.AcceptsInside sizeofT startIdx nMessages := fun all =>
  let tx : MemTransaction := ⟨⟨⟨.ring, 0⟩, 1⟩, .empty⟩
  have total : tx.slots < 2 ^ 64 := by decide
  not_acceptsInside total (by decide) (by decide)
    (all tx 1 0xFFFFFFFFFFFFFFFF 1 ⟨fun _ => rfl, fun nonempty => absurd rfl nonempty⟩ total)

variable {tx sizeofT}

/-! ## `getSlot` behind the last slot -/

end MemTransaction

/-! ## Slots of granted transactions -/

namespace Geometry

variable (g : Geometry) (flavor : MQFlavor)

/-- The transaction was granted for `n` messages, with some values of the counters. -/
def Granted (n : UInt64) (tx : MemTransaction) : Prop :=
  ∃ σ, (∃ old, (g.queue flavor).beginWrite σ n old = .ok (true, tx)) ∨
    ∃ σ', (g.queue flavor).beginRead σ n = .ok (true, tx, σ')

variable {g flavor} {n idx : UInt64} {tx : MemTransaction} {p : Nat}

theorem beginWrite_granted {σ : Storage} {old : MemTransaction}
    (granted : (g.queue flavor).beginWrite σ n old = .ok (true, tx)) :
    n.toNat ≤ g.N ∧ ∃ p, tx = g.transaction p n := by
  unfold Queue.beginWrite at granted
  rcases g.beginWriteWith_cases flavor ⟨σ.writePtr, σ.readPtr, σ.writePtr⟩ n old with
    ⟨_, eq⟩ | ⟨_, _, eq⟩ | ⟨accepts, _, eq⟩
  · simp [eq] at granted
  · simp [eq] at granted
  · rw [eq] at granted
    cases granted
    exact ⟨Nat.le_of_not_lt fun more => accepts (Or.inr more), _, rfl⟩

theorem beginRead_granted {σ σ' : Storage}
    (granted : (g.queue flavor).beginRead σ n = .ok (true, tx, σ')) :
    ∃ p, tx = g.transaction p n := by
  unfold Queue.beginRead at granted
  rcases g.beginReadWith_cases flavor ⟨σ.writePtr, σ.readPtr⟩ n with
    ⟨_, eq⟩ | ⟨_, _, _, eq⟩ | ⟨_, _, _, _, eq⟩ | ⟨_, _, _, _, eq⟩
  · simp [eq, bind, Except.bind, pure, Except.pure] at granted
  · simp [eq, bind, Except.bind, pure, Except.pure] at granted
  · simp [eq, bind, Except.bind, pure, Except.pure] at granted
  · simp only [eq, bind, Except.bind, pure, Except.pure, Except.ok.injEq, Prod.mk.injEq,
      true_and] at granted
    exact ⟨_, granted.1.symm⟩

theorem Granted.transaction (granted : g.Granted flavor n tx) : ∃ p, tx = g.transaction p n := by
  obtain ⟨σ, ⟨old, written⟩ | ⟨σ', read⟩⟩ := granted
  · exact (beginWrite_granted written).2
  · exact beginRead_granted read

variable (g flavor n idx tx)

end Geometry
end Fmq
