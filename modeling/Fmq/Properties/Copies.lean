import Fmq.Lib.RecordRing
import Fmq.Model.Endpoints
import Fmq.Properties.Regions

/-!
# Copies through a granted transaction

`copyTo` and `copyFrom` on the regions of the slots from position `p` on are one `put` and one
`window` of the ring of records, however the regions wrap.
-/
namespace Fmq

open Cyclic Memory RecordRing

/-- `getMemRegionInfo` on a range inside the transaction, in exact integers. -/
theorem MemTransaction.getMemRegionInfo_inside (tx : MemTransaction) (sizeofT start k : UInt64)
    (total : tx.first.length.toNat + tx.second.length.toNat < 2 ^ 64)
    (inside : start.toNat + k.toNat ≤ tx.first.length.toNat + tx.second.length.toNat) :
    ∃ info, tx.getMemRegionInfo sizeofT start k = some info ∧
      info.firstCount.toNat = min k.toNat (tx.first.length.toNat - start.toNat) ∧
      info.secondCount.toNat = k.toNat - info.firstCount.toNat ∧
      (info.firstCount ≠ 0 → info.firstBaseAddress = tx.first.address.add sizeofT start) ∧
      (info.secondCount ≠ 0 → info.secondBaseAddress =
        ⟨tx.second.address.block, tx.second.address.offset +
          (start.toNat - tx.first.length.toNat) * sizeofT.toNat⟩) := by
  have sum : (start + k).toNat = start.toNat + k.toNat := by rw [UInt64.toNat_add]; omega
  have lengths : (tx.first.length + tx.second.length).toNat =
      tx.first.length.toNat + tx.second.length.toNat := by rw [UInt64.toNat_add]; omega
  -- Neither sum wraps, so the test means what it says.
  have accepted : ¬ start + k > tx.first.length + tx.second.length := by
    rw [gt_iff_lt, UInt64.lt_iff_toNat_lt]
    omega
  have firstCount : (if start < tx.first.length then min k (tx.first.length - start)
      else 0).toNat = min k.toNat (tx.first.length.toNat - start.toNat) := by
    split
    next before =>
      rw [UInt64.lt_iff_toNat_lt] at before
      have left := UInt64.toNat_sub_of_le _ _ (UInt64.le_iff_toNat_le.mpr (Nat.le_of_lt before))
      have minimum : min k (tx.first.length - start) =
        if k ≤ tx.first.length - start then k else tx.first.length - start := rfl
      rw [minimum]
      split
      next le =>
        rw [UInt64.le_iff_toNat_le] at le
        omega
      next gt =>
        rw [UInt64.le_iff_toNat_le] at gt
        omega
    next after =>
      rw [UInt64.lt_iff_toNat_lt] at after
      rw [UInt64.toNat_zero]
      omega
  have secondStart : (if start > tx.first.length then start - tx.first.length else 0).toNat =
      start.toNat - tx.first.length.toNat := by
    split
    next beyond =>
      rw [gt_iff_lt, UInt64.lt_iff_toNat_lt] at beyond
      exact UInt64.toNat_sub_of_le _ _ (UInt64.le_iff_toNat_le.mpr (Nat.le_of_lt beyond))
    next before =>
      rw [gt_iff_lt, UInt64.lt_iff_toNat_lt] at before
      rw [UInt64.toNat_zero]
      omega
  unfold MemTransaction.getMemRegionInfo
  simp only [if_neg accepted]
  refine ⟨_, rfl, firstCount, ?_, ?_, ?_⟩
  · refine UInt64.toNat_sub_of_le _ _ ?_
    rw [UInt64.le_iff_toNat_le, firstCount]
    exact Nat.min_le_left _ _
  · intro some_first
    exact if_pos some_first
  · intro some_second
    dsimp only at some_second ⊢
    rw [if_pos some_second, Ptr.add, secondStart]

namespace Geometry

variable (g : Geometry)

/-- The message in the slot of stream position `p`. -/
abbrev slotAt (ring : Ring) (p : Nat) : Vector UInt8 g.s := peek g.s g.N ring p

/-- The bytes of at most `N` messages are counted without wrapping. -/
theorem bytes_lt {k : Nat} (capacity : k ≤ g.N) : k * g.s < 2 ^ 64 :=
  Nat.lt_of_le_of_lt (Nat.mul_le_mul_right _ capacity) g.fits

theorem toNat_mul_sizeofT (flavor : MQFlavor) (k : UInt64) (capacity : k.toNat ≤ g.N) :
    (k * (g.queue flavor).sizeofT).toNat = k.toNat * g.s := by
  rw [UInt64.toNat_mul, toNat_sizeofT, Nat.mod_eq_of_lt (g.bytes_lt capacity)]

/-- How a range of a granted transaction splits at the end of the ring. -/
theorem getMemRegionInfo_transaction (flavor : MQFlavor) (p : Nat) (n start k : UInt64)
    (capacity : n.toNat ≤ g.N) (inside : start.toNat + k.toNat ≤ n.toNat) :
    ∃ info, (g.transaction p n).getMemRegionInfo (g.queue flavor).sizeofT start k = some info ∧
      info.firstCount.toNat + info.secondCount.toNat = k.toNat ∧
      (info.firstCount ≠ 0 →
        info.firstBaseAddress = ⟨.ring, slot g.s g.N (p + start.toNat)⟩) ∧
      (p + start.toNat) % g.N + info.firstCount.toNat ≤ g.N ∧
      (info.secondCount ≠ 0 → info.secondBaseAddress =
        ⟨.ring, slot g.s g.N (p + start.toNat + info.firstCount.toNat)⟩) ∧
      (p + start.toNat + info.firstCount.toNat) % g.N + info.secondCount.toNat ≤ g.N := by
  have bound := Nat.mod_lt p g.N_pos
  have small := g.N_lt
  have startBound := Nat.mod_lt (p + start.toNat) g.N_pos
  -- Either the transaction has one region, or it has two and the range may lie in both.
  by_cases fits : n.toNat ≤ g.N - p % g.N
  · rw [g.transaction_single p n fits]
    obtain ⟨info, eq, first, second, firstBase, -⟩ :=
      MemTransaction.getMemRegionInfo_inside ⟨⟨⟨.ring, slot g.s g.N p⟩, n⟩, .empty⟩
        (g.queue flavor).sizeofT start k (by simp [MemRegion.empty]; omega)
        (by simpa [MemRegion.empty] using inside)
    dsimp only at first firstBase
    have all : info.firstCount.toNat = k.toNat := by omega
    have none_second : info.secondCount.toNat = 0 := by omega
    refine ⟨info, eq, by omega, ?_, ?_, ?_, ?_⟩
    · intro some_first
      have positive : info.firstCount.toNat ≠ 0 := fun zero => some_first (UInt64.toNat_inj.mp zero)
      rw [firstBase some_first, Ptr.add, toNat_sizeofT, slot_add_before (by omega)]
    · by_cases zero : k.toNat = 0
      · omega
      · rw [add_mod_before (by omega)]
        omega
    · intro some_second
      exact absurd (UInt64.toNat_inj.mp none_second) some_second
    · rw [none_second]
      exact Nat.le_of_lt (Nat.mod_lt _ g.N_pos)
  · obtain ⟨a, b, lengthFirst, lengthSecond, shape⟩ := g.transaction_double p n (by omega)
    rw [shape]
    obtain ⟨info, eq, first, second, firstBase, secondBase⟩ :=
      MemTransaction.getMemRegionInfo_inside ⟨⟨⟨.ring, slot g.s g.N p⟩, a⟩, ⟨⟨.ring, 0⟩, b⟩⟩
        (g.queue flavor).sizeofT start k (by dsimp only; omega) (by dsimp only; omega)
    dsimp only at first firstBase secondBase
    refine ⟨info, eq, by omega, ?_, ?_, ?_, ?_⟩
    · intro some_first
      have positive : info.firstCount.toNat ≠ 0 := fun zero => some_first (UInt64.toNat_inj.mp zero)
      rw [firstBase some_first, Ptr.add, toNat_sizeofT, slot_add_before (by omega)]
    · by_cases zero : info.firstCount.toNat = 0
      · omega
      · rw [add_mod_before (by omega)]
        omega
    · intro some_second
      have positive : info.secondCount.toNat ≠ 0 :=
        fun zero => some_second (UInt64.toNat_inj.mp zero)
      rw [secondBase some_second, toNat_sizeofT, Nat.add_assoc p,
        slot_add_after (by omega) (by omega), Nat.zero_add]
      congr 2
      omega
    · by_cases zero : info.secondCount.toNat = 0
      · rw [zero]
        exact Nat.le_of_lt (Nat.mod_lt _ g.N_pos)
      · rw [Nat.add_assoc p, add_mod_after (by omega) (by omega)]
        omega

theorem copyTo_transaction (flavor : MQFlavor) (ring : Ring) (p : Nat) (n start k : UInt64)
    (xs : List (Vector UInt8 g.s)) (length : k.toNat = xs.length) (capacity : n.toNat ≤ g.N)
    (inside : start.toNat + k.toNat ≤ n.toNat) :
    (g.transaction p n).copyTo (g.queue flavor).sizeofT ring (some (flat xs)) start k =
      .ok (true, put g.s g.N ring (p + start.toNat) xs) := by
  obtain ⟨info, eq, sum, firstBase, firstRoom, secondBase, secondRoom⟩ :=
    g.getMemRegionInfo_transaction flavor p n start k capacity inside
  have firstBytes := g.toNat_mul_sizeofT flavor info.firstCount (by omega)
  have secondBytes := g.toNat_mul_sizeofT flavor info.secondCount (by omega)
  have lengthTake : (xs.take info.firstCount.toNat).length = info.firstCount.toNat := by
    rw [List.length_take]
    omega
  have lengthDrop : (xs.drop info.firstCount.toNat).length = info.secondCount.toNat := by
    rw [List.length_drop]
    omega
  have front : memcpyTo ring info.firstBaseAddress (flat xs) (g.queue flavor).sizeofT
      info.firstCount =
      .ok (put g.s g.N ring (p + start.toNat) (xs.take info.firstCount.toNat)) := by
    unfold memcpyTo
    split
    next no_first => simp [no_first, put]
    next some_first =>
      rw [firstBase some_first, firstBytes, take_flat]
      dsimp only
      rw [store_eq_put _ _ (by omega)]
  have back : ∀ m : Ring, memcpyTo m info.secondBaseAddress
      ((flat xs).drop (info.firstCount.toNat * (g.queue flavor).sizeofT.toNat))
      (g.queue flavor).sizeofT info.secondCount =
      .ok (put g.s g.N m (p + start.toNat + info.firstCount.toNat)
        (xs.drop info.firstCount.toNat)) := by
    intro m
    unfold memcpyTo
    split
    next no_second =>
      have nil : xs.drop info.firstCount.toNat = [] := by
        rw [← List.length_eq_zero_iff, lengthDrop, no_second, UInt64.toNat_zero]
      simp [nil, put]
    next some_second =>
      rw [secondBase some_second, secondBytes, toNat_sizeofT, drop_flat]
      dsimp only
      rw [List.take_of_length_le (by rw [length_flat, lengthDrop]), store_eq_put _ _ (by omega)]
  unfold MemTransaction.copyTo
  simp only [eq, front, back, bind, Except.bind, pure, Except.pure]
  -- The two runs are adjacent in the stream, so one `put` after the other is one `put`.
  have joined := put_append (s := g.s) (N := g.N) ring (p + start.toNat)
    (xs.take info.firstCount.toNat) (xs.drop info.firstCount.toNat)
  rw [List.take_append_drop, lengthTake] at joined
  rw [joined]

theorem copyFrom_transaction (flavor : MQFlavor) (ring : Ring) (p : Nat) (n start k : UInt64)
    (capacity : n.toNat ≤ g.N) (inside : start.toNat + k.toNat ≤ n.toNat) :
    (g.transaction p n).copyFrom (g.queue flavor).sizeofT ring true start k =
      .ok (some (flat (window g.s g.N ring (p + start.toNat) k.toNat))) := by
  obtain ⟨info, eq, sum, firstBase, firstRoom, secondBase, secondRoom⟩ :=
    g.getMemRegionInfo_transaction flavor p n start k capacity inside
  have firstBytes := g.toNat_mul_sizeofT flavor info.firstCount (by omega)
  have secondBytes := g.toNat_mul_sizeofT flavor info.secondCount (by omega)
  have front : memcpyFrom ring info.firstBaseAddress (g.queue flavor).sizeofT info.firstCount =
      .ok (flat (window g.s g.N ring (p + start.toNat) info.firstCount.toNat)) := by
    unfold memcpyFrom
    split
    next no_first => simp [no_first, window]
    next some_first =>
      rw [firstBase some_first, firstBytes]
      dsimp only
      rw [load_eq_window _ _ firstRoom]
  have back : memcpyFrom ring info.secondBaseAddress (g.queue flavor).sizeofT info.secondCount =
      .ok (flat (window g.s g.N ring (p + start.toNat + info.firstCount.toNat)
        info.secondCount.toNat)) := by
    unfold memcpyFrom
    split
    next no_second => simp [no_second, window]
    next some_second =>
      rw [secondBase some_second, secondBytes]
      dsimp only
      rw [load_eq_window _ _ secondRoom]
  unfold MemTransaction.copyFrom
  simp only [eq, Bool.not_true, Bool.false_eq_true, if_false, front, back, bind, Except.bind,
    pure, Except.pure, ← flat_append, ← window_add, sum]

/-- `write` copies the whole transaction: the range from 0 on. -/
theorem copyTo_whole (flavor : MQFlavor) (ring : Ring) (p : Nat) {k : UInt64}
    {xs : List (Vector UInt8 g.s)} (length : k.toNat = xs.length) (capacity : xs.length ≤ g.N) :
    (g.transaction p k).copyTo (g.queue flavor).sizeofT ring (some (flat xs)) 0 k =
      .ok (true, put g.s g.N ring p xs) := by
  have copied := g.copyTo_transaction flavor ring p k 0 k xs length (by omega) (by simp)
  rwa [UInt64.toNat_zero, Nat.add_zero] at copied

theorem copyFrom_whole (flavor : MQFlavor) (ring : Ring) (p : Nat) {k : UInt64}
    (capacity : k.toNat ≤ g.N) :
    (g.transaction p k).copyFrom (g.queue flavor).sizeofT ring true 0 k =
      .ok (some (flat (window g.s g.N ring p k.toNat))) := by
  have copied := g.copyFrom_transaction flavor ring p k 0 k capacity (by simp)
  rwa [UInt64.toNat_zero, Nat.add_zero] at copied

/-- `copyTo` accepts every range inside a granted transaction, whatever the buffer holds. -/
theorem copyTo_succeeds (flavor : MQFlavor) (ring : Ring) (p : Nat) (n start k : UInt64)
    (data : List UInt8) (capacity : n.toNat ≤ g.N) (inside : start.toNat + k.toNat ≤ n.toNat) :
    ∃ ring', (g.transaction p n).copyTo (g.queue flavor).sizeofT ring (some data) start k =
      .ok (true, ring') := by
  obtain ⟨info, eq, _, firstBase, _, secondBase, _⟩ :=
    g.getMemRegionInfo_transaction flavor p n start k capacity inside
  -- A copy fails on a null pointer only.
  have reaches : ∀ (m : Ring) (base : Ptr) (bytes : List UInt8) (count : UInt64),
      (count ≠ 0 → base.block = .ring) →
      ∃ m', memcpyTo m base bytes (g.queue flavor).sizeofT count = .ok m' := by
    intro m base bytes count inRing
    unfold memcpyTo
    split
    next => exact ⟨m, rfl⟩
    next nonzero => exact ⟨_, by rw [inRing nonzero]⟩
  obtain ⟨front, frontEq⟩ := reaches ring info.firstBaseAddress data info.firstCount
    fun nonzero => by rw [firstBase nonzero]
  obtain ⟨back, backEq⟩ := reaches front info.secondBaseAddress
    (data.drop (info.firstCount.toNat * (g.queue flavor).sizeofT.toNat)) info.secondCount
    fun nonzero => by rw [secondBase nonzero]
  refine ⟨back, ?_⟩
  unfold MemTransaction.copyTo
  simp only [eq, frontEq, backEq, bind, Except.bind, pure, Except.pure]

theorem getSlot_transaction (flavor : MQFlavor) (p : Nat) (n idx : UInt64)
    (capacity : n.toNat ≤ g.N) (inside : idx < n) :
    (g.transaction p n).getSlot (g.queue flavor).sizeofT idx =
      ⟨.ring, slot g.s g.N (p + idx.toNat)⟩ := by
  have bound := Nat.mod_lt p g.N_pos
  rw [UInt64.lt_iff_toNat_lt] at inside
  have small := n.toNat_lt
  unfold MemTransaction.getSlot
  by_cases fits : n.toNat ≤ g.N - p % g.N
  · have accepted : ¬ idx > n + MemRegion.empty.length := by
      rw [gt_iff_lt, UInt64.lt_iff_toNat_lt, UInt64.toNat_add]
      simp only [MemRegion.empty, UInt64.toNat_zero]
      omega
    rw [g.transaction_single p n fits]
    dsimp only [MemTransaction.empty]
    rw [if_neg accepted, if_pos (UInt64.lt_iff_toNat_lt.mpr inside), Ptr.add, toNat_sizeofT,
      slot_add_before (by omega)]
  · obtain ⟨a, b, first, second, shape⟩ := g.transaction_double p n (by omega)
    -- Two regions: the bound is the sum of their lengths.
    have accepted : ¬ idx > a + b := by
      rw [gt_iff_lt, UInt64.lt_iff_toNat_lt, UInt64.toNat_add]
      omega
    rw [shape]
    dsimp only
    rw [if_neg accepted]
    split
    next before =>
      rw [UInt64.lt_iff_toNat_lt] at before
      rw [Ptr.add, toNat_sizeofT, slot_add_before (by omega)]
    next after =>
      rw [UInt64.lt_iff_toNat_lt] at after
      rw [Ptr.add, Ptr.sub, toNat_sizeofT, slot_add_after (by omega) (by omega), Nat.zero_add,
        first, ← Nat.sub_mul]

theorem storeSlot_transaction (flavor : MQFlavor) (ring : Ring) (p : Nat) (n idx : UInt64)
    (x : Vector UInt8 g.s) (capacity : n.toNat ≤ g.N) (inside : idx < n) :
    (g.transaction p n).storeSlot (g.queue flavor).sizeofT ring idx x =
      .ok (put g.s g.N ring (p + idx.toNat) [x]) := by
  -- A single slot is a copy of `sizeof(T)` bytes.
  have one : (1 * (g.queue flavor).sizeofT).toNat = g.s := by
    rw [g.toNat_mul_sizeofT flavor 1 g.N_pos, UInt64.toNat_one, Nat.one_mul]
  unfold MemTransaction.storeSlot memcpyTo
  rw [g.getSlot_transaction flavor p n idx capacity inside, if_neg (by decide)]
  dsimp only
  rw [one, List.take_of_length_le (by simp)]
  rfl

/-! ## The records of an open transaction -/

/-- A store into slots of a transaction at position `p`, which it records slot by slot. -/
theorem slotAt_note (ring : Ring) (w : OpenWrite g.s) (p n start : Nat)
    (xs : List (Vector UInt8 g.s)) (capacity : n ≤ g.N) (inside : start + xs.length ≤ n)
    (stored : ∀ i x, i < n → w.stored i = some x → g.slotAt ring (p + i) = x) (i : Nat)
    (x : Vector UInt8 g.s) (below : i < n) (noted : (w.note start xs).stored i = some x) :
    g.slotAt (put g.s g.N ring (p + start) xs) (p + i) = x := by
  simp only [OpenWrite.note] at noted
  rcases store_cases w.stored start i (xs.map some) with ⟨j, below_j, rfl, eq⟩ | ⟨apart, eq⟩
  · rw [List.length_map] at below_j
    rw [eq, List.getElem_map, Option.some.injEq] at noted
    rw [← Nat.add_assoc, ← noted]
    exact peek_put_inside _ _ _ below_j (by omega)
  · rw [List.length_map] at apart
    rw [eq] at noted
    rw [← stored i x below noted]
    exact peek_put_apart _ _ (by omega) (by omega) (by omega)

/-- What a transaction at position `p` has recorded for a slot after a copy out of `n` slots. -/
theorem copied_note_window (ring : Ring) (r : OpenRead g.s) (p start n i : Nat)
    (x : Vector UInt8 g.s)
    (noted : (r.note start (window g.s g.N ring (p + start) n)).copied i = some x) :
    (∃ j < n, i = start + j ∧ g.slotAt ring (p + i) = x) ∨
      ((i < start ∨ start + n ≤ i) ∧ r.copied i = some x) := by
  simp only [OpenRead.note] at noted
  rcases store_cases r.copied start i ((window g.s g.N ring (p + start) n).map some) with
    ⟨j, inside, rfl, eq⟩ | ⟨apart, eq⟩
  · rw [List.length_map, length_window] at inside
    rw [eq, List.getElem_map, getElem_window, Option.some.injEq] at noted
    rw [← Nat.add_assoc]
    exact Or.inl ⟨j, inside, rfl, noted⟩
  · rw [List.length_map, length_window] at apart
    rw [eq] at noted
    exact Or.inr ⟨apart, noted⟩

end Geometry
end Fmq
