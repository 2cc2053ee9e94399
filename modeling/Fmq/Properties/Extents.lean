import Fmq.Model.Ledger
import Fmq.Properties.Copies

/-!
# The data path over an arbitrary extent

With exact counters, `write` and `read` succeed exactly when there is space or data, whatever the
extent. Where a message is stored depends on the position at which its transaction begins.
-/
namespace Fmq

open Memory Scatter

/-! ## Copies through any transaction -/

namespace MemTransaction

variable {tx : MemTransaction} {sizeofT k n : UInt64}

/-- A transaction of `k` messages whose non-empty regions lie in the ring. -/
structure Grants (tx : MemTransaction) (k : UInt64) : Prop where
  count : tx.first.length.toNat + tx.second.length.toNat = k.toNat
  first : tx.first.address.block = .ring
  second : tx.second.length ≠ 0 → tx.second.address.block = .ring

/-- How a range of the slots splits between the regions. -/
theorem Grants.info (grants : tx.Grants n) (sizeofT : UInt64) {start : UInt64}
    (inside : start.toNat + k.toNat ≤ n.toNat) :
    ∃ info, tx.getMemRegionInfo sizeofT start k = some info ∧
      info.firstCount.toNat + info.secondCount.toNat = k.toNat ∧
      (info.firstCount ≠ 0 → info.firstBaseAddress =
        ⟨.ring, tx.first.address.offset + start.toNat * sizeofT.toNat⟩) ∧
      (∀ i < info.firstCount.toNat, tx.slotOffset sizeofT.toNat (start.toNat + i) =
        tx.first.address.offset + start.toNat * sizeofT.toNat + i * sizeofT.toNat) ∧
      (info.secondCount ≠ 0 → info.secondBaseAddress = ⟨.ring, tx.second.address.offset +
        (start.toNat - tx.first.length.toNat) * sizeofT.toNat⟩) ∧
      ∀ i < info.secondCount.toNat,
        tx.slotOffset sizeofT.toNat (start.toNat + (info.firstCount.toNat + i)) =
          tx.second.address.offset + (start.toNat - tx.first.length.toNat) * sizeofT.toNat +
            i * sizeofT.toNat := by
  have bounded := n.toNat_lt
  have count := grants.count
  obtain ⟨info, eq, first, second, firstBase, secondBase⟩ :=
    tx.getMemRegionInfo_inside sizeofT start k (by omega) (by omega)
  refine ⟨info, eq, by omega, ?_, ?_, ?_, ?_⟩
  · intro some_first
    rw [firstBase some_first, Ptr.add, grants.first]
  · intro i below
    rw [slotOffset, if_pos (by omega), Nat.add_mul, Nat.add_assoc]
  · intro some_second
    have positive : info.secondCount.toNat ≠ 0 := fun zero => some_second (UInt64.toNat_inj.mp zero)
    have nonempty : tx.second.length ≠ 0 := by
      intro empty
      rw [empty, UInt64.toNat_zero] at count
      omega
    rw [secondBase some_second, grants.second nonempty]
  · intro i below
    rw [slotOffset, if_neg (by omega), Nat.add_assoc, ← Nat.add_mul]
    congr 2
    omega

theorem toNat_bytes {a b : UInt64} (le : a.toNat ≤ k.toNat)
    (fits : k.toNat * b.toNat < 2 ^ 64) : (a * b).toNat = a.toNat * b.toNat := by
  rw [UInt64.toNat_mul, Nat.mod_eq_of_lt (Nat.lt_of_le_of_lt (Nat.mul_le_mul_right _ le) fits)]

/-- `copyTo` stores message `i` in slot `start + i`. -/
theorem Grants.copyTo_range (grants : tx.Grants n) (fits : k.toNat * sizeofT.toNat < 2 ^ 64)
    (ring : Ring) (xs : List (Vector UInt8 sizeofT.toNat)) (length : k.toNat = xs.length)
    {start : UInt64} (inside : start.toNat + k.toNat ≤ n.toNat) :
    tx.copyTo sizeofT ring (some (flat xs)) start k =
      .ok (true, scatter ring (fun i => tx.slotOffset sizeofT.toNat (start.toNat + i)) xs) := by
  obtain ⟨info, eq, count, firstBase, firstPlace, secondBase, secondPlace⟩ :=
    grants.info sizeofT inside
  have lengthTake : (xs.take info.firstCount.toNat).length = info.firstCount.toNat := by
    rw [List.length_take]
    omega
  have lengthDrop : (xs.drop info.firstCount.toNat).length = info.secondCount.toNat := by
    rw [List.length_drop]
    omega
  have front : memcpyTo ring info.firstBaseAddress (flat xs) sizeofT info.firstCount =
      .ok (scatter ring (fun i => tx.slotOffset sizeofT.toNat (start.toNat + i))
        (xs.take info.firstCount.toNat)) := by
    unfold memcpyTo
    split
    next no_first =>
      rw [no_first]
      rfl
    next some_first =>
      rw [firstBase some_first, toNat_bytes (by omega) fits, take_flat]
      dsimp only
      rw [store_eq_scatter]
      exact congrArg Except.ok (scatter_congr _ _ _ _ fun i below =>
        (firstPlace i (lengthTake ▸ below)).symm)
  have back : ∀ m : Ring, memcpyTo m info.secondBaseAddress
      ((flat xs).drop (info.firstCount.toNat * sizeofT.toNat)) sizeofT info.secondCount =
      .ok (scatter m (fun i =>
        tx.slotOffset sizeofT.toNat (start.toNat + (info.firstCount.toNat + i)))
        (xs.drop info.firstCount.toNat)) := by
    intro m
    unfold memcpyTo
    split
    next no_second =>
      have nil : xs.drop info.firstCount.toNat = [] := by
        rw [← List.length_eq_zero_iff, lengthDrop, no_second, UInt64.toNat_zero]
      rw [nil]
      rfl
    next some_second =>
      rw [secondBase some_second, toNat_bytes (by omega) fits, drop_flat]
      dsimp only
      rw [List.take_of_length_le (by rw [length_flat, lengthDrop]), store_eq_scatter]
      exact congrArg Except.ok (scatter_congr _ _ _ _ fun i below =>
        (secondPlace i (lengthDrop ▸ below)).symm)
  -- The slots of the first region, then those of the second one.
  have split := scatter_append ring (fun i => tx.slotOffset sizeofT.toNat (start.toNat + i))
    (xs.take info.firstCount.toNat) (xs.drop info.firstCount.toNat)
  rw [List.take_append_drop, lengthTake] at split
  unfold MemTransaction.copyTo
  simp only [eq, front, back, bind, Except.bind, pure, Except.pure]
  rw [split]

/-- `copyFrom` delivers the messages of the slots in order. -/
theorem Grants.copyFrom_range (grants : tx.Grants n) (fits : k.toNat * sizeofT.toNat < 2 ^ 64)
    (ring : Ring) {start : UInt64} (inside : start.toNat + k.toNat ≤ n.toNat) :
    tx.copyFrom sizeofT ring true start k =
      .ok (some (flat (gather sizeofT.toNat ring
        (fun i => tx.slotOffset sizeofT.toNat (start.toNat + i)) k.toNat))) := by
  obtain ⟨info, eq, count, firstBase, firstPlace, secondBase, secondPlace⟩ :=
    grants.info sizeofT inside
  have front : memcpyFrom ring info.firstBaseAddress sizeofT info.firstCount =
      .ok (flat (gather sizeofT.toNat ring
        (fun i => tx.slotOffset sizeofT.toNat (start.toNat + i)) info.firstCount.toNat)) := by
    unfold memcpyFrom
    split
    next no_first =>
      rw [no_first]
      rfl
    next some_first =>
      rw [firstBase some_first, toNat_bytes (by omega) fits]
      dsimp only
      rw [load_eq_gather, gather_congr _ _ _ _ firstPlace]
  have back : memcpyFrom ring info.secondBaseAddress sizeofT info.secondCount =
      .ok (flat (gather sizeofT.toNat ring
        (fun i => tx.slotOffset sizeofT.toNat (start.toNat + (info.firstCount.toNat + i)))
        info.secondCount.toNat)) := by
    unfold memcpyFrom
    split
    next no_second =>
      rw [no_second]
      rfl
    next some_second =>
      rw [secondBase some_second, toNat_bytes (by omega) fits]
      dsimp only
      rw [load_eq_gather, gather_congr _ _ _ _ secondPlace]
  unfold MemTransaction.copyFrom
  simp only [eq, Bool.not_true, Bool.false_eq_true, if_false, front, back, bind, Except.bind,
    pure, Except.pure, ← flat_append, ← count, gather_add]

/-- All slots at once. -/
theorem Grants.copyTo (grants : tx.Grants k) (fits : k.toNat * sizeofT.toNat < 2 ^ 64)
    (ring : Ring) (xs : List (Vector UInt8 sizeofT.toNat)) (length : k.toNat = xs.length) :
    tx.copyTo sizeofT ring (some (flat xs)) 0 k =
      .ok (true, scatter ring (tx.slotOffset sizeofT.toNat) xs) := by
  have copied := grants.copyTo_range fits ring xs length
    (show (0 : UInt64).toNat + k.toNat ≤ k.toNat by simp)
  simpa only [UInt64.toNat_zero, Nat.zero_add] using copied

theorem Grants.copyFrom (grants : tx.Grants k) (fits : k.toNat * sizeofT.toNat < 2 ^ 64)
    (ring : Ring) : tx.copyFrom sizeofT ring true 0 k =
      .ok (some (flat (gather sizeofT.toNat ring (tx.slotOffset sizeofT.toNat) k.toNat))) := by
  have copied := grants.copyFrom_range fits ring
    (show (0 : UInt64).toNat + k.toNat ≤ k.toNat by simp)
  simpa only [UInt64.toNat_zero, Nat.zero_add] using copied

end MemTransaction

/-! ## Counters -/

namespace Extent

variable (e : Extent)

theorem s_pos : 0 < e.s :=
  Nat.pos_of_ne_zero fun zero => e.pos (UInt64.toNat_inj.mp zero)

theorem s_le : e.s ≤ e.E := UInt64.le_iff_toNat_le.mp e.fits

theorem C_pos : 0 < e.C := Nat.div_pos e.s_le e.s_pos

theorem C_mul_le : e.C * e.s ≤ e.E := Nat.div_mul_le_self _ _

theorem C_mul_lt (odd : ¬ e.s ∣ e.E) : e.C * e.s < e.E := by
  refine Nat.lt_of_le_of_ne e.C_mul_le fun same => odd ⟨e.C, ?_⟩
  rw [← same, Nat.mul_comm]

theorem E_lt : e.E < (e.C + 1) * e.s := by
  rw [Nat.mul_comm]
  exact Nat.lt_mul_div_succ _ e.s_pos

theorem bytes_lt {k : Nat} (capacity : k ≤ e.C) : k * e.s < 2 ^ 64 :=
  Nat.lt_of_le_of_lt (Nat.le_trans (Nat.mul_le_mul_right _ capacity) e.C_mul_le) e.size.toNat_lt

theorem div_sizeofT (a : UInt64) : div a e.sizeofT = .ok (a / e.sizeofT) := div_ok a e.pos

theorem size_ne_zero : e.size ≠ 0 := by
  intro zero
  have le := e.s_le
  rw [E, zero, UInt64.toNat_zero] at le
  exact absurd e.s_pos (Nat.not_lt.mpr le)

/-- Where message `i` of a transaction that begins at position `p` is stored. -/
def place (p i : Nat) : Nat :=
  let contiguous := (e.E - p * e.s % e.E) / e.s
  if i < contiguous then p * e.s % e.E + i * e.s else (i - contiguous) * e.s

/-- What `transactionFrom` returns for an exact counter. -/
structure Transaction (p : Nat) (k : UInt64) (tx : MemTransaction) : Prop extends
    tx.Grants k where
  slots : ∀ i < k.toNat, tx.slotOffset e.s i = e.place p i

theorem transactionFrom_eq (ptr k : UInt64) (p : Nat) (exact_ : ptr.toNat = p * e.s) :
    ∃ tx, e.queue.transactionFrom ptr k = .ok tx ∧ e.Transaction p k tx := by
  have offset : (ptr % e.size).toNat = p * e.s % e.E := by rw [UInt64.toNat_mod, exact_]
  have below : ptr % e.size ≤ e.size := by
    rw [UInt64.le_iff_toNat_le, offset]
    exact Nat.le_of_lt (Nat.mod_lt _ (Nat.lt_of_lt_of_le e.s_pos e.s_le))
  have contiguous : ((e.size - ptr % e.size) / e.sizeofT).toNat =
      (e.E - p * e.s % e.E) / e.s := by
    rw [UInt64.toNat_div, UInt64.toNat_sub_of_le _ _ below, offset]
  unfold Queue.transactionFrom
  simp only [mod_ok _ e.size_ne_zero, div_sizeofT, bind, Except.bind, pure, Except.pure]
  -- The code stops at a whole number of messages; the bytes behind them stay unused.
  generalize (e.size - ptr % e.size) / e.sizeofT = c at contiguous
  split
  next wraps =>
    rw [UInt64.lt_iff_toNat_lt] at wraps
    have rest := UInt64.toNat_sub_of_le k c (UInt64.le_iff_toNat_le.mpr (Nat.le_of_lt wraps))
    refine ⟨_, rfl, ⟨?_, rfl, fun _ => rfl⟩, ?_⟩
    · dsimp only
      omega
    · intro i _
      simp only [MemTransaction.slotOffset, place, contiguous, offset, Nat.zero_add]
  next fits =>
    rw [UInt64.lt_iff_toNat_lt, Nat.not_lt] at fits
    refine ⟨_, rfl, ⟨rfl, rfl, fun some_second => absurd rfl some_second⟩, ?_⟩
    intro i inside
    simp only [MemTransaction.slotOffset, place, offset, if_pos inside]
    rw [if_pos (by omega)]

/-- The counters are exact: `r` messages read, `n` unread. -/
structure Counts (σ : Storage) (r n : Nat) : Prop where
  readPtr : σ.readPtr.toNat = r * e.s
  writePtr : σ.writePtr.toNat = (r + n) * e.s
  bounded : n ≤ e.C

variable {e} {σ : Storage} {r n : Nat}

theorem Counts.distance (counts : e.Counts σ r n) :
    (σ.writePtr - σ.readPtr).toNat = n * e.s := by
  have le : σ.readPtr ≤ σ.writePtr := by
    rw [UInt64.le_iff_toNat_le, counts.readPtr, counts.writePtr]
    exact Nat.mul_le_mul_right _ (Nat.le_add_right r n)
  rw [UInt64.toNat_sub_of_le _ _ le, counts.readPtr, counts.writePtr, Nat.add_mul,
    Nat.add_sub_cancel_left]

theorem Counts.availableToWrite (counts : e.Counts σ r n) :
    ∃ available, e.queue.availableToWrite σ.writePtr σ.readPtr = .ok available ∧
      available.toNat = e.C - n := by
  have le : σ.writePtr - σ.readPtr ≤ e.size := by
    rw [UInt64.le_iff_toNat_le, counts.distance]
    exact Nat.le_trans (Nat.mul_le_mul_right _ counts.bounded) e.C_mul_le
  refine ⟨_, e.div_sizeofT _, ?_⟩
  unfold Queue.availableToWriteBytes Queue.availableToReadBytes
  rw [UInt64.toNat_div, UInt64.toNat_sub_of_le _ _ le, counts.distance, Nat.mul_comm,
    Nat.sub_mul_div]
  rfl

theorem Counts.beginWrite (counts : e.Counts σ r n) (k : UInt64) :
    (k.toNat ≤ e.C - n ∧ ∃ tx, e.Transaction (r + n) k tx ∧
      e.queue.beginWrite σ k .empty = .ok (true, tx)) ∨
    (e.C - n < k.toNat ∧ e.queue.beginWrite σ k .empty = .ok (false, .empty)) := by
  obtain ⟨available, eq, value⟩ := counts.availableToWrite
  obtain ⟨tx, granted, transaction⟩ := e.transactionFrom_eq σ.writePtr k (r + n) counts.writePtr
  have capacity : (e.size / e.sizeofT).toNat = e.C := UInt64.toNat_div _ _
  have aligned : σ.writePtr % e.sizeofT = 0 := by
    rw [← UInt64.toNat_inj, UInt64.toNat_mod, counts.writePtr, Nat.mul_mod_left]
    rfl
  unfold Queue.beginWrite Queue.beginWriteWith Queue.refusesWrite Queue.getQuantumCount
  simp only [eq, granted, div_sizeofT, mod_ok _ e.pos, aligned, bind, Except.bind, pure,
    Except.pure, gt_iff_lt, UInt64.lt_iff_toNat_lt, value, capacity]
  by_cases room : k.toNat ≤ e.C - n
  · have fits : ¬ e.C - n < k.toNat := Nat.not_lt.mpr room
    have within : ¬ e.C < k.toNat := by omega
    exact Or.inl ⟨room, tx, transaction, by simp [fits, within]⟩
  · have full : e.C - n < k.toNat := Nat.lt_of_not_le room
    exact Or.inr ⟨full, by simp [full]⟩

theorem Counts.beginRead (counts : e.Counts σ r n) (k : UInt64)
    (fits : k.toNat * e.s < 2 ^ 64) :
    (k.toNat ≤ n ∧ ∃ tx, e.Transaction r k tx ∧
      e.queue.beginRead σ k = .ok (true, tx, σ)) ∨
    (n < k.toNat ∧ e.queue.beginRead σ k = .ok (false, .empty, σ)) := by
  obtain ⟨tx, granted, transaction⟩ := e.transactionFrom_eq σ.readPtr k r counts.readPtr
  have alignedWrite : σ.writePtr % e.sizeofT = 0 := by
    rw [← UInt64.toNat_inj, UInt64.toNat_mod, counts.writePtr, Nat.mul_mod_left]
    rfl
  have alignedRead : σ.readPtr % e.sizeofT = 0 := by
    rw [← UInt64.toNat_inj, UInt64.toNat_mod, counts.readPtr, Nat.mul_mod_left]
    rfl
  have bytes : (k * e.sizeofT).toNat = k.toNat * e.s := by
    rw [UInt64.toNat_mul, Nat.mod_eq_of_lt fits]
  -- At most `C` unread messages never exceed the extent.
  have no_overflow : ¬ e.E < n * e.s := by
    rw [Nat.not_lt]
    exact Nat.le_trans (Nat.mul_le_mul_right _ counts.bounded) e.C_mul_le
  unfold Queue.beginRead Queue.beginReadWith
  simp only [granted, mod_ok _ e.pos, alignedWrite, alignedRead, bind, Except.bind, pure,
    Except.pure, gt_iff_lt, UInt64.lt_iff_toNat_lt, counts.distance, bytes]
  by_cases enough : k.toNat ≤ n
  · have covered : ¬ n * e.s < k.toNat * e.s := Nat.not_lt.mpr (Nat.mul_le_mul_right _ enough)
    exact Or.inl ⟨enough, tx, transaction, by simp [no_overflow, covered]⟩
  · have short : n < k.toNat := Nat.lt_of_not_le enough
    have missing : n * e.s < k.toNat * e.s := Nat.mul_lt_mul_of_pos_right short e.s_pos
    exact Or.inr ⟨short, by simp [no_overflow, missing]⟩

theorem Transaction.slotOffset_scatter {tx : MemTransaction} {p : Nat} {k : UInt64}
    (transaction : e.Transaction p k tx) (ring : Ring) (xs : List (Vector UInt8 e.s))
    (length : k.toNat = xs.length) :
    scatter ring (tx.slotOffset e.s) xs = scatter ring (e.place p) xs :=
  scatter_congr ring _ _ xs fun i below => transaction.slots i (by omega)

/-- `write` stores its messages at the places of its transaction, or refuses and changes
nothing. -/
theorem Counts.write (counts : e.Counts σ r n) (xs : List (Vector UInt8 e.s)) (k : UInt64)
    (length : k.toNat = xs.length) :
    (xs.length ≤ e.C - n ∧ ∃ tx, e.Transaction (r + n) k tx ∧
      e.queue.beginWrite σ k .empty = .ok (true, tx) ∧
      e.queue.write σ (some (flat xs)) k = .ok (true,
        ⟨scatter σ.ring (e.place (r + n)) xs, σ.readPtr, σ.writePtr + k * e.sizeofT⟩)) ∨
    (e.C - n < xs.length ∧ e.queue.beginWrite σ k .empty = .ok (false, .empty) ∧
      e.queue.write σ (some (flat xs)) k = .ok (false, σ)) := by
  rcases counts.beginWrite k with ⟨room, tx, transaction, begun⟩ | ⟨full, begun⟩
  · have fits := e.bytes_lt (Nat.le_trans room (Nat.sub_le _ _))
    have copied := transaction.toGrants.copyTo fits σ.ring xs length
    rw [transaction.slotOffset_scatter _ _ length] at copied
    refine Or.inl ⟨length ▸ room, tx, transaction, begun, ?_⟩
    rw [Queue.write_granted begun copied, Queue.commitWrite]
  · exact Or.inr ⟨length ▸ full, begun, Queue.write_refused _ begun⟩

/-- `read` delivers what lies at the places of its transaction, or refuses and changes
nothing. -/
theorem Counts.read (counts : e.Counts σ r n) (k : UInt64) (fits : k.toNat * e.s < 2 ^ 64) :
    (k.toNat ≤ n ∧ e.queue.read σ true k = .ok (true,
      ⟨σ.ring, σ.readPtr + k * e.sizeofT, σ.writePtr⟩,
      some (flat (gather e.s σ.ring (e.place r) k.toNat)))) ∨
    (n < k.toNat ∧ e.queue.read σ true k = .ok (false, σ, none)) := by
  rcases counts.beginRead k fits with ⟨enough, tx, transaction, begun⟩ | ⟨short, begun⟩
  · have copied := transaction.toGrants.copyFrom fits σ.ring
    rw [gather_congr σ.ring _ _ k.toNat transaction.slots] at copied
    have committed : e.queue.commitRead σ k =
        (true, ⟨σ.ring, σ.readPtr + k * e.sizeofT, σ.writePtr⟩) := by
      have small : ¬ σ.writePtr - σ.readPtr > e.size := by
        rw [gt_iff_lt, UInt64.lt_iff_toNat_lt, counts.distance, Nat.not_lt]
        exact Nat.le_trans (Nat.mul_le_mul_right _ counts.bounded) e.C_mul_le
      unfold Queue.commitRead
      rw [if_neg small]
    refine Or.inl ⟨enough, ?_⟩
    rw [Queue.read_granted begun copied, committed]
  · exact Or.inr ⟨short, Queue.read_refused true begun⟩

theorem Counts.written (counts : e.Counts σ r n) {k : UInt64} (room : k.toNat ≤ e.C - n)
    (total : (r + n + k.toNat) * e.s < 2 ^ 64) (ring : Ring) :
    e.Counts ⟨ring, σ.readPtr, σ.writePtr + k * e.sizeofT⟩ r (n + k.toNat) where
  readPtr := counts.readPtr
  writePtr := by
    rw [UInt64.toNat_add, UInt64.toNat_mul, counts.writePtr, Nat.add_mod_mod, ← Nat.add_mul,
      Nat.mod_eq_of_lt total, Nat.add_assoc]
  bounded := by
    have bounded := counts.bounded
    omega

theorem Counts.consumed (counts : e.Counts σ r n) {k : UInt64} (enough : k.toNat ≤ n) :
    e.Counts ⟨σ.ring, σ.readPtr + k * e.sizeofT, σ.writePtr⟩ (r + k.toNat) (n - k.toNat) where
  readPtr := by
    -- The read counter stays below the write counter, which is a 64-bit value.
    have reached : (r + k.toNat) * e.s ≤ σ.writePtr.toNat := by
      rw [counts.writePtr]
      exact Nat.mul_le_mul_right _ (Nat.add_le_add_left enough r)
    rw [UInt64.toNat_add, UInt64.toNat_mul, counts.readPtr, Nat.add_mod_mod, ← Nat.add_mul,
      Nat.mod_eq_of_lt (Nat.lt_of_le_of_lt reached σ.writePtr.toNat_lt)]
  writePtr := by
    rw [counts.writePtr]
    congr 1
    omega
  bounded := Nat.le_trans (Nat.sub_le _ _) counts.bounded

end Extent
end Fmq
