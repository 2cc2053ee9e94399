import Mathlib.Algebra.Order.Group.Nat

/-!
# Rounding to multiples

Rounding a natural number up to a multiple of `a`, and the bit mask that rounds a machine word
down to a multiple of a power of two.
-/
namespace Rounding

/-- The least multiple of `a` that is not below `n`. -/
def up (a n : Nat) : Nat := (n + a - 1) / a * a

variable {a m n : Nat}

theorem dvd_up (a n : Nat) : a ∣ up a n := Nat.dvd_mul_left _ _

theorem up_lt (pos : 0 < a) (n : Nat) : up a n < n + a := by
  have floor := Nat.div_mul_le_self (n + a - 1) a
  unfold up
  omega

theorem le_up (pos : 0 < a) (n : Nat) : n ≤ up a n := by
  have ceiling := Nat.lt_div_mul_add pos (a := n + a - 1)
  unfold up
  omega

theorem up_mono (a : Nat) (le : m ≤ n) : up a m ≤ up a n :=
  Nat.mul_le_mul_right _ (Nat.div_le_div_right (by omega))

theorem up_add_of_dvd (pos : 0 < a) (dvd : a ∣ m) (n : Nat) : up a (m + n) = m + up a n := by
  obtain ⟨k, rfl⟩ := dvd
  unfold up
  rw [Nat.add_assoc, Nat.add_sub_assoc (by omega), Nat.mul_add_div pos, Nat.add_mul,
    Nat.mul_comm k a]

theorem up_of_dvd (pos : 0 < a) (dvd : a ∣ n) : up a n = n := by
  have rounded := up_add_of_dvd pos dvd 0
  have zero : up a 0 = 0 := by
    unfold up
    rw [Nat.div_eq_of_lt (by omega), Nat.zero_mul]
  rw [zero] at rounded
  exact rounded

/-- Clearing the low `k` bits. -/
theorem toNat_and_not (x : UInt64) {mask : UInt64} {k : Nat} (low : mask.toNat = 2 ^ k - 1) :
    (x &&& ~~~mask).toNat = x.toNat / 2 ^ k * 2 ^ k := by
  apply Nat.eq_of_testBit_eq
  intro i
  have masked : mask.toBitVec.getLsbD i = decide (i < k) := by
    rw [← BitVec.testBit_toNat, UInt64.toNat_toBitVec, low, Nat.testBit_two_pow_sub_one]
  rw [Nat.testBit_mul_two_pow, Nat.testBit_div_two_pow, ← UInt64.toNat_toBitVec,
    ← UInt64.toNat_toBitVec, BitVec.testBit_toNat, BitVec.testBit_toNat, UInt64.toBitVec_and,
    UInt64.toBitVec_not, BitVec.getLsbD_and, BitVec.getLsbD_not, masked]
  by_cases below : i < k
  · have outside : ¬ k ≤ i := by omega
    simp [below, outside]
  · have inside : k ≤ i := by omega
    rw [Nat.sub_add_cancel inside]
    by_cases wide : i < 64
    · simp [below, inside, wide]
    · -- Neither side has bits beyond the word.
      simp [inside, BitVec.getLsbD_of_ge _ _ (Nat.le_of_not_lt wide)]

/-- The usual way to round up to a power of two, where the sum does not wrap. -/
theorem toNat_round (x : UInt64) {size : UInt64} {k : Nat} (pow : size.toNat = 2 ^ k)
    (room : x.toNat + size.toNat ≤ 2 ^ 64) :
    ((x + size - 1) &&& ~~~(size - 1)).toNat = up size.toNat x.toNat := by
  have pos : 0 < size.toNat := by
    rw [pow]
    exact Nat.two_pow_pos k
  have one_le : (1 : UInt64) ≤ size := UInt64.le_iff_toNat_le.mpr pos
  have pred : (size - 1).toNat = size.toNat - 1 := UInt64.toNat_sub_of_le _ _ one_le
  have sum : (x + size - 1).toNat = x.toNat + size.toNat - 1 := by
    rw [UInt64.sub_eq_add_neg, UInt64.add_assoc, ← UInt64.sub_eq_add_neg, UInt64.toNat_add, pred,
      Nat.mod_eq_of_lt (by omega)]
    omega
  rw [toNat_and_not _ (pred.trans (by rw [pow])), sum, ← pow, up]

end Rounding
