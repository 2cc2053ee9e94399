import Mathlib.Algebra.Group.Nat.Defs

/-!
# Conversions between signed and unsigned words

A conversion keeps the bits. It keeps the value where both types have it.
-/
namespace Casts

theorem toNat_toUInt32 {x : Int32} (nonneg : 0 ≤ x) : (x.toUInt32.toNat : Int) = x.toInt := by
  rw [Int32.toNat_toUInt32_of_le nonneg]
  exact Int.toNat_of_nonneg (Int32.le_iff_toInt_le.mp nonneg)

theorem toNat_toUInt64 {x : Int64} (nonneg : 0 ≤ x) : (x.toUInt64.toNat : Int) = x.toInt := by
  rw [Int64.toNat_toUInt64_of_le nonneg]
  exact Int.toNat_of_nonneg (Int64.le_iff_toInt_le.mp nonneg)

theorem toInt_toInt32 {x : UInt32} (small : x.toNat < 2 ^ 31) : x.toInt32.toInt = x.toNat :=
  BitVec.toInt_eq_toNat_of_lt (x := x.toBitVec) (by rw [UInt32.toNat_toBitVec]; omega)

theorem toInt_toInt64 {x : UInt64} (small : x.toNat < 2 ^ 63) : x.toInt64.toInt = x.toNat :=
  BitVec.toInt_eq_toNat_of_lt (x := x.toBitVec) (by rw [UInt64.toNat_toBitVec]; omega)

theorem nonneg_toInt32 {x : UInt32} (small : x.toNat < 2 ^ 31) : 0 ≤ x.toInt32 := by
  rw [Int32.le_iff_toInt_le, toInt_toInt32 small]
  exact Int.natCast_nonneg _

theorem nonneg_toInt64 {x : UInt64} (small : x.toNat < 2 ^ 63) : 0 ≤ x.toInt64 := by
  rw [Int64.le_iff_toInt_le, toInt_toInt64 small]
  exact Int.natCast_nonneg _

theorem toInt32_neg_iff {x : UInt32} : x.toInt32 < 0 ↔ 2 ^ 31 ≤ x.toNat := by
  have half : x.toInt32.toInt < 0 ↔ 2 ^ 32 ≤ 2 * x.toNat := BitVec.toInt_neg_iff
  rw [Int32.lt_iff_toInt_lt, Int32.toInt_zero, half]
  omega

theorem toInt64_neg_iff {x : UInt64} : x.toInt64 < 0 ↔ 2 ^ 63 ≤ x.toNat := by
  have half : x.toInt64.toInt < 0 ↔ 2 ^ 64 ≤ 2 * x.toNat := BitVec.toInt_neg_iff
  rw [Int64.lt_iff_toInt_lt, Int64.toInt_zero, half]
  omega

/-- A word that was widened first is never negative. -/
theorem nonneg_widen (x : UInt32) : 0 ≤ x.toUInt64.toInt64 := by
  apply nonneg_toInt64
  have bound := x.toNat_lt
  rw [UInt32.toNat_toUInt64]
  omega

/-- A value is kept only where it is not negative afterwards. -/
theorem toInt_toInt32_iff {x : UInt32} : x.toInt32.toInt = x.toNat ↔ x.toNat < 2 ^ 31 := by
  refine ⟨fun same => ?_, toInt_toInt32⟩
  have bound := x.toInt32.toInt_lt
  omega

/-- Widening a word whose sign bit is set fills the upper half with ones. -/
theorem toNat_signExtend (x : UInt32) : x.toInt32.toInt64.toUInt64.toNat =
    x.toNat + if 2 ^ 31 ≤ x.toNat then 2 ^ 64 - 2 ^ 32 else 0 := by
  have value : x.toInt32.toInt64.toUInt64.toNat = (x.toBitVec.signExtend 64).toNat := rfl
  rw [value, BitVec.toNat_signExtend, BitVec.msb_eq_decide, UInt32.toNat_toBitVec,
    BitVec.toNat_setWidth, UInt32.toNat_toBitVec, Nat.mod_eq_of_lt (by have := x.toNat_lt; omega)]
  simp only [decide_eq_true_iff]

end Casts
