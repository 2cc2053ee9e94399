/-!
# Numbers of two digits

A number as a high digit without bounds and a low digit below a base. A signed amount is added digit
by digit, with the quotient and the remainder that round towards zero, and with a carry for a low
digit that is too large. There is no borrow.
-/

structure TwoDigits where
  hi : Int
  lo : Int
  deriving DecidableEq, Repr

namespace TwoDigits

variable (b : Int) (t : TwoDigits) (n : Int)

def value : Int := t.hi * b + t.lo

/-- The low digit is a digit. -/
structure Normal : Prop where
  nonneg : 0 ≤ t.lo
  lt : t.lo < b

def carry : TwoDigits := if b ≤ t.lo then ⟨t.hi + 1, t.lo - b⟩ else t

def add : TwoDigits := carry b ⟨t.hi + n.tdiv b, t.lo + n.tmod b⟩

theorem value_carry : (t.carry b).value b = t.value b := by
  unfold carry
  split
  · simp only [value, Int.add_mul, Int.one_mul]
    omega
  · rfl

theorem value_add : (t.add b n).value b = t.value b + n := by
  have parts := Int.tdiv_mul_add_tmod n b
  rw [add, value_carry]
  simp only [value, Int.add_mul]
  omega

variable {b t n}

/-- One carry is enough below twice the base, and nothing is done about a negative digit. -/
theorem normal_carry_iff (pos : 0 < b) (below : t.lo < 2 * b) :
    (t.carry b).Normal b ↔ 0 ≤ t.lo := by
  unfold carry
  split
  next large =>
    refine iff_of_true ⟨?_, ?_⟩ (Int.le_trans (Int.le_of_lt pos) large)
    · exact Int.sub_nonneg_of_le large
    · dsimp only
      omega
  next small => exact ⟨Normal.nonneg, fun nonneg => ⟨nonneg, Int.not_le.mp small⟩⟩

/-- The sum is normal exactly if the low digit has what the remainder takes away. -/
theorem normal_add_iff (pos : 0 < b) (normal : t.Normal b) :
    (t.add b n).Normal b ↔ -n.tmod b ≤ t.lo := by
  have below := Int.tmod_lt_of_pos n pos
  have lt := normal.lt
  rw [add, normal_carry_iff pos (by dsimp only; omega)]
  dsimp only
  omega

theorem tmod_nonneg_of_nonneg (nonneg : 0 ≤ n) (normal : t.Normal b) : -n.tmod b ≤ t.lo := by
  have remainder := Int.tmod_nonneg b nonneg
  have digit := normal.nonneg
  omega

end TwoDigits
