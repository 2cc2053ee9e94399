import Mathlib.Data.Nat.Basic

/-!
# Cyclic slots

Positions of an unbounded stream are laid out in `N` slots of `s` cells each, position `p` in
slot `p % N`. Positions less than one revolution apart never share a cell.
-/
namespace Cyclic

variable {s N p q i : Nat}

/-- The first cell of the slot of position `p`. -/
def slot (s N p : Nat) : Nat := p % N * s

theorem slot_congr (same : p % N = q % N) : slot s N p = slot s N q := by
  simp only [slot, same]

theorem slot_disjoint (ne : p % N ≠ q % N) :
    slot s N p + s ≤ slot s N q ∨ slot s N q + s ≤ slot s N p := by
  simp only [slot, ← Nat.succ_mul]
  rcases Nat.lt_or_gt_of_ne ne with lt | gt
  · exact Or.inl (Nat.mul_le_mul_right s lt)
  · exact Or.inr (Nat.mul_le_mul_right s gt)

/-- Two positions inside one revolution lie in different slots. -/
theorem mod_ne_of_window (below : p < q) (window : q < p + N) : p % N ≠ q % N := by
  intro same
  have zero := Nat.sub_mod_eq_zero_of_mod_eq same.symm
  rw [Nat.mod_eq_of_lt (by omega)] at zero
  omega

theorem add_mod_before (fits : i < N - p % N) : (p + i) % N = p % N + i := by
  rw [Nat.add_mod, Nat.mod_eq_of_lt (show i < N by omega), Nat.mod_eq_of_lt (by omega)]

theorem add_mod_after (wraps : N - p % N ≤ i) (below : i < N) :
    (p + i) % N = i - (N - p % N) := by
  have bound := Nat.mod_lt p (show 0 < N by omega)
  rw [Nat.add_mod, Nat.mod_eq_of_lt below, Nat.mod_eq_sub_mod (by omega),
    Nat.mod_eq_of_lt (by omega)]
  omega

theorem slot_add_before (fits : i < N - p % N) : slot s N (p + i) = slot s N p + i * s := by
  rw [slot, slot, add_mod_before fits, Nat.add_mul]

theorem slot_add_after (wraps : N - p % N ≤ i) (below : i < N) :
    slot s N (p + i) = (i - (N - p % N)) * s := by
  rw [slot, add_mod_after wraps below]

end Cyclic
