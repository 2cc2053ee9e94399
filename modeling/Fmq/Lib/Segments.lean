import Mathlib.Data.List.Infix

/-!
# Segments of a stream

What somebody collects from a growing stream in several goes: contiguous pieces, each behind the
one before it.
-/
namespace Segments

variable {α : Type*} {stream : List α} {bound position first : Nat} {current : List α}
  {finished : List (List α)}

/-- The segments, the latest one first, lie one before the other in the stream and end before
`bound`. -/
def InOrder (stream : List α) : Nat → List (List α) → Prop
  | _, [] => True
  | bound, segment :: earlier => ∃ start, start + segment.length ≤ bound ∧
      segment <+: stream.drop start ∧ InOrder stream start earlier

theorem InOrder.append (inOrder : InOrder stream bound finished) (later : List α) :
    InOrder (stream ++ later) bound finished := by
  induction finished generalizing bound with
  | nil => trivial
  | cons segment earlier ih =>
    obtain ⟨start, before, piece, rest⟩ := inOrder
    refine ⟨start, before, piece.trans ?_, ih rest⟩
    rw [List.drop_append]
    exact List.prefix_append _ _

/-- A segment that ends at `position` and can grow from there. The first one of all starts at or
before `first`. -/
structure Open (stream : List α) (position first : Nat) (current : List α)
    (finished : List (List α)) : Prop where
  started : ∃ start, start + current.length = position ∧ current <+: stream.drop start ∧
    InOrder stream start finished ∧ (finished = [] → start ≤ first)

theorem Open.nil (before : position ≤ first) : Open stream position first [] [] :=
  ⟨position, rfl, List.nil_prefix, trivial, fun _ => before⟩

theorem Open.append (opened : Open stream position first current finished) (later : List α) :
    Open (stream ++ later) position first current finished := by
  obtain ⟨start, length, piece, earlier, early⟩ := opened
  refine ⟨start, length, piece.trans ?_, earlier.append later, early⟩
  rw [List.drop_append]
  exact List.prefix_append _ _

/-- The next items of the stream. -/
theorem Open.extend (opened : Open stream position first current finished) {xs : List α}
    (next : xs <+: stream.drop position) :
    Open stream (position + xs.length) first (current ++ xs) finished := by
  obtain ⟨start, length, piece, earlier, early⟩ := opened
  refine ⟨start, by rw [List.length_append]; omega, ?_, earlier, early⟩
  obtain ⟨rest, split⟩ := piece
  -- What is left behind `current` is what the stream has from `position` on.
  have tail : stream.drop position = rest := by
    rw [← length, ← List.drop_drop, ← split, List.drop_left]
  rw [← split, ← tail]
  exact (List.prefix_append_right_inj current).mpr next

/-- The segment ends here, and the next one starts somewhere behind. -/
theorem Open.close (opened : Open stream position first current finished) {next : Nat}
    (behind : position ≤ next) : Open stream next first [] (current :: finished) := by
  obtain ⟨start, length, piece, earlier, -⟩ := opened
  exact ⟨next, rfl, List.nil_prefix, ⟨start, by omega, piece, earlier⟩, nofun⟩

theorem Open.inOrder (opened : Open stream position first current finished)
    (within : position ≤ bound) : InOrder stream bound (current :: finished) := by
  obtain ⟨start, length, piece, earlier, -⟩ := opened
  exact ⟨start, by omega, piece, earlier⟩

end Segments
