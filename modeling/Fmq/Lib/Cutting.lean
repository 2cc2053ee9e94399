import Mathlib.Data.List.Basic

/-!
# Cuttings of a list

A list cut into consecutive pieces, each with the position at which it starts. Steps that commute
for pieces that do not overlap may be made in any order.
-/
namespace Cutting

variable {α β : Type*} {start : Nat} {cut : List (List α)}

structure Piece (α : Type*) where
  start : Nat
  items : List α

def Piece.stop (piece : Piece α) : Nat := piece.start + piece.items.length

/-- The pieces of a cutting, the first one at `start`. -/
def pieces (start : Nat) : List (List α) → List (Piece α)
  | [] => []
  | items :: cut => ⟨start, items⟩ :: pieces (start + items.length) cut

def Piece.Apart (a b : Piece α) : Prop := a.stop ≤ b.start ∨ b.stop ≤ a.start

theorem pieces_within {piece : Piece α} (member : piece ∈ pieces start cut) :
    start ≤ piece.start ∧ piece.stop ≤ start + cut.flatten.length := by
  induction cut generalizing start with
  | nil => cases member
  | cons items cut ih =>
    rw [List.flatten_cons, List.length_append]
    rcases List.mem_cons.mp member with rfl | later
    · exact ⟨Nat.le_refl _, by simp only [Piece.stop]; omega⟩
    · have inside := ih later
      omega

/-- A piece is the segment of the list from its start on. -/
theorem pieces_items {piece : Piece α} (member : piece ∈ pieces start cut) :
    piece.items = (cut.flatten.drop (piece.start - start)).take piece.items.length := by
  induction cut generalizing start with
  | nil => cases member
  | cons items cut ih =>
    rcases List.mem_cons.mp member with rfl | later
    · simp
    · have inside := pieces_within later
      rw [List.flatten_cons, List.drop_append, List.drop_of_length_le (by omega), List.nil_append,
        Nat.sub_sub]
      exact ih later

theorem pieces_apart {a b : Piece α} (first : a ∈ pieces start cut)
    (second : b ∈ pieces start cut) : a = b ∨ a.Apart b := by
  induction cut generalizing start with
  | nil => cases first
  | cons items cut ih =>
    rcases List.mem_cons.mp first with rfl | later_a
    · rcases List.mem_cons.mp second with rfl | later_b
      · exact Or.inl rfl
      · exact Or.inr (Or.inl (pieces_within later_b).1)
    · rcases List.mem_cons.mp second with rfl | later_b
      · exact Or.inr (Or.inr (pieces_within later_a).1)
      · exact ih later_a later_b

/-- Steps that commute for pieces apart give the same result in every order of the pieces. -/
theorem foldl_perm {f : β → Piece α → β} {order : List (Piece α)}
    (perm : order.Perm (pieces start cut))
    (comm : ∀ a ∈ pieces start cut, ∀ b ∈ pieces start cut, a.Apart b → ∀ m,
      f (f m a) b = f (f m b) a) (m : β) :
    order.foldl f m = (pieces start cut).foldl f m := by
  refine (perm.symm.foldl_eq' (fun a first b second m => ?_) m).symm
  rcases pieces_apart first second with rfl | apart
  · rfl
  · exact comm a first b second apart m

end Cutting
