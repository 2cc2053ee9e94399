import Mathlib.Logic.Basic

/-!
# Loops that fill a list

A loop appends what the elements of another list are converted to, and stops at the first one that
cannot be converted. What it has appended by then stays.
-/
namespace Filling

variable {α β : Type*} (convert : α → Option β)

/-- The list after the loop, and whether the loop came to its end. -/
def fill (out : List β) : List α → List β × Bool
  | [] => (out, true)
  | x :: xs =>
    match convert x with
    | none => (out, false)
    | some y => fill (out ++ [y]) xs

variable {convert} {out : List β} {x : α} {xs : List α}

theorem fill_cons_none (refused : convert x = none) :
    fill convert out (x :: xs) = (out, false) := by
  rw [fill, refused]

theorem fill_cons_some {y : β} (converted : convert x = some y) :
    fill convert out (x :: xs) = fill convert (out ++ [y]) xs := by
  rw [fill, converted]

/-- The loop comes to its end if every element can be converted. -/
theorem fill_ends_iff : (fill convert out xs).2 = true ↔ ∀ x ∈ xs, (convert x).isSome = true := by
  induction xs generalizing out with
  | nil => exact iff_of_true rfl nofun
  | cons x xs ih =>
    rw [List.forall_mem_cons]
    cases converted : convert x with
    | none =>
      rw [fill_cons_none converted]
      exact iff_of_false nofun fun all => nomatch all.1
    | some y =>
      rw [fill_cons_some converted, ih]
      exact (and_iff_right rfl).symm

theorem fill_eq_map {f : α → β} (converts : ∀ x ∈ xs, convert x = some (f x)) :
    fill convert out xs = (out ++ xs.map f, true) := by
  induction xs generalizing out with
  | nil => rw [fill, List.map_nil, List.append_nil]
  | cons x xs ih =>
    obtain ⟨first, converts⟩ := List.forall_mem_cons.mp converts
    rw [fill_cons_some first, ih converts, List.map_cons, List.append_assoc, List.singleton_append]

theorem prefix_fill : out <+: (fill convert out xs).1 := by
  induction xs generalizing out with
  | nil => exact List.prefix_refl out
  | cons x xs ih =>
    cases converted : convert x with
    | none => exact ⟨[], by rw [fill_cons_none converted, List.append_nil]⟩
    | some y =>
      rw [fill_cons_some converted]
      exact (List.prefix_append out [y]).trans ih

/-- Only a loop that converts nothing leaves the list as it was. -/
theorem fill_unchanged_iff :
    (fill convert out xs).1 = out ↔ ∀ x, xs.head? = some x → convert x = none := by
  cases xs with
  | nil => exact iff_of_true rfl nofun
  | cons x xs =>
    simp only [List.head?_cons, Option.some.injEq, forall_eq']
    cases converted : convert x with
    | none => exact iff_of_true (by rw [fill_cons_none converted]) rfl
    | some y =>
      rw [fill_cons_some converted]
      refine iff_of_false (fun same => ?_) nofun
      -- What has been appended is never taken away.
      have kept : out ++ [y] <+: (fill convert (out ++ [y]) xs).1 := prefix_fill
      have longer := kept.length_le
      rw [same, List.length_append, List.length_singleton] at longer
      exact Nat.not_succ_le_self _ longer

end Filling
