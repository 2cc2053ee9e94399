import Fmq.Lib.RecordRing

/-!
# Copying byte by byte

A copy as the list of its single stores, or of its single loads. Stores into the slots of some
positions of a ring leave all other slots alone at every moment of the copy.
-/
namespace ByteCopies

open Cyclic Memory RecordRing

variable {β : Type} {s N p q a n : Nat} {todo : List (β × Nat)}

/-- The memory after all stores of the list, first one first. -/
def storeAll (m : Mem β) : List (β × Nat) → Mem β
  | [] => m
  | (b, a) :: todo => storeAll (store m a [b]) todo

theorem storeAll_append (m : Mem β) (todo todo' : List (β × Nat)) :
    storeAll m (todo ++ todo') = storeAll (storeAll m todo) todo' := by
  induction todo generalizing m with
  | nil => rfl
  | cons first todo ih => exact ih _

/-- A block is stored byte by byte. -/
theorem storeAll_zipIdx (m : Mem β) (a : Nat) (bs : List β) :
    storeAll m (bs.zipIdx a) = store m a bs := by
  induction bs generalizing m a with
  | nil => rw [List.zipIdx_nil, storeAll, store_nil]
  | cons b bs ih =>
    rw [List.zipIdx_cons, storeAll, ih]
    exact store_append m a [b] bs

/-- A block is loaded byte by byte. -/
theorem load_eq_map (m : Mem β) (a n : Nat) : load m a n = (List.range' a n).map m := by
  rw [List.range'_eq_map_range, List.map_map]
  rfl

/-- What is stored somewhere does not depend on what was there before. -/
theorem storeAll_at (m m' : Mem β) (stored : ∃ b, (b, a) ∈ todo) :
    storeAll m todo a = storeAll m' todo a := by
  -- Two memories that agree at the address keep agreeing there.
  have agree : ∀ (todo : List (β × Nat)) (m m' : Mem β), m a = m' a →
      storeAll m todo a = storeAll m' todo a := by
    intro todo
    induction todo with
    | nil => exact fun _ _ same => same
    | cons first todo ih =>
      intro m m' same
      refine ih _ _ ?_
      unfold store
      rw [same]
  obtain ⟨b, member⟩ := stored
  induction todo generalizing m m' with
  | nil => cases member
  | cons first todo ih =>
    obtain ⟨b', a'⟩ := first
    rcases List.mem_cons.mp member with head | tail
    · cases head
      have self : ∀ m : Mem β, store m a [b] a = b := fun m =>
        store_inside m a 0 [b] Nat.zero_lt_one
      refine agree todo _ _ ?_
      rw [self, self]
    · exact ih _ _ tail

/-! ## Slots of a ring -/

/-- The address is one of the `n` slots from position `p` on. -/
def Inside (s N p n a : Nat) : Prop := ∃ i < n, slot s N (p + i) ≤ a ∧ a < slot s N (p + i) + s

theorem Inside.congr (inside : Inside s N p n a) (same : p % N = q % N) : Inside s N q n a := by
  obtain ⟨i, below, bounds⟩ := inside
  refine ⟨i, below, ?_⟩
  rwa [slot_congr (show (q + i) % N = (p + i) % N by rw [Nat.add_mod, ← same, ← Nat.add_mod])]

/-- A store into the slots behind a window, less than one revolution away, leaves it alone. -/
theorem window_store (m : Mem β) {k : Nat} (b : β) (inside : Inside s N (p + k) n a)
    (room : k + n ≤ N) : window s N (store m a [b]) p k = window s N m p k := by
  obtain ⟨j, below, lower, upper⟩ := inside
  apply List.map_congr_left
  intro i member
  have early := List.mem_range.mp member
  apply record_store_disjoint
  rw [List.length_singleton]
  have disjoint := slot_disjoint (s := s)
    (mod_ne_of_window (N := N) (show p + i < p + k + j by omega) (by omega))
  omega

/-- The stores of a copy go to the slots that it changes. -/
theorem inside_of_storeAll {x y : β} (ne : x ≠ y) {xs : List (Vector β s)}
    (copies : ∀ m : Mem β, storeAll m todo = put s N m p xs) {b : β} (member : (b, a) ∈ todo) :
    Inside s N p xs.length a := by
  by_contra outside
  have frame : ∀ m : Mem β, storeAll m todo a = m a := by
    intro m
    rw [copies]
    apply put_frame
    intro i below
    by_contra bounds
    exact outside ⟨i, below, by omega, by omega⟩
  have same := storeAll_at (fun _ => x) (fun _ => y) ⟨b, member⟩
  rw [frame, frame] at same
  exact ne same

theorem store_load (m : Mem β) (a n : Nat) : store m a (load m a n) = m := by
  funext b
  rcases store_cases m a b (load m a n) with ⟨i, below, rfl, inside⟩ | ⟨_, same⟩
  · rw [inside]
    simp only [load, List.getElem_map, List.getElem_range]
  · exact same

/-- Storing what is there already. -/
theorem put_window_self (m : Mem β) (xs : List (Vector β s))
    (held : window s N m p xs.length = xs) : put s N m p xs = m := by
  induction xs generalizing p with
  | nil => rfl
  | cons x xs ih =>
    rw [List.length_cons, Nat.add_comm, window_add] at held
    obtain ⟨first, rest⟩ := List.cons.inj held
    have bytes : x.toList = load m (slot s N p) s := by
      rw [← toList_record, ← first]
      rfl
    rw [put, bytes, store_load, ih rest]

end ByteCopies
