import Fmq.Lib.Cyclic
import Fmq.Lib.Memory

/-!
# Rings of records

A ring keeps the records of a stream in `N` slots of `s` cells, the record of stream position
`p` in the slot of `p`. Reading and writing runs of positions, whether or not they pass the end
of the ring.
-/
namespace RecordRing

open Cyclic Memory

variable {β : Type} {s N : Nat} {p q : Nat}

/-- The record in the slot of position `p`. -/
def peek (s N : Nat) (m : Mem β) (p : Nat) : Vector β s := record s m (slot s N p)

/-- The records in the slots of the `n` positions from `p` on. -/
def window (s N : Nat) (m : Mem β) (p n : Nat) : List (Vector β s) :=
  (List.range n).map fun i => peek s N m (p + i)

/-- The ring after `xs` was written to the positions from `p` on. -/
def put (s N : Nat) (m : Mem β) : Nat → List (Vector β s) → Mem β
  | _, [] => m
  | p, x :: xs => put s N (store m (slot s N p) x.toList) (p + 1) xs

theorem peek_congr (m : Mem β) (same : p % N = q % N) : peek s N m p = peek s N m q := by
  simp only [peek, slot_congr same]

@[simp] theorem length_window (m : Mem β) (p n : Nat) : (window s N m p n).length = n := by
  simp [window]

theorem getElem_window (m : Mem β) (p n i : Nat) (inside : i < (window s N m p n).length) :
    (window s N m p n)[i] = peek s N m (p + i) := by
  simp [window]

theorem window_add (m : Mem β) (p a b : Nat) :
    window s N m p (a + b) = window s N m p a ++ window s N m (p + a) b := by
  simp only [window, List.range_add, List.map_append, List.map_map]
  congr 1
  apply List.map_congr_left
  intro i _
  simp only [Function.comp_apply, Nat.add_assoc]

/-- Decoding the bytes of a window gives its records. -/
theorem records_window [Inhabited β] (m : Mem β) (p n : Nat) :
    records s n (flat (window s N m p n)) = window s N m p n := by
  have decoded := records_flat (window s N m p n)
  rwa [length_window] at decoded

theorem peek_store_same (m : Mem β) (x : Vector β s) :
    peek s N (store m (slot s N p) x.toList) p = x := by
  have stored := record_store m (slot s N p) 0 [x] (by simp)
  simpa [peek] using stored

theorem peek_store_other (m : Mem β) (x : Vector β s) (ne : q % N ≠ p % N) :
    peek s N (store m (slot s N p) x.toList) q = peek s N m q := by
  apply record_store_disjoint
  have disjoint := slot_disjoint (s := s) ne
  simp only [Vector.length_toList]
  omega

theorem put_congr (m : Mem β) (xs : List (Vector β s)) (same : p % N = q % N) :
    put s N m p xs = put s N m q xs := by
  induction xs generalizing m p q with
  | nil => rfl
  | cons x xs ih =>
    simp only [put, slot_congr same]
    exact ih _ (by rw [Nat.add_mod p, Nat.add_mod q, same])

theorem put_append (m : Mem β) (p : Nat) (xs ys : List (Vector β s)) :
    put s N m p (xs ++ ys) = put s N (put s N m p xs) (p + xs.length) ys := by
  induction xs generalizing m p with
  | nil => rfl
  | cons x xs ih =>
    simp only [List.cons_append, put, List.length_cons, ih]
    congr 1
    omega

/-- Frame: positions in other slots keep their records. -/
theorem peek_put_outside (m : Mem β) (xs : List (Vector β s))
    (outside : ∀ i < xs.length, q % N ≠ (p + i) % N) :
    peek s N (put s N m p xs) q = peek s N m q := by
  induction xs generalizing m p with
  | nil => rfl
  | cons x xs ih =>
    simp only [put]
    rw [ih]
    · -- The first record went to position `p` itself.
      exact peek_store_other m x (by simpa using outside 0 (by simp))
    · intro i below
      have later := outside (i + 1) (by simpa using below)
      rwa [Nat.add_assoc, Nat.add_comm 1 i]

/-- Frame inside one revolution: positions not written keep their records. -/
theorem peek_put_apart (m : Mem β) (xs : List (Vector β s))
    (apart : q < p ∨ p + xs.length ≤ q) (lower : p + xs.length ≤ q + N) (upper : q < p + N) :
    peek s N (put s N m p xs) q = peek s N m q := by
  apply peek_put_outside
  intro i below
  rcases apart with before | after
  · exact mod_ne_of_window (by omega) (by omega)
  · exact (mod_ne_of_window (by omega) (by omega)).symm

theorem peek_put_inside (m : Mem β) (xs : List (Vector β s)) (i : Nat) (inside : i < xs.length)
    (capacity : xs.length ≤ N) : peek s N (put s N m p xs) (p + i) = xs[i] := by
  induction xs generalizing m p i with
  | nil => simp at inside
  | cons x xs ih =>
    simp only [List.length_cons] at inside capacity
    cases i with
    | zero =>
      simp only [put, Nat.add_zero, List.getElem_cons_zero]
      rw [peek_put_outside, peek_store_same]
      -- The rest goes to other slots, since `xs` fits in one revolution.
      intro j below
      exact mod_ne_of_window (by omega) (by omega)
    | succ i =>
      simp only [put, List.getElem_cons_succ]
      rw [show p + (i + 1) = p + 1 + i by omega]
      exact ih _ _ (by omega) (by omega)

/-- Frame: cells outside of the slots keep their contents. -/
theorem put_frame (m : Mem β) (xs : List (Vector β s)) (b : Nat)
    (outside : ∀ i < xs.length, b < slot s N (p + i) ∨ slot s N (p + i) + s ≤ b) :
    put s N m p xs b = m b := by
  induction xs generalizing m p with
  | nil => rfl
  | cons x xs ih =>
    rw [put, ih]
    · apply store_outside
      rw [Vector.length_toList]
      exact outside 0 (Nat.zero_lt_succ _)
    · intro i below
      have later := outside (i + 1) (Nat.succ_lt_succ below)
      rwa [Nat.add_assoc, Nat.add_comm 1 i]

/-- Copying a run of records that does not pass the end of the ring is one store. -/
theorem store_eq_put (m : Mem β) (xs : List (Vector β s)) (contiguous : p % N + xs.length ≤ N) :
    store m (slot s N p) (flat xs) = put s N m p xs := by
  induction xs generalizing m p with
  | nil => simp [put]
  | cons x xs ih =>
    simp only [List.length_cons] at contiguous
    have split := store_append m (slot s N p) x.toList (flat xs)
    rw [flat_cons, ← split, put, Vector.length_toList]
    -- Only the last record of the run may end at the end of the ring.
    cases xs with
    | nil => simp [put]
    | cons y ys =>
      simp only [List.length_cons] at contiguous ih
      have next : (p + 1) % N = p % N + 1 := add_mod_before (by omega)
      rw [← ih _ (by omega), slot, slot, next, Nat.succ_mul]

/-- Loading a run of positions that does not pass the end of the ring is one load. -/
theorem load_eq_window (m : Mem β) (n : Nat) (contiguous : p % N + n ≤ N) :
    load m (slot s N p) (n * s) = flat (window s N m p n) := by
  rw [load_records]
  congr 1
  apply List.map_congr_left
  intro i member
  have below := List.mem_range.mp member
  rw [peek, slot_add_before (by omega)]

theorem window_congr (m : Mem β) (n : Nat) (same : p % N = q % N) :
    window s N m p n = window s N m q n := by
  apply List.map_congr_left
  intro i _
  exact peek_congr m (by rw [Nat.add_mod p, Nat.add_mod q, same])

theorem take_window (m : Mem β) (p n k : Nat) (le : k ≤ n) :
    (window s N m p n).take k = window s N m p k := by
  obtain ⟨rest, rfl⟩ := Nat.le.dest le
  rw [window_add, List.take_append_of_le_length (by simp), List.take_of_length_le (by simp)]

theorem drop_window (m : Mem β) (p n k : Nat) (le : k ≤ n) :
    (window s N m p n).drop k = window s N m (p + k) (n - k) := by
  obtain ⟨rest, rfl⟩ := Nat.le.dest le
  rw [window_add, List.drop_append_of_le_length (by simp), List.drop_of_length_le (by simp),
    List.nil_append, Nat.add_sub_cancel_left]

/-- What was written is read back, as long as it fits in one revolution. -/
theorem window_put_same (m : Mem β) (xs : List (Vector β s)) (capacity : xs.length ≤ N) :
    window s N (put s N m p xs) p xs.length = xs := by
  apply List.ext_getElem (by simp)
  intro i h1 h2
  rw [getElem_window, peek_put_inside _ _ _ h2 capacity]

/-- Writing behind a window that leaves it room extends the window. -/
theorem window_put (m : Mem β) (p n : Nat) (xs : List (Vector β s)) (room : n + xs.length ≤ N) :
    window s N (put s N m (p + n) xs) p (n + xs.length) = window s N m p n ++ xs := by
  rw [window_add]
  congr 1
  · -- The old window: the new positions are less than one revolution ahead of it.
    apply List.map_congr_left
    intro i member
    have below := List.mem_range.mp member
    apply peek_put_outside
    intro j inside
    exact mod_ne_of_window (by omega) (by omega)
  · -- The new positions hold `xs`.
    exact window_put_same _ _ (by omega)

end RecordRing
