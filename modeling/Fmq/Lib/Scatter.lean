import Fmq.Lib.Memory

/-!
# Records at scattered addresses

Writing and reading an array of records whose `i`-th record has an address of its own. What is
written is read back as long as no two addresses overlap.
-/
namespace Scatter

open Memory

variable {β : Type} {s : Nat}

/-- The cells of two records have no address in common. -/
def Apart (s a b : Nat) : Prop := a + s ≤ b ∨ b + s ≤ a

/-- The memory after record `i` of `xs` was stored at `place i`, for each `i` in turn. -/
def scatter (m : Mem β) (place : Nat → Nat) : List (Vector β s) → Mem β
  | [] => m
  | x :: xs => scatter (store m (place 0) x.toList) (fun i => place (i + 1)) xs

/-- The `n` records at the addresses `place 0`, ..., `place (n - 1)`. -/
def gather (s : Nat) (m : Mem β) (place : Nat → Nat) (n : Nat) : List (Vector β s) :=
  (List.range n).map fun i => record s m (place i)

theorem scatter_congr (m : Mem β) (place place' : Nat → Nat) (xs : List (Vector β s))
    (same : ∀ i < xs.length, place i = place' i) : scatter m place xs = scatter m place' xs := by
  induction xs generalizing m place place' with
  | nil => rfl
  | cons x xs ih =>
    have first := same 0 (Nat.zero_lt_succ _)
    simp only [scatter, first]
    exact ih _ _ _ fun i below => same (i + 1) (Nat.succ_lt_succ below)

theorem scatter_append (m : Mem β) (place : Nat → Nat) (xs ys : List (Vector β s)) :
    scatter m place (xs ++ ys) =
      scatter (scatter m place xs) (fun i => place (xs.length + i)) ys := by
  induction xs generalizing m place with
  | nil => simp [scatter]
  | cons x xs ih =>
    simp only [List.cons_append, scatter, ih, List.length_cons]
    congr 1
    funext i
    congr 1
    omega

/-- Storing an array is scattering its records over consecutive addresses. -/
theorem store_eq_scatter (m : Mem β) (a : Nat) (xs : List (Vector β s)) :
    store m a (flat xs) = scatter m (fun i => a + i * s) xs := by
  induction xs generalizing m a with
  | nil => simp [scatter]
  | cons x xs ih =>
    have split := store_append m a x.toList (flat xs)
    rw [Vector.length_toList] at split
    rw [flat_cons, ← split, ih, scatter, Nat.zero_mul, Nat.add_zero]
    apply scatter_congr
    intro i _
    rw [Nat.succ_mul]
    omega

theorem gather_congr (m : Mem β) (place place' : Nat → Nat) (n : Nat)
    (same : ∀ i < n, place i = place' i) : gather s m place n = gather s m place' n := by
  apply List.map_congr_left
  intro i member
  rw [same i (List.mem_range.mp member)]

theorem gather_add (m : Mem β) (place : Nat → Nat) (a b : Nat) :
    gather s m place (a + b) = gather s m place a ++ gather s m (fun i => place (a + i)) b := by
  simp only [gather, List.range_add, List.map_append, List.map_map]
  rfl

theorem load_eq_gather (m : Mem β) (a n : Nat) :
    load m a (n * s) = flat (gather s m (fun i => a + i * s) n) := load_records m a n

/-- Frame: a record apart from every address written keeps its contents. -/
theorem record_scatter_apart (m : Mem β) (place : Nat → Nat) (xs : List (Vector β s)) (a : Nat)
    (apart : ∀ i < xs.length, Apart s a (place i)) :
    record s (scatter m place xs) a = record s m a := by
  induction xs generalizing m place with
  | nil => rfl
  | cons x xs ih =>
    rw [scatter, ih _ _ fun i below => apart (i + 1) (Nat.succ_lt_succ below)]
    apply record_store_disjoint
    rw [Vector.length_toList]
    exact apart 0 (Nat.zero_lt_succ _)

theorem record_scatter (m : Mem β) (place : Nat → Nat) (xs : List (Vector β s)) (i : Nat)
    (inside : i < xs.length) (apart : ∀ j < xs.length, i < j → Apart s (place i) (place j)) :
    record s (scatter m place xs) (place i) = xs[i] := by
  induction xs generalizing m place i with
  | nil => cases inside
  | cons x xs ih =>
    cases i with
    | zero =>
      rw [scatter, record_scatter_apart]
      · -- Record 0 is stored first, and no later store touches it.
        have stored := record_store m (place 0) 0 [x] (Nat.zero_lt_one)
        simpa using stored
      · intro j below
        exact apart (j + 1) (Nat.succ_lt_succ below) (Nat.succ_pos j)
    | succ i =>
      exact ih _ _ i (Nat.lt_of_succ_lt_succ inside) fun j below less =>
        apart (j + 1) (Nat.succ_lt_succ below) (Nat.succ_lt_succ less)

/-- Frame: an address in none of the records written. -/
theorem scatter_outside (m : Mem β) (place : Nat → Nat) (xs : List (Vector β s)) {a : Nat}
    (outside : ∀ i < xs.length, a < place i ∨ place i + s ≤ a) : scatter m place xs a = m a := by
  induction xs generalizing m place with
  | nil => rfl
  | cons x xs ih =>
    have first := outside 0 (Nat.zero_lt_succ _)
    rw [scatter, ih _ _ fun i below => outside (i + 1) (Nat.succ_lt_succ below)]
    exact store_outside _ _ _ _ (by rwa [Vector.length_toList])

theorem store_scatter_comm (m : Mem β) (a : Nat) (x : Vector β s) (place : Nat → Nat)
    (xs : List (Vector β s)) (apart : ∀ i < xs.length, Apart s a (place i)) :
    scatter (store m a x.toList) place xs = store (scatter m place xs) a x.toList := by
  induction xs generalizing m place with
  | nil => rfl
  | cons y xs ih =>
    have first := apart 0 (Nat.zero_lt_succ _)
    unfold Apart at first
    rw [scatter, scatter, store_comm _ _ _ _ _ (by simpa using first)]
    exact ih _ _ fun i below => apart (i + 1) (Nat.succ_lt_succ below)

/-- Records at addresses apart from each other are written in either order. -/
theorem scatter_comm (m : Mem β) (place place' : Nat → Nat) (xs ys : List (Vector β s))
    (apart : ∀ i < xs.length, ∀ j < ys.length, Apart s (place i) (place' j)) :
    scatter (scatter m place xs) place' ys = scatter (scatter m place' ys) place xs := by
  induction xs generalizing m place with
  | nil => rfl
  | cons x xs ih =>
    rw [scatter, scatter, ih _ _ fun i below => apart (i + 1) (Nat.succ_lt_succ below),
      store_scatter_comm _ _ _ _ _ (apart 0 (Nat.zero_lt_succ _))]

/-- No two of the first `n` records overlap. -/
def Separate (s : Nat) (place : Nat → Nat) (n : Nat) : Prop :=
  ∀ i j, i < j → j < n → Apart s (place i) (place j)

theorem gather_scatter (m : Mem β) (place : Nat → Nat) (xs : List (Vector β s))
    (separate : Separate s place xs.length) :
    gather s (scatter m place xs) place xs.length = xs := by
  apply List.ext_getElem (by simp [gather])
  intro i h1 h2
  simp only [gather, List.getElem_map, List.getElem_range]
  exact record_scatter m place xs i h2 fun j below less => separate i j less below

/-- A segment of the records. -/
theorem gather_segment (m : Mem β) (place : Nat → Nat) {start k n : Nat} (within : start + k ≤ n) :
    gather s m (fun i => place (start + i)) k = ((gather s m place n).drop start).take k := by
  apply List.ext_getElem
  · simp only [gather, List.length_map, List.length_range, List.length_take, List.length_drop]
    omega
  · intro i h1 h2
    simp [gather]

theorem eq_of_record_replicate {m : Mem β} {a b : Nat} {x : β}
    (same : record s m a = .replicate s x) (lower : a ≤ b) (upper : b < a + s) : m b = x := by
  obtain ⟨k, rfl⟩ := Nat.le.dest lower
  have inside : k < s := by omega
  have at_k := congrArg (fun v : Vector β s => v[k]) same
  simpa [record] using at_k

/-- Two records that overlap are not read back as any two were written. -/
theorem gather_scatter_overlap {x y : β} (differ : x ≠ y) (m : Mem β) (place : Nat → Nat)
    {n : Nat} (overlap : ¬ Separate s place n) : ∃ xs : List (Vector β s), xs.length = n ∧
      gather s (scatter m place xs) place n ≠ xs := by
  unfold Separate Apart at overlap
  push Not at overlap
  obtain ⟨i, j, less, below, reach_i, reach_j⟩ := overlap
  -- All records are of `x`s, but for record `j` of `y`s.
  refine ⟨(List.range n).map fun k => .replicate s (if k = j then y else x), by simp, ?_⟩
  intro same
  have at_i := congrArg (·[i]?) same
  have at_j := congrArg (·[j]?) same
  simp only [gather, List.getElem?_map, List.getElem?_range (Nat.lt_trans less below),
    List.getElem?_range below, Option.map_some, Option.some.injEq, if_neg (Nat.ne_of_lt less),
    if_true] at at_i at_j
  -- The first byte of the later one is in both.
  have in_i := eq_of_record_replicate (b := max (place i) (place j)) at_i (by omega) (by omega)
  have in_j := eq_of_record_replicate (b := max (place i) (place j)) at_j (by omega) (by omega)
  exact differ (in_i.symm.trans in_j)

end Scatter
