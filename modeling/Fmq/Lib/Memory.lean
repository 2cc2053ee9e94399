import Mathlib.Data.List.Basic

/-!
# Flat memory and arrays of records

A memory is one cell per address. A record of type `Vector β s` occupies `s` consecutive
cells; an array of records is stored as the concatenation of its records.
-/
namespace Memory

variable {β : Type} {s : Nat}

/-- A flat memory: one cell at every address. -/
abbrev Mem (β : Type) := Nat → β

/-- The `n` cells from address `a` on. -/
def load (m : Mem β) (a n : Nat) : List β := (List.range n).map fun i => m (a + i)

/-- The memory after the cells `bs` were copied to the addresses from `a` on. -/
def store (m : Mem β) (a : Nat) (bs : List β) : Mem β :=
  fun b => if a ≤ b then (bs[b - a]?).getD (m b) else m b

@[simp] theorem length_load (m : Mem β) (a n : Nat) : (load m a n).length = n := by
  simp [load]

theorem load_add (m : Mem β) (a i j : Nat) : load m a (i + j) = load m a i ++ load m (a + i) j := by
  simp only [load, List.range_add, List.map_append, List.map_map]
  congr 1
  apply List.map_congr_left
  intro k _
  simp only [Function.comp_apply, Nat.add_assoc]

theorem getElem?_load (m : Mem β) (a n i : Nat) (inside : i < n) :
    (load m a n)[i]? = some (m (a + i)) := by
  simp [load, inside]

/-- An entry of a list extended by loaded cells is an old one or one of the cells. -/
theorem getElem?_append_load {xs : List β} {m : Mem β} {a n p : Nat} {y : β}
    (found : (xs ++ load m a n)[p]? = some y) :
    xs[p]? = some y ∨ ∃ i < n, p = xs.length + i ∧ m (a + i) = y := by
  by_cases old : p < xs.length
  · rw [List.getElem?_append_left old] at found
    exact Or.inl found
  · obtain ⟨i, rfl⟩ := Nat.le.dest (Nat.le_of_not_lt old)
    rw [List.getElem?_append_right (by omega), Nat.add_sub_cancel_left] at found
    have below : i < n := by simpa using (List.getElem?_eq_some_iff.mp found).1
    rw [getElem?_load _ _ _ _ below, Option.some.injEq] at found
    exact Or.inr ⟨i, below, rfl, found⟩

theorem load_congr (m m' : Mem β) (a n : Nat) (same : ∀ b, a ≤ b → b < a + n → m b = m' b) :
    load m a n = load m' a n := by
  apply List.map_congr_left
  intro i member
  have bound := List.mem_range.mp member
  exact same (a + i) (by omega) (by omega)

@[simp] theorem store_nil (m : Mem β) (a : Nat) : store m a [] = m := by
  funext b
  simp [store]

theorem store_inside (m : Mem β) (a i : Nat) (bs : List β) (inside : i < bs.length) :
    store m a bs (a + i) = bs[i] := by
  simp [store, inside]

theorem store_outside (m : Mem β) (a b : Nat) (bs : List β)
    (outside : b < a ∨ a + bs.length ≤ b) : store m a bs b = m b := by
  unfold store
  split
  next le =>
    have beyond : bs.length ≤ b - a := by omega
    rw [List.getElem?_eq_none beyond, Option.getD_none]
  · rfl

theorem store_cases (m : Mem β) (a b : Nat) (bs : List β) :
    (∃ i, ∃ inside : i < bs.length, b = a + i ∧ store m a bs b = bs[i]) ∨
      ((b < a ∨ a + bs.length ≤ b) ∧ store m a bs b = m b) := by
  by_cases outside : b < a ∨ a + bs.length ≤ b
  · exact Or.inr ⟨outside, store_outside m a b bs outside⟩
  · obtain ⟨i, rfl⟩ : ∃ i, b = a + i := ⟨b - a, by omega⟩
    have inside : i < bs.length := by omega
    exact Or.inl ⟨i, inside, rfl, store_inside m a i bs inside⟩

/-- Storing two lists one after the other is storing their concatenation. -/
theorem store_append (m : Mem β) (a : Nat) (bs cs : List β) :
    store (store m a bs) (a + bs.length) cs = store m a (bs ++ cs) := by
  funext b
  by_cases below : b < a
  · -- An address below both lists.
    rw [store_outside _ _ _ _ (by omega), store_outside _ _ _ _ (by omega),
      store_outside _ _ _ _ (by omega)]
  · obtain ⟨i, rfl⟩ : ∃ i, b = a + i := ⟨b - a, by omega⟩
    by_cases first : i < bs.length
    · -- An address inside `bs`, which the second store leaves alone.
      rw [store_outside _ _ _ _ (by omega), store_inside _ _ _ _ first,
        store_inside _ _ _ _ (by simp; omega), List.getElem_append_left first]
    · obtain ⟨j, rfl⟩ : ∃ j, i = bs.length + j := ⟨i - bs.length, by omega⟩
      by_cases second : j < cs.length
      · rw [← Nat.add_assoc, store_inside _ _ _ _ second, Nat.add_assoc,
          store_inside _ _ _ _ (by simp; omega), List.getElem_append_right (by omega)]
        simp only [Nat.add_sub_cancel_left]
      · rw [store_outside _ _ _ _ (by omega), store_outside _ _ _ _ (by omega),
          store_outside _ _ _ _ (by simp; omega)]

/-- Stores to disjoint ranges commute. -/
theorem store_comm (m : Mem β) (a c : Nat) (bs cs : List β)
    (disjoint : a + bs.length ≤ c ∨ c + cs.length ≤ a) :
    store (store m a bs) c cs = store (store m c cs) a bs := by
  funext b
  rcases store_cases m a b bs with ⟨i, below, rfl, inside⟩ | ⟨outside, same⟩
  · rw [store_outside _ c _ _ (by omega), inside, store_inside _ _ _ _ below]
  · rw [store_outside _ a _ _ outside]
    rcases store_cases m c b cs with ⟨i, below, rfl, inside⟩ | ⟨apart, _⟩
    · rw [store_inside _ _ _ _ below, inside]
    · rw [store_outside _ _ _ _ apart, store_outside _ _ _ _ apart, same]

theorem load_store_inside (m : Mem β) (a i n : Nat) (bs : List β) (inside : i + n ≤ bs.length) :
    load (store m a bs) (a + i) n = (bs.drop i).take n := by
  apply List.ext_getElem
  · simp only [length_load, List.length_take, List.length_drop]
    omega
  · intro j h1 h2
    simp only [length_load] at h1
    have at_j := store_inside m a (i + j) bs (by omega)
    simp only [load, List.getElem_map, List.getElem_range, List.getElem_take, List.getElem_drop,
      Nat.add_assoc, at_j]

theorem load_store_disjoint (m : Mem β) (a c n : Nat) (bs : List β)
    (disjoint : c + n ≤ a ∨ a + bs.length ≤ c) : load (store m a bs) c n = load m c n := by
  apply load_congr
  intro b lower upper
  exact store_outside m a b bs (by omega)

/-! ## Arrays of records -/

/-- The cells of an array of records. -/
def flat (xs : List (Vector β s)) : List β := xs.flatMap Vector.toList

@[simp] theorem flat_nil : flat ([] : List (Vector β s)) = [] := rfl

@[simp] theorem flat_cons (x : Vector β s) (xs : List (Vector β s)) :
    flat (x :: xs) = x.toList ++ flat xs := rfl

@[simp] theorem flat_append (xs ys : List (Vector β s)) : flat (xs ++ ys) = flat xs ++ flat ys := by
  simp [flat]

@[simp] theorem length_flat (xs : List (Vector β s)) : (flat xs).length = xs.length * s := by
  induction xs with
  | nil => simp
  | cons x xs ih => simp [ih, Nat.succ_mul, Nat.add_comm]

theorem flat_injective {xs ys : List (Vector β s)} (length : xs.length = ys.length)
    (same : flat xs = flat ys) : xs = ys := by
  induction xs generalizing ys with
  | nil => exact (List.length_eq_zero_iff.mp length.symm).symm
  | cons x xs ih =>
    cases ys with
    | nil => cases length
    | cons y ys =>
      rw [flat_cons, flat_cons] at same
      obtain ⟨first, rest⟩ := List.append_inj same (by simp)
      rw [Vector.toList_inj.mp first, ih (Nat.succ.inj length) rest]

theorem take_flat (xs : List (Vector β s)) (k : Nat) :
    (flat xs).take (k * s) = flat (xs.take k) := by
  induction xs generalizing k with
  | nil => simp
  | cons x xs ih =>
    cases k with
    | zero => simp
    | succ k =>
      have length_x : x.toList.length = s := by simp
      rw [flat_cons, List.take_succ_cons, flat_cons, ← ih k, Nat.succ_mul, Nat.add_comm,
        List.take_append, length_x, Nat.add_sub_cancel_left, List.take_of_length_le (by omega)]

theorem drop_flat (xs : List (Vector β s)) (k : Nat) :
    (flat xs).drop (k * s) = flat (xs.drop k) := by
  induction xs generalizing k with
  | nil => simp
  | cons x xs ih =>
    cases k with
    | zero => simp
    | succ k =>
      have length_x : x.toList.length = s := by simp
      rw [flat_cons, List.drop_succ_cons, ← ih k, Nat.succ_mul, Nat.add_comm,
        List.drop_append, length_x, Nat.add_sub_cancel_left, List.drop_eq_nil_of_le (by omega),
        List.nil_append]

/-- The record held by the `s` cells from address `a` on. -/
def record (s : Nat) (m : Mem β) (a : Nat) : Vector β s := Vector.ofFn fun j => m (a + j)

theorem toList_record (m : Mem β) (a : Nat) : (record s m a).toList = load m a s := by
  apply List.ext_getElem
  · simp
  · intro j h1 h2
    simp [record, load]

/-- Loading `k` records' worth of cells loads the `k` records. -/
theorem load_records (m : Mem β) (a k : Nat) :
    load m a (k * s) = flat ((List.range k).map fun i => record s m (a + i * s)) := by
  induction k with
  | zero => simp [load]
  | succ k ih =>
    rw [Nat.succ_mul, load_add, ih, List.range_succ, List.map_append, flat_append]
    simp [toList_record]

theorem record_store (m : Mem β) (a i : Nat) (xs : List (Vector β s)) (inside : i < xs.length) :
    record s (store m a (flat xs)) (a + i * s) = xs[i] := by
  -- All cells of record `i` are cells of the array.
  have room : i * s + s ≤ (flat xs).length := by
    rw [length_flat, ← Nat.succ_mul]
    exact Nat.mul_le_mul_right s inside
  rw [← Vector.toList_inj, toList_record, load_store_inside _ _ _ _ _ room, drop_flat]
  have one := take_flat (xs.drop i) 1
  rw [Nat.one_mul] at one
  rw [one, List.drop_eq_getElem_cons inside]
  simp only [List.take_succ_cons, List.take_zero, flat_cons, flat_nil, List.append_nil]

theorem record_store_disjoint (m : Mem β) (a c : Nat) (bs : List β)
    (disjoint : c + s ≤ a ∨ a + bs.length ≤ c) : record s (store m a bs) c = record s m c := by
  rw [← Vector.toList_inj, toList_record, toList_record, load_store_disjoint _ _ _ _ _ disjoint]

/-- An address inside an array of `n` records lies in one of them. -/
theorem exists_record {a n b : Nat} (lower : a ≤ b) (upper : b < a + n * s) :
    ∃ i < n, a + i * s ≤ b ∧ b < a + i * s + s := by
  obtain ⟨d, rfl⟩ := Nat.le.dest lower
  have within : d < s * n := by
    rw [Nat.mul_comm]
    omega
  have size : 0 < s := Nat.pos_of_ne_zero fun zero => by simp [zero] at within
  have parts := Nat.div_add_mod' d s
  have rest := Nat.mod_lt d size
  exact ⟨d / s, Nat.div_lt_of_lt_mul within, by omega, by omega⟩

/-- The records of an array of cells: record `i` starts at cell `i * s`. -/
def records [Inhabited β] (s n : Nat) (bs : List β) : List (Vector β s) :=
  (List.range n).map fun i => Vector.ofFn fun j => bs.getD (i * s + j) default

@[simp] theorem length_records [Inhabited β] (n : Nat) (bs : List β) :
    (records s n bs).length = n := by
  simp [records]

theorem records_flat [Inhabited β] (xs : List (Vector β s)) :
    records s xs.length (flat xs) = xs := by
  apply List.ext_getElem
  · simp
  · intro i h1 h2
    -- Cell `j` of record `i` is cell `i * s + j` of the array.
    have member : ∀ j (hj : j < s), (flat xs)[i * s + j]? = some xs[i][j] := by
      intro j hj
      have drop := drop_flat xs i
      rw [List.drop_eq_getElem_cons h2, flat_cons] at drop
      have eq := congrArg (fun l => l[j]?) drop
      simpa [List.getElem?_drop, List.getElem?_append_left, hj] using eq
    simp only [records, List.getElem_map, List.getElem_range]
    apply Vector.ext
    intro j hj
    simp [member j hj]

/-- The records of an array of cells hold its first cells. -/
theorem flat_records [Inhabited β] (n : Nat) (bs : List β) (room : n * s ≤ bs.length) :
    flat (records s n bs) = bs.take (n * s) := by
  have loaded := load_records (s := s) (fun i => bs.getD i default) 0 n
  have same : records s n bs =
      (List.range n).map fun i => record s (fun i => bs.getD i default) (0 + i * s) := by
    simp only [records, record, Nat.zero_add]
  rw [same, ← loaded]
  apply List.ext_getElem
  · rw [length_load, List.length_take, Nat.min_eq_left room]
  · intro i below below'
    rw [length_load] at below
    simp [load, List.getD_eq_getElem?_getD, Nat.lt_of_lt_of_le below room]

end Memory
