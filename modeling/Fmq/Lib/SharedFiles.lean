import Mathlib.Logic.Function.Basic
import Fmq.Lib.Memory

/-!
# Files that several address spaces share

A file is a memory of its own. A region is a range of one file, and an address space shows the
bytes of files at its addresses. Where it maps a region, loads and stores at the addresses are
those of the region.
-/
namespace SharedFiles

open Memory

variable {F β : Type}

abbrev Files (F β : Type) := F → Mem β

structure Region (F : Type) where
  file : F
  offset : Nat
  length : Nat
  deriving DecidableEq, Repr

namespace Region

/-- The byte at `x` of file `f` is one of the region. -/
def Has (r : Region F) (f : F) (x : Nat) : Prop :=
  f = r.file ∧ r.offset ≤ x ∧ x < r.offset + r.length

/-- No byte is in both regions. -/
def Apart (r s : Region F) : Prop :=
  r.file ≠ s.file ∨ r.offset + r.length ≤ s.offset ∨ s.offset + s.length ≤ r.offset

variable {r s : Region F}

theorem Apart.symm (apart : r.Apart s) : s.Apart r := by
  rcases apart with files | before | after
  · exact Or.inl (Ne.symm files)
  · exact Or.inr (Or.inr before)
  · exact Or.inr (Or.inl after)

theorem Apart.not_has (apart : r.Apart s) {f : F} {x : Nat} (member : s.Has f x) :
    ¬ r.Has f x := by
  rintro ⟨rfl, lower, upper⟩
  obtain ⟨same, lower', upper'⟩ := member
  rcases apart with files | before | after
  · exact files same
  · omega
  · omega

end Region

/-- The bytes of a region. -/
def bytesOf (files : Files F β) (r : Region F) : List β := load (files r.file) r.offset r.length

theorem length_bytesOf (files : Files F β) (r : Region F) : (bytesOf files r).length = r.length :=
  length_load _ _ _

theorem getElem?_bytesOf (files : Files F β) {r : Region F} {i : Nat} (below : i < r.length) :
    (bytesOf files r)[i]? = some (files r.file (r.offset + i)) :=
  getElem?_load _ _ _ _ below

theorem bytesOf_congr {files files' : Files F β} {r : Region F}
    (same : ∀ x, r.offset ≤ x → x < r.offset + r.length → files' r.file x = files r.file x) :
    bytesOf files' r = bytesOf files r :=
  load_congr _ _ _ _ same

variable [DecidableEq F]

/-- The files after the bytes `bs` were stored to a region. -/
def withBytes (files : Files F β) (r : Region F) (bs : List β) : Files F β :=
  Function.update files r.file (store (files r.file) r.offset (bs.take r.length))

variable (files : Files F β) {r s : Region F} {bs : List β}

theorem withBytes_has (length : bs.length = r.length) (i : Nat) (inside : i < bs.length) :
    withBytes files r bs r.file (r.offset + i) = bs[i] := by
  have whole : bs.take r.length = bs := List.take_of_length_le (Nat.le_of_eq length)
  unfold withBytes
  rw [Function.update_self, whole, store_inside _ _ _ _ inside]

/-- Frame: a byte of no such region is left alone. -/
theorem withBytes_outside {f : F} {x : Nat} (outside : ¬ r.Has f x) (bs : List β) :
    withBytes files r bs f x = files f x := by
  unfold withBytes
  by_cases same : f = r.file
  · subst same
    rw [Function.update_self]
    refine store_outside _ _ _ _ ?_
    have bound := List.length_take_le r.length bs
    by_contra inside
    exact outside ⟨rfl, by omega, by omega⟩
  · rw [Function.update_of_ne same]

theorem bytesOf_withBytes (length : bs.length = r.length) :
    bytesOf (withBytes files r bs) r = bs := by
  apply List.ext_getElem (by rw [length_bytesOf, length])
  intro i below below'
  have found := getElem?_load (withBytes files r bs r.file) r.offset r.length i (by omega)
  rw [List.getElem?_eq_some_iff] at found
  obtain ⟨_, eq⟩ := found
  exact eq.trans (withBytes_has files length i below')

theorem bytesOf_withBytes_apart (apart : r.Apart s) :
    bytesOf (withBytes files r bs) s = bytesOf files s :=
  bytesOf_congr fun _ lower upper => withBytes_outside files (apart.not_has ⟨rfl, lower, upper⟩) bs

/-! ## Address spaces -/

/-- What an address space shows: the byte of a file at every address. -/
abbrev Space (F : Type) := Nat → F × Nat

/-- The region is mapped from `address` on. -/
def Maps (space : Space F) (address : Nat) (r : Region F) : Prop :=
  ∀ i < r.length, space (address + i) = (r.file, r.offset + i)

/-- The memory that a process sees. -/
def shown (space : Space F) (files : Files F β) : Mem β :=
  fun a => files (space a).1 (space a).2

/-- Storing through the address space, byte by byte. -/
def storeAt (space : Space F) (files : Files F β) : Nat → List β → Files F β
  | _, [] => files
  | a, b :: bs =>
    storeAt space
      (Function.update files (space a).1 (Function.update (files (space a).1) (space a).2 b))
      (a + 1) bs

variable {space : Space F} {address : Nat}

omit [DecidableEq F] in
theorem Maps.load (maps : Maps space address r) (files : Files F β) :
    Memory.load (shown space files) address r.length = bytesOf files r := by
  apply List.map_congr_left
  intro i member
  rw [shown, maps i (List.mem_range.mp member)]

omit [DecidableEq F] in
theorem Maps.tail {f : F} {o n : Nat} (maps : Maps space address ⟨f, o, n + 1⟩) :
    Maps space (address + 1) ⟨f, o + 1, n⟩ := by
  intro i below
  have next := maps (i + 1) (Nat.succ_lt_succ below)
  rw [Nat.add_assoc, Nat.add_comm 1 i, next, Nat.add_assoc, Nat.add_comm 1 i]

theorem Maps.storeAt {f : F} {o : Nat} (bs : List β) (maps : Maps space address ⟨f, o, bs.length⟩)
    (files : Files F β) :
    SharedFiles.storeAt space files address bs =
      Function.update files f (store (files f) o bs) := by
  induction bs generalizing files address o with
  | nil => rw [SharedFiles.storeAt, store_nil, Function.update_eq_self]
  | cons b bs ih =>
    have first := maps 0 (Nat.zero_lt_succ _)
    rw [Nat.add_zero, Nat.add_zero] at first
    rw [SharedFiles.storeAt, first, ih maps.tail, Function.update_self, Function.update_idem]
    congr 1
    -- The first byte, and the others behind it.
    have one : Function.update (files f) o b = store (files f) o [b] := by
      funext x
      by_cases same : x = o
      · subst same
        rw [Function.update_self]
        exact (store_inside (files f) x 0 [b] (Nat.zero_lt_one)).symm
      · rw [Function.update_of_ne same, store_outside _ _ _ _ (by
          rw [List.length_singleton]
          omega)]
    rw [one]
    exact store_append (files f) o [b] bs

/-- Where the region is mapped, storing to the addresses is storing to the region. -/
theorem Maps.store (maps : Maps space address r) (length : bs.length = r.length)
    (files : Files F β) : SharedFiles.storeAt space files address bs = withBytes files r bs := by
  obtain ⟨f, o, n⟩ := r
  have whole : bs.take n = bs := List.take_of_length_le (Nat.le_of_eq length)
  cases length
  rw [Maps.storeAt bs maps, withBytes, whole]

end SharedFiles
