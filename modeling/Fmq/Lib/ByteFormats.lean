import Mathlib.Algebra.Group.Nat.Defs
import Fmq.Lib.SizedRecords

/-!
# Formats over bytes

Little-endian words of any width, values behind a number, and lists behind their length.
-/
namespace SizedRecords

open Memory

variable {C α : Type}

/-- The buffer has no room, or nothing more to read. -/
def exhausted : ResultCode := -12

/-- A number that no writer writes. -/
def unexpected : ResultCode := -8

/-! ## Words -/

/-- The lowest digits, the lowest first. -/
def digits : Nat → Nat → List UInt8
  | 0, _ => []
  | width + 1, n => .ofNat n :: digits width (n / 256)

def number : List UInt8 → Nat
  | [] => 0
  | digit :: digits => digit.toNat + 256 * number digits

def word (width : Nat) (encode : α → Nat) (decode : Nat → α) : Format UInt8 α where
  write x b :=
    if b.position + width ≤ maxPosition then
      (0, ⟨store b.data b.position (digits width (encode x)), b.position + width⟩)
    else (exhausted, b)
  read old b :=
    if b.position + width ≤ maxPosition then
      (0, decode (number (load b.data b.position width)), b.position + width)
    else (exhausted, old, b.position)

theorem length_digits (width n : Nat) : (digits width n).length = width := by
  induction width generalizing n with
  | zero => rfl
  | succ width ih => rw [digits, List.length_cons, ih]

theorem number_digits (width n : Nat) : number (digits width n) = n % 256 ^ width := by
  induction width generalizing n with
  | zero => rw [digits, number, Nat.pow_zero, Nat.mod_one]
  | succ width ih =>
    have power : 256 ^ (width + 1) = 256 * 256 ^ width := Nat.pow_succ'
    rw [digits, number, ih, UInt8.toNat_ofNat', power, Nat.mod_mul]

theorem word_written {width : Nat} {encode : α → Nat} {decode : Nat → α} {x : α}
    {b b' : Buffer UInt8} (written : (word width encode decode).write x b = (0, b')) :
    b.position + width ≤ maxPosition ∧
      b' = ⟨store b.data b.position (digits width (encode x)), b.position + width⟩ := by
  unfold word at written
  dsimp only at written
  split at written
  next room =>
    cases written
    exact ⟨room, rfl⟩
  · exact absurd (congrArg Prod.fst written) (show exhausted ≠ 0 by decide)

theorem word_matching {width : Nat} {encode : α → Nat} {decode : Nat → α} (pos : 0 < width)
    (small : ∀ x, encode x < 256 ^ width) (inverse : ∀ x, decode (encode x) = x) :
    Matches (word width encode decode).write (word width encode decode).read
      fun x _ y => y = x where
  advances written := by
    obtain ⟨_, rfl⟩ := word_written written
    exact Nat.lt_add_of_pos_right pos
  bounded written := by
    obtain ⟨room, rfl⟩ := word_written written
    exact room
  frame written i outside := by
    obtain ⟨_, rfl⟩ := word_written written
    exact store_outside _ _ _ _ (by rwa [length_digits])
  holds {x b b'} written data agrees old := by
    obtain ⟨room, rfl⟩ := word_written written
    have bytes : load data b.position width = digits width (encode x) := by
      rw [load_congr data _ b.position width agrees]
      have whole := load_store_inside b.data b.position 0 width (digits width (encode x))
        (Nat.le_of_eq (by rw [length_digits, Nat.zero_add]))
      rwa [Nat.add_zero, List.drop_zero,
        List.take_of_length_le (Nat.le_of_eq (length_digits _ _))] at whole
    refine ⟨x, ?_, rfl⟩
    unfold word
    dsimp only
    rw [if_pos room, bytes, number_digits, Nat.mod_eq_of_lt (small x), inverse]

/-- Four bytes can be the size of a record. -/
theorem word_header {encode : Int32 → Nat} {decode : Nat → Int32}
    (small : ∀ x, encode x < 256 ^ 4) (inverse : ∀ x, decode (encode x) = x) :
    Header (word 4 encode decode) where
  toMatches := word_matching (by decide) small inverse
  width written := by
    obtain ⟨_, rfl⟩ := word_written written
    rfl
  rewrite _ written _ := by
    obtain ⟨room, rfl⟩ := word_written written
    unfold word
    dsimp only
    rw [if_pos room]

/-! ## Values behind a number -/

/-- A number that the value determines, and a format that the number determines. -/
def behind (header : Format C Int32) (of : α → Int32) (f : Int32 → Format C α) : Format C α where
  write x b :=
    let (status, b) := header.write (of x) b
    if status ≠ 0 then (status, b) else (f (of x)).write x b
  read old b :=
    let (status, n, position) := header.read 0 b
    if status ≠ 0 then (status, old, position) else (f n).read old ⟨b.data, position⟩

theorem behind_cases {header : Format C Int32} {of : α → Int32} {f : Int32 → Format C α} {x : α}
    {b b' : Buffer C} (written : (behind header of f).write x b = (0, b')) :
    ∃ b₁, header.write (of x) b = (0, b₁) ∧ (f (of x)).write x b₁ = (0, b') := by
  unfold behind at written
  dsimp only at written
  split at written
  next failed => exact absurd (congrArg Prod.fst written) failed
  next done => exact ⟨(header.write (of x) b).2, Prod.ext (not_not.mp done) rfl, written⟩

theorem behind_matching {header : Format C Int32} {of : α → Int32} {f : Int32 → Format C α}
    {Carries : α → α → α → Prop} (law : Matches header.write header.read fun x _ y => y = x)
    (rest : ∀ {x b b'}, (f (of x)).write x b = (0, b') →
      Passed b b' ∧ Holds (f (of x)).read (Carries x) b'.data b.position b'.position) :
    Matches (behind header of f).write (behind header of f).read Carries where
  advances written := by
    obtain ⟨b₁, first, second⟩ := behind_cases written
    exact Nat.lt_of_lt_of_le (law.advances first) (rest second).1.le
  bounded written := by
    obtain ⟨b₁, first, second⟩ := behind_cases written
    exact (rest second).1.bounded (law.bounded first)
  frame written := by
    obtain ⟨b₁, first, second⟩ := behind_cases written
    exact ((law.passed first).trans (rest second).1).frame
  holds written data agrees old := by
    obtain ⟨b₁, first, second⟩ := behind_cases written
    obtain ⟨passed, holds⟩ := rest second
    have advance := law.advances first
    obtain ⟨_, number, rfl⟩ := ((law.holds first).of_agrees (passed.agrees (Nat.le_refl _)))
      data (agrees.mono (Nat.le_refl _) passed.le) 0
    obtain ⟨y, value, carries⟩ := holds data
      (agrees.mono (Nat.le_of_lt advance) (Nat.le_refl _)) old
    refine ⟨y, ?_, carries⟩
    simp only [behind, number, ne_eq, not_true_eq_false, if_false]
    exact value

/-- A value that is there. -/
def present (header : Format C Int32) (f : Format C α) : Format C α :=
  behind header (fun _ => 1) fun n => ⟨f.write, fun old b =>
    if n = 0 then (unexpected, old, b.position) else f.read old b⟩

theorem present_matching {header : Format C Int32} {f : Format C α}
    {Carries : α → α → α → Prop} (law : Matches header.write header.read fun x _ y => y = x)
    (matching : Matches f.write f.read Carries) :
    Matches (present header f).write (present header f).read Carries :=
  behind_matching law fun written => ⟨matching.passed written, matching.holds written⟩

/-! ## Lists -/

def readList (rd : Deserializer C α) (default : α) : Nat → Deserializer C (List α)
  | 0, _, b => (0, [], b.position)
  | n + 1, old, b =>
    let (status, x, position) := rd (old.headD default) b
    if status ≠ 0 then (status, old, position)
    else
      let (status, xs, position) := readList rd default n old.tail ⟨b.data, position⟩
      (status, x :: xs, position)

/-- The length, and the elements. -/
def counted (header : Format C Int32) (default : α) (f : Format C α) : Format C (List α) :=
  behind header (fun xs => .ofNat xs.length) fun n => {
    write := fun xs b =>
      if n.toInt = xs.length then writeFields (xs.map fun x _ => f.write x) () b
      else (unexpected, b)
    read := fun old b =>
      if n < 0 then (unexpected, old, b.position) else readList f.read default n.toInt.toNat old b }

theorem list_matching {f : Format C α} (default : α)
    (matching : Matches f.write f.read fun x _ y => y = x) {xs : List α} {b b' : Buffer C}
    (written : writeFields (xs.map fun x _ => f.write x) () b = (0, b')) :
    Passed b b' ∧ Holds (readList f.read default xs.length) (fun _ ys => ys = xs) b'.data
      b.position b'.position := by
  induction xs generalizing b with
  | nil =>
    cases written
    exact ⟨.refl _, fun _ _ _ => ⟨[], rfl, rfl⟩⟩
  | cons x xs ih =>
    obtain ⟨b₁, first, second⟩ := writeFields_cons written
    obtain ⟨passed, holds⟩ := ih second
    have advance := matching.advances first
    refine ⟨(matching.passed first).trans passed, fun data agrees old => ?_⟩
    obtain ⟨_, element, rfl⟩ := ((matching.holds first).of_agrees
      (passed.agrees (Nat.le_refl _))) data (agrees.mono (Nat.le_refl _) passed.le)
        (old.headD default)
    obtain ⟨_, elements, rfl⟩ := holds data
      (agrees.mono (Nat.le_of_lt advance) (Nat.le_refl _)) old.tail
    refine ⟨_, ?_, rfl⟩
    rw [List.length_cons, readList, element]
    dsimp only
    rw [if_neg (not_not.mpr rfl), elements]

theorem counted_matching {header : Format C Int32} {f : Format C α} (default : α)
    (law : Matches header.write header.read fun x _ y => y = x)
    (matching : Matches f.write f.read fun x _ y => y = x) :
    Matches (counted header default f).write (counted header default f).read
      fun xs _ ys => ys = xs := by
  refine behind_matching law fun {xs b b'} written => ?_
  dsimp only at written
  split at written
  next length =>
    obtain ⟨passed, holds⟩ := list_matching default matching written
    refine ⟨passed, fun data agrees old => ?_⟩
    obtain ⟨ys, read, same⟩ := holds data agrees old
    refine ⟨ys, ?_, same⟩
    have nonneg : ¬ Int32.ofNat xs.length < 0 := by
      rw [Int32.lt_iff_toInt_lt, length]
      exact Int.not_lt.mpr (Int.natCast_nonneg _)
    dsimp only
    rw [if_neg nonneg, length]
    exact read
  · exact absurd (congrArg Prod.fst written) (show unexpected ≠ 0 by decide)

/-- Words are written as long as there is room. -/
theorem words_written {width : Nat} {encode : α → Nat} {decode : Nat → α} {xs : List α}
    {b : Buffer UInt8} (room : b.position + width * xs.length ≤ maxPosition) :
    (writeFields (xs.map fun x _ => (word width encode decode).write x) () b).1 = 0 := by
  induction xs generalizing b with
  | nil => rfl
  | cons x xs ih =>
    rw [List.length_cons, Nat.mul_succ] at room
    have written : (word width encode decode).write x b =
        (0, ⟨store b.data b.position (digits width (encode x)), b.position + width⟩) := by
      unfold word
      exact if_pos (by omega)
    rw [List.map_cons, writeFields, written]
    exact ih (show b.position + width + width * xs.length ≤ maxPosition by omega)

theorem counted_words_written {width : Nat} {encode : α → Nat} {decode : Nat → α}
    {encode' : Int32 → Nat} {decode' : Nat → Int32} (default : α) {xs : List α}
    {b : Buffer UInt8} (small : xs.length < 2147483648)
    (room : b.position + 4 + width * xs.length ≤ maxPosition) :
    ((counted (word 4 encode' decode') default (word width encode decode)).write xs b).1 = 0 := by
  have written : (word 4 encode' decode').write (.ofNat xs.length) b =
      (0, ⟨store b.data b.position (digits 4 (encode' (.ofNat xs.length))),
        b.position + 4⟩) := by
    unfold word
    exact if_pos (by omega)
  have length : (Int32.ofNat xs.length).toInt = xs.length := Int32.toInt_ofNat_of_lt small
  unfold counted behind
  simp only [written, ne_eq, not_true_eq_false, if_false, length, if_true]
  exact words_written room

end SizedRecords
