import Fmq.Lib.Memory

/-!
# Records that start with their size

A record in a buffer is its size, then its fields. The writer comes back to the size when all the
fields are there. A reader takes the fields it knows as far as the size reaches, and goes to the end
of the record from wherever it is then: what it reads may have fewer or more fields than it knows.
-/
namespace SizedRecords

open Memory

variable {C α W R : Type}

structure Buffer (C : Type) where
  data : Mem C
  position : Nat

/-- A result code, zero for success. -/
abbrev ResultCode := Int32

abbrev Serializer (C α : Type) := α → Buffer C → ResultCode × Buffer C

/-- Reading goes over an old value. It moves the position and leaves the data. -/
abbrev Deserializer (C α : Type) := α → Buffer C → ResultCode × α × Nat

structure Format (C α : Type) where
  write : Serializer C α
  read : Deserializer C α

/-- The largest position, and the largest size. -/
def maxPosition : Nat := 2147483647

/-! ## Fields and records -/

/-- A part of a value. -/
def Serializer.field (w : Serializer C α) (get : R → α) : Serializer C R := fun r b => w (get r) b

def Deserializer.field (rd : Deserializer C α) (get : R → α) (set : α → R → R) :
    Deserializer C R := fun r b =>
  let (status, x, position) := rd (get r) b
  (status, set x r, position)

def Format.field (f : Format C α) (get : R → α) (set : α → R → R) : Format C R :=
  ⟨f.write.field get, f.read.field get set⟩

def writeFields : List (Serializer C W) → Serializer C W
  | [], _, b => (0, b)
  | w :: fields, x, b =>
    let (status, b) := w x b
    if status ≠ 0 then (status, b) else writeFields fields x b

/-- The fields behind a size that is not known yet. -/
def writeBody (header : Serializer C Int32) (fields : List (Serializer C W)) :
    Serializer C W := fun x b =>
  let (status, b) := header 0 b
  if status ≠ 0 then (status, b) else writeFields fields x b

/-- What `rest` writes behind the fields belongs to the record. Nobody looks at its status. -/
def writeRecord (header : Serializer C Int32) (fields : List (Serializer C W))
    (rest : Serializer C W) : Serializer C W := fun x b =>
  let start := b.position
  let (status, b) := writeBody header fields x b
  if status ≠ 0 then (status, b)
  else
    let b := (rest x b).2
    let stop := b.position
    let b := (header (.ofInt (stop - start)) ⟨b.data, start⟩).2
    (0, ⟨b.data, stop⟩)

/-- The fields of a record of `size` from `start` on. -/
def readFields (start size : Nat) (rest : Deserializer C R) :
    List (Deserializer C R) → Deserializer C R
  | [], r, b =>
    let (status, r, _) := rest r b
    (status, r, start + size)
  | rd :: fields, r, b =>
    if (size : Int) ≤ b.position - start then (0, r, start + size)
    else
      let (status, r, position) := rd r b
      if status ≠ 0 then (status, r, position)
      else readFields start size rest fields r ⟨b.data, position⟩

/-- A size that does not cover itself or that ends behind the largest position is refused with
`badValue`. What `rest` reads behind the fields decides on the status. -/
def readRecord (header : Deserializer C Int32) (badValue : ResultCode)
    (fields : List (Deserializer C R)) (rest : Deserializer C R) : Deserializer C R := fun r b =>
  let start := b.position
  let (status, size, position) := header 0 b
  if status ≠ 0 then (status, r, position)
  else if size < 4 then (badValue, r, position)
  else if (maxPosition : Int) - size.toInt < start then (badValue, r, position)
  else readFields start size.toInt.toNat rest fields r ⟨b.data, position⟩

/-- Nothing behind the fields. -/
def Serializer.nothing : Serializer C W := fun _ b => (0, b)

def Deserializer.nothing : Deserializer C R := fun r b => (0, r, b.position)

/-! ## Laws -/

/-- The memories are the same from `start` to `stop`. -/
def Agrees (data data' : Mem C) (start stop : Nat) : Prop :=
  ∀ i, start ≤ i → i < stop → data' i = data i

/-- What stands from `start` to `stop` is read, and makes of the old value what `Yields` says. -/
def Holds (rd : Deserializer C R) (Yields : R → R → Prop) (data : Mem C) (start stop : Nat) :
    Prop :=
  ∀ data', Agrees data data' start stop → ∀ old, ∃ new,
    rd old ⟨data', start⟩ = (0, new, stop) ∧ Yields old new

/-- A successful write moves the position on, and changes nothing outside what it has passed. -/
structure Serializer.Lawful (w : Serializer C W) : Prop where
  advances : ∀ {x b b'}, w x b = (0, b') → b.position < b'.position
  bounded : ∀ {x b b'}, w x b = (0, b') → b'.position ≤ maxPosition
  frame : ∀ {x b b'}, w x b = (0, b') →
    ∀ i, i < b.position ∨ b'.position ≤ i → b'.data i = b.data i

/-- The reader finds what the writer has written. -/
structure Matches (w : Serializer C W) (rd : Deserializer C R) (Carries : W → R → R → Prop) : Prop
    extends w.Lawful where
  holds : ∀ {x b b'}, w x b = (0, b') → Holds rd (Carries x) b'.data b.position b'.position

/-- A size takes four places, whatever it is, and can be written over another one. -/
structure Header (header : Format C Int32) : Prop
    extends Matches header.write header.read (fun x _ y => y = x) where
  width : ∀ {x b b'}, header.write x b = (0, b') → b'.position = b.position + 4
  rewrite : ∀ {x b b' data} y, header.write x b = (0, b') →
    Agrees b'.data data b.position b'.position → (header.write y ⟨data, b.position⟩).1 = 0

/-- What writers do to a buffer, one after the other. -/
structure Passed (b b' : Buffer C) : Prop where
  le : b.position ≤ b'.position
  bounded : b.position ≤ maxPosition → b'.position ≤ maxPosition
  frame : ∀ i, i < b.position ∨ b'.position ≤ i → b'.data i = b.data i

/-- Every reader finds its field behind the one before it. -/
inductive Stored (data : Mem C) :
    List (Deserializer C R) → List (R → R → Prop) → Nat → Nat → Prop
  | nil {p} : Stored data [] [] p p
  | cons {rd Yields fields yields p q r} : p < q → Holds rd Yields data p q →
      Stored data fields yields q r → Stored data (rd :: fields) (Yields :: yields) p r

/-- What reading one field after the other makes of an old value. -/
def Sequence : List (R → R → Prop) → R → R → Prop
  | [], old, new => new = old
  | Yields :: yields, old, new => ∃ r, Yields old r ∧ Sequence yields r new

/-- Readers that find, field by field, what the writers have written. -/
inductive FieldsMatch :
    List (Serializer C W) → List (Deserializer C R) → List (W → R → R → Prop) → Prop
  | nil : FieldsMatch [] [] []
  | cons {w rd Carries writers readers carries} : Matches w rd Carries →
      FieldsMatch writers readers carries →
      FieldsMatch (w :: writers) (rd :: readers) (Carries :: carries)

/-- A record from `start` to `stop`, whose readers find their fields from behind the size to
`reached`. -/
structure Record (header : Deserializer C Int32) (data : Mem C) (readers : List (Deserializer C R))
    (yields : List (R → R → Prop)) (start reached stop : Nat) : Prop where
  size : Holds header (fun _ size => size = .ofInt (stop - start)) data start (start + 4)
  fields : Stored data readers yields (start + 4) reached
  within : reached ≤ stop
  bounded : stop ≤ maxPosition

/-! ## Stretches of memory -/

variable {data data' data'' : Mem C} {rd : Deserializer C R} {Yields : R → R → Prop}
variable {start stop p q : Nat} {w : Serializer C W} {x : W} {b b' b'' : Buffer C}

theorem Agrees.mono (agrees : Agrees data data' start stop) (lower : start ≤ p)
    (upper : q ≤ stop) : Agrees data data' p q :=
  fun i inside below => agrees i (Nat.le_trans lower inside) (Nat.lt_of_lt_of_le below upper)

theorem Agrees.trans (first : Agrees data data' start stop)
    (second : Agrees data' data'' start stop) : Agrees data data'' start stop :=
  fun i inside below => (second i inside below).trans (first i inside below)

theorem Holds.of_agrees (holds : Holds rd Yields data start stop)
    (agrees : Agrees data data' start stop) : Holds rd Yields data' start stop :=
  fun _ agrees' => holds _ (agrees.trans agrees')

theorem Passed.refl (b : Buffer C) : Passed b b := ⟨Nat.le_refl _, id, fun _ _ => rfl⟩

theorem Passed.trans (first : Passed b b') (second : Passed b' b'') : Passed b b'' where
  le := Nat.le_trans first.le second.le
  bounded := second.bounded ∘ first.bounded
  frame i outside := by
    rw [second.frame i (outside.imp_left fun below => Nat.lt_of_lt_of_le below first.le)]
    exact first.frame i (outside.imp_right fun above => Nat.le_trans second.le above)

/-- What has been written stays there. -/
theorem Passed.agrees (passed : Passed b b') (before : stop ≤ b.position) :
    Agrees b.data b'.data start stop :=
  fun i _ below => passed.frame i (Or.inl (Nat.lt_of_lt_of_le below before))

theorem exists_written {result : ResultCode × Buffer C} (done : result.1 = 0) :
    ∃ b', result = (0, b') := ⟨result.2, Prod.ext done rfl⟩

theorem Serializer.Lawful.passed (lawful : w.Lawful) (written : w x b = (0, b')) : Passed b b' :=
  ⟨Nat.le_of_lt (lawful.advances written), fun _ => lawful.bounded written, lawful.frame written⟩

/-! ## Fields -/

variable {readers : List (Deserializer C R)} {yields : List (R → R → Prop)}
variable {writers more : List (Serializer C W)} {carries : List (W → R → R → Prop)}

theorem Stored.le (stored : Stored data readers yields p q) : p ≤ q := by
  induction stored with
  | nil => exact Nat.le_refl _
  | cons advance _ _ ih => exact Nat.le_trans (Nat.le_of_lt advance) ih

theorem Stored.of_agrees (stored : Stored data readers yields p q)
    (agrees : Agrees data data' p q) : Stored data' readers yields p q := by
  induction stored with
  | nil => exact .nil
  | cons advance holds stored ih =>
    exact .cons advance (holds.of_agrees (agrees.mono (Nat.le_refl _) stored.le))
      (ih (agrees.mono (Nat.le_of_lt advance) (Nat.le_refl _)))

/-- The writer writes a part of its value. -/
theorem Matches.sender {V : Type} {Carries : W → R → R → Prop} (matching : Matches w rd Carries)
    (get : V → W) : Matches (w.field get) rd (fun x => Carries (get x)) where
  advances := matching.advances
  bounded := matching.bounded
  frame := matching.frame
  holds written := matching.holds written

/-- The reader reads a part of its value. -/
theorem Matches.receiver {S : Type} {Carries : W → R → R → Prop}
    (matching : Matches w rd Carries) (get : S → R) (set : R → S → S) :
    Matches w (rd.field get set)
      (fun x old new => ∃ r, Carries x (get old) r ∧ new = set r old) where
  advances := matching.advances
  bounded := matching.bounded
  frame := matching.frame
  holds written data agrees old := by
    obtain ⟨r, read, carries⟩ := matching.holds written data agrees (get old)
    refine ⟨set r old, ?_, r, carries, rfl⟩
    unfold Deserializer.field
    rw [read]

theorem Format.field_matching {f : Format C α} {Carries : α → α → α → Prop}
    (matching : Matches f.write f.read Carries) (get : R → α) (set : α → R → R) :
    Matches (f.field get set).write (f.field get set).read
      (fun x old new => ∃ y, Carries (get x) (get old) y ∧ new = set y old) :=
  (matching.sender get).receiver get set

theorem Matches.mono {Carries Carries' : W → R → R → Prop} (matching : Matches w rd Carries)
    (weaker : ∀ x old new, Carries x old new → Carries' x old new) : Matches w rd Carries' where
  advances := matching.advances
  bounded := matching.bounded
  frame := matching.frame
  holds written data agrees old := by
    obtain ⟨new, read, carries⟩ := matching.holds written data agrees old
    exact ⟨new, read, weaker _ _ _ carries⟩

theorem FieldsMatch.sender {V : Type} (matching : FieldsMatch writers readers carries)
    (get : V → W) :
    FieldsMatch (writers.map (·.field get)) readers
      (carries.map fun Carries x => Carries (get x)) := by
  induction matching with
  | nil => exact .nil
  | cons first _ ih => exact .cons (first.sender get) ih

theorem FieldsMatch.receiver {S : Type} (matching : FieldsMatch writers readers carries)
    (get : S → R) (set : R → S → S) :
    FieldsMatch writers (readers.map (·.field get set))
      (carries.map fun Carries x old new => ∃ r, Carries x (get old) r ∧ new = set r old) := by
  induction matching with
  | nil => exact .nil
  | cons first _ ih => exact .cons (first.receiver get set) ih

theorem FieldsMatch.take (matching : FieldsMatch writers readers carries) (n : Nat) :
    FieldsMatch (writers.take n) (readers.take n) (carries.take n) := by
  induction matching generalizing n with
  | nil =>
    rw [List.take_nil, List.take_nil, List.take_nil]
    exact .nil
  | cons first _ ih =>
    cases n with
    | zero => exact .nil
    | succ n => exact .cons first (ih n)

theorem writeFields_cons (written : writeFields (w :: writers) x b = (0, b')) :
    ∃ b₁, w x b = (0, b₁) ∧ writeFields writers x b₁ = (0, b') := by
  unfold writeFields at written
  dsimp only at written
  split at written
  next failed => exact absurd (congrArg Prod.fst written) failed
  next done =>
    exact ⟨(w x b).2, Prod.ext (not_not.mp done) rfl, written⟩

theorem writeFields_append (written : writeFields (writers ++ more) x b = (0, b')) :
    ∃ b₁, writeFields writers x b = (0, b₁) ∧ writeFields more x b₁ = (0, b') := by
  induction writers generalizing b with
  | nil => exact ⟨b, rfl, written⟩
  | cons w writers ih =>
    obtain ⟨b₁, first, others⟩ := writeFields_cons written
    obtain ⟨b₂, rest, last⟩ := ih others
    refine ⟨b₂, ?_, last⟩
    unfold writeFields
    rw [first]
    exact rest

theorem writeFields_passed (lawful : ∀ w ∈ writers, Serializer.Lawful w)
    (written : writeFields writers x b = (0, b')) : Passed b b' := by
  induction writers generalizing b with
  | nil =>
    cases written
    exact .refl _
  | cons w writers ih =>
    obtain ⟨b₁, first, others⟩ := writeFields_cons written
    exact ((lawful w List.mem_cons_self).passed first).trans
      (ih (fun w member => lawful w (List.mem_cons_of_mem _ member)) others)

theorem FieldsMatch.lawful (matching : FieldsMatch writers readers carries) :
    ∀ w ∈ writers, Serializer.Lawful w := by
  induction matching with
  | nil => exact fun _ member => absurd member List.not_mem_nil
  | cons first _ ih => exact List.forall_mem_cons.mpr ⟨first.toLawful, ih⟩

theorem FieldsMatch.stored (matching : FieldsMatch writers readers carries)
    (written : writeFields writers x b = (0, b')) :
    Stored b'.data readers (carries.map (· x)) b.position b'.position := by
  induction matching generalizing b with
  | nil =>
    cases written
    exact .nil
  | cons first others ih =>
    obtain ⟨b₁, head, tail⟩ := writeFields_cons written
    have passed := writeFields_passed others.lawful tail
    exact .cons (first.advances head) ((first.holds head).of_agrees
      (passed.agrees (Nat.le_refl _))) (ih tail)

/-- The readers go over what is stored for them, and the other readers go on behind it. -/
theorem Stored.read (stored : Stored data readers yields p q) (agrees : Agrees data data' p q)
    {size : Nat} (inside : start ≤ p) (within : q ≤ start + size) (rest : Deserializer C R)
    (others : List (Deserializer C R)) (old : R) :
    ∃ new, Sequence yields old new ∧
      readFields start size rest (readers ++ others) old ⟨data', p⟩ =
        readFields start size rest others new ⟨data', q⟩ := by
  induction stored generalizing old with
  | nil => exact ⟨old, rfl, rfl⟩
  | @cons rd Yields fields yields p q r advance holds stored ih =>
    obtain ⟨r₁, first, yielded⟩ :=
      holds data' (agrees.mono (Nat.le_refl _) stored.le) old
    obtain ⟨new, sequence, read⟩ := ih (agrees.mono (Nat.le_of_lt advance) (Nat.le_refl _))
      (Nat.le_trans inside (Nat.le_of_lt advance)) within r₁
    have upper := stored.le
    refine ⟨new, ⟨r₁, yielded, sequence⟩, ?_⟩
    rw [List.cons_append, readFields, if_neg (by simp only; omega), first]
    exact read

/-! ## Records -/

variable {header : Format C Int32} {badValue : ResultCode} {rest : Serializer C W}

theorem writeBody_cases (written : writeBody header.write writers x b = (0, b')) :
    ∃ b₁, header.write 0 b = (0, b₁) ∧ writeFields writers x b₁ = (0, b') := by
  unfold writeBody at written
  dsimp only at written
  split at written
  next failed => exact absurd (congrArg Prod.fst written) failed
  next done => exact ⟨(header.write 0 b).2, Prod.ext (not_not.mp done) rfl, written⟩

theorem writeRecord_cases (written : writeRecord header.write writers rest x b = (0, b')) :
    ∃ b₁, writeBody header.write writers x b = (0, b₁) ∧
      b'.position = (rest x b₁).2.position ∧
      b'.data = (header.write (.ofInt (b'.position - b.position))
        ⟨(rest x b₁).2.data, b.position⟩).2.data := by
  unfold writeRecord at written
  dsimp only at written
  split at written
  next failed => exact absurd (congrArg Prod.fst written) failed
  next done =>
    cases written
    exact ⟨(writeBody header.write writers x b).2, Prod.ext (not_not.mp done) rfl, rfl, rfl⟩

/-- The size is written over the zero that has been written first. -/
theorem Header.sized (law : Header header) (first : header.write 0 b = (0, b'))
    (passed : Passed b' b'') (size : Int32) :
    ∃ data, (header.write size ⟨b''.data, b.position⟩).2.data = data ∧
      (∀ i, i < b.position ∨ b.position + 4 ≤ i → data i = b''.data i) ∧
      Holds header.read (fun _ y => y = size) data b.position (b.position + 4) := by
  have again : (header.write size ⟨b''.data, b.position⟩).1 = 0 :=
    law.rewrite size first (passed.agrees (Nat.le_refl _))
  have written : header.write size ⟨b''.data, b.position⟩ =
      (0, (header.write size ⟨b''.data, b.position⟩).2) := Prod.ext again rfl
  have reached := law.width written
  have holds := law.holds written
  have frame := law.frame written
  rw [reached] at holds frame
  exact ⟨_, rfl, frame, holds⟩

/-- A record has been written: the fields, what `rest` has left behind them, and the size of all
that. The fields that have readers are the first ones. -/
theorem Header.record_written (law : Header header)
    (matching : FieldsMatch writers readers carries) (lawful : ∀ w ∈ more, Serializer.Lawful w)
    (rested : ∀ b₁, writeBody header.write (writers ++ more) x b = (0, b₁) →
      Passed b₁ (rest x b₁).2)
    (written : writeRecord header.write (writers ++ more) rest x b = (0, b')) :
    ∃ b₁ reached, writeBody header.write (writers ++ more) x b = (0, b₁) ∧
      b'.position = (rest x b₁).2.position ∧
      Agrees (rest x b₁).2.data b'.data b₁.position b'.position ∧
      Passed b b' ∧ (more = [] → reached = b₁.position) ∧
      Record header.read b'.data readers (carries.map (· x)) b.position reached b'.position := by
  obtain ⟨b₁, body, position, data⟩ := writeRecord_cases written
  obtain ⟨b₀, first, fields⟩ := writeBody_cases body
  obtain ⟨b₂, known, others⟩ := writeFields_append fields
  have width := law.width first
  have toKnown := writeFields_passed matching.lawful known
  have toBody := writeFields_passed lawful others
  have toRest := rested b₁ body
  obtain ⟨data', same, frame, size⟩ :=
    law.sized first ((toKnown.trans toBody).trans toRest) (.ofInt (b'.position - b.position))
  rw [← data] at same
  subst same
  have passed := (law.passed first).trans ((toKnown.trans toBody).trans toRest)
  have stored := (matching.stored known).of_agrees
    ((toBody.trans toRest).agrees (Nat.le_refl _))
  rw [width] at stored
  have lower := stored.le
  have upper : b₂.position ≤ b'.position := position ▸ (toBody.trans toRest).le
  have ends := toBody.le
  refine ⟨b₁, b₂.position, body, position, fun i above _ => frame i (Or.inr (by omega)),
    ⟨by omega, fun start => position ▸ passed.bounded start, fun i outside => ?_⟩, ?_,
    size, ?_, upper, position ▸ toRest.bounded (toBody.bounded
      (toKnown.bounded (law.bounded first)))⟩
  · rw [frame i (by omega)]
    exact passed.frame i (position ▸ outside)
  · rintro rfl
    cases others
    rfl
  · exact stored.of_agrees fun i above _ => frame i (Or.inr above)

/-- The readers of a record go over their fields, and the other readers go on behind them. -/
theorem Record.read {reached : Nat}
    (record : Record header.read data readers yields start reached stop)
    (agrees : Agrees data data' start stop) (badValue : ResultCode) (reader : Deserializer C R)
    (others : List (Deserializer C R)) (old : R) :
    ∃ new, Sequence yields old new ∧
      readRecord header.read badValue (readers ++ others) reader old ⟨data', start⟩ =
        readFields start (stop - start) reader others new ⟨data', reached⟩ := by
  have lower := record.fields.le
  have upper := record.within
  have bounded : stop ≤ 2147483647 := record.bounded
  obtain ⟨_, size, rfl⟩ := record.size data'
    (agrees.mono (Nat.le_refl _) (Nat.le_trans lower upper)) 0
  have value : (Int32.ofInt (stop - start)).toInt = (stop : Int) - start :=
    Int32.toInt_ofInt_of_le (by omega) (by omega)
  have room : reached ≤ start + (stop - start) := by omega
  obtain ⟨new, sequence, read⟩ := record.fields.read
    (agrees.mono (Nat.le_add_right _ _) upper) (Nat.le_add_right _ _) room reader others old
  refine ⟨new, sequence, ?_⟩
  have small : ¬ Int32.ofInt (stop - start) < 4 := by
    rw [Int32.lt_iff_toInt_lt, value]
    exact Int.not_lt.mpr (show (4 : Int) ≤ _ by omega)
  have fits : ¬ (maxPosition : Int) - (Int32.ofInt (stop - start)).toInt < start := by
    rw [value]
    unfold maxPosition
    omega
  have exact_size : (Int32.ofInt (stop - start)).toInt.toNat = stop - start := by
    rw [value]
    omega
  unfold readRecord
  rw [size]
  dsimp only
  rw [if_neg (not_not.mpr rfl), if_neg small, if_neg fits, exact_size, read]

/-- A record is read to its end where the reader knows no more fields than the record has, or the
record no more than the reader knows. -/
theorem Record.holds {reached : Nat} {others : List (Deserializer C R)}
    (record : Record header.read data readers yields start reached stop) (badValue : ResultCode)
    (ends : others = [] ∨ reached = stop) :
    Holds (readRecord header.read badValue (readers ++ others) Deserializer.nothing)
      (Sequence yields) data start stop := by
  intro data' agrees old
  obtain ⟨new, sequence, read⟩ := record.read agrees badValue Deserializer.nothing others old
  have lower := record.fields.le
  have upper := record.within
  have whole : start + (stop - start) = stop := by omega
  refine ⟨new, read.trans ?_, sequence⟩
  cases others with
  | nil =>
    unfold readFields Deserializer.nothing
    rw [whole]
  | cons rd others =>
    have last : reached = stop := ends.resolve_left (List.cons_ne_nil _ _)
    rw [readFields, if_pos (by simp only; omega), whole]

theorem Header.written (law : Header header) (matching : FieldsMatch writers readers carries)
    (written : writeRecord header.write writers Serializer.nothing x b = (0, b')) :
    Passed b b' ∧
      Record header.read b'.data readers (carries.map (· x)) b.position b'.position
        b'.position := by
  rw [← List.append_nil writers] at written
  obtain ⟨b₁, reached, _, position, _, passed, all, record⟩ :=
    law.record_written matching (fun _ member => absurd member List.not_mem_nil)
      (fun b₁ _ => .refl b₁) written
  rw [all rfl, ← show b'.position = b₁.position from position] at record
  exact ⟨passed, record⟩

/-- The writer and the reader of one version. -/
theorem Header.record (law : Header header) (matching : FieldsMatch writers readers carries) :
    Matches (writeRecord header.write writers Serializer.nothing)
      (readRecord header.read badValue readers Deserializer.nothing)
      (fun x => Sequence (carries.map (· x))) where
  advances written := Nat.lt_of_lt_of_le (Nat.lt_add_of_pos_right (by decide))
    (law.written matching written).2.fields.le
  bounded written := (law.written matching written).2.bounded
  frame written := (law.written matching written).1.frame
  holds written := by
    have holds := (law.written matching written).2.holds badValue (Or.inl rfl)
    rwa [List.append_nil] at holds

end SizedRecords
