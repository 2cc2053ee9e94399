import Mathlib.Tactic.ByContra
import Fmq.Model.Codec

/-!
# What the decoder reads

The members that `from_string` finds in a document, one after the other, and how far it gets. The
grantor member is overwritten while the others are read, which changes none of them.
-/
namespace Fmq.SystemPorting

variable {json : JsonLibrary}

/-! ## The members of a document -/

section

variable (json)

def uintAt (v : json.Value) (key : String) : Option UInt32 :=
  (json.memberOf v key).bind json.asUInt

def uint64At (v : json.Value) (key : String) : Option UInt64 :=
  (json.memberOf v key).bind json.asUInt64

/-- A null name is the empty one. -/
def nameAt (v : json.Value) : Option String :=
  (json.memberOf v name_key).bind fun x => if json.isNull x then some "" else json.asString x

/-- The grantor in an element of the array. -/
def grantorIn (x : json.Value) : Option GrantorDescriptor := do
  let extent ← uint64At json x GrantorDescriptor_element_extent_key
  let fdIndex ← uintAt json x GrantorDescriptor_element_fdIndex_key
  let offset ← uintAt json x GrantorDescriptor_element_offset_key
  let flags ← uintAt json x GrantorDescriptor_element_flags_key
  return ⟨flags, fdIndex, offset, extent⟩

/-- The grantors in `n` elements, from index `i` on. -/
def grantorsIn (array : json.Value) (i : Nat) : Nat → Option (List GrantorDescriptor)
  | 0 => some []
  | n + 1 => do
    let x ← json.elementOf array i
    return (← grantorIn json x) :: (← grantorsIn array (i + 1) n)

/-- A grantor member that is neither an array nor null. -/
def Refused (raw : json.Value) : Prop :=
  ∃ array, json.memberOf raw GrantorDescriptor_key = some array ∧ json.isArray array = false ∧
    json.isNull array = false

instance (raw : json.Value) : Decidable (Refused json raw) :=
  decidable_of_iff (∃ array ∈ json.memberOf raw GrantorDescriptor_key,
    json.isArray array = false ∧ json.isNull array = false) Iff.rfl

/-! What is read before the first member that does not convert. -/

def grantorsRead (raw : json.Value) : Option (List GrantorDescriptor) := do
  let array ← json.memberOf raw GrantorDescriptor_key
  grantorsIn json array 0 (json.size array)

def quantumRead (raw : json.Value) : Option UInt32 := do
  let _ ← grantorsRead json raw
  uintAt json raw quantum_key

def flagsRead (raw : json.Value) : Option UInt32 := do
  let _ ← quantumRead json raw
  uintAt json raw flags_key

def numFdsRead (raw : json.Value) : Option UInt32 := do
  let _ ← flagsRead json raw
  uintAt json raw native_handle_t_numFds_key

def numIntsRead (raw : json.Value) : Option UInt32 := do
  let _ ← numFdsRead json raw
  uintAt json raw native_handle_t_numInts_key

def nameRead (raw : json.Value) : Option String := do
  let _ ← numIntsRead json raw
  nameAt json raw

/-- Every member converts. -/
def Complete (raw : json.Value) : Prop := (nameRead json raw).isSome

instance (raw : json.Value) : Decidable (Complete json raw) :=
  inferInstanceAs (Decidable (_ = true))

end

theorem length_grantorsIn {array : json.Value} {i n : Nat} {grantors : List GrantorDescriptor}
    (found : grantorsIn json array i n = some grantors) : grantors.length = n := by
  induction n generalizing i grantors with
  | zero =>
    cases found
    rfl
  | succ n ih =>
    simp only [grantorsIn, Option.bind_eq_bind, Option.bind_eq_some_iff] at found
    obtain ⟨x, -, grantor, -, rest, hrest, h⟩ := found
    cases h
    rw [List.length_cons, ih hrest]

/-! ## Runs -/

section

variable {α β : Type} {x : Decode json α} {f : α → Decode json β} {d d' : Decoder json}

theorem run_bind_ok {a : α} (h : x d = .ok a d') : (x >>= f) d = f a d' := by
  simp only [bind, EStateM.bind, h]

theorem run_bind_error {stop : Stop} (h : x d = .error stop d') :
    (x >>= f) d = .error stop d' := by
  simp only [bind, EStateM.bind, h]

theorem run_orThrow_some (a : α) : orThrow (some a) d = .ok a d := rfl

theorem run_modify (g : Decoder json → Decoder json) :
    (modify g : Decode json Unit) d = .ok () (g d) := rfl

theorem run_modifyGrantor (i : Nat) (g : GrantorDescriptor → GrantorDescriptor) :
    modifyGrantor i g d = .ok () { d with grantors := d.grantors.modify i g } := rfl

theorem run_value : value d = .ok (json.member d.raw_value GrantorDescriptor_key) d := rfl

end

/-! ## The grantors -/

/-- Stopped by an exception, with no other effect than in the elements of the grantors. -/
def Stopped (x : Decode json Unit) (d : Decoder json) : Prop :=
  ∃ grantors, x d = .error .exception { d with grantors } ∧
    grantors.length = d.grantors.length

theorem Stopped.refl {x : Decode json Unit} {d : Decoder json}
    (h : x d = .error .exception d) : Stopped x d :=
  ⟨d.grantors, h, rfl⟩

theorem Stopped.modify {x : Decode json Unit} {d : Decoder json} {i : Nat}
    {g : GrantorDescriptor → GrantorDescriptor}
    (stopped : Stopped x { d with grantors := d.grantors.modify i g }) :
    Stopped (do modifyGrantor i g; x) d := by
  obtain ⟨grantors, run, length⟩ := stopped
  refine ⟨grantors, ?_, by rw [length, List.length_modify]⟩
  rw [run_bind_ok (x := modifyGrantor i g) rfl]
  exact run

/-- An access and its conversion throw alike. -/
theorem orThrow_convert {α β γ : Type} (o : Option γ) (convert : γ → Option α)
    (k : α → Decode json β) :
    (do let v ← orThrow o; let a ← orThrow (convert v); k a) = orThrow (o.bind convert) >>= k := by
  cases o with
  | none => rfl
  | some v => rfl

theorem readGrantor_eq (i : Nat) : readGrantor i = (do
    let x ← orThrow (json.elementOf (← value) i)
    let extent ← orThrow (uint64At json x GrantorDescriptor_element_extent_key)
    modifyGrantor i fun grantor => { grantor with extent }
    let fdIndex ← orThrow (uintAt json x GrantorDescriptor_element_fdIndex_key)
    modifyGrantor i fun grantor => { grantor with fdIndex }
    let offset ← orThrow (uintAt json x GrantorDescriptor_element_offset_key)
    modifyGrantor i fun grantor => { grantor with offset }
    let flags ← orThrow (uintAt json x GrantorDescriptor_element_flags_key)
    modifyGrantor i fun grantor => { grantor with flags } : Decode json Unit) := by
  unfold readGrantor
  simp only [orThrow_convert]
  rfl

/-- The four assignments replace the whole grantor. -/
theorem modify_grantor (grantors : List GrantorDescriptor) (i : Nat) (grantor : GrantorDescriptor) :
    ((((grantors.modify i fun g => { g with extent := grantor.extent }).modify i
      fun g => { g with fdIndex := grantor.fdIndex }).modify i
      fun g => { g with offset := grantor.offset }).modify i
      fun g => { g with flags := grantor.flags }) = grantors.set i grantor := by
  have : Inhabited GrantorDescriptor := ⟨grantor⟩
  rw [List.modify_modify_eq, List.modify_modify_eq, List.modify_modify_eq, List.modify_eq_set]
  rfl

theorem readGrantor_some {d : Decoder json} {i : Nat} {grantor : GrantorDescriptor}
    (found : (json.elementOf (json.member d.raw_value GrantorDescriptor_key) i).bind
      (grantorIn json) = some grantor) :
    readGrantor i d = .ok () { d with grantors := d.grantors.set i grantor } := by
  obtain ⟨x, element, found⟩ := Option.bind_eq_some_iff.mp found
  simp only [grantorIn, Option.bind_eq_bind, Option.bind_eq_some_iff] at found
  obtain ⟨extent, hextent, fdIndex, hfdIndex, offset, hoffset, flags, hflags, h⟩ := found
  cases h
  rw [readGrantor_eq, run_bind_ok run_value, element, run_bind_ok (run_orThrow_some x), hextent,
    run_bind_ok (run_orThrow_some extent), run_bind_ok (run_modifyGrantor i _), hfdIndex,
    run_bind_ok (run_orThrow_some fdIndex), run_bind_ok (run_modifyGrantor i _), hoffset,
    run_bind_ok (run_orThrow_some offset), run_bind_ok (run_modifyGrantor i _), hflags,
    run_bind_ok (run_orThrow_some flags), run_modifyGrantor, ← modify_grantor]

theorem readGrantor_none {d : Decoder json} {i : Nat}
    (missing : (json.elementOf (json.member d.raw_value GrantorDescriptor_key) i).bind
      (grantorIn json) = none) : Stopped (readGrantor i) d := by
  rw [readGrantor_eq]
  have step {α : Type} {o : Option α} {k : α → Decode json Unit} {d : Decoder json}
      (next : ∀ a, o = some a → Stopped (k a) d) : Stopped (orThrow o >>= k) d := by
    cases o with
    | none => exact .refl rfl
    | some a => exact next a rfl
  refine step (d := d) fun x element => ?_
  refine step fun extent hextent => .modify (step fun fdIndex hfdIndex => .modify (step
    fun offset hoffset => .modify (step fun flags hflags => ?_)))
  simp only [element, Option.bind_some, grantorIn, hextent, hfdIndex, hoffset, hflags,
    Option.bind_eq_bind, Option.pure_def] at missing
  cases missing

/-- The loop replaces the grantors from index `i` on. -/
theorem readGrantors_some {d : Decoder json} {i n : Nat} {grantors : List GrantorDescriptor}
    (length : d.grantors.length = i + n)
    (found : grantorsIn json (json.member d.raw_value GrantorDescriptor_key) i n = some grantors) :
    readGrantors i n d = .ok () { d with grantors := d.grantors.take i ++ grantors } := by
  induction n generalizing i d grantors with
  | zero =>
    cases found
    rw [List.append_nil, List.take_of_length_le (by omega)]
    rfl
  | succ n ih =>
    simp only [grantorsIn, Option.bind_eq_bind, Option.bind_eq_some_iff] at found
    obtain ⟨x, element, grantor, hgrantor, rest, hrest, h⟩ := found
    cases h
    have first := readGrantor_some (Option.bind_eq_some_iff.mpr ⟨x, element, hgrantor⟩)
    have later := ih (d := { d with grantors := d.grantors.set i grantor })
      (by rw [List.length_set]; omega) hrest
    unfold readGrantors
    rw [run_bind_ok first, later]
    have split : (d.grantors.set i grantor).take (i + 1) = d.grantors.take i ++ [grantor] := by
      rw [List.take_add_one, List.take_set_of_le (Nat.le_refl i),
        List.getElem?_set_self (by omega)]
      rfl
    rw [split, List.append_assoc, List.singleton_append]

theorem Stopped.bind {x : Decode json Unit} {k : Unit → Decode json Unit} {d : Decoder json}
    (stopped : Stopped x d) : Stopped (x >>= k) d := by
  obtain ⟨grantors, run, length⟩ := stopped
  exact ⟨grantors, run_bind_error run, length⟩

/-- The loop stops at the first element that does not convert. -/
theorem readGrantors_none {d : Decoder json} {i n : Nat}
    (missing : grantorsIn json (json.member d.raw_value GrantorDescriptor_key) i n = none) :
    Stopped (readGrantors i n) d := by
  induction n generalizing i d with
  | zero => cases missing
  | succ n ih =>
    unfold readGrantors
    cases found : (json.elementOf (json.member d.raw_value GrantorDescriptor_key) i).bind
        (grantorIn json) with
    | none => exact (readGrantor_none found).bind
    | some grantor =>
      obtain ⟨x, element, hgrantor⟩ := Option.bind_eq_some_iff.mp found
      have rest :
          grantorsIn json (json.member d.raw_value GrantorDescriptor_key) (i + 1) n = none := by
        simpa only [grantorsIn, element, hgrantor, Option.bind_eq_bind, Option.bind_some,
          Option.pure_def, Option.bind_eq_none_iff, reduceCtorEq, imp_false,
          ← Option.eq_none_iff_forall_ne_some] using missing
      obtain ⟨grantors, run, length⟩ :=
        ih (d := { d with grantors := d.grantors.set i grantor }) rest
      refine ⟨grantors, ?_, by rw [length, List.length_set]⟩
      rw [run_bind_ok (readGrantor_some found), run]

/-! ## The other members -/

/-- `v` has the members of `raw`, apart from the one that is written to. -/
structure Reads (raw v : json.Value) : Prop where
  objectLike : json.objectLike v = true
  memberOf : ∀ key, key ≠ GrantorDescriptor_key → json.memberOf v key = json.memberOf raw key

variable {raw : json.Value} {d : Decoder json} {key : String}

/-- The value that an assignment leaves in the scratch member, and the other members as they
were. -/
theorem assignValue_cases (lawful : json.Lawful) (reads : Reads raw d.raw_value)
    (ne : key ≠ GrantorDescriptor_key) :
    ∃ x v, json.memberOf raw key = some x ∧ json.member v GrantorDescriptor_key = x ∧
      Reads raw v ∧ assignValue key d = .ok () { d with raw_value := v } := by
  have object := reads.objectLike
  have known : json.memberOf d.raw_value key = some (json.member d.raw_value key) :=
    JsonLibrary.memberOf_eq_some.mpr ⟨object, rfl⟩
  refine ⟨json.member d.raw_value key,
    json.setMember d.raw_value GrantorDescriptor_key (json.member d.raw_value key),
    (reads.memberOf key ne).symm.trans known, lawful.member_setMember _ _ _ object,
    ⟨lawful.objectLike_setMember object _ _, ?_⟩, ?_⟩
  · intro key' ne'
    rw [← reads.memberOf key' ne', JsonLibrary.memberOf, JsonLibrary.memberOf,
      lawful.objectLike_setMember object, object, lawful.member_setMember_ne _ _ _ _ object ne']
  · unfold assignValue
    rw [run_bind_ok (x := get) rfl, known]
    rfl

/-- The member that is asked for is the one that is converted. -/
theorem readUInt_cases (lawful : json.Lawful) (reads : Reads raw d.raw_value)
    (ne : key ≠ GrantorDescriptor_key) (set : UInt32 → Decoder json → Decoder json) :
    ∃ v, Reads raw v ∧ readUInt key set d = match uintAt json raw key with
      | some n => .ok () (set n { d with raw_value := v })
      | none => .error .exception { d with raw_value := v } := by
  obtain ⟨x, v, member, scratch, reads, assigned⟩ := assignValue_cases lawful reads ne
  refine ⟨v, reads, ?_⟩
  unfold readUInt
  rw [run_bind_ok assigned, run_bind_ok run_value, scratch, uintAt, member, Option.bind_some]
  cases json.asUInt x with
  | none => rfl
  | some n => rfl

theorem readName_cases (lawful : json.Lawful) (reads : Reads raw d.raw_value) :
    ∃ v, readName d = match nameAt json raw with
      | some name => .ok () { d with raw_value := v, name }
      | none => .error .exception { d with raw_value := v, name := "" } := by
  obtain ⟨x, v, member, scratch, -, assigned⟩ :=
    assignValue_cases lawful reads (by decide : name_key ≠ GrantorDescriptor_key)
  refine ⟨v, ?_⟩
  unfold readName
  rw [run_bind_ok assigned, run_bind_ok (run_modify _), run_bind_ok run_value, scratch, nameAt,
    member, Option.bind_some]
  cases json.isNull x with
  | true => rfl
  | false =>
    rw [if_pos Bool.not_false, run_bind_ok run_value, scratch]
    cases json.asString x with
    | none => rfl
    | some name => rfl

/-! ## The whole block -/

/-- The variables at the end of the block, wherever that was: each was assigned what was read for
it, or is as before. -/
structure Read (raw : json.Value) (out : Outputs) (d : Decoder json) : Prop where
  length : d.grantors.length =
    ((json.memberOf raw GrantorDescriptor_key).map json.size).getD out.grantors.length
  grantors : ∀ grantors ∈ grantorsRead json raw, d.grantors = grantors
  quantum : d.quantum = (quantumRead json raw).getD out.quantum
  flags : d.flags = (flagsRead json raw).getD out.flags
  numFds : d.numFds = ((numFdsRead json raw).getD 0).toInt32
  numInts : d.numInts = ((numIntsRead json raw).getD 0).toInt32
  name : ∀ name ∈ nameRead json raw, d.name = name

theorem length_resize (grantors : List GrantorDescriptor) (size : Nat) :
    (resize grantors size).length = size := by
  unfold resize
  rw [List.length_append, List.length_take, List.length_replicate]
  omega

variable {string : String} {out : Outputs}

theorem decoded_unparsed (out : Outputs) (unparsed : json.parse string = none) :
    ∃ d, decoded json string out = .error .returned d := by
  unfold decoded decode
  rw [unparsed]
  exact ⟨_, rfl⟩

/-- The block behind the grantors. -/
def readMembers : Decode json Unit := do
  readUInt quantum_key fun quantum d => { d with quantum }
  readUInt flags_key fun flags d => { d with flags }
  readUInt native_handle_t_numFds_key fun numFds d => { d with numFds := numFds.toInt32 }
  readUInt native_handle_t_numInts_key fun numInts d => { d with numInts := numInts.toInt32 }
  readName

/-- The block from the document on. -/
theorem decoded_parsed (parsed : json.parse string = some raw) :
    decoded json string out = (do
      let grantorValue ← orThrow (json.memberOf raw GrantorDescriptor_key)
      if !json.isArray grantorValue && !json.isNull grantorValue then
        throw .returned
      modify fun d => { d with grantors := resize d.grantors (json.size grantorValue) }
      readGrantors 0 (json.size grantorValue)
      readMembers : Decode json Unit)
        ⟨raw, out.grantors, out.quantum, out.flags, out.name, 0, 0⟩ := by
  unfold decoded decode
  rw [parsed]
  rfl

theorem decoded_refused (out : Outputs) (parsed : json.parse string = some raw)
    (refused : Refused json raw) : ∃ d, decoded json string out = .error .returned d := by
  obtain ⟨array, member, isArray, isNull⟩ := refused
  rw [decoded_parsed parsed, member, run_bind_ok (run_orThrow_some array), isArray, isNull]
  exact ⟨_, rfl⟩

/-- The block has run to its end exactly if every member was read, and to an exception otherwise. -/
def Ends (raw : json.Value) (out : Outputs) (r : EStateM.Result Stop (Decoder json) Unit) : Prop :=
  ∃ d, Read raw out d ∧ r = match nameRead json raw with
    | some _ => .ok () d
    | none => .error .exception d

theorem Ends.error {d : Decoder json} (stops : nameRead json raw = none) (read : Read raw out d) :
    Ends raw out (.error .exception d) :=
  ⟨d, read, by rw [stops]⟩

theorem Ends.ok {d : Decoder json} {name : String} (ends : nameRead json raw = some name)
    (read : Read raw out d) : Ends raw out (.ok () d) :=
  ⟨d, read, by rw [ends]⟩

/-- A block that goes on after a member. -/
theorem readUInt_ends (lawful : json.Lawful) (reads : Reads raw d.raw_value)
    (ne : key ≠ GrantorDescriptor_key) {set : UInt32 → Decoder json → Decoder json}
    {k : Decode json Unit}
    (stops : ∀ v, uintAt json raw key = none →
      Ends raw out (.error .exception { d with raw_value := v }))
    (found : ∀ v n, Reads raw v → uintAt json raw key = some n →
      Ends raw out (k (set n { d with raw_value := v }))) :
    Ends raw out ((do readUInt key set; k) d) := by
  obtain ⟨v, reads, run⟩ := readUInt_cases lawful reads ne set
  cases h : uintAt json raw key with
  | none =>
    rw [h] at run
    rw [run_bind_error run]
    exact stops v h
  | some n =>
    rw [h] at run
    rw [run_bind_ok run]
    exact found v n reads h

theorem readName_ends (lawful : json.Lawful) (reads : Reads raw d.raw_value)
    (stops : ∀ v, nameAt json raw = none →
      Ends raw out (.error .exception { d with raw_value := v, name := "" }))
    (found : ∀ v name, nameAt json raw = some name →
      Ends raw out (.ok () { d with raw_value := v, name })) :
    Ends raw out (readName d) := by
  obtain ⟨v, run⟩ := readName_cases lawful reads
  cases h : nameAt json raw with
  | none =>
    rw [run, h]
    exact stops v h
  | some name =>
    rw [run, h]
    exact found v name h

theorem readMembers_ends (lawful : json.Lawful) {grantors : List GrantorDescriptor}
    (object : json.objectLike raw = true) (read : grantorsRead json raw = some grantors)
    (length : grantors.length = json.size (json.member raw GrantorDescriptor_key)) :
    Ends raw out (readMembers ⟨raw, grantors, out.quantum, out.flags, out.name, 0, 0⟩) := by
  have member : json.memberOf raw GrantorDescriptor_key =
    some (json.member raw GrantorDescriptor_key) := JsonLibrary.memberOf_eq_some.mpr ⟨object, rfl⟩
  unfold readMembers
  refine readUInt_ends lawful ?_ ?_ (fun v h => ?_) fun v quantum reads h => ?_
  · exact ⟨object, fun _ _ => rfl⟩
  · decide
  · have stops : quantumRead json raw = none := by rw [quantumRead, read]; exact h
    refine .error ?_ ?_
    · simp [nameRead, numIntsRead, numFdsRead, flagsRead, stops]
    · constructor <;>
        simp [nameRead, numIntsRead, numFdsRead, flagsRead, stops, read, length, member]
  have hquantum : quantumRead json raw = some quantum := by rw [quantumRead, read]; exact h
  refine readUInt_ends lawful reads ?_ (fun v h => ?_) fun v flags reads h => ?_
  · decide
  · have stops : flagsRead json raw = none := by rw [flagsRead, hquantum]; exact h
    refine .error ?_ ?_
    · simp [nameRead, numIntsRead, numFdsRead, stops]
    · constructor <;>
        simp [nameRead, numIntsRead, numFdsRead, stops, hquantum, read, length, member]
  have hflags : flagsRead json raw = some flags := by rw [flagsRead, hquantum]; exact h
  refine readUInt_ends lawful reads ?_ (fun v h => ?_) fun v numFds reads h => ?_
  · decide
  · have stops : numFdsRead json raw = none := by rw [numFdsRead, hflags]; exact h
    refine .error ?_ ?_
    · simp [nameRead, numIntsRead, stops]
    · constructor <;> simp [nameRead, numIntsRead, stops, hflags, hquantum, read, length, member]
  have hnumFds : numFdsRead json raw = some numFds := by rw [numFdsRead, hflags]; exact h
  refine readUInt_ends lawful reads ?_ (fun v h => ?_) fun v numInts reads h => ?_
  · decide
  · have stops : numIntsRead json raw = none := by rw [numIntsRead, hnumFds]; exact h
    refine .error ?_ ?_
    · simp [nameRead, stops]
    · constructor <;> simp [nameRead, stops, hnumFds, hflags, hquantum, read, length, member]
  have hnumInts : numIntsRead json raw = some numInts := by rw [numIntsRead, hnumFds]; exact h
  refine readName_ends lawful ?_ (fun v h => ?_) fun v name h => ?_
  · exact reads
  · have stops : nameRead json raw = none := by rw [nameRead, hnumInts]; exact h
    refine .error stops ?_
    constructor <;> simp [stops, hnumInts, hnumFds, hflags, hquantum, read, length, member]
  · have hname : nameRead json raw = some name := by rw [nameRead, hnumInts]; exact h
    refine .ok hname ?_
    constructor <;> simp [hname, hnumInts, hnumFds, hflags, hquantum, read, length, member]

theorem decoded_cases (out : Outputs) (lawful : json.Lawful)
    (parsed : json.parse string = some raw) (accepted : ¬ Refused json raw) :
    Ends raw out (decoded json string out) := by
  rw [decoded_parsed parsed]
  cases member : json.memberOf raw GrantorDescriptor_key with
  | none =>
    have stops : grantorsRead json raw = none := by rw [grantorsRead, member]; rfl
    refine .error ?_ ?_
    · simp [nameRead, numIntsRead, numFdsRead, flagsRead, quantumRead, stops]
    · constructor <;>
        simp [nameRead, numIntsRead, numFdsRead, flagsRead, quantumRead, stops, member]
  | some array =>
    have isArray : (!json.isArray array && !json.isNull array) = false := by
      by_contra h
      simp only [Bool.not_eq_false, Bool.and_eq_true, Bool.not_eq_true'] at h
      exact accepted ⟨array, member, h⟩
    obtain ⟨object, rfl⟩ := JsonLibrary.memberOf_eq_some.mp member
    let size := json.size (json.member raw GrantorDescriptor_key)
    let d : Decoder json :=
      ⟨raw, resize out.grantors size, out.quantum, out.flags, out.name, 0, 0⟩
    have read : grantorsRead json raw =
        grantorsIn json (json.member d.raw_value GrantorDescriptor_key) 0 size := by
      rw [grantorsRead, member]
      rfl
    rw [run_bind_ok (run_orThrow_some _), isArray]
    change Ends raw out ((do readGrantors 0 size; readMembers) d)
    cases found : grantorsIn json (json.member d.raw_value GrantorDescriptor_key) 0 size with
    | none =>
      have stops : grantorsRead json raw = none := read.trans found
      obtain ⟨grantors, run, length⟩ := readGrantors_none found
      rw [length_resize] at length
      rw [run_bind_error run]
      refine .error ?_ ?_
      · simp [nameRead, numIntsRead, numFdsRead, flagsRead, quantumRead, stops]
      · constructor <;> simp [nameRead, numIntsRead, numFdsRead, flagsRead, quantumRead, stops,
          member, length, d, size]
    | some grantors =>
      have run := readGrantors_some (by rw [length_resize, Nat.zero_add]) found
      rw [run_bind_ok run]
      exact readMembers_ends lawful object (read.trans found) (length_grantorsIn found)

theorem decoded_ok_iff (lawful : json.Lawful) : (∃ d, decoded json string out = .ok () d) ↔
    ∃ raw, json.parse string = some raw ∧ ¬ Refused json raw ∧ Complete json raw := by
  constructor
  · rintro ⟨d, done⟩
    cases parsed : json.parse string with
    | none =>
      obtain ⟨d', run⟩ := decoded_unparsed out parsed
      cases run.symm.trans done
    | some raw =>
      by_cases refused : Refused json raw
      · obtain ⟨d', run⟩ := decoded_refused out parsed refused
        cases run.symm.trans done
      · obtain ⟨d', -, run⟩ := decoded_cases out lawful parsed refused
        refine ⟨raw, rfl, refused, ?_⟩
        unfold Complete
        cases stops : nameRead json raw with
        | none =>
          rw [stops] at run
          cases run.symm.trans done
        | some name => rfl
  · rintro ⟨raw, parsed, accepted, complete⟩
    obtain ⟨d, -, run⟩ := decoded_cases out lawful parsed accepted
    obtain ⟨name, ends⟩ := Option.isSome_iff_exists.mp complete
    rw [ends] at run
    exact ⟨d, run⟩

/-! ## The outputs -/

variable (nativeHandleCreate : Int32 → Int32 → Option NativeHandle) (out : Outputs)

theorem fromStringHidl_unparsed (unparsed : json.parse string = none) :
    (fromStringHidl json nativeHandleCreate string out).handle = out.handle := by
  obtain ⟨d, run⟩ := decoded_unparsed out unparsed
  unfold fromStringHidl
  rw [run]

theorem fromStringHidl_refused (parsed : json.parse string = some raw)
    (refused : Refused json raw) :
    (fromStringHidl json nativeHandleCreate string out).handle = out.handle := by
  obtain ⟨d, run⟩ := decoded_refused out parsed refused
  unfold fromStringHidl
  rw [run]

/-- The handle is created from the counts, whether the block has run to its end or not. -/
theorem fromStringHidl_accepted (lawful : json.Lawful) (parsed : json.parse string = some raw)
    (accepted : ¬ Refused json raw) :
    ∃ d, Read raw out d ∧ fromStringHidl json nativeHandleCreate string out =
      ⟨d.grantors, nativeHandleCreate d.numFds d.numInts, d.quantum, d.flags, d.name⟩ := by
  obtain ⟨d, read, run⟩ := decoded_cases out lawful parsed accepted
  refine ⟨d, read, ?_⟩
  unfold fromStringHidl
  rw [run]
  cases nameRead json raw with
  | none => rfl
  | some name => rfl

/-! ## Documents with the same contents -/

section

variable {v w : json.Value}

theorem uintAt_same (same : json.Same v w) (key : String) :
    uintAt json w key = uintAt json v key :=
  same.bind_memberOf (fun same => same.alike.asUInt) key

theorem uint64At_same (same : json.Same v w) (key : String) :
    uint64At json w key = uint64At json v key :=
  same.bind_memberOf (fun same => same.alike.asUInt64) key

theorem nameAt_same (same : json.Same v w) : nameAt json w = nameAt json v :=
  same.bind_memberOf (fun same => by rw [same.alike.isNull, same.alike.asString]) name_key

theorem grantorIn_same (same : json.Same v w) : grantorIn json w = grantorIn json v := by
  simp only [grantorIn, uintAt_same same, uint64At_same same]

theorem grantorsIn_same (same : json.Same v w) (i n : Nat) :
    grantorsIn json w i n = grantorsIn json v i n := by
  induction n generalizing i with
  | zero => rfl
  | succ n ih =>
    unfold grantorsIn
    rw [ih]
    exact same.bind_elementOf (fun same => by rw [grantorIn_same same]) i

theorem grantorsRead_same (same : json.Same v w) : grantorsRead json w = grantorsRead json v :=
  same.bind_memberOf (fun same => by rw [same.alike.size, grantorsIn_same same])
    GrantorDescriptor_key

theorem quantumRead_same (same : json.Same v w) : quantumRead json w = quantumRead json v := by
  rw [quantumRead, grantorsRead_same same, uintAt_same same, quantumRead]

theorem flagsRead_same (same : json.Same v w) : flagsRead json w = flagsRead json v := by
  rw [flagsRead, quantumRead_same same, uintAt_same same, flagsRead]

theorem numFdsRead_same (same : json.Same v w) : numFdsRead json w = numFdsRead json v := by
  rw [numFdsRead, flagsRead_same same, uintAt_same same, numFdsRead]

theorem numIntsRead_same (same : json.Same v w) : numIntsRead json w = numIntsRead json v := by
  rw [numIntsRead, numFdsRead_same same, uintAt_same same, numIntsRead]

theorem nameRead_same (same : json.Same v w) : nameRead json w = nameRead json v := by
  rw [nameRead, numIntsRead_same same, nameAt_same same, nameRead]

theorem refused_same (same : json.Same v w) (refused : Refused json w) : Refused json v := by
  obtain ⟨array, member, isArray, isNull⟩ := refused
  obtain ⟨object, rfl⟩ := JsonLibrary.memberOf_eq_some.mp member
  have object' := same.alike.objectLike.symm.trans object
  have alike := (same.member object' GrantorDescriptor_key).alike
  exact ⟨_, JsonLibrary.memberOf_eq_some.mpr ⟨object', rfl⟩, alike.isArray.symm.trans isArray,
    alike.isNull.symm.trans isNull⟩

end

end Fmq.SystemPorting
