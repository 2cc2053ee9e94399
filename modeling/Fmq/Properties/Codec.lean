import Fmq.Lib.JsonTree
import Fmq.Properties.Decoding

/-!
# The round trip of descriptors through text

`from_string` has back what `generate_string` was given. The encoder uses one value for all the
grantors and for the whole document, and every use of it starts from a cleared one.
-/
namespace Fmq.SystemPorting

variable {json : JsonLibrary}

/-! ## The encoder -/

section

variable {v x : json.Value} {key : String}

theorem clear_eq (object : json.objectLike v = true) : clear json v = some (json.cleared v) := by
  unfold clear
  unfold JsonLibrary.objectLike at object
  rw [if_pos]
  cases json.isArray v with
  | true => rw [Bool.or_true, Bool.true_or]
  | false => rwa [Bool.or_false]

theorem uintAt_eq (lawful : json.Lawful) (object : json.objectLike v = true) {n : UInt32}
    (member : json.member v key = json.ofUInt n) : uintAt json v key = some n := by
  unfold uintAt
  rw [JsonLibrary.memberOf_eq_some.mpr ⟨object, member⟩]
  exact lawful.asUInt_ofUInt n

theorem uint64At_eq (lawful : json.Lawful) (object : json.objectLike v = true) {n : UInt64}
    (member : json.member v key = json.ofUInt64 n) : uint64At json v key = some n := by
  unfold uint64At
  rw [JsonLibrary.memberOf_eq_some.mpr ⟨object, member⟩]
  exact lawful.asUInt64_ofUInt64 n

theorem nameAt_eq (lawful : json.Lawful) (object : json.objectLike v = true) {name : String}
    (member : json.member v name_key = json.ofString name) : nameAt json v = some name := by
  unfold nameAt
  rw [JsonLibrary.memberOf_eq_some.mpr ⟨object, member⟩, Option.bind_some,
    lawful.isNull_ofString]
  exact lawful.asString_ofString name

end

/-- The members of one grantor. -/
def grantorMembers (json : JsonLibrary) (grantor : GrantorDescriptor) :
    List (String × json.Value) :=
  [(GrantorDescriptor_element_flags_key, json.ofUInt grantor.flags),
    (GrantorDescriptor_element_fdIndex_key, json.ofUInt grantor.fdIndex),
    (GrantorDescriptor_element_offset_key, json.ofUInt grantor.offset),
    (GrantorDescriptor_element_extent_key, json.ofUInt64 grantor.extent)]

theorem grantorIn_grantorMembers (lawful : json.Lawful) {v : json.Value}
    (object : json.objectLike v = true) (grantor : GrantorDescriptor) :
    grantorIn json (json.setMembers v (grantorMembers json grantor)) = some grantor := by
  have distinct : ((grantorMembers json grantor).map Prod.fst).Nodup := by
    change [GrantorDescriptor_element_flags_key, GrantorDescriptor_element_fdIndex_key,
      GrantorDescriptor_element_offset_key, GrantorDescriptor_element_extent_key].Nodup
    decide
  have object' := lawful.objectLike_setMembers object (grantorMembers json grantor)
  have member {key : String} {x : json.Value} (i : Nat)
      (at_i : (grantorMembers json grantor)[i]? = some (key, x)) :=
    lawful.member_setMembers object distinct (List.mem_of_getElem? at_i)
  unfold grantorIn
  rw [uint64At_eq lawful object' (member 3 rfl),
    uintAt_eq lawful object' (member 1 rfl),
    uintAt_eq lawful object' (member 2 rfl),
    uintAt_eq lawful object' (member 0 rfl)]
  rfl

/-- The array holds the grantors from index `i` on. What is before stays. -/
theorem encodeGrantors_eq (lawful : json.Lawful) {value array_value : json.Value} {i : Nat}
    (object : json.objectLike value = true) (array : json.arrayLike array_value = true)
    (size : json.size array_value = i) (grantors : List GrantorDescriptor) :
    ∃ value' array_value', encodeGrantors json i value array_value grantors =
        some (value', array_value') ∧
      json.objectLike value' = true ∧ json.arrayLike array_value' = true ∧
      json.size array_value' = i + grantors.length ∧
      (∀ j, j < i → json.element array_value' j = json.element array_value j) ∧
      grantorsIn json array_value' i grantors.length = some grantors := by
  induction grantors generalizing value array_value i with
  | nil => exact ⟨value, array_value, rfl, object, array, size, fun _ _ => rfl, rfl⟩
  | cons grantor grantors ih =>
    have cleared := lawful.objectLike_cleared value object
    let v := json.setMembers (json.cleared value) (grantorMembers json grantor)
    have object' : json.objectLike v = true := lawful.objectLike_setMembers cleared _
    subst size
    obtain ⟨value', array_value', encoded, last, array', size', before, found⟩ :=
      ih object' (lawful.arrayLike_setElement array _ v) (lawful.size_setElement _ v array)
    have own : json.elementOf array_value' (json.size array_value) = some v :=
      JsonLibrary.elementOf_eq_some.mpr ⟨array', (before _ (Nat.lt_succ_self _)).trans
        (lawful.element_setElement _ v array)⟩
    refine ⟨value', array_value', ?_, last, array', ?_, fun j lt => ?_, ?_⟩
    · rw [encodeGrantors, clear_eq object, ← encoded]
      simp only [Option.bind_eq_bind, Option.bind_some, assign, assignElement, cleared, array,
        lawful.objectLike_setMember, if_true]
      rfl
    · rw [size', List.length_cons]
      omega
    · rw [before j (Nat.lt_succ_of_lt lt), lawful.element_setElement_lt _ j v array lt]
    · rw [List.length_cons, grantorsIn, own, found]
      simp only [Option.bind_eq_bind, Option.bind_some, v, grantorIn_grantorMembers lawful cleared]
      rfl

/-- `handle->numFds` and `handle->numInts` as they are written. -/
def countsOf : Option NativeHandle → UInt32 × UInt32
  | some handle => (handle.numFds.toUInt32, handle.numInts.toUInt32)
  | none => (0, 0)

/-- The members of the document. -/
def members (array_value : json.Value) (grantors : List GrantorDescriptor)
    (handle : Option NativeHandle) (quantum flags : UInt32) (name : String) :
    List (String × json.Value) :=
  [(GrantorDescriptor_size_key, json.ofUInt64 (.ofNat grantors.length)),
    (GrantorDescriptor_key, array_value),
    (quantum_key, json.ofUInt quantum),
    (flags_key, json.ofUInt flags),
    (native_handle_t_numFds_key, json.ofUInt (countsOf handle).1),
    (native_handle_t_numInts_key, json.ofUInt (countsOf handle).2),
    (name_key, json.ofString name)]

/-- A document with these contents. -/
structure Holds (v : json.Value) (grantors : List GrantorDescriptor) (handle : Option NativeHandle)
    (quantum flags : UInt32) (name : String) : Prop where
  accepted : ¬ Refused json v
  grantors : grantorsRead json v = some grantors
  quantum : quantumRead json v = some quantum
  flags : flagsRead json v = some flags
  numFds : numFdsRead json v = some (countsOf handle).1
  numInts : numIntsRead json v = some (countsOf handle).2
  name : nameRead json v = some name

theorem document_holds (lawful : json.Lawful) (grantors : List GrantorDescriptor)
    (handle : Option NativeHandle) (quantum flags : UInt32) (name : String) :
    ∃ v, document json grantors handle quantum flags name = some v ∧
      Holds v grantors handle quantum flags name := by
  obtain ⟨value, array_value, encoded, object, array, size, -, found⟩ :=
    encodeGrantors_eq lawful lawful.objectLike_null lawful.arrayLike_null lawful.size_null grantors
  rw [Nat.zero_add] at size
  have cleared := lawful.objectLike_cleared value object
  let members := members array_value grantors handle quantum flags name
  let v := json.setMembers (json.cleared value) members
  have object' : json.objectLike v = true := lawful.objectLike_setMembers cleared members
  have distinct : (members.map Prod.fst).Nodup := by
    change [GrantorDescriptor_size_key, GrantorDescriptor_key, quantum_key, flags_key,
      native_handle_t_numFds_key, native_handle_t_numInts_key, name_key].Nodup
    decide
  have member {key : String} {x : json.Value} (i : Nat) (at_i : members[i]? = some (key, x)) :
      json.member v key = x :=
    lawful.member_setMembers cleared distinct (List.mem_of_getElem? at_i)
  have array_member : json.memberOf v GrantorDescriptor_key = some array_value :=
    JsonLibrary.memberOf_eq_some.mpr ⟨object', member 1 rfl⟩
  have hgrantors : grantorsRead json v = some grantors := by
    rw [grantorsRead, array_member, Option.bind_eq_bind, Option.bind_some, size]
    exact found
  have hquantum : quantumRead json v = some quantum := by
    rw [quantumRead, hgrantors]
    exact uintAt_eq lawful object' (member 2 rfl)
  have hflags : flagsRead json v = some flags := by
    rw [flagsRead, hquantum]
    exact uintAt_eq lawful object' (member 3 rfl)
  have hnumFds : numFdsRead json v = some (countsOf handle).1 := by
    rw [numFdsRead, hflags]
    exact uintAt_eq lawful object' (member 4 rfl)
  have hnumInts : numIntsRead json v = some (countsOf handle).2 := by
    rw [numIntsRead, hnumFds]
    exact uintAt_eq lawful object'
      (member 5 rfl)
  refine ⟨v, ?_, ?_, hgrantors, hquantum, hflags, hnumFds, hnumInts, ?_⟩
  · unfold document
    rw [encoded, Option.bind_eq_bind, Option.bind_some]
    cases handle <;>
    simp only [clear_eq object, Option.bind_eq_bind, Option.bind_some, assign, cleared,
      lawful.objectLike_setMember, if_true] <;>
    rfl
  · rintro ⟨array', member', isArray, isNull⟩
    cases array_member.symm.trans member'
    rw [JsonLibrary.arrayLike, isArray, isNull] at array
    cases array
  · rw [nameRead, hnumInts]
    exact nameAt_eq lawful object'
      (member 6 rfl)

theorem Holds.same {v w : json.Value} {grantors : List GrantorDescriptor}
    {handle : Option NativeHandle} {quantum flags : UInt32} {name : String}
    (holds : Holds v grantors handle quantum flags name) (same : json.Same v w) :
    Holds w grantors handle quantum flags name where
  accepted refused := holds.accepted (refused_same same refused)
  grantors := (grantorsRead_same same).trans holds.grantors
  quantum := (quantumRead_same same).trans holds.quantum
  flags := (flagsRead_same same).trans holds.flags
  numFds := (numFdsRead_same same).trans holds.numFds
  numInts := (numIntsRead_same same).trans holds.numInts
  name := (nameRead_same same).trans holds.name

/-! ## The round trip -/

variable {nativeHandleCreate : Int32 → Int32 → Option NativeHandle}

/-- A text with these contents replaces all the outputs. -/
theorem Holds.fromStringHidl {raw : json.Value} {grantors : List GrantorDescriptor}
    {handle : Option NativeHandle} {quantum flags : UInt32} {name string : String}
    (holds : Holds raw grantors handle quantum flags name) (lawful : json.Lawful)
    (parsed : json.parse string = some raw)
    (nativeHandleCreate : Int32 → Int32 → Option NativeHandle) (out : Outputs) :
    SystemPorting.fromStringHidl json nativeHandleCreate string out =
      ⟨grantors, nativeHandleCreate (countsOf handle).1.toInt32 (countsOf handle).2.toInt32,
        quantum, flags, name⟩ := by
  obtain ⟨d, read, result⟩ := fromStringHidl_accepted nativeHandleCreate out lawful parsed
    holds.accepted
  rw [result, read.grantors grantors holds.grantors, read.quantum, holds.quantum, read.flags,
    holds.flags, read.numFds, holds.numFds, read.numInts, holds.numInts,
    read.name name holds.name]
  rfl

/-- The document that is parsed has the contents that were written. -/
theorem parse_generateString (lawful : json.Lawful) {grantors : List GrantorDescriptor}
    {handle : Option NativeHandle} {quantum flags : UInt32} {name : String}
    (roundTrips : ∀ v, document json grantors handle quantum flags name = some v →
      json.RoundTrips v) :
    ∃ raw, json.parse (generateString json grantors handle quantum flags name) = some raw ∧
      Holds raw grantors handle quantum flags name := by
  obtain ⟨v, written, holds⟩ := document_holds lawful grantors handle quantum flags name
  obtain ⟨raw, parsed, same⟩ := roundTrips v written
  refine ⟨raw, ?_, holds.same same⟩
  unfold generateString
  rw [written]
  exact parsed

/-- Every descriptor with a handle has a text that gives it back, whatever the outputs were. -/
theorem fromString_generateString (lawful : json.Lawful)
    (counts : ∀ numFds numInts created, nativeHandleCreate numFds numInts = some created →
      created.numFds = numFds ∧ created.numInts = numInts)
    (grantors : List GrantorDescriptor) (handle : NativeHandle) (quantum flags : UInt32)
    (name : String) (creates : (nativeHandleCreate handle.numFds handle.numInts).isSome)
    (roundTrips : ∀ v, document json grantors (some handle) quantum flags name = some v →
      json.RoundTrips v) (out : Outputs) :
    ∃ handle', handle'.numFds = handle.numFds ∧ handle'.numInts = handle.numInts ∧
      fromStringHidl json nativeHandleCreate
        (generateString json grantors (some handle) quantum flags name) out =
          ⟨grantors, some handle', quantum, flags, name⟩ ∧
      fromString json nativeHandleCreate
        (generateString json grantors (some handle) quantum flags name) out =
          ⟨grantors, some handle', quantum, flags, name⟩ := by
  obtain ⟨handle', created⟩ := Option.isSome_iff_exists.mp creates
  obtain ⟨raw, parsed, holds⟩ := parse_generateString lawful roundTrips
  obtain ⟨numFds, numInts⟩ := counts _ _ _ created
  have arrives (out : Outputs) := holds.fromStringHidl lawful parsed nativeHandleCreate out
  simp only [countsOf, Int32.toInt32_toUInt32, created] at arrives
  exact ⟨handle', numFds, numInts, arrives out, arrives _⟩

theorem counts_create (numFds numInts : Int32) (created : NativeHandle)
    (h : NativeHandle.create numFds numInts = some created) :
    created.numFds = numFds ∧ created.numInts = numInts := by
  unfold NativeHandle.create at h
  split at h
  · cases h
  next bounds =>
    rw [not_or, not_or, Int32.not_lt, Int32.not_lt] at bounds
    cases h
    simp only [NativeHandle.numFds, NativeHandle.numInts, List.length_replicate,
      Int32.ofNat_toNatClampNeg numFds bounds.1, Int32.ofNat_toNatClampNeg numInts bounds.2.1,
      and_self]

/-- The document of a queue with one grantor. -/
def oneGrantor : JsonTree :=
  .member GrantorDescriptor_size_key (.uint 1) <|
  .member GrantorDescriptor_key
    (.element (.member GrantorDescriptor_element_flags_key (.uint 0) <|
      .member GrantorDescriptor_element_fdIndex_key (.uint 0) <|
      .member GrantorDescriptor_element_offset_key (.uint 16) <|
      .member GrantorDescriptor_element_extent_key (.uint 0x10000000000) .empty) .nil) <|
  .member quantum_key (.uint 4) <|
  .member flags_key (.uint 1) <|
  .member native_handle_t_numFds_key (.uint 1) <|
  .member native_handle_t_numInts_key (.uint 0) <|
  .member name_key (.string "q") .empty

def oneGrantorText : String :=
  "\x7b\n \"GrantorDescriptor_key\" : \n [\n  \x7b" ++
  "\n   \"GrantorDescriptor_extent_key\" : 1099511627776," ++
  "\n   \"GrantorDescriptor_fdIndex_key\" : 0," ++
  "\n   \"GrantorDescriptor_flags_key\" : 0," ++
  "\n   \"GrantorDescriptor_offset_key\" : 16\n  \x7d\n ]," ++
  "\n \"GrantorDescriptor_size_key\" : 1,\n \"flags_key\" : 1,\n \"name_key\" : \"q\"," ++
  "\n \"numFds_key\" : 1,\n \"numInts_key\" : 0,\n \"quantum_key\" : 4\n\x7d"

/-- Its text, read over the outputs of an earlier call. -/
theorem fromString_generateString_one : ∃ handle,
    handle.numFds = 1 ∧ handle.numInts = 0 ∧
      fromString (JsonTree.library [(oneGrantorText, oneGrantor)]) NativeHandle.create
        (generateString (JsonTree.library [(oneGrantorText, oneGrantor)])
          [⟨0, 0, 16, 0x10000000000⟩] (some ⟨[3], []⟩) 4 1 "q") ⟨[⟨1, 2, 3, 4⟩], none, 5, 6, "p"⟩ =
          ⟨[⟨0, 0, 16, 0x10000000000⟩], some handle, 4, 1, "q"⟩ := by
  have written : document (JsonTree.library [(oneGrantorText, oneGrantor)])
      [⟨0, 0, 16, 0x10000000000⟩] (some ⟨[3], []⟩) 4 1 "q" = some oneGrantor := by rfl
  obtain ⟨handle, numFds, numInts, -, arrives⟩ :=
    fromString_generateString (JsonTree.lawful [(oneGrantorText, oneGrantor)]) counts_create
      [⟨0, 0, 16, 0x10000000000⟩] ⟨[3], []⟩ 4 1 "q" (by decide)
      (fun v known => Option.some.inj (written.symm.trans known) ▸
        JsonTree.roundTrips_singleton oneGrantorText oneGrantor)
      ⟨[⟨1, 2, 3, 4⟩], none, 5, 6, "p"⟩
  exact ⟨handle, numFds, numInts, arrives⟩

end Fmq.SystemPorting
