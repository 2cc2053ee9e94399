import Mathlib.Data.Nat.Notation

/-!
# A library of JSON documents

The interface of a library whose values are edited in place by member names and array indices, its
laws, and when two of its documents have the same contents. Where an access does not fit the type of
the value, the library throws.
-/

/-- A library of documents. `member` and `element` are meant for values of a fitting type only. -/
structure JsonLibrary where
  Value : Type
  null : Value
  ofUInt : UInt32 → Value
  ofUInt64 : UInt64 → Value
  ofString : String → Value
  isNull : Value → Bool
  isArray : Value → Bool
  isObject : Value → Bool
  size : Value → Nat
  /-- The value without its members or elements. -/
  cleared : Value → Value
  /-- The named member, null if it is missing. -/
  member : Value → String → Value
  setMember : Value → String → Value → Value
  element : Value → Nat → Value
  setElement : Value → Nat → Value → Value
  /-- The conversions, `none` where they throw. -/
  asUInt : Value → Option UInt32
  asUInt64 : Value → Option UInt64
  asString : Value → Option String
  writeString : Value → String
  /-- The document of a text, `none` for a text that is not one. -/
  parse : String → Option Value

namespace JsonLibrary

variable (json : JsonLibrary)

/-- Values that can have members. Null becomes an object when it is indexed by a name. -/
def objectLike (v : json.Value) : Bool := json.isNull v || json.isObject v

/-- Values that can have elements. -/
def arrayLike (v : json.Value) : Bool := json.isNull v || json.isArray v

/-- `v[key]`, `none` where the access throws. -/
def memberOf (v : json.Value) (key : String) : Option json.Value :=
  if json.objectLike v then some (json.member v key) else none

/-- `v[i]`, `none` where the access throws. -/
def elementOf (v : json.Value) (i : Nat) : Option json.Value :=
  if json.arrayLike v then some (json.element v i) else none

/-- What a user of the library relies on. An array grows by assigning to the index behind its last
element. -/
structure Lawful : Prop where
  isNull_null : json.isNull json.null = true
  size_null : json.size json.null = 0
  isNull_ofString : ∀ s, json.isNull (json.ofString s) = false
  asUInt_ofUInt : ∀ n, json.asUInt (json.ofUInt n) = some n
  asUInt64_ofUInt64 : ∀ n, json.asUInt64 (json.ofUInt64 n) = some n
  asString_ofString : ∀ s, json.asString (json.ofString s) = some s
  objectLike_cleared : ∀ v, json.objectLike v = true → json.objectLike (json.cleared v) = true
  isObject_setMember : ∀ v key x, json.objectLike v = true →
    json.isObject (json.setMember v key x) = true
  member_setMember : ∀ v key x, json.objectLike v = true →
    json.member (json.setMember v key x) key = x
  member_setMember_ne : ∀ v key key' x, json.objectLike v = true → key' ≠ key →
    json.member (json.setMember v key x) key' = json.member v key'
  isArray_setElement : ∀ v i x, json.arrayLike v = true →
    json.isArray (json.setElement v i x) = true
  size_setElement : ∀ v x, json.arrayLike v = true →
    json.size (json.setElement v (json.size v) x) = json.size v + 1
  element_setElement : ∀ v x, json.arrayLike v = true →
    json.element (json.setElement v (json.size v) x) (json.size v) = x
  element_setElement_lt : ∀ v i x, json.arrayLike v = true → i < json.size v →
    json.element (json.setElement v (json.size v) x) i = json.element v i

/-! ## Equal contents -/

inductive Access where
  | member (key : String)
  | element (i : Nat)

def access (v : json.Value) : Access → Option json.Value
  | .member key => json.memberOf v key
  | .element i => json.elementOf v i

/-- What is found behind a series of accesses. -/
def follow (v : json.Value) : List Access → Option json.Value
  | [] => some v
  | step :: path => (json.access v step).bind fun x => follow x path

/-- Values that answer every question in the same way. -/
structure Alike (v w : json.Value) : Prop where
  isNull : json.isNull w = json.isNull v
  isArray : json.isArray w = json.isArray v
  isObject : json.isObject w = json.isObject v
  size : json.size w = json.size v
  asUInt : json.asUInt w = json.asUInt v
  asUInt64 : json.asUInt64 w = json.asUInt64 v
  asString : json.asString w = json.asString v

/-- Documents with the same members, integers and strings: alike wherever one looks. -/
def Same (v w : json.Value) : Prop :=
  ∀ path, Option.Rel json.Alike (json.follow v path) (json.follow w path)

/-- Written and parsed again, the document has the same contents. -/
def RoundTrips (v : json.Value) : Prop :=
  ∃ w, json.parse (json.writeString v) = some w ∧ json.Same v w

variable {json} {v w : json.Value}

theorem memberOf_eq_some {key : String} {x : json.Value} :
    json.memberOf v key = some x ↔ json.objectLike v = true ∧ json.member v key = x := by
  rw [memberOf, Option.ite_none_right_eq_some, Option.some.injEq]

theorem elementOf_eq_some {i : Nat} {x : json.Value} :
    json.elementOf v i = some x ↔ json.arrayLike v = true ∧ json.element v i = x := by
  rw [elementOf, Option.ite_none_right_eq_some, Option.some.injEq]

theorem Same.alike (same : json.Same v w) : json.Alike v w := by
  cases same [] with
  | some alike => exact alike

theorem Alike.objectLike (alike : json.Alike v w) : json.objectLike w = json.objectLike v := by
  rw [JsonLibrary.objectLike, JsonLibrary.objectLike, alike.isNull, alike.isObject]

theorem Alike.arrayLike (alike : json.Alike v w) : json.arrayLike w = json.arrayLike v := by
  rw [JsonLibrary.arrayLike, JsonLibrary.arrayLike, alike.isNull, alike.isArray]

theorem Same.member (same : json.Same v w) (object : json.objectLike v = true) (key : String) :
    json.Same (json.member v key) (json.member w key) := by
  intro path
  have behind := same (.member key :: path)
  have object' := same.alike.objectLike.trans object
  simp only [follow, access, memberOf, object, object', if_true, Option.bind_some] at behind
  exact behind

theorem Same.element (same : json.Same v w) (array : json.arrayLike v = true) (i : Nat) :
    json.Same (json.element v i) (json.element w i) := by
  intro path
  have behind := same (.element i :: path)
  have array' := same.alike.arrayLike.trans array
  simp only [follow, access, elementOf, array, array', if_true, Option.bind_some] at behind
  exact behind

/-- What is read from a member depends on its contents. -/
theorem Same.bind_memberOf {α : Type} (same : json.Same v w) {read : json.Value → Option α}
    (respects : ∀ {x y}, json.Same x y → read y = read x) (key : String) :
    (json.memberOf w key).bind read = (json.memberOf v key).bind read := by
  unfold memberOf
  rw [same.alike.objectLike]
  split
  next object => exact respects (same.member object key)
  next => rfl

theorem Same.bind_elementOf {α : Type} (same : json.Same v w) {read : json.Value → Option α}
    (respects : ∀ {x y}, json.Same x y → read y = read x) (i : Nat) :
    (json.elementOf w i).bind read = (json.elementOf v i).bind read := by
  unfold elementOf
  rw [same.alike.arrayLike]
  split
  next array => exact respects (same.element array i)
  next => rfl

theorem Alike.refl (v : json.Value) : json.Alike v v := ⟨rfl, rfl, rfl, rfl, rfl, rfl, rfl⟩

theorem Same.refl (v : json.Value) : json.Same v v := by
  intro path
  cases json.follow v path with
  | none => exact .none
  | some x => exact .some (.refl x)

theorem Lawful.objectLike_null (lawful : json.Lawful) : json.objectLike json.null = true := by
  rw [JsonLibrary.objectLike, lawful.isNull_null, Bool.true_or]

theorem Lawful.arrayLike_null (lawful : json.Lawful) : json.arrayLike json.null = true := by
  rw [JsonLibrary.arrayLike, lawful.isNull_null, Bool.true_or]

theorem Lawful.objectLike_setMember (lawful : json.Lawful) (object : json.objectLike v = true)
    (key : String) (x : json.Value) : json.objectLike (json.setMember v key x) = true := by
  rw [JsonLibrary.objectLike, lawful.isObject_setMember v key x object, Bool.or_true]

/-- Assignments to several members in a row. -/
def setMembers (json : JsonLibrary) (v : json.Value) (members : List (String × json.Value)) :
    json.Value :=
  members.foldl (fun v member => json.setMember v member.1 member.2) v

theorem Lawful.objectLike_setMembers (lawful : json.Lawful) (object : json.objectLike v = true)
    (members : List (String × json.Value)) :
    json.objectLike (json.setMembers v members) = true := by
  induction members generalizing v with
  | nil => exact object
  | cons member members ih => exact ih (lawful.objectLike_setMember object _ _)

theorem Lawful.member_setMembers_ne (lawful : json.Lawful) (object : json.objectLike v = true)
    {members : List (String × json.Value)} {key : String} (absent : key ∉ members.map Prod.fst) :
    json.member (json.setMembers v members) key = json.member v key := by
  induction members generalizing v with
  | nil => rfl
  | cons member members ih =>
    rw [List.map_cons, List.mem_cons, not_or] at absent
    exact (ih (lawful.objectLike_setMember object _ _) absent.2).trans
      (lawful.member_setMember_ne _ _ _ _ object absent.1)

/-- Members of different names keep what they are assigned. -/
theorem Lawful.member_setMembers (lawful : json.Lawful) (object : json.objectLike v = true)
    {members : List (String × json.Value)} (distinct : (members.map Prod.fst).Nodup)
    {key : String} {x : json.Value} (assigned : (key, x) ∈ members) :
    json.member (json.setMembers v members) key = x := by
  induction members generalizing v with
  | nil => cases assigned
  | cons member members ih =>
    rw [List.map_cons, List.nodup_cons] at distinct
    have object' := lawful.objectLike_setMember object member.1 member.2
    rcases List.mem_cons.mp assigned with rfl | assigned
    · exact (lawful.member_setMembers_ne object' distinct.1).trans
        (lawful.member_setMember _ _ _ object)
    · exact ih object' distinct.2 assigned

theorem Lawful.arrayLike_setElement (lawful : json.Lawful) (array : json.arrayLike v = true)
    (i : Nat) (x : json.Value) : json.arrayLike (json.setElement v i x) = true := by
  rw [JsonLibrary.arrayLike, lawful.isArray_setElement v i x array, Bool.or_true]

end JsonLibrary
