import Fmq.Lib.JsonLibrary

/-!
# Trees as documents

An instance of the interface for documents of unsigned integers and strings. Texts are looked up in
a table.
-/

/-- Arrays and objects are lists of their elements and members. -/
inductive JsonTree where
  | null
  | uint (n : UInt64)
  | string (s : String)
  | nil
  | element (x rest : JsonTree)
  | empty
  | member (key : String) (x rest : JsonTree)
  deriving DecidableEq

namespace JsonTree

def isNull : JsonTree → Bool
  | null => true
  | _ => false

def isArray : JsonTree → Bool
  | nil | element _ _ => true
  | _ => false

def isObject : JsonTree → Bool
  | empty | member _ _ _ => true
  | _ => false

/-- The number of elements. -/
def size : JsonTree → Nat
  | element _ rest => rest.size + 1
  | _ => 0

def cleared : JsonTree → JsonTree
  | nil | element _ _ => nil
  | empty | member _ _ _ => empty
  | v => v

def getMember : JsonTree → String → JsonTree
  | member key' x rest, key => if key = key' then x else rest.getMember key
  | _, _ => null

def setMember : JsonTree → String → JsonTree → JsonTree
  | member key' x' rest, key, x =>
    if key = key' then member key' x rest else member key' x' (rest.setMember key x)
  | _, key, x => member key x empty

def getElement : JsonTree → Nat → JsonTree
  | element x _, 0 => x
  | element _ rest, i + 1 => rest.getElement i
  | _, _ => null

/-- An index behind the last element fills the array with nulls up to it. -/
def setElement : JsonTree → Nat → JsonTree → JsonTree
  | element _ rest, 0, x => element x rest
  | element x' rest, i + 1, x => element x' (rest.setElement i x)
  | _, 0, x => element x nil
  | _, i + 1, x => element null (nil.setElement i x)

/-- Null counts as zero and as the empty string. -/
def asUInt : JsonTree → Option UInt32
  | null => some 0
  | uint n => if n < 0x100000000 then some n.toUInt32 else none
  | _ => none

def asUInt64 : JsonTree → Option UInt64
  | null => some 0
  | uint n => some n
  | _ => none

def asString : JsonTree → Option String
  | null => some ""
  | uint n => some (toString n.toNat)
  | string s => some s
  | _ => none

/-- The library that knows these texts. -/
def library (texts : List (String × JsonTree)) : JsonLibrary where
  Value := JsonTree
  null := null
  ofUInt n := uint n.toUInt64
  ofUInt64 := uint
  ofString := string
  isNull := isNull
  isArray := isArray
  isObject := isObject
  size := size
  cleared := cleared
  member := getMember
  setMember := setMember
  element := getElement
  setElement := setElement
  asUInt := asUInt
  asUInt64 := asUInt64
  asString := asString
  writeString v := ((texts.find? fun text => text.2 = v).map Prod.fst).getD ""
  parse s := (texts.find? fun text => text.1 = s).map Prod.snd

/-! ## Laws -/

section

variable {v x : JsonTree} {key : String}

theorem getMember_setMember : (v.setMember key x).getMember key = x := by
  induction v with
  | member key' x' rest _ ih =>
    unfold setMember
    split
    next same => rw [getMember, if_pos same]
    next other => rw [getMember, if_neg other, ih]
  | _ => exact if_pos rfl

theorem getMember_setMember_ne {key' : String} (ne : key' ≠ key) :
    (v.setMember key x).getMember key' = v.getMember key' := by
  induction v with
  | member key'' x' rest _ ih =>
    unfold setMember
    split
    next same =>
      cases same
      rw [getMember, getMember, if_neg ne, if_neg ne]
    next other => rw [getMember, getMember, ih]
  | _ => exact if_neg ne

theorem isObject_setMember : (v.setMember key x).isObject = true := by
  cases v with
  | member key' x' rest =>
    unfold setMember
    split <;> rfl
  | _ => rfl

theorem isArray_setElement (i : Nat) : (v.setElement i x).isArray = true := by
  cases v <;> cases i <;> rfl

theorem size_setElement : (v.setElement v.size x).size = v.size + 1 := by
  induction v with
  | element y rest _ ih => exact congrArg (· + 1) ih
  | _ => rfl

theorem getElement_setElement : (v.setElement v.size x).getElement v.size = x := by
  induction v with
  | element y rest _ ih => exact ih
  | _ => rfl

theorem getElement_setElement_lt {i : Nat} (lt : i < v.size) :
    (v.setElement v.size x).getElement i = v.getElement i := by
  induction v generalizing i with
  | element y rest _ ih =>
    cases i with
    | zero => rfl
    | succ i => exact ih (Nat.lt_of_succ_lt_succ lt)
  | _ => cases lt

theorem asUInt_toUInt64 (n : UInt32) : (uint n.toUInt64).asUInt = some n := by
  have small : n.toUInt64 < 0x100000000 := by
    rw [UInt64.lt_iff_toNat_lt, UInt32.toNat_toUInt64]
    exact n.toNat_lt
  rw [asUInt, if_pos small, UInt32.toUInt32_toUInt64]

end

theorem lawful (texts : List (String × JsonTree)) : (library texts).Lawful where
  isNull_null := rfl
  size_null := rfl
  isNull_ofString _ := rfl
  asUInt_ofUInt := asUInt_toUInt64
  asUInt64_ofUInt64 _ := rfl
  asString_ofString _ := rfl
  objectLike_cleared := by rintro (_ | _ | _ | _ | _ | _ | _) h <;> first | rfl | cases h
  isObject_setMember _ _ _ _ := isObject_setMember
  member_setMember _ _ _ _ := getMember_setMember
  member_setMember_ne _ _ _ _ _ ne := getMember_setMember_ne ne
  isArray_setElement _ i _ _ := isArray_setElement i
  size_setElement _ _ _ := size_setElement
  element_setElement _ _ _ := getElement_setElement
  element_setElement_lt _ _ _ _ lt := getElement_setElement_lt lt

/-! ## A single text -/

variable (text : String) (v : JsonTree)

theorem parse_singleton : (library [(text, v)]).parse text = some v := by
  simp only [library, List.find?_cons, decide_true, Option.map_some]

theorem roundTrips_singleton : (library [(text, v)]).RoundTrips v := by
  refine ⟨v, ?_, @JsonLibrary.Same.refl (library [(text, v)]) v⟩
  have written : (library [(text, v)]).writeString v = text := by
    simp only [library, List.find?_cons, decide_true, Option.map_some, Option.getD_some]
  rw [written]
  exact parse_singleton text v

end JsonTree
