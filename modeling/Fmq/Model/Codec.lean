import Fmq.Lib.JsonLibrary
import Fmq.Model.Descriptor

/-!
# Descriptors as text

`generate_string` and `from_string`, the codec of descriptors in the MSVC build. The JSON library
is a parameter, and so is what `native_handle_create` answers.
-/
namespace Fmq

/-- `handle->numFds` and `handle->numInts`. -/
def NativeHandle.numFds (handle : NativeHandle) : Int32 := .ofNat handle.fds.length

def NativeHandle.numInts (handle : NativeHandle) : Int32 := .ofNat handle.ints.length

/-- `native_handle_create` with memory for every request that it does not refuse. -/
def NativeHandle.create (numFds numInts : Int32) : Option NativeHandle :=
  if numFds < 0 ∨ numInts < 0 ∨ numFds > 1024 ∨ numInts > 1024 then none
  else some ⟨.replicate numFds.toNatClampNeg 0, .replicate numInts.toNatClampNeg 0⟩

namespace SystemPorting

def GrantorDescriptor_element_flags_key := "GrantorDescriptor_flags_key"
def GrantorDescriptor_element_fdIndex_key := "GrantorDescriptor_fdIndex_key"
def GrantorDescriptor_element_offset_key := "GrantorDescriptor_offset_key"
def GrantorDescriptor_element_extent_key := "GrantorDescriptor_extent_key"
def GrantorDescriptor_size_key := "GrantorDescriptor_size_key"
def GrantorDescriptor_key := "GrantorDescriptor_key"

def quantum_key := "quantum_key"
def flags_key := "flags_key"
def name_key := "name_key"

def native_handle_t_numFds_key := "numFds_key"
def native_handle_t_numInts_key := "numInts_key"

variable (json : JsonLibrary)

/-! ## Writing -/

/-- `v.clear()`, `none` for an exception. -/
def clear (v : json.Value) : Option json.Value :=
  if json.isNull v || json.isArray v || json.isObject v then some (json.cleared v) else none

/-- `v[key] = x`. -/
def assign (v : json.Value) (key : String) (x : json.Value) : Option json.Value :=
  if json.objectLike v then some (json.setMember v key x) else none

/-- `v[i] = x`. -/
def assignElement (v : json.Value) (i : Nat) (x : json.Value) : Option json.Value :=
  if json.arrayLike v then some (json.setElement v i x) else none

/-- The loop over the grantors, from index `i` on. One variable is used for all of them. -/
def encodeGrantors (i : Nat) (value array_value : json.Value) :
    List GrantorDescriptor → Option (json.Value × json.Value)
  | [] => return (value, array_value)
  | grantor :: grantors => do
    let value ← clear json value
    let value ← assign json value GrantorDescriptor_element_flags_key (json.ofUInt grantor.flags)
    let value ←
      assign json value GrantorDescriptor_element_fdIndex_key (json.ofUInt grantor.fdIndex)
    let value ← assign json value GrantorDescriptor_element_offset_key (json.ofUInt grantor.offset)
    let value ←
      assign json value GrantorDescriptor_element_extent_key (json.ofUInt64 grantor.extent)
    encodeGrantors (i + 1) value (← assignElement json array_value i value) grantors

/-- The document that `generate_string` writes, `none` for an exception on the way. -/
def document (grantors : List GrantorDescriptor) (handle : Option NativeHandle)
    (quantum flags : UInt32) (name : String) : Option json.Value := do
  let (value, array_value) ← encodeGrantors json 0 json.null json.null grantors
  let value ← clear json value
  let value ← assign json value GrantorDescriptor_size_key (json.ofUInt64 (.ofNat grantors.length))
  let value ← assign json value GrantorDescriptor_key array_value
  let value ← assign json value quantum_key (json.ofUInt quantum)
  let value ← assign json value flags_key (json.ofUInt flags)
  let (numFds, numInts) := match handle with
    | some handle => (handle.numFds.toUInt32, handle.numInts.toUInt32)
    | none => (0, 0)
  let value ← assign json value native_handle_t_numFds_key (json.ofUInt numFds)
  let value ← assign json value native_handle_t_numInts_key (json.ofUInt numInts)
  assign json value name_key (json.ofString name)

def generateString (grantors : List GrantorDescriptor) (handle : Option NativeHandle)
    (quantum flags : UInt32) (name : String) : String :=
  match document json grantors handle quantum flags name with
  | some value => json.writeString value
  | none => ""

/-! ## Reading -/

/-- The variables that `from_string` assigns to. -/
structure Decoder where
  raw_value : json.Value
  grantors : List GrantorDescriptor
  quantum : UInt32
  flags : UInt32
  name : String
  numFds : Int32
  numInts : Int32

/-- The ways out of the `try` block before its end. -/
inductive Stop where
  | returned
  | exception
  deriving DecidableEq, Repr

/-- An exception keeps what has been assigned before it. -/
abbrev Decode := EStateM Stop (Decoder json)

variable {json}

/-- The result of an operation of the library that may throw. -/
def orThrow {α : Type} : Option α → Decode json α
  | some a => return a
  | none => throw .exception

/-- The reference `value`, an alias of the grantor member of `raw_value`. -/
def value : Decode json json.Value := do
  return json.member (← get).raw_value GrantorDescriptor_key

/-- `value = raw_value[key]`. -/
def assignValue (key : String) : Decode json Unit := do
  let x ← orThrow (json.memberOf (← get).raw_value key)
  modify fun d => { d with raw_value := json.setMember d.raw_value GrantorDescriptor_key x }

/-- `hidl_vec::resize`. -/
def resize (grantors : List GrantorDescriptor) (size : Nat) : List GrantorDescriptor :=
  grantors.take size ++ .replicate (size - grantors.length) ⟨0, 0, 0, 0⟩

def modifyGrantor (i : Nat) (f : GrantorDescriptor → GrantorDescriptor) : Decode json Unit :=
  modify fun d => { d with grantors := d.grantors.modify i f }

/-- The body of the loop over the grantors. The null members that an access adds to the document are
not looked at again. -/
def readGrantor (i : Nat) : Decode json Unit := do
  let array_element ← orThrow (json.elementOf (← value) i)
  let member (key : String) : Decode json json.Value := orThrow (json.memberOf array_element key)
  let extent ← orThrow (json.asUInt64 (← member GrantorDescriptor_element_extent_key))
  modifyGrantor i fun grantor => { grantor with extent }
  let fdIndex ← orThrow (json.asUInt (← member GrantorDescriptor_element_fdIndex_key))
  modifyGrantor i fun grantor => { grantor with fdIndex }
  let offset ← orThrow (json.asUInt (← member GrantorDescriptor_element_offset_key))
  modifyGrantor i fun grantor => { grantor with offset }
  let flags ← orThrow (json.asUInt (← member GrantorDescriptor_element_flags_key))
  modifyGrantor i fun grantor => { grantor with flags }

/-- `n` rounds of the loop, from index `i` on. -/
def readGrantors (i : Nat) : Nat → Decode json Unit
  | 0 => return
  | n + 1 => do
    readGrantor i
    readGrantors (i + 1) n

/-- `value = raw_value[key]` and `value.asUInt()`, assigned by `set`. -/
def readUInt (key : String) (set : UInt32 → Decoder json → Decoder json) : Decode json Unit := do
  assignValue key
  let n ← orThrow (json.asUInt (← value))
  modify (set n)

def readName : Decode json Unit := do
  assignValue name_key
  modify fun d => { d with name := "" }
  if !json.isNull (← value) then
    let name ← orThrow (json.asString (← value))
    modify fun d => { d with name }

/-- The `try` block of `from_string`. -/
def decode (string : String) : Decode json Unit := do
  match json.parse string with
  | none => throw .returned
  | some raw_value => modify fun d => { d with raw_value }
  let grantorValue ← orThrow (json.memberOf (← get).raw_value GrantorDescriptor_key)
  if !json.isArray grantorValue && !json.isNull grantorValue then
    throw .returned
  modify fun d => { d with grantors := resize d.grantors (json.size grantorValue) }
  readGrantors 0 (json.size grantorValue)
  readUInt quantum_key fun quantum d => { d with quantum }
  readUInt flags_key fun flags d => { d with flags }
  readUInt native_handle_t_numFds_key fun numFds d => { d with numFds := numFds.toInt32 }
  readUInt native_handle_t_numInts_key fun numInts d => { d with numInts := numInts.toInt32 }
  readName

/-- The five outputs of `from_string`. -/
structure Outputs where
  grantors : List GrantorDescriptor
  handle : Option NativeHandle
  quantum : UInt32
  flags : UInt32
  name : String
  deriving DecidableEq, Repr

variable (json)

/-- The variables at the start of the `try` block, and what is left of it. -/
def decoded (string : String) (out : Outputs) : EStateM.Result Stop (Decoder json) Unit :=
  decode string ⟨json.null, out.grantors, out.quantum, out.flags, out.name, 0, 0⟩

/-- `from_string` on a `hidl_vec` and a `hidl_pointer`. The handler of the exceptions falls through
to the creation of the handle. -/
def fromStringHidl (nativeHandleCreate : Int32 → Int32 → Option NativeHandle) (string : String)
    (out : Outputs) : Outputs :=
  let finish (handle : Option NativeHandle) (d : Decoder json) : Outputs :=
    ⟨d.grantors, handle, d.quantum, d.flags, d.name⟩
  match decoded json string out with
  | .error .returned d => finish out.handle d
  | .error .exception d => finish (nativeHandleCreate d.numFds d.numInts) d
  | .ok _ d => finish (nativeHandleCreate d.numFds d.numInts) d

/-- `from_string`. The grantors and the handle are assigned from local variables. -/
def fromString (nativeHandleCreate : Int32 → Int32 → Option NativeHandle) (string : String)
    (out : Outputs) : Outputs :=
  fromStringHidl json nativeHandleCreate string { out with grantors := [], handle := none }

end SystemPorting
end Fmq
