import Fmq.Model.Msvc
import Fmq.Properties.Codec

/-!
# Texts that do not decode

The handle of a shim is to be null if its text could not be decoded. It is where `from_string`
returns early; an exception, however, is caught before the handle is created.
-/
namespace Fmq.Msvc

open SystemPorting

variable {os : Platform}

/-- The outputs that `AidlMQDescriptorShim(desc)` calls `from_string` with. -/
def outputs (desc : aidl.MQDescriptor) : Outputs :=
  ⟨[], none, desc.quantum.toUInt32, desc.flags.toUInt32, ""⟩

/-- `from_string` decodes all the members of a text. -/
def Completes (json : JsonLibrary) (desc : aidl.MQDescriptor) : Prop :=
  ∃ d, decoded json desc.json_decriptor (outputs desc) = .ok () d

/-- A text that is not decoded makes no usable descriptor. -/
def UndecodedInvalid (os : Platform) (desc : aidl.MQDescriptor) : Prop :=
  ¬ Completes os.json desc →
    (AidlMQDescriptorShim.ofMQDescriptor os desc).isHandleValid = false

/-- What the handle is created from when the members up to the first that does not convert have
been read. -/
def handleRead (os : Platform) (raw : os.json.Value) : Option NativeHandle :=
  os.nativeHandleCreate ((numFdsRead os.json raw).getD 0).toInt32
    ((numIntsRead os.json raw).getD 0).toInt32

variable {desc : aidl.MQDescriptor} {raw : os.json.Value}

theorem mHandle_unparsed (unparsed : os.json.parse desc.json_decriptor = none) :
    (AidlMQDescriptorShim.ofMQDescriptor os desc).mHandle = none :=
  fromStringHidl_unparsed _ _ unparsed

theorem mHandle_refused (parsed : os.json.parse desc.json_decriptor = some raw)
    (refused : Refused os.json raw) :
    (AidlMQDescriptorShim.ofMQDescriptor os desc).mHandle = none :=
  fromStringHidl_refused _ _ parsed refused

/-- The shim of a text that gets as far as the handle. -/
theorem ofMQDescriptor_accepted (lawful : os.json.Lawful)
    (parsed : os.json.parse desc.json_decriptor = some raw) (accepted : ¬ Refused os.json raw) :
    ∃ d, Read raw (outputs desc) d ∧ AidlMQDescriptorShim.ofMQDescriptor os desc =
      ⟨⟨d.grantors, handleRead os raw, d.quantum, d.flags⟩, d.name⟩ := by
  obtain ⟨d, read, result⟩ := fromStringHidl_accepted os.nativeHandleCreate (outputs desc) lawful
    parsed accepted
  refine ⟨d, read, ?_⟩
  unfold handleRead
  rw [← read.numFds, ← read.numInts]
  exact congrArg (fun out : Outputs => (⟨⟨out.grantors, out.handle, out.quantum, out.flags⟩,
    out.name⟩ : AidlMQDescriptorShim)) result

/-- A text that stops the decoder makes a shim without a handle exactly if none can be created from
the counts read until then. -/
theorem undecodedInvalid_iff (lawful : os.json.Lawful) (desc : aidl.MQDescriptor) :
    UndecodedInvalid os desc ↔ ∀ raw, os.json.parse desc.json_decriptor = some raw →
      Refused os.json raw ∨ Complete os.json raw ∨ handleRead os raw = none := by
  unfold UndecodedInvalid Completes
  rw [decoded_ok_iff lawful]
  constructor
  · intro invalid raw parsed
    by_cases refused : Refused os.json raw
    · exact .inl refused
    by_cases complete : Complete os.json raw
    · exact .inr (.inl complete)
    have undecoded : ¬ ∃ raw, os.json.parse desc.json_decriptor = some raw ∧
        ¬ Refused os.json raw ∧ Complete os.json raw := by
      rintro ⟨raw', parsed', -, complete'⟩
      cases parsed.symm.trans parsed'
      exact complete complete'
    obtain ⟨d, -, shim⟩ := ofMQDescriptor_accepted lawful parsed refused
    have noHandle := invalid undecoded
    rw [shim] at noHandle
    exact .inr (.inr (Option.isSome_eq_false_iff.mp noHandle |> Option.isNone_iff_eq_none.mp))
  · intro stops undecoded
    refine Option.isSome_eq_false_iff.mpr (Option.isNone_iff_eq_none.mpr ?_)
    cases parsed : os.json.parse desc.json_decriptor with
    | none => exact mHandle_unparsed parsed
    | some raw =>
      by_cases refused : Refused os.json raw
      · exact mHandle_refused parsed refused
      obtain ⟨d, -, shim⟩ := ofMQDescriptor_accepted lawful parsed refused
      rw [shim]
      rcases stops raw parsed with refused' | complete | noHandle
      · exact absurd refused' refused
      · exact absurd ⟨raw, parsed, refused, complete⟩ undecoded
      · exact noHandle

/-- The counts in the text of a null handle are 0, which is what a handle is created from. -/
theorem mHandle_null (lawful : os.json.Lawful) {shim : AidlMQDescriptorShim}
    (null : shim.mHandle = none) (text : desc.json_decriptor = shim.toString os.json)
    (roundTrips : ∀ v, document os.json shim.mGrantors none shim.mQuantum shim.mFlags shim.mName =
      some v → os.json.RoundTrips v) :
    (AidlMQDescriptorShim.ofMQDescriptor os desc).mHandle = os.nativeHandleCreate 0 0 := by
  obtain ⟨raw, parsed, holds⟩ := parse_generateString lawful roundTrips
  unfold AidlMQDescriptorShim.toString at text
  rw [null] at text
  rw [← text] at parsed
  obtain ⟨d, -, result⟩ := ofMQDescriptor_accepted lawful parsed holds.accepted
  rw [result]
  change handleRead os raw = _
  unfold handleRead
  rw [holds.numFds, holds.numInts]
  rfl

/-- When a text that is not decoded, or comes from a null handle, makes no usable descriptor. -/
theorem undecoded_iff (lawful : os.json.Lawful) :
    (∀ desc, UndecodedInvalid os desc ↔ ∀ raw, os.json.parse desc.json_decriptor = some raw →
      Refused os.json raw ∨ Complete os.json raw ∨ handleRead os raw = none) ∧
    ∀ (shim : AidlMQDescriptorShim) (desc : aidl.MQDescriptor), shim.mHandle = none →
      desc.json_decriptor = shim.toString os.json →
      (∀ v, document os.json shim.mGrantors none shim.mQuantum shim.mFlags shim.mName = some v →
        os.json.RoundTrips v) →
      ((AidlMQDescriptorShim.ofMQDescriptor os desc).isHandleValid = false ↔
        os.nativeHandleCreate 0 0 = none) := by
  refine ⟨undecodedInvalid_iff lawful, fun shim desc null text roundTrips => ?_⟩
  have handle := mHandle_null lawful null text roundTrips
  unfold Fmq.AidlMQDescriptorShim.isHandleValid
  rw [handle, Option.isSome_eq_false_iff, Option.isNone_iff_eq_none]

/-- A parcelable that carries this text. -/
def carrying (text : String) : aidl.MQDescriptor := ⟨⟨[], ⟨[], []⟩, 2, 1⟩, text⟩

/-- Where a number is the only text, it makes a handle and any other text makes none. -/
theorem undecoded_iff_five :
    ¬ UndecodedInvalid (.generous (JsonTree.library [("5", .uint 5)])) (carrying "5") ∧
      UndecodedInvalid (.generous (JsonTree.library [("5", .uint 5)])) (carrying "") := by
  have lawful : (Platform.generous (JsonTree.library [("5", .uint 5)])).json.Lawful :=
    JsonTree.lawful _
  have holds := (undecoded_iff lawful).1
  constructor
  · rw [holds]
    intro stops
    rcases stops (.uint 5) rfl with ⟨array, member, -⟩ | complete | noHandle
    · cases member
    · cases complete
    · cases noHandle
  · rw [holds]
    exact nofun

/-- A number is a text of JSON, and its members throw. -/
theorem not_undecodedInvalid : ¬ ∀ os : Platform, os.json.Lawful →
    ∀ desc : aidl.MQDescriptor, UndecodedInvalid os desc := by
  intro all
  have invalid := all (.generous (JsonTree.library [("5", .uint 5)])) (JsonTree.lawful _)
    (carrying "5") nofun
  cases invalid

end Fmq.Msvc
