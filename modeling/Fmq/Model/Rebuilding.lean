import Fmq.Model.Export
import Fmq.Model.Msvc

/-!
# Descriptors rebuilt from their text

`dupeDesc` and `from_json_descriptor` of the MSVC build. The text of a queue is exported beside the
fields of the parcelable, and a parcelable can be filled from it.
-/
namespace Fmq.Msvc

open Fmq.AidlMQDescriptorShim (exportGrantor)

namespace aidl

/-- The parcelable with its member `name`, which no constructor of a queue reads. -/
structure NamedMQDescriptor extends toParcelable : MQDescriptor where
  name : String
  deriving DecidableEq, Repr

namespace NamedMQDescriptor

/-- `MQDescriptor()`. -/
def default : NamedMQDescriptor := ⟨⟨⟨[], ⟨[], []⟩, 0, 0⟩, ""⟩, ""⟩

/-- `from_json_descriptor`. `typesDefined` is the condition
`defined( NATIVE_HANDLE_H_ ) && defined( GRANTOR_DESCRIPTOR_DEFINED )`. -/
def fromJsonDescriptor (os : Platform) (typesDefined : Bool) (a_json_decriptor : String)
    (desc : NamedMQDescriptor) : Bool × NamedMQDescriptor :=
  if typesDefined then
    -- `quantum_value` and `flags_value` are outputs too, and end with the function.
    let out := SystemPorting.fromString os.json os.nativeHandleCreate a_json_decriptor
      ⟨[], none, 0, 0, desc.name⟩
    (true, { desc with
      grantors := out.grantors.map exportGrantor
      name := out.name
      json_decriptor := a_json_decriptor })
  else
    (true, { desc with json_decriptor := a_json_decriptor })

/-- The grantors, the quantum, the flags and the name of a queue that was exported as `desc`. -/
structure Restores (rebuilt desc : NamedMQDescriptor) (name : String) : Prop where
  grantors : rebuilt.grantors = desc.grantors
  quantum : rebuilt.quantum = desc.quantum
  flags : rebuilt.flags = desc.flags
  name : rebuilt.name = name

end NamedMQDescriptor
end aidl

/-- `dupeDesc` behind its null check. The elements of the handle are not duplicated, and of the
integers only the number is kept. -/
def AidlMQDescriptorShim.dupeDesc (os : Platform) (shim : AidlMQDescriptorShim) :
    Call aidl.NamedMQDescriptor :=
  match shim.mHandle with
  | none => .error .nullAccess
  | some handle => return {
      grantors := shim.mGrantors.map exportGrantor
      handle := ⟨handle.fds, .replicate handle.ints.length 0⟩
      quantum := shim.getQuantum.toUInt32.toInt32
      flags := shim.mFlags.toInt32
      json_decriptor := shim.toString os.json
      name := "" }

/-- A queue object, and the name that its descriptor has. -/
structure AidlMessageQueue extends MessageQueueBase where
  mName : String
  deriving DecidableEq, Repr

namespace AidlMessageQueue

def getDesc (mq : AidlMessageQueue) : Option AidlMQDescriptorShim :=
  mq.mDesc.map fun desc => ⟨desc, mq.mName⟩

/-- `dupeDesc`. Without a descriptor the result is a default-constructed one. -/
def dupeDesc (os : Platform) (mq : AidlMessageQueue) : Call aidl.NamedMQDescriptor :=
  match mq.getDesc with
  | some shim => shim.dupeDesc os
  | none => return .default

end AidlMessageQueue

/-- What a queue is built from. -/
inductive Origin where
  /-- `MessageQueueBase(numElementsInQueue, configureEventFlagWord, bufferFd, bufferSize, name)`. -/
  | numElements (numElementsInQueue : UInt64) (configureEventFlagWord : Bool) (bufferFd : Int32)
      (bufferSize : UInt64) (name : String) (rand : Int32)
  /-- `AidlMessageQueue(desc, resetPointers)`. -/
  | mqDescriptor (desc : aidl.MQDescriptor) (resetPointers : Bool)
  /-- `MessageQueueBase(Desc, resetPointers)`. -/
  | descriptor (desc : AidlMQDescriptorShim) (resetPointers : Bool)

namespace Origin

def construct (os : Platform) (flavor : MQFlavor) (sizeofT : UInt64) :
    Origin → Call AidlMessageQueue
  | numElements numElementsInQueue configureEventFlagWord bufferFd bufferSize name rand => do
    let mq ← ofNumElements os flavor sizeofT numElementsInQueue configureEventFlagWord bufferFd
      bufferSize name rand
    -- `setName` is called in the branch without a buffer only.
    return ⟨mq, if bufferFd ≠ -1 then "" else regionName name rand⟩
  | mqDescriptor desc resetPointers => do
    let mq ← ofMQDescriptor os flavor sizeofT desc resetPointers
    return ⟨mq, (AidlMQDescriptorShim.ofMQDescriptor os desc).mName⟩
  | descriptor desc resetPointers => do
    return ⟨← ofDescriptor os flavor sizeofT desc resetPointers, desc.mName⟩

end Origin
end Fmq.Msvc
