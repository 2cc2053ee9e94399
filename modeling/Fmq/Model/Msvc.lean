import Fmq.Model.Codec
import Fmq.Model.Construction

/-!
# The MSVC build

The constructors as they are compiled for Windows. A descriptor has a name there, and is carried as
text beside the fields of the parcelable; the elements of a handle are pointers. Beside these
differences the code is that of the other build.
-/
namespace Fmq.Msvc

open MessageQueueBase

/-- The answers of Windows, of the allocator and of the libraries. A null `HANDLE` is 0. -/
structure Platform where
  json : JsonLibrary
  nativeHandleCreate : Int32 → Int32 → Option NativeHandle
  /-- `system_porting_open_shmem`. -/
  openShmem : String → Int32
  ashmemCreateRegion : String → UInt64 → Int32
  mmap : Int32 → Int32 → Int32 → Option Nat
  newDescriptor : Bool
  newCounter : Option Nat

/-- Every request that can be met succeeds. -/
def Platform.generous (json : JsonLibrary) : Platform where
  json := json
  nativeHandleCreate := NativeHandle.create
  openShmem _ := 3
  ashmemCreateRegion _ _ := 3
  mmap length _ _ := if 0 < length then some 0x10000 else none
  newDescriptor := true
  newCounter := some 0x20000

/-- What `initMemory` uses of it. -/
def Platform.base (os : Platform) : Fmq.Platform where
  nativeHandleCreate numFds numInts :=
    (os.nativeHandleCreate (.ofNat numFds) (.ofNat numInts)).isSome
  dup := id
  ashmemCreateRegion _ := 0
  mmap := os.mmap
  newDescriptor := os.newDescriptor
  newCounter := os.newCounter

namespace aidl

structure MQDescriptor extends Fmq.aidl.MQDescriptor where
  json_decriptor : String
  deriving DecidableEq, Repr

end aidl

structure AidlMQDescriptorShim extends Fmq.AidlMQDescriptorShim where
  mName : String
  deriving DecidableEq, Repr

namespace AidlMQDescriptorShim

def toString (json : JsonLibrary) (desc : AidlMQDescriptorShim) : String :=
  SystemPorting.generateString json desc.mGrantors desc.mHandle desc.mQuantum desc.mFlags
    desc.mName

def fromString (os : Platform) (a_decriptor_str : String) (desc : AidlMQDescriptorShim) :
    AidlMQDescriptorShim :=
  let out := SystemPorting.fromString os.json os.nativeHandleCreate a_decriptor_str
    ⟨desc.mGrantors, desc.mHandle, desc.mQuantum, desc.mFlags, desc.mName⟩
  ⟨⟨out.grantors, out.handle, out.quantum, out.flags⟩, out.name⟩

/-- `AidlMQDescriptorShim(desc)`. Of the parcelable only the quantum and the flags are used. -/
def ofMQDescriptor (os : Platform) (desc : aidl.MQDescriptor) : AidlMQDescriptorShim :=
  fromString os desc.json_decriptor
    ⟨⟨[], none, desc.quantum.toUInt32, desc.flags.toUInt32⟩, ""⟩

/-- The copy constructor. `memcpy` takes four bytes for every integer, although an element has
eight. -/
def copy (os : Platform) (other : AidlMQDescriptorShim) : Call AidlMQDescriptorShim :=
  match other.mHandle with
  | none => return other
  | some handle =>
    match os.nativeHandleCreate handle.numFds handle.numInts with
    | none => .error .nullAccess
    | some created =>
      let copied := (handle.ints.length + 1) / 2
      let ints := handle.ints.take copied ++ created.ints.drop copied
      return { other with mHandle := some ⟨handle.fds, ints⟩ }

end AidlMQDescriptorShim

/-- `handle->data[0] = value`. -/
def setData (value : Int32) : NativeHandle → Call NativeHandle
  | ⟨_ :: fds, ints⟩ => return ⟨value :: fds, ints⟩
  | ⟨[], _ :: ints⟩ => return ⟨[], value :: ints⟩
  | ⟨[], []⟩ => .error .fdOutOfRange

/-! ## Constructors of queues -/

/-- `MessageQueueBase(Desc, resetPointers)`. The region is opened by its name. -/
def ofDescriptor (os : Platform) (flavor : MQFlavor) (sizeofT : UInt64)
    (desc : AidlMQDescriptorShim) (resetPointers : Bool) : Call MessageQueueBase := do
  if !os.newDescriptor then return withDesc none
  let mDesc ← desc.copy os
  let win_handle := os.openShmem mDesc.mName
  match mDesc.mHandle with
  | none => .error .nullAccess
  | some handle_mod =>
    let handle_mod ← setData win_handle handle_mod
    initMemory os.base flavor sizeofT
      { mDesc.toAidlMQDescriptorShim with mHandle := some handle_mod } resetPointers

/-- `AidlMessageQueue(desc, resetPointers)`. -/
def ofMQDescriptor (os : Platform) (flavor : MQFlavor) (sizeofT : UInt64)
    (desc : aidl.MQDescriptor) (resetPointers : Bool) : Call MessageQueueBase :=
  ofDescriptor os flavor sizeofT (.ofMQDescriptor os desc) resetPointers

/-- The random number is drawn, but not appended to the name. -/
def generateRandomName (_rand : Int32) : String := "random_message_queue_name_"

/-- The name that the constructor gives to its region. -/
def regionName (name : String) (rand : Int32) : String :=
  if name = "" then generateRandomName rand else name

/-- `MessageQueueBase(numElementsInQueue, configureEventFlagWord, bufferFd, bufferSize, name)`. A
buffer is not supported: its element of the handle is left as it was allocated. -/
def ofNumElements (os : Platform) (flavor : MQFlavor) (sizeofT numElementsInQueue : UInt64)
    (configureEventFlagWord : Bool) (bufferFd : Int32) (bufferSize : UInt64) (name : String)
    (rand : Int32) : Call MessageQueueBase := do
  if numElementsInQueue > (← div 0xFFFFFFFFFFFFFFFF sizeofT) then return withDesc none
  let kQueueSizeBytes := numElementsInQueue * sizeofT
  if bufferFd ≠ -1 ∧ kQueueSizeBytes > bufferSize then return withDesc none
  let kAshmemSizePageAligned ← ashmemSize (bufferFd ≠ -1) configureEventFlagWord kQueueSizeBytes
  let numFds := if bufferFd ≠ -1 then 2 else 1
  match os.nativeHandleCreate numFds 0 with
  | none => return withDesc none
  | some mqHandle =>
    let ashmemFd := os.ashmemCreateRegion (regionName name rand) kAshmemSizePageAligned
    let mqHandle ← setData ashmemFd mqHandle
    if bufferFd ≠ -1 then
      let grantors ← suppliedGrantors details.READPTRPOS 0
        ((details.memSize kQueueSizeBytes).take (details.grantorCount configureEventFlagWord))
      if !os.newDescriptor then return withDesc none
      initMemory os.base flavor sizeofT (.ofGrantors flavor grantors (some mqHandle) sizeofT) true
    else
      -- `mDesc->setName(name)` comes before the check for null.
      if !os.newDescriptor then .error .nullAccess
      let desc ← Fmq.AidlMQDescriptorShim.ofBufferSize flavor kQueueSizeBytes (some mqHandle)
        sizeofT configureEventFlagWord
      initMemory os.base flavor sizeofT desc true

end Fmq.Msvc
