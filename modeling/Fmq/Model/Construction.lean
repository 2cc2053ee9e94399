import Fmq.Model.Descriptor
import Fmq.Model.Queue

/-!
# Construction of a queue

`initMemory`, `mapGrantorDescr` and the constructors of `MessageQueueBase` and
`AidlMessageQueue`. The ring and the two counters are taken to lie in separate memory, as long
as their grantors say.
-/
namespace Fmq

open details

/-- The members of a queue object. -/
structure MessageQueueBase where
  mDesc : Option AidlMQDescriptorShim
  mRing : Option Nat
  mReadPtr : Option Nat
  mWritePtr : Option Nat
  mEvFlagWord : Option Nat
  /-- What `initMemory` stored to `*mReadPtr` and `*mWritePtr`, if anything. -/
  readStored : Option UInt64
  writeStored : Option UInt64
  deriving DecidableEq, Repr

namespace MessageQueueBase

/-- The object before `initMemory`. -/
def withDesc (mDesc : Option AidlMQDescriptorShim) : MessageQueueBase :=
  ⟨mDesc, none, none, none, none, none, none⟩

def isValid (mq : MessageQueueBase) : Bool :=
  mq.mRing.isSome && mq.mReadPtr.isSome && mq.mWritePtr.isSome

/-- The data path of the object for a payload type of size `sizeofT`. -/
def queue (mq : MessageQueueBase) (flavor : MQFlavor) (sizeofT : UInt64) : Option Queue :=
  mq.mDesc.map fun desc => ⟨flavor, sizeofT, desc.getSize, desc.getQuantum⟩

/-- The mapped memory as the constructor leaves it, where ring and counters share no byte.
`Endpoint.initStores` stores to the mapped bytes themselves. -/
def attach (mq : MessageQueueBase) (σ : Storage) : Storage :=
  ⟨σ.ring, mq.readStored.getD σ.readPtr, mq.writeStored.getD σ.writePtr⟩

/-- Multiples of this only can be offsets of a mapping. -/
def PAGE_SIZE : UInt32 := 0x00010000

/-- `mapOffset` and `mapLength`, as the `int`s they are assigned to. -/
def mapRange (grantor : GrantorDescriptor) : Int32 × Int32 :=
  let mapOffset := (grantor.offset / PAGE_SIZE * PAGE_SIZE).toInt32
  (mapOffset, ((grantor.offset - mapOffset.toUInt32).toUInt64 + grantor.extent).toUInt32.toInt32)

/-- The mapped address, `none` for a null pointer. -/
def mapGrantorDescr (os : Platform) (desc : AidlMQDescriptorShim) (grantorIdx : Nat) :
    Call (Option Nat) :=
  match desc.mHandle, desc.mGrantors[grantorIdx]? with
  -- No handle, or fewer grantors than `grantorIdx`.
  | none, _ | _, none => return none
  | some handle, some grantor => do
    let (mapOffset, mapLength) := mapRange grantor
    let fd ← handle.data grantor.fdIndex.toInt32
    return (os.mmap mapLength fd mapOffset).map
      (· + (grantor.offset - mapOffset.toUInt32).toNat)

/-- Where `initMemory` gets the read counter from. In the unsynchronized flavor every reader has
its own. -/
def mapReadPtr (os : Platform) (flavor : MQFlavor) (desc : AidlMQDescriptorShim) :
    Call (Option Nat) :=
  match flavor with
  | .kSynchronizedReadWrite => mapGrantorDescr os desc READPTRPOS
  | .kUnsynchronizedWrite => return os.newCounter

def initMemory (os : Platform) (flavor : MQFlavor) (sizeofT : UInt64)
    (desc : AidlMQDescriptorShim) (resetPointers : Bool) : Call MessageQueueBase := do
  -- The object is left invalid, with its descriptor but nothing mapped.
  if desc.isHandleValid = false ∨ desc.countGrantors < kMinGrantorCount then
    return withDesc desc
  if desc.getQuantum ≠ sizeofT then
    return withDesc desc
  check (desc.mGrantors.all fun grantor => isAlignedToWordBoundary grantor.offset.toUInt64)
    "Grantor offsets need to be aligned"
  let mReadPtr ← mapReadPtr os flavor desc
  check mReadPtr.isSome "mReadPtr is null"
  let mWritePtr ← mapGrantorDescr os desc WRITEPTRPOS
  check mWritePtr.isSome "mWritePtr is null"
  -- The read counter of an unsynchronized reader is reset in any case.
  let readStored := if resetPointers ∨ flavor ≠ .kSynchronizedReadWrite then some 0 else none
  let writeStored := if resetPointers then some 0 else none
  let mRing ← mapGrantorDescr os desc DATAPTRPOS
  check mRing.isSome "mRing is null"
  if desc.countGrantors > EVFLAGWORDPOS then
    let mEvFlagWord ← mapGrantorDescr os desc EVFLAGWORDPOS
    check mEvFlagWord.isSome "mEvFlagWord is null"
    return ⟨desc, mRing, mReadPtr, mWritePtr, mEvFlagWord, readStored, writeStored⟩
  return ⟨desc, mRing, mReadPtr, mWritePtr, none, readStored, writeStored⟩

/-- `MessageQueueBase(Desc, resetPointers)`. -/
def ofDescriptor (os : Platform) (flavor : MQFlavor) (sizeofT : UInt64)
    (desc : AidlMQDescriptorShim) (resetPointers : Bool) : Call MessageQueueBase := do
  if !os.newDescriptor then return withDesc none
  initMemory os flavor sizeofT (← desc.copy os) resetPointers

/-- The loop over the grantors beside a user-supplied buffer, with the next `offset` in the
first file. -/
def suppliedGrantors (grantorPos : Nat) (offset : UInt64) :
    List UInt64 → Call (List GrantorDescriptor)
  | [] => return []
  | size :: sizes => do
    let (grantorFdIndex, grantorOffset, offset) :=
      -- The ring starts the user's own file.
      if grantorPos = DATAPTRPOS then (1, 0, offset) else (0, offset, offset + size)
    let aligned ← alignToWordBoundary grantorOffset
    return ⟨0, grantorFdIndex, aligned.toUInt32, size⟩ ::
      (← suppliedGrantors (grantorPos + 1) offset sizes)

/-- `kAshmemSizePageAligned`. -/
def ashmemSize (bufferSupplied configureEventFlagWord : Bool) (kQueueSizeBytes : UInt64) :
    Call UInt64 := do
  let kMetaDataSize :=
    2 * sizeofRingBufferPosition + if configureEventFlagWord then sizeofEvFlagWord else 0
  let size := PAGE_SIZE.toUInt64
  if bufferSupplied then return (kMetaDataSize + size - 1) &&& ~~~(size - 1)
  return ((← alignToWordBoundary kQueueSizeBytes) + kMetaDataSize + size - 1) &&& ~~~(size - 1)

/-- `MessageQueueBase(numElementsInQueue, configureEventFlagWord, bufferFd, bufferSize)`; `-1`
is no buffer. -/
def ofNumElements (os : Platform) (flavor : MQFlavor) (sizeofT numElementsInQueue : UInt64)
    (configureEventFlagWord : Bool) (bufferFd : Int32) (bufferSize : UInt64) :
    Call MessageQueueBase := do
  -- `SIZE_MAX / sizeof(T)`.
  if numElementsInQueue > (← div 0xFFFFFFFFFFFFFFFF sizeofT) then return withDesc none
  let kQueueSizeBytes := numElementsInQueue * sizeofT
  if bufferFd ≠ -1 ∧ kQueueSizeBytes > bufferSize then return withDesc none
  let kAshmemSizePageAligned ← ashmemSize (bufferFd ≠ -1) configureEventFlagWord kQueueSizeBytes
  let numFds := if bufferFd ≠ -1 then 2 else 1
  if !os.nativeHandleCreate numFds 0 then return withDesc none
  -- The return value is not checked here.
  let ashmemFd := os.ashmemCreateRegion kAshmemSizePageAligned
  if bufferFd ≠ -1 then
    let grantors ← suppliedGrantors READPTRPOS 0
      ((memSize kQueueSizeBytes).take (grantorCount configureEventFlagWord))
    if !os.newDescriptor then return withDesc none
    initMemory os flavor sizeofT
      (.ofGrantors flavor grantors (some ⟨[ashmemFd, bufferFd], []⟩) sizeofT) true
  else
    if !os.newDescriptor then return withDesc none
    let desc ← AidlMQDescriptorShim.ofBufferSize flavor kQueueSizeBytes (some ⟨[ashmemFd], []⟩)
      sizeofT configureEventFlagWord
    initMemory os flavor sizeofT desc true

end MessageQueueBase

/-- What a queue is built from. -/
inductive Source where
  /-- `AidlMessageQueue(numElementsInQueue, configureEventFlagWord, bufferFd, bufferSize)`; the
  constructor without a buffer passes `-1` and `0`. -/
  | numElements (numElementsInQueue : UInt64) (configureEventFlagWord : Bool) (bufferFd : Int32)
      (bufferSize : UInt64)
  /-- `AidlMessageQueue(desc, resetPointers)`. -/
  | mqDescriptor (desc : aidl.MQDescriptor) (resetPointers : Bool)
  /-- `MessageQueueBase(Desc, resetPointers)`. -/
  | descriptor (desc : AidlMQDescriptorShim) (resetPointers : Bool)

def Source.construct (os : Platform) (flavor : MQFlavor) (sizeofT : UInt64) :
    Source → Call MessageQueueBase
  | .numElements numElementsInQueue configureEventFlagWord bufferFd bufferSize =>
    MessageQueueBase.ofNumElements os flavor sizeofT numElementsInQueue configureEventFlagWord
      bufferFd bufferSize
  | .mqDescriptor desc resetPointers =>
    MessageQueueBase.ofDescriptor os flavor sizeofT (.ofMQDescriptor os desc) resetPointers
  | .descriptor desc resetPointers =>
    MessageQueueBase.ofDescriptor os flavor sizeofT desc resetPointers

end Fmq
