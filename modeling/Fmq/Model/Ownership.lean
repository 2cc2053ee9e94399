import Fmq.Lib.Ownership
import Fmq.Model.Conversion
import Fmq.Model.EventFlag
import Fmq.Model.Export

/-!
# File descriptors and mappings

The constructors and destructors once more, with the system calls that they make: which file
descriptors, mappings and heap objects a process has at each moment. What they compute apart from
that is what the functions without resources compute.
-/
namespace Fmq.Tracked

open Ownership details MessageQueueBase

inductive Resource where
  | fd (number : Int32)
  | mapping (address : Nat) (length : Int32)
  /-- A `std::atomic<uint64_t>` on the heap. -/
  | counter (address : Nat)
  /-- A `native_handle_t`. -/
  | nativeHandle
  | eventFlag
  deriving DecidableEq

/-- What a process can have only once: the number of a file descriptor, an address. -/
inductive Place where
  | fd (number : Int32)
  | mapping (address : Nat)
  | counter (address : Nat)
  deriving DecidableEq

def Resource.place : Resource → Option Place
  | .fd number => some (.fd number)
  | .mapping address _ => some (.mapping address)
  | .counter address => some (.counter address)
  | .nativeHandle | .eventFlag => none

def Distinct (live : Multiset Resource) : Prop := (live.filterMap Resource.place).Nodup

/-- The answers to the requests of a process. They may depend on everything that it has. -/
structure Kernel where
  os : Nat → Multiset Resource → Platform
  newEventFlag : Nat → Multiset Resource → Bool

/-- A place that is given out is not in use. No mapping starts at the null pointer. -/
structure Kernel.Lawful (k : Kernel) : Prop where
  dup : ∀ n live fd, (k.os n live).dup fd = -1 ∨
    .fd ((k.os n live).dup fd) ∉ live.filterMap Resource.place
  ashmemCreateRegion : ∀ n live size, (k.os n live).ashmemCreateRegion size = -1 ∨
    .fd ((k.os n live).ashmemCreateRegion size) ∉ live.filterMap Resource.place
  mmap : ∀ n live length fd offset, ∀ address ∈ (k.os n live).mmap length fd offset,
    address ≠ 0 ∧ .mapping address ∉ live.filterMap Resource.place
  newCounter : ∀ n live, ∀ address ∈ (k.os n live).newCounter,
    .counter address ∉ live.filterMap Resource.place

abbrev Proc (α : Type) := Prog Resource Fault α

/-! ## System calls -/

/-- No descriptor comes with the error value. -/
def ownedFd (fd : Int32) : Multiset Resource := if fd = -1 then 0 else {.fd fd}

variable (k : Kernel)

def dup (fd : Int32) : Proc Int32 := request (fun n live => (k.os n live).dup fd) ownedFd

/-- `close` of a number that is not open fails, and nobody looks at its result. -/
def close (fd : Int32) : Proc Unit := if fd = -1 then return () else release (.fd fd)

def ashmemCreateRegion (size : UInt64) : Proc Int32 :=
  request (fun n live => (k.os n live).ashmemCreateRegion size) ownedFd

def mmap (length fd offset : Int32) : Proc (Option Nat) :=
  request (fun n live => (k.os n live).mmap length fd offset) fun address =>
    address.elim 0 fun address => {.mapping address length}

def newCounter : Proc (Option Nat) :=
  request (fun n live => (k.os n live).newCounter) fun address =>
    address.elim 0 fun address => {.counter address}

def newDescriptor : Proc Bool := request (fun n live => (k.os n live).newDescriptor) fun _ => 0

def newEventFlag : Proc Bool :=
  request k.newEventFlag fun ok => if ok then {.eventFlag} else 0

def nativeHandleCreate (numFds numInts : Nat) : Proc Bool :=
  request (fun n live => (k.os n live).nativeHandleCreate numFds numInts) fun ok =>
    if ok then {.nativeHandle} else 0

def dupAll : List Int32 → Proc (List Int32)
  | [] => return []
  | fd :: fds => do
    let fd ← dup k fd
    return fd :: (← dupAll fds)

def closeAll : List Int32 → Proc Unit
  | [] => return ()
  | fd :: fds => do
    close fd
    closeAll fds

/-- `native_handle_close` and `native_handle_delete`, where the pointer is not null. -/
def closeHandle : Option NativeHandle → Proc Unit
  | none => return ()
  | some handle => do
    closeAll handle.fds
    release .nativeHandle

/-! ## `AidlMQDescriptorShim` -/

/-- `AidlMQDescriptorShim(desc)`. -/
def ofMQDescriptor (desc : aidl.MQDescriptor) : Proc AidlMQDescriptorShim := do
  let mQuantum := desc.quantum.toUInt32
  let mFlags := desc.flags.toUInt32
  if desc.quantum < 0 ∨ desc.flags < 0 then return ⟨[], none, mQuantum, mFlags⟩
  let (mGrantors, positive) := AidlMQDescriptorShim.grantorsOf desc.grantors
  if !positive then return ⟨mGrantors, none, mQuantum, mFlags⟩
  if ← nativeHandleCreate k desc.handle.fds.length desc.handle.ints.length then
    let fds ← dupAll k desc.handle.fds
    return ⟨mGrantors, some ⟨fds, desc.handle.ints⟩, mQuantum, mFlags⟩
  return ⟨mGrantors, none, mQuantum, mFlags⟩

/-- `*this = other`. -/
def assign (self other : AidlMQDescriptorShim) : Proc AidlMQDescriptorShim := do
  closeHandle self.mHandle
  match other.mHandle with
  | none => return { other with mHandle := none }
  | some handle =>
    if ← nativeHandleCreate k handle.fds.length handle.ints.length then
      let fds ← dupAll k handle.fds
      return { other with mHandle := some ⟨fds, handle.ints⟩ }
    -- `mHandle->data[i]` with `mHandle` null.
    fail .nullAccess

/-- The copy constructor assigns to a shim without a handle. -/
def copy (other : AidlMQDescriptorShim) : Proc AidlMQDescriptorShim :=
  assign k { other with mHandle := none } other

/-- `~AidlMQDescriptorShim()`. -/
def destroyShim (shim : AidlMQDescriptorShim) : Proc Unit := closeHandle shim.mHandle

/-! ## `EventFlag` -/

structure EventFlagObject where
  mEfWordPtr : Option Nat
  mEfWordNeedsUnmapping : Bool
  deriving DecidableEq

def NO_MEMORY : Status := -12

/-- `createEventFlag(fwAddr, flag)` with `flag` not null: its value, and `*flag`. -/
def createEventFlag (fwAddr : Option Nat) : Proc (Status × Option EventFlagObject) := do
  if !(← newEventFlag k) then return (NO_MEMORY, none)
  match fwAddr with
  | none =>
    release .eventFlag
    return (BAD_VALUE, none)
  | some _ => return (NO_ERROR, some ⟨fwAddr, false⟩)

/-- `unmapEventFlagWord`; its flag `efWordNeedsUnmapping` is false afterwards. -/
def unmapEventFlagWord (flag : EventFlagObject) : Proc Unit :=
  match flag.mEfWordNeedsUnmapping, flag.mEfWordPtr with
  | true, some address => release (.mapping address 4)
  | _, _ => return ()

/-- `deleteEventFlag(evFlag)` with `evFlag` not null. -/
def deleteEventFlag : Option EventFlagObject → Proc Status
  | none => return BAD_VALUE
  | some flag => do
    unmapEventFlagWord flag
    -- `~EventFlag()` tries the same again.
    unmapEventFlagWord { flag with mEfWordNeedsUnmapping := false }
    release .eventFlag
    return NO_ERROR

/-! ## `MessageQueueBase` -/

/-- A queue object with what its destructor needs to know. -/
structure QueueObject where
  flavor : MQFlavor
  mq : MessageQueueBase
  mEventFlag : Option EventFlagObject
  deriving DecidableEq

/-- From the mapping of a grantor to the grantor. -/
def mapDistance (grantor : GrantorDescriptor) : Nat :=
  (grantor.offset - (mapRange grantor).1.toUInt32).toNat

def mapGrantorDescr (desc : AidlMQDescriptorShim) (grantorIdx : Nat) : Proc (Option Nat) :=
  match desc.mHandle, desc.mGrantors[grantorIdx]? with
  | none, _ | _, none => return none
  | some handle, some grantor => do
    let fd ← lift (handle.data grantor.fdIndex.toInt32)
    let address ← mmap k (mapRange grantor).2 fd (mapRange grantor).1
    return address.map (· + mapDistance grantor)

def unmapGrantorDescr (desc : AidlMQDescriptorShim) (address : Option Nat) (grantorIdx : Nat) :
    Proc Unit :=
  match address, desc.mGrantors[grantorIdx]? with
  | none, _ | _, none => return ()
  | some address, some grantor =>
    let baseAddress := address - mapDistance grantor
    if baseAddress ≠ 0 then release (.mapping baseAddress (mapRange grantor).2) else return ()

def mapReadPtr (flavor : MQFlavor) (desc : AidlMQDescriptorShim) : Proc (Option Nat) :=
  match flavor with
  | .kSynchronizedReadWrite => mapGrantorDescr k desc READPTRPOS
  | .kUnsynchronizedWrite => newCounter k

def initMemory (flavor : MQFlavor) (sizeofT : UInt64) (desc : AidlMQDescriptorShim)
    (resetPointers : Bool) : Proc QueueObject := do
  if desc.isHandleValid = false ∨ desc.countGrantors < kMinGrantorCount then
    return ⟨flavor, withDesc desc, none⟩
  if desc.getQuantum ≠ sizeofT then
    return ⟨flavor, withDesc desc, none⟩
  lift (check (desc.mGrantors.all fun grantor => isAlignedToWordBoundary grantor.offset.toUInt64)
    "Grantor offsets need to be aligned")
  let mReadPtr ← mapReadPtr k flavor desc
  lift (check mReadPtr.isSome "mReadPtr is null")
  let mWritePtr ← mapGrantorDescr k desc WRITEPTRPOS
  lift (check mWritePtr.isSome "mWritePtr is null")
  let readStored := if resetPointers ∨ flavor ≠ .kSynchronizedReadWrite then some 0 else none
  let writeStored := if resetPointers then some 0 else none
  let mRing ← mapGrantorDescr k desc DATAPTRPOS
  lift (check mRing.isSome "mRing is null")
  if desc.countGrantors > EVFLAGWORDPOS then
    let mEvFlagWord ← mapGrantorDescr k desc EVFLAGWORDPOS
    lift (check mEvFlagWord.isSome "mEvFlagWord is null")
    let (_, mEventFlag) ← createEventFlag k mEvFlagWord
    return ⟨flavor, ⟨desc, mRing, mReadPtr, mWritePtr, mEvFlagWord, readStored, writeStored⟩,
      mEventFlag⟩
  return ⟨flavor, ⟨desc, mRing, mReadPtr, mWritePtr, none, readStored, writeStored⟩, none⟩

/-- `MessageQueueBase(Desc, resetPointers)`. -/
def ofDescriptor (flavor : MQFlavor) (sizeofT : UInt64) (desc : AidlMQDescriptorShim)
    (resetPointers : Bool) : Proc QueueObject := do
  if !(← newDescriptor k) then return ⟨flavor, withDesc none, none⟩
  initMemory k flavor sizeofT (← copy k desc) resetPointers

/-- `AidlMessageQueue(desc, resetPointers)`, with its temporary shim. -/
def ofAidlDescriptor (flavor : MQFlavor) (sizeofT : UInt64) (desc : aidl.MQDescriptor)
    (resetPointers : Bool) : Proc QueueObject := do
  let temporary ← ofMQDescriptor k desc
  let object ← ofDescriptor k flavor sizeofT temporary resetPointers
  destroyShim temporary
  return object

/-- `MessageQueueBase(numElementsInQueue, configureEventFlagWord, bufferFd, bufferSize)`. Until it
is in the handle, `bufferFd` is closed on every way out. -/
def ofNumElements (flavor : MQFlavor) (sizeofT numElementsInQueue : UInt64)
    (configureEventFlagWord : Bool) (bufferFd : Int32) (bufferSize : UInt64) :
    Proc QueueObject := do
  let refused : QueueObject := ⟨flavor, withDesc none, none⟩
  if numElementsInQueue > (← lift (div 0xFFFFFFFFFFFFFFFF sizeofT)) then
    close bufferFd
    return refused
  let kQueueSizeBytes := numElementsInQueue * sizeofT
  if bufferFd ≠ -1 ∧ kQueueSizeBytes > bufferSize then
    close bufferFd
    return refused
  let kAshmemSizePageAligned ←
    lift (ashmemSize (bufferFd ≠ -1) configureEventFlagWord kQueueSizeBytes)
  let numFds := if bufferFd ≠ -1 then 2 else 1
  if !(← nativeHandleCreate k numFds 0) then
    close bufferFd
    return refused
  let ashmemFd ← ashmemCreateRegion k kAshmemSizePageAligned
  if bufferFd ≠ -1 then
    let grantors ← lift (suppliedGrantors READPTRPOS 0
      ((memSize kQueueSizeBytes).take (grantorCount configureEventFlagWord)))
    let mqHandle : NativeHandle := ⟨[ashmemFd, bufferFd], []⟩
    if !(← newDescriptor k) then
      closeHandle (some mqHandle)
      return refused
    initMemory k flavor sizeofT (.ofGrantors flavor grantors (some mqHandle) sizeofT) true
  else
    let mqHandle : NativeHandle := ⟨[ashmemFd], []⟩
    if !(← newDescriptor k) then
      closeHandle (some mqHandle)
      return refused
    let desc ← lift (AidlMQDescriptorShim.ofBufferSize flavor kQueueSizeBytes (some mqHandle)
      sizeofT configureEventFlagWord)
    initMemory k flavor sizeofT desc true

/-- What `~MessageQueueBase()` does with the read counter. -/
def unmapReadPtr (flavor : MQFlavor) (desc : AidlMQDescriptorShim) : Option Nat → Proc Unit
  | none => return ()
  | some mReadPtr =>
    match flavor with
    | .kUnsynchronizedWrite => release (.counter mReadPtr)
    | .kSynchronizedReadWrite => unmapGrantorDescr desc mReadPtr READPTRPOS

/-- `~MessageQueueBase()`, and then the destructor of `mDesc`. -/
def destroy (object : QueueObject) : Proc Unit :=
  match object.mq.mDesc with
  | none => return ()
  | some desc => do
    unmapReadPtr object.flavor desc object.mq.mReadPtr
    unmapGrantorDescr desc object.mq.mWritePtr WRITEPTRPOS
    unmapGrantorDescr desc object.mq.mRing DATAPTRPOS
    if object.mq.mEvFlagWord.isSome then
      unmapGrantorDescr desc object.mq.mEvFlagWord EVFLAGWORDPOS
      let _ ← deleteEventFlag object.mEventFlag
    destroyShim desc

/-! ## `MQDescriptor` -/

/-- `AidlMessageQueue::dupeDesc()`. -/
def dupeDesc (mq : MessageQueueBase) : Proc aidl.MQDescriptor :=
  match mq.mDesc with
  | none => return ⟨[], ⟨[], []⟩, 0, 0⟩
  | some shim =>
    match shim.mHandle with
    | none => fail .nullAccess
    | some handle => do
      let fds ← dupAll k handle.fds
      return {
        quantum := shim.mQuantum.toUInt64.toUInt32.toInt32
        grantors := shim.mGrantors.map AidlMQDescriptorShim.exportGrantor
        flags := shim.mFlags.toInt32
        handle := ⟨fds, handle.ints⟩ }

/-- The destructor of an `MQDescriptor`, with those of its `ScopedFileDescriptor`s. -/
def destroyDesc (desc : aidl.MQDescriptor) : Proc Unit := closeAll desc.handle.fds

/-- A descriptor that arrives from another process, with file descriptors of this one. -/
def receive (desc : aidl.MQDescriptor) : Proc aidl.MQDescriptor := do
  let fds ← dupAll k desc.handle.fds
  return { desc with handle := ⟨fds, desc.handle.ints⟩ }

/-! ## A process -/

/-- What the application holds. -/
structure World where
  objects : List QueueObject
  descs : List aidl.MQDescriptor
  /-- `unique_fd`s of buffers. -/
  buffers : List Int32

inductive Event where
  | createBuffer (size : UInt64)
  /-- `AidlMessageQueue(numElementsInQueue, configureEventFlagWord, bufferFd, bufferSize)` for one
  of the buffers, or for none. -/
  | create (flavor : MQFlavor) (sizeofT numElementsInQueue : UInt64)
      (configureEventFlagWord : Bool) (buffer : Option Nat) (bufferSize : UInt64)
  | receive (desc : aidl.MQDescriptor)
  /-- `AidlMessageQueue(desc, resetPointers)`. -/
  | attach (flavor : MQFlavor) (sizeofT : UInt64) (desc : Nat) (resetPointers : Bool)
  | dupeDesc (object : Nat)
  | destroyDesc (desc : Nat)
  | destroy (object : Nat)

/-- One step of the application. An index without an element does nothing. -/
def World.step (w : World) : Event → Proc World
  | .createBuffer size => do
    return { w with buffers := (← ashmemCreateRegion k size) :: w.buffers }
  | .create flavor sizeofT numElementsInQueue configureEventFlagWord buffer bufferSize => do
    let object ← ofNumElements k flavor sizeofT numElementsInQueue configureEventFlagWord
      ((buffer.bind (w.buffers[·]?)).getD (-1)) bufferSize
    -- The buffer has been moved into the call.
    return { w with
      objects := object :: w.objects
      buffers := buffer.elim w.buffers w.buffers.eraseIdx }
  | .receive desc => do return { w with descs := (← receive k desc) :: w.descs }
  | .attach flavor sizeofT desc resetPointers =>
    match w.descs[desc]? with
    | none => return w
    | some desc => do
      return { w with
        objects := (← ofAidlDescriptor k flavor sizeofT desc resetPointers) :: w.objects }
  | .dupeDesc object =>
    match w.objects[object]? with
    | none => return w
    | some object => do return { w with descs := (← dupeDesc k object.mq) :: w.descs }
  | .destroyDesc i =>
    match w.descs[i]? with
    | none => return w
    | some desc => do
      destroyDesc desc
      return { w with descs := w.descs.eraseIdx i }
  | .destroy i =>
    match w.objects[i]? with
    | none => return w
    | some object => do
      destroy object
      return { w with objects := w.objects.eraseIdx i }

def World.run (w : World) : List Event → Proc World
  | [] => return w
  | event :: events => do
    let w ← w.step k event
    w.run events

end Fmq.Tracked
