import Fmq.Model.Base

/-!
# Descriptors

`AidlMQDescriptorShim`, the AIDL `MQDescriptor` that it is made from, and the native handle. What
the operating system and the allocator answer is a parameter.
-/
namespace Fmq

/-- `native_handle_t`: its file descriptors, then its integers. -/
structure NativeHandle where
  fds : List Int32
  ints : List Int32
  deriving DecidableEq, Repr

/-- `handle->data[i]`. -/
def NativeHandle.data (handle : NativeHandle) (i : Int32) : Call Int32 :=
  if i < 0 then .error .fdOutOfRange
  else
    match (handle.fds ++ handle.ints)[i.toNatClampNeg]? with
    | none => .error .fdOutOfRange
    | some value => .ok value

/-- The answers of the operating system and of the allocator. -/
structure Platform where
  /-- Whether `native_handle_create(numFds, numInts)` returns a handle. -/
  nativeHandleCreate : Nat → Nat → Bool
  dup : Int32 → Int32
  ashmemCreateRegion : UInt64 → Int32
  /-- The address for a length, a file descriptor and an offset, `none` for `MAP_FAILED`. -/
  mmap : Int32 → Int32 → Int32 → Option Nat
  /-- Whether `new (std::nothrow) Descriptor` succeeds. -/
  newDescriptor : Bool
  /-- `new (std::nothrow) std::atomic<uint64_t>`. -/
  newCounter : Option Nat

/-- Every request succeeds, mappings of positive length included. -/
def Platform.generous : Platform where
  nativeHandleCreate := fun _ _ => true
  dup := id
  ashmemCreateRegion := fun _ => 3
  mmap := fun length _ _ => if 0 < length then some 0x10000 else none
  newDescriptor := true
  newCounter := some 0x20000

structure GrantorDescriptor where
  flags : UInt32
  fdIndex : UInt32
  offset : UInt32
  extent : UInt64
  deriving DecidableEq, Repr

namespace aidl

structure GrantorDescriptor where
  fdIndex : Int32
  offset : Int32
  extent : Int64
  deriving DecidableEq, Repr

structure MQDescriptor where
  grantors : List GrantorDescriptor
  handle : NativeHandle
  quantum : Int32
  flags : Int32
  deriving DecidableEq, Repr

end aidl

namespace details

/-- `sizeof(RingBufferPosition)`. -/
def sizeofRingBufferPosition : UInt64 := 8

/-- `sizeof(std::atomic<uint32_t>)`. -/
def sizeofEvFlagWord : UInt64 := 4

/-- The sizes of the grantors, in the order of `GrantorType`. -/
def memSize (bufferSize : UInt64) : List UInt64 :=
  [sizeofRingBufferPosition, sizeofRingBufferPosition, bufferSize, sizeofEvFlagWord]

def grantorCount (configureEventFlag : Bool) : Nat :=
  if configureEventFlag then kMinGrantorCountForEvFlagSupport else kMinGrantorCount

end details

structure AidlMQDescriptorShim where
  mGrantors : List GrantorDescriptor
  mHandle : Option NativeHandle
  mQuantum : UInt32
  mFlags : UInt32
  deriving DecidableEq, Repr

namespace AidlMQDescriptorShim

open details

/-! ## Constructors -/

/-- The conversion of one grantor, `none` for a negative value. -/
def grantorOf (grantor : aidl.GrantorDescriptor) : Option GrantorDescriptor :=
  if grantor.offset < 0 ∨ grantor.extent < 0 ∨ grantor.fdIndex < 0 then none
  else some ⟨0, grantor.fdIndex.toUInt32, grantor.offset.toUInt32, grantor.extent.toUInt64⟩

/-- The conversion loop. After a negative value the other elements keep the zeros of
`resize`. -/
def grantorsOf : List aidl.GrantorDescriptor → List GrantorDescriptor × Bool
  | [] => ([], true)
  | grantor :: rest =>
    match grantorOf grantor with
    | none => (⟨0, 0, 0, 0⟩ :: rest.map fun _ => ⟨0, 0, 0, 0⟩, false)
    | some converted => (converted :: (grantorsOf rest).1, (grantorsOf rest).2)

/-- `AidlMQDescriptorShim(desc)`. -/
def ofMQDescriptor (os : Platform) (desc : aidl.MQDescriptor) : AidlMQDescriptorShim :=
  let mQuantum := desc.quantum.toUInt32
  let mFlags := desc.flags.toUInt32
  if desc.quantum < 0 ∨ desc.flags < 0 then ⟨[], none, mQuantum, mFlags⟩
  else
    let (mGrantors, positive) := grantorsOf desc.grantors
    if !positive then ⟨mGrantors, none, mQuantum, mFlags⟩
    else if os.nativeHandleCreate desc.handle.fds.length desc.handle.ints.length then
      ⟨mGrantors, some ⟨desc.handle.fds.map os.dup, desc.handle.ints⟩, mQuantum, mFlags⟩
    else ⟨mGrantors, none, mQuantum, mFlags⟩

/-- `AidlMQDescriptorShim(grantors, nHandle, size)`. -/
def ofGrantors (flavor : MQFlavor) (grantors : List GrantorDescriptor)
    (nHandle : Option NativeHandle) (size : UInt64) : AidlMQDescriptorShim :=
  ⟨grantors, nHandle, size.toUInt32, flavor.value⟩

/-- The loop over contiguous grantors, from `offset` on. -/
def contiguousGrantors (offset : UInt64) : List UInt64 → Call (List GrantorDescriptor)
  | [] => return []
  | size :: sizes => do
    let aligned ← alignToWordBoundary offset
    return ⟨0, 0, aligned.toUInt32, size⟩ :: (← contiguousGrantors (offset + size) sizes)

/-- `AidlMQDescriptorShim(bufferSize, nHandle, messageSize, configureEventFlag)`. -/
def ofBufferSize (flavor : MQFlavor) (bufferSize : UInt64) (nHandle : Option NativeHandle)
    (messageSize : UInt64) (configureEventFlag : Bool) : Call AidlMQDescriptorShim := do
  let mQuantum := messageSize.toUInt32
  -- Tested apart, because the sum rounded up below has wrapped by then.
  let overflow := decide (bufferSize >
    0xFFFFFFFFFFFFFFFF - (sizeofRingBufferPosition + sizeofRingBufferPosition))
  let largestOffset ← alignToWordBoundary
    (sizeofRingBufferPosition + sizeofRingBufferPosition + bufferSize)
  -- The offsets and the quantum have to fit into the `int32_t` fields of the AIDL descriptor.
  if overflow ∨ largestOffset > 0x7FFFFFFF ∨ messageSize > 0x7FFFFFFF then
    return ⟨[], nHandle, mQuantum, flavor.value⟩
  let mGrantors ←
    contiguousGrantors 0 ((memSize bufferSize).take (grantorCount configureEventFlag))
  return ⟨mGrantors, nHandle, mQuantum, flavor.value⟩

/-- The copy constructor. A failed allocation of the handle is not checked. -/
def copy (os : Platform) (other : AidlMQDescriptorShim) : Call AidlMQDescriptorShim :=
  match other.mHandle with
  | none => return { other with mHandle := none }
  | some handle =>
    if os.nativeHandleCreate handle.fds.length handle.ints.length then
      return { other with mHandle := some ⟨handle.fds.map os.dup, handle.ints⟩ }
    -- `mHandle->data[i]` with `mHandle` null.
    else .error .nullAccess

/-! ## Accessors -/

variable (desc : AidlMQDescriptorShim)

def getSize : UInt64 :=
  match desc.mGrantors[DATAPTRPOS]? with
  | some grantor => grantor.extent
  | none => 0

def getQuantum : UInt64 := desc.mQuantum.toUInt64

def isHandleValid : Bool := desc.mHandle.isSome

def countGrantors : Nat := desc.mGrantors.length

end AidlMQDescriptorShim
end Fmq
