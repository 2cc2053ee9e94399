import Fmq.Model.Construction
import Fmq.Lib.Rounding

/-!
# Mappings

The calls of `mapGrantorDescr` that `initMemory` makes, and the part of a file that such a call
makes accessible.
-/
namespace Fmq

open details

/-- The constructors of `AidlMessageQueue`. -/
def Source.Aidl : Source → Prop
  | .numElements .. => True
  | .mqDescriptor .. => True
  | .descriptor .. => False

namespace MessageQueueBase

/-- The grantors that a complete queue maps, in the order of `initMemory`. -/
def mappedGrantors (flavor : MQFlavor) (countGrantors : Nat) : List Nat :=
  (match flavor with
    | .kSynchronizedReadWrite => [READPTRPOS, WRITEPTRPOS, DATAPTRPOS]
    | .kUnsynchronizedWrite => [WRITEPTRPOS, DATAPTRPOS]) ++
  if countGrantors > EVFLAGWORDPOS then [EVFLAGWORDPOS] else []

/-- The calls for these grantors. Behind a null pointer the process is aborted. -/
def mapCallsFrom (os : Platform) (desc : AidlMQDescriptorShim) : List Nat → List Nat
  | [] => []
  | grantorIdx :: rest =>
    grantorIdx :: match mapGrantorDescr os desc grantorIdx with
      | .ok (some _) => mapCallsFrom os desc rest
      | _ => []

/-- The calls of `mapGrantorDescr` in `initMemory`. -/
def mapCalls (os : Platform) (flavor : MQFlavor) (sizeofT : UInt64)
    (desc : AidlMQDescriptorShim) : List Nat :=
  if desc.isHandleValid = false ∨ desc.countGrantors < kMinGrantorCount then []
  else if desc.getQuantum ≠ sizeofT then []
  else if !desc.mGrantors.all fun grantor => isAlignedToWordBoundary grantor.offset.toUInt64 then []
  else if flavor = .kUnsynchronizedWrite ∧ os.newCounter = none then []
  else mapCallsFrom os desc (mappedGrantors flavor desc.countGrantors)

/-- An `int` as a `size_t` parameter. -/
def sizeOfInt (length : Int32) : UInt64 := length.toInt64.toUInt64

/-- The mapping of a grantor starts at a page and contains all of its bytes. -/
structure Covers (grantor : GrantorDescriptor) : Prop where
  page : (PAGE_SIZE.toNat : Int) ∣ (mapRange grantor).1.toInt
  /-- From the start of the mapping to the end of the grantor, without any wrap. -/
  bytes : (grantor.offset.toNat : Int) - (mapRange grantor).1.toInt + grantor.extent.toNat ≤
    Rounding.up PAGE_SIZE.toNat (sizeOfInt (mapRange grantor).2).toNat

/-- Whenever `initMemory` maps a grantor, the mapping covers it. -/
def MappingsCover (os : Platform) (flavor : MQFlavor) (sizeofT : UInt64)
    (desc : AidlMQDescriptorShim) : Prop :=
  ∀ grantorIdx ∈ mapCalls os flavor sizeofT desc, ∀ address,
    mapGrantorDescr os desc grantorIdx = .ok (some address) →
    ∃ grantor, desc.mGrantors[grantorIdx]? = some grantor ∧ Covers grantor

/-- `initMemory` indexes the file descriptors of the handle inside of their number. -/
def FdsInRange (os : Platform) (flavor : MQFlavor) (sizeofT : UInt64)
    (desc : AidlMQDescriptorShim) : Prop :=
  ∀ grantorIdx ∈ mapCalls os flavor sizeofT desc, ∀ handle grantor, desc.mHandle = some handle →
    desc.mGrantors[grantorIdx]? = some grantor →
    0 ≤ grantor.fdIndex.toInt32 ∧ grantor.fdIndex.toInt32.toInt < handle.fds.length

end MessageQueueBase
end Fmq
