import Fmq.Lib.Filling
import Fmq.Model.Descriptor

/-!
# HIDL descriptors

`unsafeHidlToAidlMQDescriptor`. A HIDL descriptor has the members of `AidlMQDescriptorShim`, and a
handle.
-/
namespace Fmq

namespace hidl

structure MQDescriptor where
  mGrantors : List GrantorDescriptor
  mHandle : NativeHandle
  mQuantum : UInt32
  mFlags : UInt32
  deriving DecidableEq, Repr

/-- A `size_t`. -/
def MQDescriptor.getQuantum (hidlDesc : MQDescriptor) : UInt64 := hidlDesc.mQuantum.toUInt64

end hidl

/-- The body of the loop over the grantors, `none` for an unsafe cast. -/
def convertGrantor (grantor : GrantorDescriptor) : Option aidl.GrantorDescriptor :=
  -- The file descriptor index is tested as an `int64_t`, and stored as an `int32_t`.
  if grantor.offset.toInt32 < 0 ∨ grantor.extent.toInt64 < 0 ∨
      grantor.fdIndex.toUInt64.toInt64 < 0 then none
  else some ⟨grantor.fdIndex.toInt32, grantor.offset.toInt32, grantor.extent.toInt64⟩

/-- The value of the call, and `*aidlDesc`. -/
def unsafeHidlToAidlMQDescriptor (os : Platform) (flavor : MQFlavor)
    (hidlDesc : hidl.MQDescriptor) (aidlDesc : aidl.MQDescriptor) : Bool × aidl.MQDescriptor :=
  if !aidlDesc.grantors.isEmpty then (false, aidlDesc)
  else
    let (grantors, converted) :=
      Filling.fill convertGrantor aidlDesc.grantors hidlDesc.mGrantors
    let aidlDesc := { aidlDesc with grantors }
    if !converted then (false, aidlDesc)
    else
      let handle := ⟨hidlDesc.mHandle.fds.map os.dup, hidlDesc.mHandle.ints⟩
      let aidlDesc := { aidlDesc with handle }
      if hidlDesc.getQuantum.toUInt32.toInt32 < 0 ∨ hidlDesc.mFlags.toInt32 < 0 then
        (false, aidlDesc)
      else if hidlDesc.mFlags ≠ flavor.value then (false, aidlDesc)
      else
        let quantum := hidlDesc.getQuantum.toUInt32.toInt32
        (true, { aidlDesc with quantum, flags := hidlDesc.mFlags.toInt32 })

end Fmq
