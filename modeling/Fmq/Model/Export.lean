import Fmq.Model.Construction

/-!
# Exporting a queue

`AidlMessageQueue::dupeDesc`, and the way of a descriptor through several processes.
-/
namespace Fmq

namespace AidlMQDescriptorShim

def exportGrantor (grantor : GrantorDescriptor) : aidl.GrantorDescriptor :=
  ⟨grantor.fdIndex.toInt32, grantor.offset.toInt32, grantor.extent.toInt64⟩

/-- `dupeDesc` behind its null check. The handle is not checked. -/
def dupeDesc (os : Platform) (shim : AidlMQDescriptorShim) : Call aidl.MQDescriptor :=
  match shim.mHandle with
  | none => .error .nullAccess
  | some handle => return {
      quantum := shim.mQuantum.toUInt64.toUInt32.toInt32
      grantors := shim.mGrantors.map exportGrantor
      flags := shim.mFlags.toInt32
      handle := ⟨handle.fds.map os.dup, handle.ints⟩ }

end AidlMQDescriptorShim

/-- `dupeDesc`. Without a descriptor the result is a default-constructed one. -/
def MessageQueueBase.dupeDesc (os : Platform) (mq : MessageQueueBase) : Call aidl.MQDescriptor :=
  match mq.mDesc with
  | some shim => shim.dupeDesc os
  | none => return ⟨[], ⟨[], []⟩, 0, 0⟩

/-- A process that exports its queue, and one that imports it. -/
structure Hop where
  exporter : Platform
  importer : Platform

/-- The descriptor of the queue at the end of a path. Every queue on the way keeps a copy of the
shim that its constructor made. -/
def hops : List Hop → AidlMQDescriptorShim → Call AidlMQDescriptorShim
  | [], shim => return shim
  | hop :: path, shim => do
    let desc ← shim.dupeDesc hop.exporter
    hops path (← (AidlMQDescriptorShim.ofMQDescriptor hop.importer desc).copy hop.importer)

/-- Queues whose shim comes from the buffer-size constructor or from an `MQDescriptor`. -/
def Source.Exportable : Source → Prop
  | .numElements _ _ bufferFd _ => bufferFd = -1
  | .mqDescriptor .. => True
  | .descriptor .. => False

end Fmq
