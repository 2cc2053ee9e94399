import Fmq.Model.Ownership

/-!
# The functions with and without resources

Where the system always gives the same answers, the constructors that keep track of their resources
compute what the others compute.
-/
namespace Fmq.Tracked

open Ownership details MessageQueueBase

theorem close_silent (fd : Int32) : Silent (close fd) := by
  unfold close
  split
  · exact Computes.pure _ ()
  · exact Silent.release _

theorem closeAll_silent (fds : List Int32) : Silent (closeAll fds) := by
  induction fds with
  | nil => exact Computes.pure _ ()
  | cons fd fds ih => exact (close_silent fd).then fun _ => ih

theorem closeHandle_silent (handle : Option NativeHandle) : Silent (closeHandle handle) := by
  cases handle with
  | none => exact Computes.pure _ ()
  | some handle => exact (closeAll_silent handle.fds).then fun _ => Silent.release _

theorem createEventFlag_silent (k : Kernel) (fwAddr : Option Nat) :
    Silent (createEventFlag k fwAddr) := by
  refine (Silent.request k.newEventFlag _).then fun ok => ?_
  split
  · exact Computes.pure _ _
  cases fwAddr with
  | none => exact (Silent.release _).then fun _ => Computes.pure _ _
  | some address => exact Computes.pure _ _

section

variable {k : Kernel} {os : Platform} (constant : ∀ n live, k.os n live = os)
include constant

theorem dupAll_computes (fds : List Int32) :
    Computes id (dupAll k fds) (.ok (fds.map os.dup)) := by
  induction fds with
  | nil => exact Computes.pure id []
  | cons fd fds ih =>
    have one : Computes id (dup k fd) (.ok (os.dup fd)) :=
      Computes.request fun n live => by rw [constant n live]
    exact one.answer (ih.answer (Computes.pure id (os.dup fd :: fds.map os.dup)))

theorem nativeHandleCreate_computes (numFds numInts : Nat) :
    Computes id (nativeHandleCreate k numFds numInts)
      (.ok (os.nativeHandleCreate numFds numInts)) :=
  Computes.request fun n live => by rw [constant n live]

theorem newDescriptor_computes : Computes id (newDescriptor k) (.ok os.newDescriptor) :=
  Computes.request fun n live => by rw [constant n live]

theorem ofMQDescriptor_computes (desc : aidl.MQDescriptor) :
    Computes id (ofMQDescriptor k desc) (.ok (.ofMQDescriptor os desc)) := by
  unfold ofMQDescriptor AidlMQDescriptorShim.ofMQDescriptor
  dsimp only
  split
  · exact Computes.pure id _
  split
  · exact Computes.pure id _
  refine (nativeHandleCreate_computes constant _ _).answer ?_
  split
  · exact (dupAll_computes constant _).answer (Computes.pure id _)
  · exact Computes.pure id _

theorem copy_computes (other : AidlMQDescriptorShim) :
    Computes id (copy k other) (other.copy os) := by
  unfold AidlMQDescriptorShim.copy
  refine (closeHandle_silent none).then fun _ => ?_
  cases other.mHandle with
  | none => exact Computes.pure id _
  | some handle =>
    refine (nativeHandleCreate_computes constant _ _).answer ?_
    dsimp only
    split
    · exact (dupAll_computes constant _).answer (Computes.pure id _)
    · exact Computes.fail _

theorem mapGrantorDescr_computes (desc : AidlMQDescriptorShim) (grantorIdx : Nat) :
    Computes id (mapGrantorDescr k desc grantorIdx)
      (MessageQueueBase.mapGrantorDescr os desc grantorIdx) := by
  unfold mapGrantorDescr MessageQueueBase.mapGrantorDescr
  cases desc.mHandle with
  | none => exact Computes.pure id none
  | some handle =>
    cases desc.mGrantors[grantorIdx]? with
    | none => exact Computes.pure id none
    | some grantor =>
      refine (Computes.lift (handle.data grantor.fdIndex.toInt32)).step fun fd => ?_
      have mapped : Computes id (mmap k (mapRange grantor).2 fd (mapRange grantor).1)
          (.ok (os.mmap (mapRange grantor).2 fd (mapRange grantor).1)) :=
        Computes.request fun n live => by rw [constant n live]
      exact mapped.answer (Computes.pure id _)

theorem mapReadPtr_computes (flavor : MQFlavor) (desc : AidlMQDescriptorShim) :
    Computes id (mapReadPtr k flavor desc) (MessageQueueBase.mapReadPtr os flavor desc) := by
  cases flavor with
  | kSynchronizedReadWrite => exact mapGrantorDescr_computes constant desc READPTRPOS
  | kUnsynchronizedWrite =>
    have counter : Computes id (newCounter k) (.ok os.newCounter) :=
      Computes.request fun n live => by rw [constant n live]
    exact counter

theorem initMemory_computes (flavor : MQFlavor) (sizeofT : UInt64) (desc : AidlMQDescriptorShim)
    (resetPointers : Bool) :
    Computes QueueObject.mq (initMemory k flavor sizeofT desc resetPointers)
      (MessageQueueBase.initMemory os flavor sizeofT desc resetPointers) := by
  unfold initMemory MessageQueueBase.initMemory
  split
  · exact Computes.pure _ _
  split
  · exact Computes.pure _ _
  refine (Computes.lift _).step fun _ => ?_
  refine (mapReadPtr_computes constant flavor desc).step fun mReadPtr => ?_
  refine (Computes.lift _).step fun _ => ?_
  refine (mapGrantorDescr_computes constant desc WRITEPTRPOS).step fun mWritePtr => ?_
  refine (Computes.lift _).step fun _ => ?_
  refine (mapGrantorDescr_computes constant desc DATAPTRPOS).step fun mRing => ?_
  refine (Computes.lift _).step fun _ => ?_
  split
  · refine (mapGrantorDescr_computes constant desc EVFLAGWORDPOS).step fun mEvFlagWord => ?_
    refine (Computes.lift _).step fun _ => ?_
    exact (createEventFlag_silent k mEvFlagWord).then fun _ => Computes.pure _ _
  · exact Computes.pure _ _

theorem ofDescriptor_computes (flavor : MQFlavor) (sizeofT : UInt64)
    (desc : AidlMQDescriptorShim) (resetPointers : Bool) :
    Computes QueueObject.mq (ofDescriptor k flavor sizeofT desc resetPointers)
      (MessageQueueBase.ofDescriptor os flavor sizeofT desc resetPointers) := by
  unfold MessageQueueBase.ofDescriptor
  refine (newDescriptor_computes constant).answer ?_
  split
  · exact Computes.pure _ _
  · exact (copy_computes constant desc).step fun desc =>
      initMemory_computes constant flavor sizeofT desc resetPointers

/-- `AidlMessageQueue(desc, resetPointers)`. -/
theorem ofAidlDescriptor_computes (flavor : MQFlavor) (sizeofT : UInt64)
    (desc : aidl.MQDescriptor) (resetPointers : Bool) :
    Computes QueueObject.mq (ofAidlDescriptor k flavor sizeofT desc resetPointers)
      (Source.construct os flavor sizeofT (.mqDescriptor desc resetPointers)) := by
  refine (ofMQDescriptor_computes constant desc).answer ?_
  dsimp only [Source.construct]
  rw [← bind_pure (MessageQueueBase.ofDescriptor os flavor sizeofT _ resetPointers)]
  refine (ofDescriptor_computes constant flavor sizeofT _ resetPointers).bind fun object => ?_
  exact (closeHandle_silent _).then fun _ => Computes.pure QueueObject.mq object

theorem ofNumElements_computes (flavor : MQFlavor) (sizeofT numElementsInQueue : UInt64)
    (configureEventFlagWord : Bool) (bufferFd : Int32) (bufferSize : UInt64) :
    Computes QueueObject.mq
      (ofNumElements k flavor sizeofT numElementsInQueue configureEventFlagWord bufferFd
        bufferSize)
      (Source.construct os flavor sizeofT
        (.numElements numElementsInQueue configureEventFlagWord bufferFd bufferSize)) := by
  have closed : Computes QueueObject.mq
      (close bufferFd >>= fun _ => pure (⟨flavor, withDesc none, none⟩ : QueueObject))
      (.ok (withDesc none)) :=
    (close_silent bufferFd).then fun _ => Computes.pure QueueObject.mq _
  have dropped (handle : NativeHandle) : Computes QueueObject.mq
      (closeHandle (some handle) >>= fun _ =>
        pure (⟨flavor, withDesc none, none⟩ : QueueObject)) (.ok (withDesc none)) :=
    (closeHandle_silent handle).then fun _ => Computes.pure QueueObject.mq _
  dsimp only [Source.construct]
  unfold ofNumElements MessageQueueBase.ofNumElements
  dsimp only
  refine (Computes.lift _).step fun _ => ?_
  split
  · exact closed
  split
  · exact closed
  refine (Computes.lift _).step fun size => ?_
  refine (nativeHandleCreate_computes constant _ _).answer ?_
  cases os.nativeHandleCreate (if bufferFd ≠ -1 then 2 else 1) 0 with
  | false => exact closed
  | true =>
    have region : Computes id (ashmemCreateRegion k size) (.ok (os.ashmemCreateRegion size)) :=
      Computes.request fun n live => by rw [constant n live]
    refine region.answer ?_
    split
    · refine (Computes.lift _).step fun grantors => ?_
      refine (newDescriptor_computes constant).answer ?_
      split
      · exact dropped _
      · exact initMemory_computes constant flavor sizeofT _ true
    · refine (newDescriptor_computes constant).answer ?_
      split
      · exact dropped _
      · exact (Computes.lift _).step fun desc =>
          initMemory_computes constant flavor sizeofT desc true

theorem dupeDesc_computes (mq : MessageQueueBase) :
    Computes id (dupeDesc k mq) (mq.dupeDesc os) := by
  unfold dupeDesc MessageQueueBase.dupeDesc
  cases mq.mDesc with
  | none => exact Computes.pure id _
  | some shim =>
    dsimp only [AidlMQDescriptorShim.dupeDesc]
    cases shim.mHandle with
    | none => exact Computes.fail _
    | some handle =>
      exact (dupAll_computes constant handle.fds).answer (Computes.pure id _)

end

end Fmq.Tracked
