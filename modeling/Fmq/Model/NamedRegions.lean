import Mathlib.Logic.Function.Basic
import Fmq.Lib.Words
import Fmq.Model.Msvc

/-!
# Queues over named regions

The memory of Windows, in which equal names denote one region, and the calls of a queue of the MSVC
build on it. The counters are words of the memory and the ring is the bytes behind them.
-/
namespace Fmq.Msvc

open Memory details

/-- What a grantor maps: the region of the queue, or the file of some other handle. -/
inductive File where
  | region (name : String)
  | handle (h : Int32)
  deriving DecidableEq, Repr

abbrev Files := File → Mem UInt8

/-- A queue object and the name of its region. -/
structure NamedQueue where
  flavor : MQFlavor
  sizeofT : UInt64
  region : String
  mq : MessageQueueBase

/-- A write or a read, with any arguments. -/
inductive QueueCall where
  | write (data : Option (List UInt8)) (nMessages : UInt64)
  | read (hasData : Bool) (nMessages : UInt64)
  deriving DecidableEq, Repr

/-- The storage after the call. -/
def QueueCall.exec (queue : Queue) (σ : Storage) : QueueCall → Call Storage
  | .write data nMessages => return (← queue.write σ data nMessages).2
  | .read hasData nMessages => return (← queue.read σ hasData nMessages).2.1

/-- Writes that an empty queue for `N` messages accepts and that write something. -/
def QueueCall.Moves (N : Nat) : QueueCall → Prop
  | .write data nMessages => data.isSome = true ∧ 0 < nMessages.toNat ∧ nMessages.toNat ≤ N
  | .read _ _ => False

namespace NamedQueue

variable (q : NamedQueue)

def grantor (grantorIdx : Nat) : Option GrantorDescriptor :=
  q.mq.mDesc.bind (·.mGrantors[grantorIdx]?)

/-- `handle()->data[fdIndex]`. -/
def data (fdIndex : UInt32) : Int32 :=
  ((q.mq.mDesc.bind (·.mHandle)).bind fun handle =>
    (handle.fds ++ handle.ints)[fdIndex.toNat]?).getD 0

/-- The constructor puts its region into the first element of the handle. -/
def file (grantorIdx : Nat) : File :=
  match q.grantor grantorIdx with
  | some grantor =>
    if grantor.fdIndex = 0 then .region q.region else .handle (q.data grantor.fdIndex)
  | none => .region q.region

def offset (grantorIdx : Nat) : Nat := (q.grantor grantorIdx).elim 0 (·.offset.toNat)

/-- The storage behind the queue. The read counter of the unsynchronized flavor is `own`. -/
def view (files : Files) (own : UInt64) : Storage where
  ring i := files (q.file DATAPTRPOS) (q.offset DATAPTRPOS + i)
  readPtr := match q.flavor with
    | .kSynchronizedReadWrite => word (files (q.file READPTRPOS)) (q.offset READPTRPOS)
    | .kUnsynchronizedWrite => own
  writePtr := word (files (q.file WRITEPTRPOS)) (q.offset WRITEPTRPOS)

def setRing (files : Files) (ring : Ring) : Files :=
  Function.update files (q.file DATAPTRPOS) fun a =>
    if q.offset DATAPTRPOS ≤ a then ring (a - q.offset DATAPTRPOS)
    else files (q.file DATAPTRPOS) a

def setCounter (files : Files) (grantorIdx : Nat) (value : UInt64) : Files :=
  Function.update files (q.file grantorIdx)
    (setWord (files (q.file grantorIdx)) (q.offset grantorIdx) value)

/-- The memory with what a call has left in the storage. -/
def put (files : Files) (σ : Storage) : Files :=
  let files := q.setRing files σ.ring
  let files := match q.flavor with
    | .kSynchronizedReadWrite => q.setCounter files READPTRPOS σ.readPtr
    | .kUnsynchronizedWrite => files
  q.setCounter files WRITEPTRPOS σ.writePtr

/-- The memory after the constructor. -/
def opened (files : Files) : Files := q.put files (q.mq.attach (q.view files 0))

/-- The read counter that the constructor of an unsynchronized queue allocates. -/
def ownCounter : UInt64 := q.mq.readStored.getD 0

/-- One call, over the memory and the own read counter. -/
def exec (files : Files) (own : UInt64) (call : QueueCall) : Call (Files × UInt64) :=
  match q.mq.queue q.flavor q.sizeofT with
  | none => .error .nullAccess
  | some queue => do
    let σ ← call.exec queue (q.view files own)
    return (q.put files σ, σ.readPtr)

/-- The memory after a sequence of calls. -/
def run (files : Files) (own : UInt64) : List QueueCall → Call Files
  | [] => return files
  | call :: calls => do
    let (files, own) ← q.exec files own call
    run files own calls

/-- The counters and the contents of the ring. The read counter of an unsynchronized queue is
nobody else's. -/
structure Contents where
  readPtr : Option UInt64
  writePtr : UInt64
  ring : List UInt8
  deriving DecidableEq, Repr

def contents (files : Files) : Contents where
  readPtr := match q.flavor with
    | .kSynchronizedReadWrite => some (q.view files 0).readPtr
    | .kUnsynchronizedWrite => none
  writePtr := (q.view files 0).writePtr
  ring := load (q.view files 0).ring 0
    ((q.grantor DATAPTRPOS).elim 0 (·.extent.toNat))

end NamedQueue

/-- A call of the constructor without a name. -/
structure Unnamed where
  os : Platform
  flavor : MQFlavor
  sizeofT : UInt64
  numElementsInQueue : UInt64
  configureEventFlagWord : Bool
  bufferFd : Int32
  bufferSize : UInt64
  /-- What `base::RandInt` returns. -/
  rand : Int32
  sizeofT_ne_zero : sizeofT ≠ 0

namespace Unnamed

variable (u : Unnamed)

def construct : Call MessageQueueBase :=
  ofNumElements u.os u.flavor u.sizeofT u.numElementsInQueue u.configureEventFlagWord u.bufferFd
    u.bufferSize "" u.rand

/-- The object that was constructed, with its region. -/
def named (mq : MessageQueueBase) : NamedQueue := ⟨u.flavor, u.sizeofT, regionName "" u.rand, mq⟩

end Unnamed

/-- Both queues are created, and then the first one makes its calls. After any number of them the
second one is as it was created. -/
def Undisturbed (first second : NamedQueue) (files : Files) (calls : List QueueCall) : Prop :=
  let created := second.opened (first.opened files)
  ∀ n files', first.run created first.ownCounter (calls.take n) = .ok files' →
    second.contents files' = second.contents created

end Fmq.Msvc
