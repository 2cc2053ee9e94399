import Fmq.Model.SharedMemory

/-!
# Calls on the mapped bytes

`initMemory`, `write` and `read` of a synchronized queue object, with every load and store at the
addresses that the object holds. Nothing keeps the grantors of a descriptor apart, so the ring may
show the bytes of a counter, or the two counters the same bytes.
-/
namespace Fmq

open Memory SharedFiles

namespace Endpoint

variable {F : Type} (e : Endpoint F) (files : Files F UInt8)

/-- `ptr->load()`. -/
def loadWord : Option Nat → Call UInt64
  | some address => return word (e.memory files) address
  | none => .error .nullAccess

/-- `if (count != 0) memcpy(.., p, count * sizeof(T))` for a pointer into the ring. -/
def memcpyFrom (p : Ptr) (count : UInt64) : Call (List UInt8) :=
  if count = 0 then return []
  else
    match p.block, e.mq.mRing with
    | .ring, some mRing =>
      return load (e.memory files) (mRing + p.offset) (count * e.sizeofT).toNat
    | _, _ => .error .nullAccess

/-- Returns the buffer as `MemTransaction.copyFrom` does. -/
def copyFrom (tx : MemTransaction) (hasData : Bool) (startIdx nMessages : UInt64) :
    Call (Option (List UInt8)) :=
  if !hasData then return none
  else
    match tx.getMemRegionInfo e.sizeofT startIdx nMessages with
    | none => return none
    | some info => do
      let front ← e.memcpyFrom files info.firstBaseAddress info.firstCount
      let back ← e.memcpyFrom files info.secondBaseAddress info.secondCount
      return some (front ++ back)

def beginWrite (nMessages : UInt64) (old : MemTransaction) : Call (Bool × MemTransaction) :=
  match e.queue with
  | none => .error .nullAccess
  | some queue => do
    let writePtr ← e.loadWord files e.mq.mWritePtr
    let readPtr ← e.loadWord files e.mq.mReadPtr
    queue.beginWriteWith ⟨writePtr, readPtr, writePtr⟩ nMessages old

variable [DecidableEq F]

/-- `ptr->store(x)`. -/
def storeWord (ptr : Option Nat) (x : UInt64) : Call (Files F UInt8) :=
  match ptr with
  | some address => return storeAt e.process.space files address (wordBytes x)
  | none => .error .nullAccess

/-- A store that may have been left out. -/
def storeSome (ptr : Option Nat) : Option UInt64 → Call (Files F UInt8)
  | some x => e.storeWord files ptr x
  | none => return files

/-- The stores of `initMemory`. -/
def initStores : Call (Files F UInt8) := do
  let files ← e.storeSome files e.mq.mReadPtr e.mq.readStored
  e.storeSome files e.mq.mWritePtr e.mq.writeStored

/-- `if (count != 0) memcpy(p, bytes, count * sizeof(T))` for a pointer into the ring. -/
def memcpyTo (p : Ptr) (bytes : List UInt8) (count : UInt64) : Call (Files F UInt8) :=
  if count = 0 then return files
  else
    match p.block, e.mq.mRing with
    | .ring, some mRing =>
      return storeAt e.process.space files (mRing + p.offset)
        (bytes.take (count * e.sizeofT).toNat)
    | _, _ => .error .nullAccess

def copyTo (tx : MemTransaction) (data : Option (List UInt8)) (startIdx nMessages : UInt64) :
    Call (Bool × Files F UInt8) :=
  match data with
  | none => return (false, files)
  | some data =>
    match tx.getMemRegionInfo e.sizeofT startIdx nMessages with
    | none => return (false, files)
    | some info => do
      let files ← e.memcpyTo files info.firstBaseAddress data info.firstCount
      let rest := data.drop (info.firstCount.toNat * e.sizeofT.toNat)
      let files ← e.memcpyTo files info.secondBaseAddress rest info.secondCount
      return (true, files)

/-- The counter is loaded again, behind the copy. -/
def commitWrite (nMessages : UInt64) : Call (Files F UInt8) := do
  let writePtr ← e.loadWord files e.mq.mWritePtr
  e.storeWord files e.mq.mWritePtr (writePtr + nMessages * e.sizeofT)

def write (data : Option (List UInt8)) (nMessages : UInt64) : Call (Bool × Files F UInt8) := do
  let (begun, tx) ← e.beginWrite files nMessages .empty
  if !begun then return (false, files)
  let (copied, files) ← e.copyTo files tx data 0 nMessages
  if !copied then return (false, files)
  return (true, ← e.commitWrite files nMessages)

def beginRead (nMessages : UInt64) : Call (Bool × MemTransaction × Files F UInt8) :=
  match e.queue with
  | none => .error .nullAccess
  | some queue => do
    let writePtr ← e.loadWord files e.mq.mWritePtr
    let readPtr ← e.loadWord files e.mq.mReadPtr
    let r ← queue.beginReadWith ⟨writePtr, readPtr⟩ nMessages
    return (r.returned, r.memTx, ← e.storeSome files e.mq.mReadPtr r.stored)

def commitRead (nMessages : UInt64) : Call (Bool × Files F UInt8) :=
  match e.queue with
  | none => .error .nullAccess
  | some queue => do
    let readPtr ← e.loadWord files e.mq.mReadPtr
    let writePtr ← e.loadWord files e.mq.mWritePtr
    if writePtr - readPtr > queue.getSize then
      return (false, ← e.storeWord files e.mq.mReadPtr writePtr)
    return (true, ← e.storeWord files e.mq.mReadPtr (readPtr + nMessages * e.sizeofT))

def read (hasData : Bool) (nMessages : UInt64) :
    Call (Bool × Files F UInt8 × Option (List UInt8)) := do
  let (begun, tx, files) ← e.beginRead files nMessages
  if !begun then return (false, files, none)
  match ← e.copyFrom files tx hasData 0 nMessages with
  | none => return (false, files, none)
  | some data =>
    let (committed, files) ← e.commitRead files nMessages
    return (committed, files, some data)

end Endpoint
end Fmq
