import Fmq.Model.Transaction

/-!
# `MessageQueueBase`: transactions, `write` and `read`

The counters and the ring are shared with peers, so the two `begin` functions come in two
forms: one over the values that their separate atomic loads return, whatever these are, and
one over a storage that no peer changes during the call.
-/
namespace Fmq

/-- What the data path reads of its template parameters and of `mDesc`. -/
structure Queue where
  flavor : MQFlavor
  sizeofT : UInt64
  /-- `mDesc->getSize()`. -/
  getSize : UInt64
  /-- `mDesc->getQuantum()`. -/
  getQuantum : UInt64
  deriving DecidableEq, Repr

/-- The memory behind `mRing`, `mReadPtr` and `mWritePtr`, where they show no common byte. -/
structure Storage where
  ring : Ring
  readPtr : UInt64
  writePtr : UInt64

/-- The values returned by the three counter loads of one `beginWrite`. -/
structure BeginWriteLoads where
  /-- `mWritePtr`, `mReadPtr` in `availableToReadBytes`. -/
  availableWritePtr : UInt64
  availableReadPtr : UInt64
  /-- `mWritePtr` in `beginWrite` itself. -/
  writePtr : UInt64
  deriving DecidableEq, Repr

/-- The values returned by the two counter loads of one `beginRead`. -/
structure BeginReadLoads where
  writePtr : UInt64
  readPtr : UInt64
  deriving DecidableEq, Repr

/-- What `beginRead` leaves behind. -/
structure BeginRead where
  returned : Bool
  memTx : MemTransaction
  /-- The value stored to `mReadPtr`, if any. -/
  stored : Option UInt64
  deriving DecidableEq, Repr

namespace Queue

variable (q : Queue)

def availableToReadBytes (writePtr readPtr : UInt64) : UInt64 := writePtr - readPtr

def availableToWriteBytes (writePtr readPtr : UInt64) : UInt64 :=
  q.getSize - availableToReadBytes writePtr readPtr

def availableToWrite (writePtr readPtr : UInt64) : Call UInt64 :=
  div (q.availableToWriteBytes writePtr readPtr) q.sizeofT

def availableToRead (writePtr readPtr : UInt64) : Call UInt64 :=
  div (availableToReadBytes writePtr readPtr) q.sizeofT

def getQuantumCount : Call UInt64 := div q.getSize q.getQuantum

/-- The common end of `beginWrite` and `beginRead`: the regions for `nMessages` messages from
the counter value `ptr` on. -/
def transactionFrom (ptr nMessages : UInt64) : Call MemTransaction := do
  let offset ← mod ptr q.getSize
  let contiguousMessages ← div (q.getSize - offset) q.sizeofT
  -- A wrap around is required: both regions are populated.
  if contiguousMessages < nMessages then
    return ⟨⟨⟨.ring, offset.toNat⟩, contiguousMessages⟩,
      ⟨⟨.ring, 0⟩, nMessages - contiguousMessages⟩⟩
  else
    return ⟨⟨⟨.ring, offset.toNat⟩, nMessages⟩, .empty⟩

/-- The first test of `beginWrite`, with its short circuits. -/
def refusesWrite (loads : BeginWriteLoads) (nMessages : UInt64) : Call Bool := do
  if q.flavor = .kSynchronizedReadWrite then
    -- Only the synchronized flavor waits for the reader.
    if (← q.availableToWrite loads.availableWritePtr loads.availableReadPtr) < nMessages then
      return true
  return decide (nMessages > (← q.getQuantumCount))

/-- Returns the value of the call and `*result`, which held `old` before. -/
def beginWriteWith (loads : BeginWriteLoads) (nMessages : UInt64) (old : MemTransaction) :
    Call (Bool × MemTransaction) := do
  if ← q.refusesWrite loads nMessages then
    return (false, .empty)
  if (← mod loads.writePtr q.sizeofT) ≠ 0 then
    -- The write pointer has become misaligned; `*result` is left as it is.
    return (false, old)
  return (true, ← q.transactionFrom loads.writePtr nMessages)

def beginReadWith (loads : BeginReadLoads) (nMessages : UInt64) : Call BeginRead := do
  let refused : BeginRead := ⟨false, .empty, none⟩
  if (← mod loads.writePtr q.sizeofT) ≠ 0 then
    return refused
  if (← mod loads.readPtr q.sizeofT) ≠ 0 then
    return refused
  if loads.writePtr - loads.readPtr > q.getSize then
    -- The reader was too slow: the read counter is set to the write counter.
    return ⟨false, .empty, some loads.writePtr⟩
  let nBytesDesired := nMessages * q.sizeofT
  -- Insufficient data to read.
  if loads.writePtr - loads.readPtr < nBytesDesired then
    return refused
  return ⟨true, ← q.transactionFrom loads.readPtr nMessages, none⟩

def beginWrite (σ : Storage) (nMessages : UInt64) (old : MemTransaction) :
    Call (Bool × MemTransaction) :=
  q.beginWriteWith ⟨σ.writePtr, σ.readPtr, σ.writePtr⟩ nMessages old

/-- Returns the value of the call, `*result` and the storage. -/
def beginRead (σ : Storage) (nMessages : UInt64) : Call (Bool × MemTransaction × Storage) := do
  let r ← q.beginReadWith ⟨σ.writePtr, σ.readPtr⟩ nMessages
  return (r.returned, r.memTx, { σ with readPtr := r.stored.getD σ.readPtr })

/-- `commitWrite` always returns `true`. -/
def commitWrite (σ : Storage) (nMessages : UInt64) : Storage :=
  { σ with writePtr := σ.writePtr + nMessages * q.sizeofT }

def commitRead (σ : Storage) (nMessages : UInt64) : Bool × Storage :=
  if σ.writePtr - σ.readPtr > q.getSize then
    -- A write overflow occurred between `beginRead` and `commitRead`.
    (false, { σ with readPtr := σ.writePtr })
  else
    (true, { σ with readPtr := σ.readPtr + nMessages * q.sizeofT })

def write (σ : Storage) (data : Option (List UInt8)) (nMessages : UInt64) :
    Call (Bool × Storage) := do
  let (begun, tx) ← q.beginWrite σ nMessages .empty
  -- The `&&` of the source: a call after a failed one is not made.
  if !begun then return (false, σ)
  let (copied, ring) ← tx.copyTo q.sizeofT σ.ring data 0 nMessages
  if !copied then return (false, { σ with ring })
  return (true, q.commitWrite { σ with ring } nMessages)

/-- Returns the value of the call, the storage, and the caller's buffer if it was filled. -/
def read (σ : Storage) (hasData : Bool) (nMessages : UInt64) :
    Call (Bool × Storage × Option (List UInt8)) := do
  let (begun, tx, σ) ← q.beginRead σ nMessages
  if !begun then return (false, σ, none)
  match ← tx.copyFrom q.sizeofT σ.ring hasData 0 nMessages with
  | none => return (false, σ, none)
  | some data =>
    let (committed, σ) := q.commitRead σ nMessages
    return (committed, σ, some data)

/-! ## The calls from their parts -/

variable {q} {σ σ' : Storage} {nMessages : UInt64} {tx : MemTransaction}

theorem write_refused (data : Option (List UInt8))
    (begun : q.beginWrite σ nMessages .empty = .ok (false, tx)) :
    q.write σ data nMessages = .ok (false, σ) := by
  unfold write
  rw [begun]
  rfl

theorem write_null (begun : q.beginWrite σ nMessages .empty = .ok (true, tx)) :
    q.write σ none nMessages = .ok (false, σ) := by
  unfold write
  rw [begun]
  rfl

theorem write_granted {data : Option (List UInt8)} {ring : Ring}
    (begun : q.beginWrite σ nMessages .empty = .ok (true, tx))
    (copied : tx.copyTo q.sizeofT σ.ring data 0 nMessages = .ok (true, ring)) :
    q.write σ data nMessages = .ok (true, q.commitWrite { σ with ring } nMessages) := by
  unfold write
  simp [begun, copied, bind, Except.bind, pure, Except.pure]

theorem beginRead_of_loads {r : BeginRead}
    (begun : q.beginReadWith ⟨σ.writePtr, σ.readPtr⟩ nMessages = .ok r) :
    q.beginRead σ nMessages =
      .ok (r.returned, r.memTx, { σ with readPtr := r.stored.getD σ.readPtr }) := by
  unfold beginRead
  rw [begun]
  rfl

theorem read_refused (hasData : Bool) (begun : q.beginRead σ nMessages = .ok (false, tx, σ')) :
    q.read σ hasData nMessages = .ok (false, σ', none) := by
  unfold read
  rw [begun]
  rfl

theorem read_null (begun : q.beginRead σ nMessages = .ok (true, tx, σ')) :
    q.read σ false nMessages = .ok (false, σ', none) := by
  unfold read
  rw [begun]
  rfl

theorem read_granted {hasData : Bool} {data : List UInt8}
    (begun : q.beginRead σ nMessages = .ok (true, tx, σ'))
    (copied : tx.copyFrom q.sizeofT σ'.ring hasData 0 nMessages = .ok (some data)) :
    q.read σ hasData nMessages =
      .ok ((q.commitRead σ' nMessages).1, (q.commitRead σ' nMessages).2, some data) := by
  unfold read
  simp [begun, copied, bind, Except.bind, pure, Except.pure]

end Queue
end Fmq
