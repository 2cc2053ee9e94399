import Fmq.Lib.Linearizability
import Fmq.Model.Blocking

/-!
# Calls of a writer and a reader at the same time

The calls on a synchronized queue in their smallest parts: the loads and stores of the counters,
and each byte of every `memcpy`. Each side makes one call after the other, and the parts of the
two interleave in any way. A side may end between any two parts.
-/
namespace Fmq

open BoundedFifo Linearizability Memory

/-! ## `memcpy`, byte by byte -/

/-- The stores of `if (count != 0) memcpy(p, bytes, count * sizeof(T))`, in order. -/
def memcpyStores (p : Ptr) (bytes : List UInt8) (sizeofT count : UInt64) :
    Call (List (UInt8 × Nat)) :=
  if count = 0 then .ok []
  else
    match p.block with
    | .null => .error .nullAccess
    | .ring => .ok ((bytes.take (count * sizeofT).toNat).zipIdx p.offset)

/-- The loads of `if (count != 0) memcpy(.., p, count * sizeof(T))`, in order. -/
def memcpyLoads (p : Ptr) (sizeofT count : UInt64) : Call (List Nat) :=
  if count = 0 then .ok []
  else
    match p.block with
    | .null => .error .nullAccess
    | .ring => .ok (List.range' p.offset (count * sizeofT).toNat)

namespace MemTransaction

variable (tx : MemTransaction) (sizeofT : UInt64)

/-- The stores of `copyTo(data, startIdx, nMessages)`, `none` when it returns `false`. -/
def stores (data : List UInt8) (startIdx nMessages : UInt64) :
    Call (Option (List (UInt8 × Nat))) :=
  match tx.getMemRegionInfo sizeofT startIdx nMessages with
  | none => .ok none
  | some info => do
    let front ← memcpyStores info.firstBaseAddress data sizeofT info.firstCount
    let rest := data.drop (info.firstCount.toNat * sizeofT.toNat)
    let back ← memcpyStores info.secondBaseAddress rest sizeofT info.secondCount
    return some (front ++ back)

/-- The loads of `copyFrom(data, startIdx, nMessages)`, `none` when it returns `false`. -/
def loads (startIdx nMessages : UInt64) : Call (Option (List Nat)) :=
  match tx.getMemRegionInfo sizeofT startIdx nMessages with
  | none => .ok none
  | some info => do
    let front ← memcpyLoads info.firstBaseAddress sizeofT info.firstCount
    let back ← memcpyLoads info.secondBaseAddress sizeofT info.secondCount
    return some (front ++ back)

end MemTransaction

namespace Concurrent

open Blocking (Side)

/-! ## The parts of a call -/

/-- How far a side has got in its call. -/
inductive Phase (s : Nat) where
  | idle
  /-- Before the loads of the counters. -/
  | called (op : Op (Vector UInt8 s))
  /-- In `copyTo`, with these bytes still to be stored. -/
  | storing (xs : List (Vector UInt8 s)) (todo : List (UInt8 × Nat))
  /-- In `copyFrom`, with these bytes still to be loaded. -/
  | fetching (n : Nat) (todo : List Nat) (data : List UInt8)
  /-- In `commitRead`, after the load of `mWritePtr`. -/
  | checking (n : Nat) (data : List UInt8) (writePtr : UInt64)
  | returning (reply : Reply (List UInt8))

variable {s : Nat} (q : Queue) (σ : Storage)

/-- The loads of the counters with what follows up to the first access to the ring. Of the two
counters only that of the other side can change during the call, so they are loaded at once. -/
def enter : Op (Vector UInt8 s) → Call (Storage × Phase s)
  | .write xs => do
    let (begun, tx) ← q.beginWrite σ (.ofNat xs.length) .empty
    if !begun then return (σ, .returning (.written false))
    match ← tx.stores q.sizeofT (flat xs) 0 (.ofNat xs.length) with
    | none => return (σ, .returning (.written false))
    | some todo => return (σ, .storing xs todo)
  | .read n => do
    let (begun, tx, σ) ← q.beginRead σ (.ofNat n)
    if !begun then return (σ, .returning (.read none))
    match ← tx.loads q.sizeofT 0 (.ofNat n) with
    | none => return (σ, .returning (.read none))
    | some todo => return (σ, .fetching n todo [])
  | .availableToRead => do
    return (σ, .returning (.count (← q.availableToRead σ.writePtr σ.readPtr).toNat))
  | .availableToWrite => do
    return (σ, .returning (.count (← q.availableToWrite σ.writePtr σ.readPtr).toNat))

/-- The next part of the call. -/
def advance : Phase s → Call (Storage × Phase s)
  | .idle => return (σ, .idle)
  | .called op => enter q σ op
  | .storing xs ((b, a) :: todo) =>
    return ({ σ with ring := store σ.ring a [b] }, .storing xs todo)
  | .storing xs [] => return (q.commitWrite σ (.ofNat xs.length), .returning (.written true))
  | .fetching n (a :: todo) data => return (σ, .fetching n todo (data ++ [σ.ring a]))
  | .fetching n [] data => return (σ, .checking n data σ.writePtr)
  | .checking n data writePtr =>
    -- `commitRead` with the value of `mWritePtr` that was loaded.
    let (committed, σ') := q.commitRead { σ with writePtr } (.ofNat n)
    return ({ σ with readPtr := σ'.readPtr },
      .returning (.read (if committed then some data else none)))
  | .returning reply => return (σ, .returning reply)

/-- Whether there is a next part. -/
def Phase.Running : Phase s → Prop
  | .idle | .returning _ => False
  | _ => True

/-- The parts of a call that nobody interrupts. -/
def Alone : Storage × Phase s → Unit → Storage × Phase s → Prop :=
  fun here _ there => here.2.Running ∧ advance q here.1 here.2 = .ok there

/-- The messages that the next part publishes. -/
def Phase.publishes : Phase s → Nat
  | .storing xs [] => xs.length
  | _ => 0

end Concurrent

/-! ## Two sides -/

namespace Concurrent

open Blocking (Side)

structure State (s : Nat) where
  storage : Storage
  phase : Side → Phase s
  /-- How many messages have been published. -/
  written : Nat

/-- Only the reader reads and only the writer writes. -/
def MayCall {s : Nat} : Side → Op (Vector UInt8 s) → Prop
  | .writer, .read _ => False
  | .reader, .write _ => False
  | _, _ => True

/-- Invocations, responses and crashes. -/
abbrev CallEvent (s : Nat) : Type :=
  Event Side (Op (Vector UInt8 s)) (Reply (List UInt8))

variable (g : Geometry)

abbrev queue : Queue := g.queue .kSynchronizedReadWrite

inductive Step : State g.s → Option (CallEvent g.s) → State g.s → Prop
  | invoke {σ side op} : σ.phase side = .idle → MayCall side op → Callable op →
      Step σ (some (.invoke side op))
        { σ with phase := Function.update σ.phase side (.called op) }
  | part {σ side storage phase} : (σ.phase side).Running →
      advance (queue g) σ.storage (σ.phase side) = .ok (storage, phase) →
      Step σ none
        ⟨storage, Function.update σ.phase side phase, σ.written + (σ.phase side).publishes⟩
  | respond {σ side reply} : σ.phase side = .returning reply →
      Step σ (some (.respond side reply))
        { σ with phase := Function.update σ.phase side .idle }
  /-- The process of a side ends. Another one attaches to the memory as it is, without a reset of
  the counters. -/
  | crash {σ side} :
      Step σ (some (.crash side)) { σ with phase := Function.update σ.phase side .idle }

/-- After both counters were reset, before any call. -/
def State.initial (ring : Ring) : State g.s := ⟨.reset ring, fun _ => .idle, 0⟩

/-- The queue as an object: a bounded FIFO that delivers the bytes of its messages. -/
def fifo (items : List (Vector UInt8 g.s)) (op : Op (Vector UInt8 g.s)) :
    List (Vector UInt8 g.s) × Reply (List UInt8) :=
  ((step g.N items op).1, (step g.N items op).2.map flat)

end Concurrent
end Fmq
