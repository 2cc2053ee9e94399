import Fmq.Lib.Transition
import Fmq.Model.Calls
import Fmq.Model.Endpoints

/-!
# One writer and one reader of a synchronized queue

The two sides take their steps in any order. Each step is atomic: it loads the counter of the
other side at most once and stores its own one last. A transaction may be abandoned at any point
between `begin` and `commit`.
-/
namespace Fmq.Synchronized

open Memory

structure State (s : Nat) where
  storage : Storage
  writer : Option (OpenWrite s)
  reader : Option (OpenRead s)
  /-- What the writer had stored in the slots it committed, in commit order. -/
  written : List (Option (Vector UInt8 s))
  /-- What the reader had copied out of the slots it committed, in commit order. -/
  delivered : List (Option (Vector UInt8 s))

inductive Action (s : Nat) where
  | beginWrite (nMessages : UInt64)
  | copyTo (startIdx : UInt64) (xs : List (Vector UInt8 s))
  | storeSlot (idx : UInt64) (x : Vector UInt8 s)
  | commitWrite (nMessages : UInt64)
  | abandonWrite
  | beginRead (nMessages : UInt64)
  | copyFrom (startIdx nMessages : UInt64)
  | commitRead (nMessages : UInt64)
  | abandonRead

variable (g : Geometry)

/-- The queue seen by both endpoints. -/
abbrev queue : Queue := g.queue .kSynchronizedReadWrite

def initial (ring : Ring) (σ : State g.s) : Prop := σ = ⟨.reset ring, none, none, [], []⟩

inductive Step : State g.s → Action g.s → State g.s → Prop
  | beginWrite {σ nMessages ok tx} : σ.writer = none →
      (queue g).beginWrite σ.storage nMessages .empty = .ok (ok, tx) →
      Step σ (.beginWrite nMessages)
        { σ with writer := if ok then some (.granted tx nMessages) else none }
  | copyTo {σ w startIdx xs ok ring} : σ.writer = some w →
      startIdx.toNat + xs.length ≤ w.nMessages.toNat →
      w.tx.copyTo (queue g).sizeofT σ.storage.ring (some (flat xs)) startIdx (.ofNat xs.length) =
        .ok (ok, ring) →
      Step σ (.copyTo startIdx xs)
        { σ with storage := { σ.storage with ring }, writer := some (w.note startIdx.toNat xs) }
  | storeSlot {σ w idx x ring} : σ.writer = some w → idx < w.nMessages →
      w.tx.storeSlot (queue g).sizeofT σ.storage.ring idx x = .ok ring →
      Step σ (.storeSlot idx x)
        { σ with storage := { σ.storage with ring }, writer := some (w.note idx.toNat [x]) }
  | commitWrite {σ w nMessages} : σ.writer = some w → nMessages ≤ w.nMessages →
      Step σ (.commitWrite nMessages)
        { σ with
          storage := (queue g).commitWrite σ.storage nMessages
          writer := none
          written := σ.written ++ load w.stored 0 nMessages.toNat }
  | abandonWrite {σ} : Step σ .abandonWrite { σ with writer := none }
  | beginRead {σ nMessages ok tx storage} : σ.reader = none → nMessages.toNat ≤ g.N →
      (queue g).beginRead σ.storage nMessages = .ok (ok, tx, storage) →
      Step σ (.beginRead nMessages)
        { σ with storage, reader := if ok then some (.granted tx nMessages) else none }
  | copyFrom {σ r startIdx nMessages data} : σ.reader = some r →
      startIdx.toNat + nMessages.toNat ≤ r.nMessages.toNat →
      r.tx.copyFrom (queue g).sizeofT σ.storage.ring true startIdx nMessages = .ok (some data) →
      Step σ (.copyFrom startIdx nMessages)
        { σ with reader := some (r.note startIdx.toNat (records g.s nMessages.toNat data)) }
  | commitRead {σ r nMessages ok storage} : σ.reader = some r → nMessages ≤ r.nMessages →
      (queue g).commitRead σ.storage nMessages = (ok, storage) →
      Step σ (.commitRead nMessages)
        { σ with
          storage
          reader := none
          delivered :=
            if ok then σ.delivered ++ load r.copied 0 nMessages.toNat else σ.delivered }
  | abandonRead {σ} : Step σ .abandonRead { σ with reader := none }

end Fmq.Synchronized
