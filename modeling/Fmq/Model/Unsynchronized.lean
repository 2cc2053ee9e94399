import Mathlib.Logic.Function.Basic
import Fmq.Lib.Transition
import Fmq.Model.Calls
import Fmq.Model.Endpoints

/-!
# One writer and many readers of an unsynchronized queue

Every endpoint has a read counter of its own, which `initMemory` sets to zero; the ring and the
write counter are shared. Steps are atomic: either a whole `write` or `read`, or one part of it.
-/
namespace Fmq.Unsynchronized

open Memory

/-- An open read transaction, and for each slot whether it held a store that the writer had not
committed when it was last copied. -/
structure OpenRead (s : Nat) extends Fmq.OpenRead s where
  exposed : Nat → Bool

def OpenRead.noteCopy {s : Nat} (t : OpenRead s) (start : Nat) (xs : List (Vector UInt8 s))
    (exposed : List Bool) : OpenRead s where
  toOpenRead := t.note start xs
  exposed := store t.exposed start exposed

structure Reader (s : Nat) where
  readPtr : UInt64
  tx : Option (OpenRead s)
  /-- The stream positions and the copies that a `commitRead` returning `true` handed over. -/
  delivered : List (Nat × Option (Vector UInt8 s))

/-- A new endpoint, built with `resetPointers = false`. -/
def Reader.attached {s : Nat} : Reader s := ⟨0, none, []⟩

structure State (ι : Type) (s : Nat) where
  ring : Ring
  writePtr : UInt64
  writer : Option (OpenWrite s)
  readers : ι → Option (Reader s)
  /-- What the writer had stored in the slots it committed, in commit order. -/
  written : List (Option (Vector UInt8 s))
  /-- The stream positions into whose slots the writer stored something, committed or not. -/
  touched : List Nat

inductive Action (ι : Type) (s : Nat) where
  | attach (i : ι)
  | beginWrite (nMessages : UInt64) (ok : Bool)
  | copyTo (startIdx : UInt64) (xs : List (Vector UInt8 s))
  | commitWrite (nMessages : UInt64)
  | abandonWrite
  | write (xs : List (Vector UInt8 s)) (ok : Bool)
  | beginRead (i : ι) (nMessages : UInt64) (ok : Bool)
  | copyFrom (i : ι) (startIdx nMessages : UInt64)
  | commitRead (i : ι) (nMessages : UInt64) (ok : Bool)
  | abandonRead (i : ι)
  | read (i : ι) (nMessages : UInt64) (ok : Bool) (data : Option (List UInt8))

variable {ι : Type} (g : Geometry)

/-- The queue seen by every endpoint. -/
abbrev queue : Queue := g.queue .kUnsynchronizedWrite

/-- The stream position of a reader. -/
def Reader.position (r : Reader g.s) : Nat := r.readPtr.toNat / g.s

namespace State

variable (σ : State ι g.s)

/-- The storage behind the writer's endpoint, whose own read counter stays zero. -/
def writerView : Storage := ⟨σ.ring, 0, σ.writePtr⟩

def readerView (r : Reader g.s) : Storage := ⟨σ.ring, r.readPtr, σ.writePtr⟩

/-- The slot of position `p` holds a store of the next revolution that is not committed. -/
def overwritten (p : Nat) : Bool :=
  decide (σ.written.length ≤ p + g.N) && σ.touched.contains (p + g.N)

variable {g} [DecidableEq ι]

/-- The state after a call of reader `i` that left `storage` and the endpoint `r`. -/
def afterRead (i : ι) (storage : Storage) (r : Reader g.s) : State ι g.s :=
  { σ with
    ring := storage.ring
    writePtr := storage.writePtr
    readers := Function.update σ.readers i (some { r with readPtr := storage.readPtr }) }

end State

/-- No reader is attached yet. -/
def initial (ring : Ring) (σ : State ι g.s) : Prop :=
  σ = ⟨ring, 0, none, fun _ => none, [], []⟩

variable [DecidableEq ι]

inductive Step : State ι g.s → Action ι g.s → State ι g.s → Prop
  | attach {σ i} : σ.readers i = none →
      Step σ (.attach i) (σ.afterRead i (σ.readerView g .attached) .attached)
  | beginWrite {σ nMessages ok tx} : σ.writer = none →
      (queue g).beginWrite (σ.writerView g) nMessages .empty = .ok (ok, tx) →
      Step σ (.beginWrite nMessages ok)
        { σ with writer := if ok then some (.granted tx nMessages) else none }
  | copyTo {σ w startIdx xs ok ring} : σ.writer = some w →
      startIdx.toNat + xs.length ≤ w.nMessages.toNat →
      w.tx.copyTo (queue g).sizeofT σ.ring (some (flat xs)) startIdx (.ofNat xs.length) =
        .ok (ok, ring) →
      Step σ (.copyTo startIdx xs)
        { σ with
          ring
          writer := some (w.note startIdx.toNat xs)
          touched := .range' (σ.written.length + startIdx.toNat) xs.length ++ σ.touched }
  | commitWrite {σ w nMessages} : σ.writer = some w → nMessages ≤ w.nMessages →
      Step σ (.commitWrite nMessages)
        { σ with
          writePtr := ((queue g).commitWrite (σ.writerView g) nMessages).writePtr
          writer := none
          written := σ.written ++ load w.stored 0 nMessages.toNat }
  | abandonWrite {σ} : Step σ .abandonWrite { σ with writer := none }
  | write {σ xs ok storage} : σ.writer = none → xs.length < 2 ^ 64 →
      (queue g).write (σ.writerView g) (some (flat xs)) (.ofNat xs.length) = .ok (ok, storage) →
      Step σ (.write xs ok)
        { σ with
          ring := storage.ring
          writePtr := storage.writePtr
          written := if ok then σ.written ++ xs.map some else σ.written
          touched := if ok then .range' σ.written.length xs.length ++ σ.touched else σ.touched }
  | beginRead {σ i r nMessages ok tx storage} : σ.readers i = some r → r.tx = none →
      nMessages.toNat ≤ g.N →
      (queue g).beginRead (σ.readerView g r) nMessages = .ok (ok, tx, storage) →
      Step σ (.beginRead i nMessages ok)
        (σ.afterRead i storage
          { r with tx := if ok then some ⟨.granted tx nMessages, fun _ => false⟩ else none })
  | copyFrom {σ i r t startIdx nMessages data} : σ.readers i = some r → r.tx = some t →
      startIdx.toNat + nMessages.toNat ≤ t.nMessages.toNat →
      t.tx.copyFrom (queue g).sizeofT σ.ring true startIdx nMessages = .ok (some data) →
      Step σ (.copyFrom i startIdx nMessages)
        (σ.afterRead i (σ.readerView g r)
          { r with
            tx := some <| t.noteCopy startIdx.toNat (records g.s nMessages.toNat data)
              ((List.range nMessages.toNat).map fun j =>
                σ.overwritten g (r.position g + startIdx.toNat + j)) })
  | commitRead {σ i r t nMessages ok storage} : σ.readers i = some r → r.tx = some t →
      nMessages ≤ t.nMessages →
      (queue g).commitRead (σ.readerView g r) nMessages = (ok, storage) →
      Step σ (.commitRead i nMessages ok)
        (σ.afterRead i storage
          { r with
            tx := none
            delivered :=
              if ok then
                r.delivered ++
                  (List.range nMessages.toNat).map fun j => (r.position g + j, t.copied j)
              else r.delivered })
  | abandonRead {σ i r} : σ.readers i = some r →
      Step σ (.abandonRead i) (σ.afterRead i (σ.readerView g r) { r with tx := none })
  | read {σ i r nMessages ok data storage} : σ.readers i = some r → r.tx = none →
      nMessages.toNat ≤ g.N →
      (queue g).read (σ.readerView g r) true nMessages = .ok (ok, storage, data) →
      Step σ (.read i nMessages ok data) (σ.afterRead i storage r)

end Fmq.Unsynchronized
