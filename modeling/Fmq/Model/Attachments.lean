import Fmq.Lib.Segments
import Fmq.Model.Construction
import Fmq.Model.Unsynchronized

/-!
# Endpoints that join while others are reading

Whole calls on an unsynchronized queue, and the constructor that attaches an endpoint to it. What
a reader got is kept in pieces, cut where one of its reads failed.
-/
namespace Fmq.Attachments

open Memory Segments

structure Endpoint (s : Nat) where
  readPtr : UInt64
  /-- How many messages had been written when the endpoint was constructed. -/
  attachedAt : Nat
  /-- The messages of the successful reads since the last failed one. -/
  current : List (Vector UInt8 s)
  /-- The pieces before that, the latest one first. -/
  finished : List (List (Vector UInt8 s))

/-- The endpoint after a read that returned `ok`. -/
def Endpoint.afterRead {s : Nat} (e : Endpoint s) (readPtr : UInt64) (ok : Bool)
    (xs : List (Vector UInt8 s)) : Endpoint s :=
  if ok then { e with readPtr, current := e.current ++ xs }
  else { e with readPtr, current := [], finished := e.current :: e.finished }

structure State (ι : Type) (s : Nat) where
  ring : Ring
  writePtr : UInt64
  readers : ι → Option (Endpoint s)
  /-- Every message written since the queue was made, whatever became of the counters. -/
  written : List (Vector UInt8 s)

inductive Action (ι : Type) (s : Nat) where
  /-- The constructor with this value of `resetPointers`, which is `true` by default. -/
  | attach (i : ι) (resetPointers : Bool)
  | write (xs : List (Vector UInt8 s)) (ok : Bool)
  | read (i : ι) (nMessages : UInt64) (ok : Bool)

variable {ι : Type} (g : Geometry)

abbrev queue : Queue := Unsynchronized.queue g

/-- The queue as its own constructor leaves it. -/
def initial (ring : Ring) (σ : State ι g.s) : Prop := σ = ⟨ring, 0, fun _ => none, []⟩

variable [DecidableEq ι]

inductive Step : State ι g.s → Action ι g.s → State ι g.s → Prop
  | attach {σ i os desc resetPointers mq uninitialized storage} : σ.readers i = none →
      (Source.mqDescriptor desc resetPointers).construct os .kUnsynchronizedWrite
        (queue g).sizeofT = .ok mq →
      mq.isValid = true →
      mq.queue .kUnsynchronizedWrite (queue g).sizeofT = some (queue g) →
      mq.attach ⟨σ.ring, uninitialized, σ.writePtr⟩ = storage →
      Step σ (.attach i resetPointers)
        { σ with
          ring := storage.ring
          writePtr := storage.writePtr
          readers :=
            Function.update σ.readers i (some ⟨storage.readPtr, σ.written.length, [], []⟩) }
  | write {σ xs ok storage} : xs.length < 2 ^ 64 →
      (queue g).write ⟨σ.ring, 0, σ.writePtr⟩ (some (flat xs)) (.ofNat xs.length) =
        .ok (ok, storage) →
      Step σ (.write xs ok)
        { σ with
          ring := storage.ring
          writePtr := storage.writePtr
          written := if ok then σ.written ++ xs else σ.written }
  -- The caller has room for `nMessages` messages.
  | read {σ i e nMessages ok storage data} : σ.readers i = some e →
      nMessages.toNat * g.s < 2 ^ 64 →
      (queue g).read ⟨σ.ring, e.readPtr, σ.writePtr⟩ true nMessages = .ok (ok, storage, data) →
      Step σ (.read i nMessages ok)
        { σ with
          ring := storage.ring
          writePtr := storage.writePtr
          readers := Function.update σ.readers i (some
            (e.afterRead storage.readPtr ok (records g.s nMessages.toNat (data.getD [])))) }

omit [DecidableEq ι] in
/-- An endpoint with the default arguments is constructed only where nothing was written since the
write counter was zero, or before there is a reader. -/
def Harmless {s : Nat} (σ : State ι s) : Action ι s → Prop
  | .attach _ true => σ.writePtr = 0 ∨ ∀ i, σ.readers i = none
  | _ => True

/-- What a reader got between two failed reads are consecutive messages of the stream. Nothing is
left out before a read has failed, and nothing comes twice. -/
structure Undisturbed {s : Nat} (written : List (Vector UInt8 s)) (e : Endpoint s) : Prop where
  segments : InOrder written written.length (e.current :: e.finished)
  first : e.finished = [] → ∃ start ≤ e.attachedAt, e.current <+: written.drop start

end Fmq.Attachments
