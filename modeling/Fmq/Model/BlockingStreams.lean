import Fmq.Model.Blocking

/-!
# The streams of the blocking calls

The two sides of a queue with blocking calls, together with the messages that their commits
passed on. The code does not read these records.
-/
namespace Fmq.Blocking

open Memory

structure Streams (s : Nat) where
  state : State
  /-- What the last copy left in the buffer of the reader's call. -/
  buffer : List (Vector UInt8 s)
  written : List (Vector UInt8 s)
  delivered : List (Vector UInt8 s)

/-- The messages behind `data`. -/
def BlockingCall.messages (call : BlockingCall) (s : Nat) : List (Vector UInt8 s) :=
  records s call.count.toNat (call.data.getD [])

variable (g : Geometry) (masks : Masks)

namespace Streams

variable (t : Streams g.s)

/-- The reader's buffer after its `copyFrom`. -/
def filled : List (Vector UInt8 g.s) :=
  match t.state.phase .reader with
  | .copy call _ tx =>
    match tx.copyFrom (queue g).sizeofT t.state.storage.ring call.data.isSome 0 call.count with
    | .ok (some data) => records g.s call.count.toNat data
    | _ => t.buffer
  | _ => t.buffer

/-- What the commit of a side passes on, which is nothing when it fails. -/
def committed (side : Side) : List (Vector UInt8 g.s) :=
  match t.state.phase side with
  | .commit call _ =>
    if (commitSide (queue g) t.state.storage call.count side).1 then
      match side with
      | .writer => call.messages g.s
      | .reader => t.buffer
    else []
  | _ => []

/-- The records after a step to `σ`. -/
def next (σ : State) : Action → Streams g.s
  | .copy .reader => { t with state := σ, buffer := t.filled }
  | .commit .writer => { t with state := σ, written := t.written ++ t.committed g .writer }
  | .commit .reader => { t with state := σ, delivered := t.delivered ++ t.committed g .reader }
  | _ => { t with state := σ }

def initial : Prop := Blocking.initial t.state ∧ t.written = [] ∧ t.delivered = []

inductive Step : Streams g.s → Action → Streams g.s → Prop
  | step {t a σ} : Blocking.Step g masks t.state a σ → Step t a (t.next g σ a)

end Streams

/-- The writer's buffers hold as many messages as its calls announce. -/
def Holds (g : Geometry) (_ : Streams g.s) : Action → Prop
  | .call .writer _ count (some data) _ => count.toNat * g.s ≤ data.length
  | _ => True

end Fmq.Blocking
