import Fmq.Lib.Transition
import Fmq.Model.Blocking

/-!
# One blocking call among the operations of its peer

One `writeBlocking` or `readBlocking`, step by step on the shared counters and the ring. Between
two of its steps the peer may begin, fill and commit transactions of its own; the clock and `wait`
return what they like. The log of transfers and of calls of `wake` is not read by the code.
-/
namespace Fmq.Blocking.OneCall

/-- The side that makes the call, and its arguments. -/
structure Arguments where
  side : Side
  masks : Masks
  /-- One was passed, or the queue has its own. -/
  hasEvFlag : Bool
  count : UInt64
  data : Option (List UInt8)
  timeOutNanos : Int64

inductive Event where
  /-- `commitWrite` or `commitRead` has returned `true`. -/
  | committed (count : UInt64)
  | wake (bitmask : UInt32)
  deriving DecidableEq, Repr

structure State where
  storage : Storage
  phase : Phase
  /-- What the open transaction of the peer was granted, if there is one. -/
  granted : Option UInt64
  events : List Event

inductive Action where
  | begin
  | copy
  | commit
  | prevTime (now : Int64)
  | currentTime (now : Int64)
  | enterWait
  | waitReturned (status : Status) (efState : UInt32)
  | wakeReturned
  | peerBegin (nMessages : UInt64)
  /-- The stores of the peer through `copyTo` or `getSlot`. -/
  | peerStore (ring : Ring)
  | peerCommit (nMessages : UInt64)

/-- The call that a thread of the event flag starts with. -/
def calls : EventFlag.Thread → List Event
  | .wakeFetchOr bitmask => [.wake bitmask]
  | _ => []

/-- The state after a commit of `count` messages that returned `true`. -/
def State.commit (σ : State) (count : UInt64) (notification : UInt32) (storage : Storage) :
    State where
  storage
  phase := (succeeded notification).1
  granted := σ.granted
  events := σ.events ++ .committed count :: calls (succeeded notification).2

variable (q : Queue) (args : Arguments)

/-- The call has been entered on a queue in any state. -/
def entered (storage : Storage) (granted : Option UInt64) (σ : State) : Prop :=
  ∃ phase, enter q (args.masks.wait args.side) args.hasEvFlag args.count args.data
      args.timeOutNanos = .ok phase ∧
    σ = ⟨storage, phase, granted, []⟩

inductive Step : State → Action → State → Prop
  | begin {σ call a ok tx storage} : σ.phase = .begin call a →
      beginSide q σ.storage call.count args.side = .ok (ok, tx, storage) →
      Step σ .begin { σ with storage, phase := if ok then .copy call a tx else call.failed a }
  | copy {σ call a tx ok storage} : σ.phase = .copy call a tx →
      copySide q σ.storage tx call.data call.count args.side = .ok (ok, storage) →
      Step σ .copy { σ with storage, phase := if ok then .commit call a else call.failed a }
  | commit {σ call a ok storage} : σ.phase = .commit call a →
      commitSide q σ.storage call.count args.side = (ok, storage) →
      Step σ .commit
        (if ok then σ.commit call.count (args.masks.notify args.side) storage
          else { σ with storage, phase := call.failed a })
  | prevTime {σ call now} : σ.phase = .prevTime call →
      Step σ (.prevTime now) { σ with phase := .head { call with prevTimeNanos := now } }
  | currentTime {σ call now} : σ.phase = .head call → call.shouldTimeOut = true →
      Step σ (.currentTime now)
        { σ with phase := (call.readCurrentTime (args.masks.wait args.side) now).1 }
  | enterWait {σ call} : σ.phase = .head call → call.shouldTimeOut = false →
      Step σ .enterWait { σ with phase := (call.wait (args.masks.wait args.side)).1 }
  | waitReturned {σ call status efState} : σ.phase = .wait call →
      Step σ (.waitReturned status efState)
        { σ with phase := call.waitReturned (args.masks.wait args.side) status efState }
  | wakeReturned {σ} : σ.phase = .notify →
      Step σ .wakeReturned { σ with phase := .returned true }
  | peerBegin {σ nMessages ok tx storage} :
      beginSide q σ.storage nMessages args.side.other = .ok (ok, tx, storage) →
      Step σ (.peerBegin nMessages)
        { σ with storage, granted := if ok then some nMessages else σ.granted }
  | peerStore {σ ring} : Step σ (.peerStore ring) { σ with storage := { σ.storage with ring } }
  | peerCommit {σ nMessages granted ok storage} : σ.granted = some granted →
      nMessages ≤ granted → commitSide q σ.storage nMessages args.side.other = (ok, storage) →
      Step σ (.peerCommit nMessages) { σ with storage, granted := none }

end Fmq.Blocking.OneCall
