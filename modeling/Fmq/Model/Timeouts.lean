import Fmq.Lib.Transition
import Fmq.Model.Blocking
import Fmq.Model.Notifications

/-!
# Calls with a timeout

One `wait`, and one `writeBlocking` or `readBlocking` with the `wait`s it makes, on a clock that
does not go back. The word, the system calls and the attempts to transfer return what they like.
The readings and the timeouts of the waits are recorded; the code does not read these records.
-/
namespace Fmq

namespace EventFlag.Timed

/-- One thread of an event flag. -/
structure State where
  /-- The last reading of `elapsedRealtimeNano`. -/
  clock : Int64
  thread : Thread
  /-- `timeoutNanoSeconds` of every `FUTEX_WAIT_BITSET` so far. -/
  futexWaits : List Int64

/-- The thread begins no other call. -/
def Inside : FreeAction Unit → Prop
  | .step (.wake ..) | .step (.wait ..) | .step (.finish _) => False
  | _ => True

/-- The clock reading of a step. -/
def reading : FreeAction Unit → Option Int64
  | .step (.prevTime _ now) | .step (.currentTime _ now) => some now
  | _ => none

/-- The timeout of the `FUTEX_WAIT_BITSET` that a thread is about to make. -/
def issues : Thread → List Int64
  | .wait call (.futexWait _) => [call.timeoutNanoSeconds]
  | _ => []

/-- A step on a word with an arbitrary value. -/
inductive Step : State → FreeAction Unit → State → Prop
  | step {σ a word φ} : Inside a → FreeStep ⟨word, fun _ => σ.thread⟩ a φ →
      (∀ now, reading a = some now → σ.clock ≤ now) →
      Step σ a ⟨(reading a).getD σ.clock, φ.thread (), σ.futexWaits ++ issues σ.thread⟩

/-- `wait(bitmask, efState, timeoutNanoSeconds, true)` at the time `clock`. -/
def entered (clock : Int64) (bitmask : UInt32) (hasEfState : Bool) (efState : UInt32)
    (timeoutNanoSeconds : Int64) (σ : State) : Prop :=
  σ = ⟨clock, wait bitmask hasEfState efState timeoutNanoSeconds true, []⟩

end EventFlag.Timed

namespace Blocking.Timed

structure State where
  flag : EventFlag.Timed.State
  phase : Phase
  /-- The readings of the loop of the call itself, first one first. -/
  readings : List Int64
  /-- `timeOutNanos` of every `evFlag->wait` so far. -/
  waits : List Int64

inductive Action where
  /-- A whole `write` or `read`, which neither reads the clock nor waits. -/
  | attempt (ok : Bool)
  | prevTime (now : Int64)
  | currentTime (now : Int64)
  | enterWait
  | flag (a : EventFlag.FreeAction Unit)
  | waitReturned
  | wakeReturned

/-- The timeout of the `evFlag->wait` that has just begun. -/
def starts : Phase → List Int64
  | .wait call => [call.timeOutNanos]
  | _ => []

def State.to (σ : State) (next : Phase × EventFlag.Thread) : State :=
  { σ with
    flag := { σ.flag with thread := next.2 }
    phase := next.1
    waits := σ.waits ++ starts next.1 }

/-- The state after the call's own loop has read the clock. -/
def State.read (σ : State) (now : Int64) : State :=
  { σ with flag := { σ.flag with clock := now }, readings := σ.readings ++ [now] }

variable (q : Queue) (masks : Masks) (side : Side)

def entered (clock : Int64) (hasEvFlag : Bool) (count : UInt64) (data : Option (List UInt8))
    (timeOutNanos : Int64) (σ : State) : Prop :=
  ∃ phase, enter q (masks.wait side) hasEvFlag count data timeOutNanos = .ok phase ∧
    σ = ⟨⟨clock, .idle, []⟩, phase, [], []⟩

inductive Step : State → Action → State → Prop
  | attempt {σ call a ok} : σ.phase = .begin call a →
      Step σ (.attempt ok)
        (σ.to (if ok then succeeded (masks.notify side) else (call.failed a, .idle)))
  | prevTime {σ call now} : σ.phase = .prevTime call → σ.flag.clock ≤ now →
      Step σ (.prevTime now)
        ((σ.read now).to (.head { call with prevTimeNanos := now }, .idle))
  | currentTime {σ call now} : σ.phase = .head call → call.shouldTimeOut = true →
      σ.flag.clock ≤ now →
      Step σ (.currentTime now)
        ((σ.read now).to (call.readCurrentTime (masks.wait side) now))
  | enterWait {σ call} : σ.phase = .head call → call.shouldTimeOut = false →
      Step σ .enterWait (σ.to (call.wait (masks.wait side)))
  | flag {σ a flag} : EventFlag.Timed.Step σ.flag a flag → Step σ (.flag a) { σ with flag }
  | waitReturned {σ call status efState} : σ.phase = .wait call →
      σ.flag.thread = .returned status efState →
      Step σ .waitReturned
        (σ.to (call.waitReturned (masks.wait side) status efState, .idle))
  | wakeReturned {σ status efState} : σ.phase = .notify →
      σ.flag.thread = .returned status efState →
      Step σ .wakeReturned (σ.to (.returned true, .idle))

end Blocking.Timed
end Fmq
