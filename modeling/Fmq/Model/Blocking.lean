import Fmq.Model.EventFlag
import Fmq.Model.Calls
import Fmq.Model.Geometry

/-!
# `writeBlocking` and `readBlocking`

One writer and one reader of a synchronized queue with a common event flag. Both functions are
the same loop around `write` or `read`, so a call carries its side; the calls of `wait` and
`wake` run as threads of the event flag.
-/
namespace Fmq.Blocking

inductive Side where
  | writer
  | reader
  deriving DecidableEq, Repr

def Side.other : Side → Side
  | .writer => .reader
  | .reader => .writer

/-- The notification masks that both endpoints pass. -/
structure Masks where
  readNotification : UInt32
  writeNotification : UInt32
  deriving DecidableEq, Repr

/-- The masks of the overloads without notification parameters. -/
def Masks.standard : Masks where
  -- `FMQ_NOT_FULL`
  readNotification := 0x01
  -- `FMQ_NOT_EMPTY`
  writeNotification := 0x02

/-- The mask a side waits for. -/
def Masks.wait (masks : Masks) : Side → UInt32
  | .writer => masks.readNotification
  | .reader => masks.writeNotification

/-- The mask a side wakes the other one with. -/
def Masks.notify (masks : Masks) (side : Side) : UInt32 := masks.wait side.other

/-- The parameters and local variables of one blocking call. -/
structure BlockingCall where
  count : UInt64
  /-- The bytes behind `data`, `none` for a null pointer. -/
  data : Option (List UInt8)
  timeOutNanos : Int64
  shouldTimeOut : Bool
  prevTimeNanos : Int64
  deriving DecidableEq, Repr

/-- The three calls of `write` or `read` in the function. -/
inductive Attempt where
  /-- Before the loop. -/
  | first
  /-- In the loop, when the timeout has expired. -/
  | last
  /-- In the loop, after a notification. -/
  | retry
  deriving DecidableEq, Repr

inductive Phase where
  | idle
  | begin (call : BlockingCall) (a : Attempt)
  | copy (call : BlockingCall) (a : Attempt) (tx : MemTransaction)
  | commit (call : BlockingCall) (a : Attempt)
  /-- Before `prevTimeNanos = elapsedRealtimeNano()`. -/
  | prevTime (call : BlockingCall)
  /-- At the head of the loop. -/
  | head (call : BlockingCall)
  /-- In `evFlag->wait`. -/
  | wait (call : BlockingCall)
  /-- In `evFlag->wake`. -/
  | notify
  | returned (result : Bool)

/-- The checks before the first attempt. -/
def enter (q : Queue) (waitNotification : UInt32) (hasEvFlag : Bool) (count : UInt64)
    (data : Option (List UInt8)) (timeOutNanos : Int64) : Call Phase := do
  if !hasEvFlag then return .returned false
  if waitNotification = 0 then return .returned false
  -- Such a call could never succeed.
  if count > (← q.getQuantumCount) then return .returned false
  return .begin
    { count, data, timeOutNanos, shouldTimeOut := timeOutNanos ≠ 0, prevTimeNanos := 0 } .first

/-- Where the call goes on after `write` or `read` returned `false`. -/
def BlockingCall.failed (call : BlockingCall) : Attempt → Phase
  | .first => if call.shouldTimeOut then .prevTime call else .head call
  | .last => .returned false
  | .retry => .head call

/-- Where the call goes on after `write` or `read` returned `true`. -/
def succeeded (notification : UInt32) : Phase × EventFlag.Thread :=
  if notification ≠ 0 then (.notify, EventFlag.wake notification) else (.returned true, .idle)

/-- `evFlag->wait(waitNotification, &efState, timeOutNanos, true)` with `efState = 0`. -/
def BlockingCall.wait (call : BlockingCall) (waitNotification : UInt32) :
    Phase × EventFlag.Thread :=
  (.wait call, EventFlag.wait waitNotification true 0 call.timeOutNanos true)

/-- The head of the loop of a call with a timeout, with its clock reading. -/
def BlockingCall.readCurrentTime (call : BlockingCall) (waitNotification : UInt32) (now : Int64) :
    Phase × EventFlag.Thread :=
  -- Where the difference overflows, which is undefined in C++, it wraps here; the two ways to go on
  -- are all that the call has.
  let timeOutNanos := call.timeOutNanos - (now - call.prevTimeNanos)
  let call := { call with timeOutNanos, prevTimeNanos := now }
  -- One more attempt, in case of a context switch outside of `wait`.
  if timeOutNanos ≤ 0 then (.begin call .last, .idle) else call.wait waitNotification

/-- What the loop does with the results of `wait`. -/
def BlockingCall.waitReturned (call : BlockingCall) (waitNotification : UInt32) (status : Status)
    (efState : UInt32) : Phase :=
  if status ≠ TIMED_OUT ∧ status ≠ NO_ERROR then .returned false
  else if status = TIMED_OUT then .returned false
  -- `wait` returned for another bit: the `&&` skips the attempt.
  else if efState &&& waitNotification ≠ 0 then .begin call .retry
  else .head call

/-! ## The parts of `write` and `read` -/

def beginSide (q : Queue) (σ : Storage) (nMessages : UInt64) :
    Side → Call (Bool × MemTransaction × Storage)
  | .writer => do
    let (ok, tx) ← q.beginWrite σ nMessages .empty
    return (ok, tx, σ)
  | .reader => q.beginRead σ nMessages

def copySide (q : Queue) (σ : Storage) (tx : MemTransaction) (data : Option (List UInt8))
    (nMessages : UInt64) : Side → Call (Bool × Storage)
  | .writer => do
    let (ok, ring) ← tx.copyTo q.sizeofT σ.ring data 0 nMessages
    return (ok, { σ with ring })
  | .reader => do
    let copied ← tx.copyFrom q.sizeofT σ.ring data.isSome 0 nMessages
    return (copied.isSome, σ)

def commitSide (q : Queue) (σ : Storage) (nMessages : UInt64) : Side → Bool × Storage
  | .writer => (true, q.commitWrite σ nMessages)
  | .reader => q.commitRead σ nMessages

/-! ## Both sides -/

structure State where
  storage : Storage
  flag : EventFlag.State Side
  phase : Side → Phase

inductive Action where
  | call (side : Side) (hasEvFlag : Bool) (count : UInt64) (data : Option (List UInt8))
      (timeOutNanos : Int64)
  | begin (side : Side)
  | copy (side : Side)
  | commit (side : Side)
  | prevTime (side : Side) (now : Int64)
  | currentTime (side : Side) (now : Int64)
  | enterWait (side : Side)
  | flag (a : EventFlag.Action Side)
  | waitReturned (side : Side)
  | wakeReturned (side : Side)
  | finish (side : Side)

/-- The steps of the event flag inside a running `wait` or `wake`. -/
def Inside : EventFlag.Action Side → Prop
  | .wake .. | .wait .. | .finish _ => False
  | _ => True

def State.to (σ : State) (side : Side) (phase : Phase) : State :=
  { σ with phase := Function.update σ.phase side phase }

/-- The side goes on at `next.1`, with its thread of the event flag at `next.2`. -/
def State.toFlag (σ : State) (side : Side) (next : Phase × EventFlag.Thread) : State :=
  { σ.to side next.1 with flag := σ.flag.set side σ.flag.word next.2 }

variable (g : Geometry) (masks : Masks)

abbrev queue : Queue := g.queue .kSynchronizedReadWrite

/-- Reset counters, no call in progress, an arbitrary flag word. -/
def initial (σ : State) : Prop :=
  (∃ ring, σ.storage = .reset ring) ∧ EventFlag.initial σ.flag ∧ ∀ side, σ.phase side = .idle

inductive Step : State → Action → State → Prop
  | call {σ side hasEvFlag count data timeOutNanos phase} : σ.phase side = .idle →
      enter (queue g) (masks.wait side) hasEvFlag count data timeOutNanos = .ok phase →
      Step σ (.call side hasEvFlag count data timeOutNanos) (σ.to side phase)
  | begin {σ side call a ok tx storage} : σ.phase side = .begin call a →
      beginSide (queue g) σ.storage call.count side = .ok (ok, tx, storage) →
      Step σ (.begin side)
        ({ σ with storage }.to side (if ok then .copy call a tx else call.failed a))
  | copy {σ side call a tx ok storage} : σ.phase side = .copy call a tx →
      copySide (queue g) σ.storage tx call.data call.count side = .ok (ok, storage) →
      Step σ (.copy side)
        ({ σ with storage }.to side (if ok then .commit call a else call.failed a))
  | commit {σ side call a ok storage} : σ.phase side = .commit call a →
      commitSide (queue g) σ.storage call.count side = (ok, storage) →
      Step σ (.commit side)
        (if ok then { σ with storage }.toFlag side (succeeded (masks.notify side))
          else { σ with storage }.to side (call.failed a))
  | prevTime {σ side call now} : σ.phase side = .prevTime call →
      Step σ (.prevTime side now) (σ.to side (.head { call with prevTimeNanos := now }))
  | currentTime {σ side call now} : σ.phase side = .head call → call.shouldTimeOut = true →
      Step σ (.currentTime side now)
        (σ.toFlag side (call.readCurrentTime (masks.wait side) now))
  | enterWait {σ side call} : σ.phase side = .head call → call.shouldTimeOut = false →
      Step σ (.enterWait side) (σ.toFlag side (call.wait (masks.wait side)))
  | flag {σ a flag} : Inside a → EventFlag.Step σ.flag a flag →
      Step σ (.flag a) { σ with flag }
  | waitReturned {σ side call status efState} : σ.phase side = .wait call →
      σ.flag.thread side = .returned status efState →
      Step σ (.waitReturned side)
        (σ.toFlag side (call.waitReturned (masks.wait side) status efState, .idle))
  | wakeReturned {σ side status efState} : σ.phase side = .notify →
      σ.flag.thread side = .returned status efState →
      Step σ (.wakeReturned side) (σ.toFlag side (.returned true, .idle))
  | finish {σ side result} : σ.phase side = .returned result →
      Step σ (.finish side) (σ.to side .idle)

end Fmq.Blocking
