import Mathlib.Logic.Function.Basic
import Fmq.Model.Base

/-!
# `EventFlag`

The calls of `wake` and `wait` as threads over one shared futex word. Every atomic operation and
every system call is a step; the local code between two of them belongs to the step before. The
futex puts a thread to sleep if and only if the word equals the expected value, and
`FUTEX_WAKE_BITSET` wakes every sleeper whose mask intersects its own.
-/
namespace Fmq

/-- `status_t`. -/
abbrev Status := Int

def EINTR : Int := 4
def EAGAIN : Int := 11
def EINVAL : Int := 22
def ETIMEDOUT : Int := 110

def NO_ERROR : Status := 0
def BAD_VALUE : Status := -EINVAL
def TIMED_OUT : Status := -ETIMEDOUT

namespace EventFlag

/-! ## Bits of the word -/

/-- Bit `b` of a word. -/
def bit (w : UInt32) (b : Nat) : Bool := w.toBitVec.getLsbD b

@[simp] theorem bit_or (v w : UInt32) (b : Nat) : bit (v ||| w) b = (bit v b || bit w b) := by
  simp [bit]

@[simp] theorem bit_and (v w : UInt32) (b : Nat) : bit (v &&& w) b = (bit v b && bit w b) := by
  simp [bit]

theorem bit_and_not (v w : UInt32) (b : Nat) :
    bit (v &&& ~~~w) b = (bit v b && !bit w b) := by
  by_cases small : b < 32
  · simp [bit, small]
  · -- The complement has no bits beyond the word either.
    simp [bit, BitVec.getLsbD_of_ge _ _ (Nat.le_of_not_lt small)]

@[simp] theorem bit_zero (b : Nat) : bit 0 b = false := by
  simp [bit]

theorem eq_of_bit {v w : UInt32} (same : ∀ b, bit v b = bit w b) : v = w := by
  rw [← UInt32.toBitVec_inj]
  exact BitVec.eq_of_getLsbD_eq fun b _ => same b

theorem eq_zero_of_bit {w : UInt32} (none_set : ∀ b, bit w b = false) : w = 0 :=
  eq_of_bit fun b => by rw [none_set b, bit_zero]

theorem exists_bit {w : UInt32} (nonzero : w ≠ 0) : ∃ b, bit w b = true := by
  by_contra none_set
  exact nonzero (eq_zero_of_bit fun b => by
    by_contra set
    exact none_set ⟨b, by simpa using set⟩)

/-! ## Threads -/

/-- The parameters and local variables of one `wait`, and `*efState`. -/
structure WaitCall where
  bitmask : UInt32
  /-- `efState != nullptr`. -/
  hasEfState : Bool
  efState : UInt32
  timeoutNanoSeconds : Int64
  retry : Bool
  shouldTimeOut : Bool
  prevTimeNs : Int64
  deriving DecidableEq, Repr

/-- Where a `wait` is. -/
inductive WaitPc where
  /-- Before `prevTimeNs = elapsedRealtimeNano()`. -/
  | prevTime
  /-- Before `currentTimeNs = elapsedRealtimeNano()`. -/
  | currentTime
  /-- At the start of `waitHelper`. -/
  | helper
  /-- Before `FUTEX_WAIT_BITSET` with the expected value `efWord`. -/
  | futexWait (efWord : UInt32)
  | asleep
  /-- `FUTEX_WAIT_BITSET` has returned 0. -/
  | woken
  deriving DecidableEq, Repr

inductive Thread where
  | idle
  /-- In `wake`, before its fetch-or. -/
  | wakeFetchOr (bitmask : UInt32)
  /-- In `wake`, before `FUTEX_WAKE_BITSET`. -/
  | wakeFutex (bitmask : UInt32)
  | wait (call : WaitCall) (pc : WaitPc)
  /-- The call has returned this status, and left `efState` in `*efState` if it is a `wait`. -/
  | returned (status : Status) (efState : UInt32)
  /-- The behaviour is undefined: a `wait` stored through a null `efState`, or what was left of its
  timeout overflowed. -/
  | crashed
  deriving DecidableEq, Repr

/-! ## `wake` -/

/-- `wake(bitmask)` up to its fetch-or. -/
def wake (bitmask : UInt32) : Thread :=
  if bitmask = 0 then .returned NO_ERROR 0 else .wakeFetchOr bitmask

/-- After the fetch-or returned `old`. -/
def afterFetchOr (old bitmask : UInt32) : Thread :=
  -- No system call when all the bits were set already.
  if ~~~old &&& bitmask ≠ 0 then .wakeFutex bitmask else .returned NO_ERROR 0

/-- What `FUTEX_WAKE_BITSET` does to a thread. -/
def Thread.wokenBy (bitmask : UInt32) : Thread → Thread
  -- Only sleepers are affected, and only those that wait for one of the bits.
  | .wait call .asleep =>
    if call.bitmask &&& bitmask ≠ 0 then .wait call .woken else .wait call .asleep
  | t => t

/-! ## `wait` -/

/-- `wait(bitmask, efState, timeoutNanoSeconds, retry)` up to its first clock reading or
fetch-and. -/
def wait (bitmask : UInt32) (hasEfState : Bool) (efState : UInt32) (timeoutNanoSeconds : Int64)
    (retry : Bool) : Thread :=
  let call : WaitCall :=
    { bitmask, hasEfState, efState, timeoutNanoSeconds, retry
      shouldTimeOut := timeoutNanoSeconds ≠ 0, prevTimeNs := 0 }
  if retry && call.shouldTimeOut then .wait call .prevTime else .wait call .helper

namespace WaitCall

variable (call : WaitCall)

/-- What `wait` does with the value returned by `waitHelper`. -/
def helperReturned (status : Status) : Thread :=
  if call.retry ∧ (status = -EAGAIN ∨ status = -EINTR) then
    -- A spurious wake-up: the next round of the loop.
    if call.shouldTimeOut then .wait call .currentTime else .wait call .helper
  else .returned status call.efState

def readPrevTime (now : Int64) : Thread :=
  .wait { call with prevTimeNs := now } .currentTime

/-- The head of the loop of `wait`, with its clock reading. -/
def readCurrentTime (now : Int64) : Thread :=
  -- `timeoutNanoSeconds -= currentTimeNs - prevTimeNs`.
  match (signedSub now call.prevTimeNs).bind (signedSub call.timeoutNanoSeconds) with
  | none => .crashed
  | some timeoutNanoSeconds =>
    let call := { call with timeoutNanoSeconds, prevTimeNs := now }
    if timeoutNanoSeconds ≤ 0 then
      -- `*efState = 0` without a test for null.
      if call.hasEfState then .returned (-ETIMEDOUT) 0 else .crashed
    else .wait call .helper

/-- `waitHelper` up to the system call, with its first fetch-and on the word. -/
def helper (word : UInt32) : UInt32 × Thread :=
  if call.bitmask = 0 ∨ call.hasEfState = false then (word, call.helperReturned BAD_VALUE)
  else
    let old := word
    let word := old &&& ~~~call.bitmask
    let setBits := old &&& call.bitmask
    -- A bit was set before: there is nothing to wait for.
    if setBits ≠ 0 then (word, { call with efState := setBits }.helperReturned NO_ERROR)
    else (word, .wait call (.futexWait (old &&& ~~~call.bitmask)))

/-- `FUTEX_WAIT_BITSET` has returned -1. -/
def futexFailed (errno : Int) : Thread := { call with efState := 0 }.helperReturned (-errno)

/-- `FUTEX_WAIT_BITSET` has returned 0: the second fetch-and. -/
def afterWoken (word : UInt32) : UInt32 × Thread :=
  let efState := word &&& call.bitmask
  (word &&& ~~~call.bitmask,
    { call with efState }.helperReturned (if efState = 0 then -EINTR else NO_ERROR))

end WaitCall

/-! ## All threads -/

structure State (ι : Type) where
  word : UInt32
  thread : ι → Thread

inductive Action (ι : Type) where
  | wake (i : ι) (bitmask : UInt32)
  | wait (i : ι) (bitmask : UInt32) (hasEfState : Bool) (efState : UInt32)
      (timeoutNanoSeconds : Int64) (retry : Bool)
  | fetchOr (i : ι)
  | futexWake (i : ι)
  | prevTime (i : ι) (now : Int64)
  | currentTime (i : ι) (now : Int64)
  | helper (i : ι)
  | futexWait (i : ι)
  | futexError (i : ι) (errno : Int)
  | spurious (i : ι)
  | interrupted (i : ι)
  | timedOut (i : ι)
  | afterWoken (i : ι)
  | finish (i : ι)

variable {ι : Type} [DecidableEq ι]

def State.set (σ : State ι) (i : ι) (word : UInt32) (t : Thread) : State ι :=
  ⟨word, Function.update σ.thread i t⟩

inductive Step : State ι → Action ι → State ι → Prop
  | wake {σ i bitmask} : σ.thread i = .idle →
      Step σ (.wake i bitmask) (σ.set i σ.word (EventFlag.wake bitmask))
  | wait {σ i bitmask hasEfState efState timeoutNanoSeconds retry} : σ.thread i = .idle →
      Step σ (.wait i bitmask hasEfState efState timeoutNanoSeconds retry)
        (σ.set i σ.word (EventFlag.wait bitmask hasEfState efState timeoutNanoSeconds retry))
  | fetchOr {σ i bitmask} : σ.thread i = .wakeFetchOr bitmask →
      Step σ (.fetchOr i) (σ.set i (σ.word ||| bitmask) (afterFetchOr σ.word bitmask))
  | futexWake {σ i bitmask} : σ.thread i = .wakeFutex bitmask →
      Step σ (.futexWake i)
        (State.set ⟨σ.word, fun j => (σ.thread j).wokenBy bitmask⟩ i σ.word
          (.returned NO_ERROR 0))
  | prevTime {σ i call now} : σ.thread i = .wait call .prevTime →
      Step σ (.prevTime i now) (σ.set i σ.word (call.readPrevTime now))
  | currentTime {σ i call now} : σ.thread i = .wait call .currentTime →
      Step σ (.currentTime i now) (σ.set i σ.word (call.readCurrentTime now))
  | helper {σ i call} : σ.thread i = .wait call .helper →
      Step σ (.helper i) (σ.set i (call.helper σ.word).1 (call.helper σ.word).2)
  | futexWait {σ i call efWord} : σ.thread i = .wait call (.futexWait efWord) →
      Step σ (.futexWait i)
        (σ.set i σ.word (if σ.word = efWord then .wait call .asleep else call.futexFailed EAGAIN))
  | futexError {σ i call efWord errno} : σ.thread i = .wait call (.futexWait efWord) →
      0 < errno → Step σ (.futexError i errno) (σ.set i σ.word (call.futexFailed errno))
  | spurious {σ i call} : σ.thread i = .wait call .asleep →
      Step σ (.spurious i) (σ.set i σ.word (.wait call .woken))
  | interrupted {σ i call} : σ.thread i = .wait call .asleep →
      Step σ (.interrupted i) (σ.set i σ.word (call.futexFailed EINTR))
  | timedOut {σ i call} : σ.thread i = .wait call .asleep → call.timeoutNanoSeconds ≠ 0 →
      Step σ (.timedOut i) (σ.set i σ.word (call.futexFailed ETIMEDOUT))
  | afterWoken {σ i call} : σ.thread i = .wait call .woken →
      Step σ (.afterWoken i) (σ.set i (call.afterWoken σ.word).1 (call.afterWoken σ.word).2)
  | finish {σ i status efState} : σ.thread i = .returned status efState →
      Step σ (.finish i) (σ.set i σ.word .idle)

/-- No call is in progress; the word is arbitrary. -/
def initial (σ : State ι) : Prop := ∀ i, σ.thread i = .idle

end EventFlag
end Fmq
