import Fmq.Model.EventFlag

/-!
# What the calls of an event flag do to its bits

The threads of `EventFlag` with every outcome of the two system calls, also those that a futex
never has, and a log of the bits that were set, cleared and reported.
-/
namespace Fmq.EventFlag

open Function

variable {ι : Type} [DecidableEq ι]

inductive FreeAction (ι : Type) where
  | step (a : Action ι)
  | waitReturned (i : ι)
  | waitFailed (i : ι) (errno : Int)
  /-- With the value of the system call and of `errno`. -/
  | wakeReturned (i : ι) (ret errno : Int)

/-- A step, or a system call that returns as it likes: `FUTEX_WAIT_BITSET` at any time and for any
reason, `FUTEX_WAKE_BITSET` without waking anybody. -/
inductive FreeStep : State ι → FreeAction ι → State ι → Prop
  | step {σ a τ} : Step σ a τ → FreeStep σ (.step a) τ
  | waitReturned {σ i call pc} : σ.thread i = .wait call pc →
      ((∃ efWord, pc = .futexWait efWord) ∨ pc = .asleep) →
      FreeStep σ (.waitReturned i) (σ.set i σ.word (.wait call .woken))
  | waitFailed {σ i call pc errno} : σ.thread i = .wait call pc →
      ((∃ efWord, pc = .futexWait efWord) ∨ pc = .asleep) → 0 < errno →
      FreeStep σ (.waitFailed i errno) (σ.set i σ.word (call.futexFailed errno))
  | wakeReturned {σ i bitmask ret errno} : σ.thread i = .wakeFutex bitmask →
      FreeStep σ (.wakeReturned i ret errno)
        (σ.set i σ.word (.returned (if ret = -1 then -errno else NO_ERROR) 0))

/-- The thread that takes the step. -/
def Action.actor : Action ι → ι
  | .wake i _ | .wait i .. | .fetchOr i | .futexWake i | .prevTime i _ | .currentTime i _ |
    .helper i | .futexWait i | .futexError i _ | .spurious i | .interrupted i | .timedOut i |
    .afterWoken i | .finish i => i

def FreeAction.actor : FreeAction ι → ι
  | .step a => a.actor
  | .waitReturned i | .waitFailed i _ | .wakeReturned i .. => i

/-- A `wake` or `wait` with a mask that is not empty, and somewhere to store the result. -/
def FreeAction.Proper : FreeAction ι → Prop
  | .step (.wake _ bitmask) => bitmask ≠ 0
  | .step (.wait _ bitmask hasEfState ..) => bitmask ≠ 0 ∧ hasEfState = true
  | _ => True

/-- The `wait` that a thread made last, and how often it has cleared each bit. -/
structure WaitRecord where
  bitmask : UInt32
  retry : Bool
  cleared : Nat → Nat

/-- The threads, with what happened to each bit so far. -/
structure Log (ι : Type) where
  flag : State ι
  /-- How often a `wake` turned the bit from 0 to 1. -/
  raised : Nat → Nat
  /-- How many `wait`s returned with the bit in `*efState`. -/
  reported : Nat → Nat
  /-- `none` for a thread whose last call is a `wake`. -/
  waits : ι → Option WaitRecord

/-- The bits in `*efState` of a call that has returned. -/
def Thread.reports : Thread → UInt32
  | .returned _ efState => efState
  | _ => 0

namespace Log

/-- The log after thread `i` has moved to `τ`. -/
def record (σ : Log ι) (i : ι) (τ : State ι) : Log ι :=
  match σ.flag.thread i, τ.thread i with
  | .wakeFetchOr _, _ =>
    { σ with
      flag := τ
      raised := fun b => σ.raised b + (!bit σ.flag.word b && bit τ.word b).toNat }
  | .idle, .wait call _ =>
    { σ with
      flag := τ
      waits := update σ.waits i (some ⟨call.bitmask, call.retry, fun _ => 0⟩) }
  | .idle, _ => { σ with flag := τ, waits := update σ.waits i none }
  | .wait _ _, t =>
    { σ with
      flag := τ
      reported := fun b => σ.reported b + (bit t.reports b).toNat
      waits := update σ.waits i <| (σ.waits i).map fun record =>
        { record with
          cleared := fun b => record.cleared b + (bit σ.flag.word b && !bit τ.word b).toNat } }
  | _, _ => { σ with flag := τ }

/-- A step of the threads, entered into the log. -/
inductive Step : Log ι → FreeAction ι → Log ι → Prop
  | entered {σ a φ} : FreeStep σ.flag a φ → Step σ a (σ.record a.actor φ)

/-- No call is in progress, and nothing has happened to the word yet. -/
def initial (word : UInt32) (σ : Log ι) : Prop :=
  EventFlag.initial σ.flag ∧ σ.flag.word = word ∧ (∀ b, σ.raised b = 0) ∧
    (∀ b, σ.reported b = 0) ∧ ∀ i, σ.waits i = none

end Log
end Fmq.EventFlag
