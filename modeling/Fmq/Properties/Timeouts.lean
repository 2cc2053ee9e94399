import Fmq.Lib.Countdown
import Fmq.Model.Timeouts
import Fmq.Properties.BlockingCalls
import Fmq.Properties.WaitSteps

/-!
# A finite timeout stays finite

Zero nanoseconds mean no timeout at all to `FUTEX_WAIT_BITSET` and to `wait`, and both loops count
their remaining time down. Neither ever waits with zero or less, and the loop around `wait` ends
at the first reading that reaches its deadline.
-/
namespace Fmq

open Transition Countdown

/-! ## One `wait` -/

namespace EventFlag.Timed

variable {t : Thread} {call : WaitCall} {pc : WaitPc} {word : UInt32} {a : FreeAction Unit}
  {φ : EventFlag.State Unit}

theorem reading_eq (a : FreeAction Unit) : reading a = clockReading a := by
  cases a with
  | step a => cases a <;> rfl
  | waitReturned | waitFailed | wakeReturned => rfl

/-- What one step of a `wait` leads to: a reading of the clock, another point of the same round,
or the end of `waitHelper`. -/
theorem wait_cases (taken : FreeStep ⟨word, fun _ => .wait call pc⟩ a φ) :
    (∃ now, reading a = some now ∧ pc = .prevTime ∧ φ.thread () = call.readPrevTime now) ∨
    (∃ now, reading a = some now ∧ pc = .currentTime ∧ φ.thread () = call.readCurrentTime now) ∨
    (reading a = none ∧ pc ≠ .prevTime ∧
      ((∃ pc', φ.thread () = .wait call pc' ∧ pc' ≠ .prevTime) ∨
        ∃ efState status, φ.thread () = { call with efState }.helperReturned status)) := by
  have step := taken.waitStep_self rfl
  rw [← reading_eq] at step
  rcases step.cases with first | next | ⟨none_read, started, -, within | ended⟩
  · exact Or.inl first
  · exact Or.inr (Or.inl next)
  · obtain ⟨pc', next, inFutex⟩ := within
    refine Or.inr (Or.inr ⟨none_read, started, Or.inl ⟨pc', next, ?_⟩⟩)
    rintro rfl
    cases inFutex
  · exact Or.inr (Or.inr ⟨none_read, started, Or.inr ended⟩)

/-- What one step of a `wake` leads to. Other threads have no steps. -/
theorem wake_cases (taken : FreeStep ⟨word, fun _ => t⟩ a φ) (inside : Inside a)
    (other : ∀ call pc, t ≠ .wait call pc) :
    reading a = none ∧
      ((∃ bitmask, t = .wakeFetchOr bitmask ∧
        (φ.thread () = .wakeFutex bitmask ∨ ∃ status efState,
          φ.thread () = .returned status efState)) ∨
      ∃ bitmask status efState, t = .wakeFutex bitmask ∧
        φ.thread () = .returned status efState) := by
  cases taken with
  | step taken =>
    cases taken with
    | wake | wait | finish => exact absurd inside id
    | fetchOr same =>
      refine ⟨rfl, Or.inl ⟨_, same, ?_⟩⟩
      rw [set_thread_self]
      unfold afterFetchOr
      split
      · exact Or.inl rfl
      · exact Or.inr ⟨_, _, rfl⟩
    | futexWake same => exact ⟨rfl, Or.inr ⟨_, _, _, same, set_thread_self _ _ _ _⟩⟩
    | prevTime same | currentTime same | helper same | futexWait same | futexError same
    | spurious same | interrupted same | timedOut same | afterWoken same =>
      exact absurd same (other _ _)
  | waitReturned same | waitFailed same => exact absurd same (other _ _)
  | wakeReturned same => exact ⟨rfl, Or.inr ⟨_, _, _, same, set_thread_self _ _ _ _⟩⟩

/-! ### The loop of `wait` -/

variable {limit clock : Int64} {due : Int} {log : List Int64}

/-- A thread whose `wait` counts down a timeout. -/
def CountsDown (limit : Int64) (due : Int) (log : List Int64) (clock : Int64) : Thread → Prop
  | .wait call pc => call.retry = true ∧ call.shouldTimeOut = true ∧
      -- Before its first reading `prevTimeNs` means nothing: the time runs from the last reading.
      Counting limit due log clock call.timeoutNanoSeconds
        (if pc = .prevTime then clock else call.prevTimeNs)
  | _ => True

/-- All the waits so far were timed and ever shorter, and none could end before `due`. -/
structure Inv (limit : Int64) (due : Int) (σ : State) : Prop where
  descending : Descending limit σ.futexWaits
  reach : ∀ t ∈ σ.futexWaits, due ≤ deadline t σ.clock
  thread : CountsDown limit due σ.futexWaits σ.clock σ.thread

theorem wait_countsDown (bitmask : UInt32) (hasEfState : Bool) (efState : UInt32)
    {timeout : Int64} (counting : Counting limit due log clock timeout clock) :
    CountsDown limit due log clock (wait bitmask hasEfState efState timeout true) := by
  have timed : timeout ≠ 0 := fun zero => absurd counting.pos (by rw [zero]; decide)
  rcases wait_eq bitmask hasEfState efState timeout true with ⟨-, eq⟩ | ⟨direct, -⟩
  · rw [eq]
    exact ⟨rfl, decide_eq_true timed, counting⟩
  · exact absurd ⟨rfl, timed⟩ direct

theorem helperReturned_countsDown (retry : call.retry = true) (timed : call.shouldTimeOut = true)
    (counting : Counting limit due log clock call.timeoutNanoSeconds call.prevTimeNs)
    (status : Status) : CountsDown limit due log clock (call.helperReturned status) := by
  unfold WaitCall.helperReturned
  split
  · exact ⟨retry, timed, counting⟩
  · trivial

theorem readCurrentTime_countsDown (retry : call.retry = true) (timed : call.shouldTimeOut = true)
    (counting : Counting limit due log clock call.timeoutNanoSeconds call.prevTimeNs)
    {now : Int64} (later : clock ≤ now) :
    CountsDown limit due log now (call.readCurrentTime now) := by
  rcases call.readCurrentTime_cases now with eq | ⟨-, eq⟩ | ⟨left, exact_, -, remains, eq⟩ <;>
    rw [eq]
  · trivial
  · trivial
  · subst exact_
    exact ⟨retry, timed, counting.tick later remains⟩

/-- Between two readings the only step that matters is the system call, which waits for the
remaining time. -/
theorem issues_countsDown (thread : CountsDown limit due log clock (.wait call pc))
    (started : pc ≠ .prevTime) :
    Counting limit due (log ++ issues (.wait call pc)) clock call.timeoutNanoSeconds
      call.prevTimeNs := by
  obtain ⟨-, -, counting⟩ := thread
  rw [if_neg started] at counting
  cases pc with
  | futexWait => exact counting.wait
  | prevTime | currentTime | helper | asleep | woken =>
    simp only [issues, List.append_nil]
    exact counting

variable {σ τ : State}

/-- The system call that a step makes waits for the remaining time, which reaches `due`. -/
theorem Inv.issued (inv : Inv limit due σ) :
    Descending limit (σ.futexWaits ++ issues σ.thread) ∧
      ∀ t ∈ σ.futexWaits ++ issues σ.thread, due ≤ deadline t σ.clock := by
  by_cases futex : ∃ call efWord, σ.thread = .wait call (.futexWait efWord)
  · obtain ⟨call, efWord, thread⟩ := futex
    have counts := inv.thread
    rw [thread] at counts ⊢
    obtain ⟨-, -, counting⟩ := counts
    rw [if_neg nofun] at counting
    constructor
    · exact inv.descending.append counting.pos counting.le counting.below
    · intro t mem
      rcases List.mem_append.mp mem with old | new
      · exact inv.reach t old
      · rw [List.mem_singleton.mp new]
        exact counting.reaches
  · have none_issued : issues σ.thread = [] := by
      unfold issues
      split
      next call efWord thread => exact absurd ⟨call, efWord, thread⟩ futex
      · rfl
    rw [none_issued, List.append_nil]
    exact ⟨inv.descending, inv.reach⟩

theorem Step.clock_le {a : FreeAction Unit} (taken : Step σ a τ) : σ.clock ≤ τ.clock := by
  cases taken with
  | step _ _ later =>
    cases read : reading a with
    | none => simp
    | some now => simpa using later now read

/-- The invariant of the loop of `wait`. -/
theorem Step.inv {a : FreeAction Unit} (inv : Inv limit due σ) (taken : Step σ a τ) :
    Inv limit due τ := by
  have later := taken.clock_le
  obtain ⟨descending, reach⟩ := inv.issued
  cases taken with
  | @step word φ inside free read =>
    refine ⟨descending, fun t mem => Int.le_trans (reach t mem) (deadline_mono t later), ?_⟩
    have counts := inv.thread
    by_cases waits : ∃ call pc, σ.thread = .wait call pc
    · obtain ⟨call, pc, thread⟩ := waits
      rw [thread] at free counts
      simp only [thread]
      rcases wait_cases free with
        ⟨now, reads, rfl, next⟩ | ⟨now, reads, rfl, next⟩ | ⟨none_read, started, next⟩
      · -- The first reading.
        obtain ⟨retry, timed, counting⟩ := counts
        rw [if_pos rfl] at counting
        rw [next, reads]
        exact ⟨retry, timed, by simpa [issues] using counting.start (read now reads)⟩
      · have counting := issues_countsDown counts (by decide)
        rw [next, reads]
        exact readCurrentTime_countsDown counts.1 counts.2.1 counting (read now reads)
      · have counting := issues_countsDown counts started
        rw [none_read]
        rcases next with ⟨pc', next, started'⟩ | ⟨efState, status, next⟩
        · rw [next]
          exact ⟨counts.1, counts.2.1, by rw [if_neg started']; exact counting⟩
        · rw [next]
          refine helperReturned_countsDown ?_ ?_ ?_ status
          · exact counts.1
          · exact counts.2.1
          · exact counting
    · -- Not a `wait` before the step, and not one after it.
      have other : ∀ call pc, σ.thread ≠ .wait call pc := fun call pc same =>
        waits ⟨call, pc, same⟩
      obtain ⟨-, ⟨_, -, next | ⟨_, _, next⟩⟩ | ⟨_, _, _, -, next⟩⟩ :=
        wake_cases free inside other
      all_goals
        rw [next]
        trivial

end EventFlag.Timed

/-! ## The loop around `wait` -/

namespace Blocking.Timed

open EventFlag (Thread)

variable {q : Queue} {masks : Masks} {side : Side} {limit : Int64} {σ τ : State}
  {call : BlockingCall}

/-- When the call is due, by the first reading of its loop. -/
def due (limit : Int64) : List Int64 → Int
  | [] => 0
  | first :: _ => deadline limit first

/-- The loop of the call has read the clock at or after it was due. -/
def Expired (limit : Int64) (σ : State) : Prop :=
  ∃ first later now, σ.readings = first :: later ∧ now ∈ later ∧
    first.toInt + limit.toInt ≤ now.toInt

/-- Before the first reading. -/
structure Fresh (limit : Int64) (σ : State) (call : BlockingCall) : Prop where
  timeOutNanos : call.timeOutNanos = limit
  timed : call.shouldTimeOut = true
  readings : σ.readings = []
  futexWaits : σ.flag.futexWaits = []
  waits : σ.waits = []

/-- Between a reading that left some time and the next one. -/
structure Live (limit : Int64) (σ : State) (call : BlockingCall) : Prop where
  timed : call.shouldTimeOut = true
  counting : Counting limit (due limit σ.readings) σ.waits σ.flag.clock call.timeOutNanos
    call.prevTimeNanos
  exact : deadline call.timeOutNanos call.prevTimeNanos = due limit σ.readings
  started : σ.readings ≠ []
  readings : ∀ now ∈ σ.readings, now ≤ call.prevTimeNanos

/-- How many steps a call has left that waits no more. -/
inductive Ending : Phase → Thread → Nat → Prop
  | last {call : BlockingCall} : Ending (.begin call .last) .idle 4
  | fetchOr {bitmask} : Ending .notify (.wakeFetchOr bitmask) 3
  | futex {bitmask} : Ending .notify (.wakeFutex bitmask) 2
  | woken {status efState} : Ending .notify (.returned status efState) 1
  | returned {result} : Ending (.returned result) .idle 0

/-- What holds in each phase. -/
def Stage (limit : Int64) (σ : State) : Phase → Prop
  | .begin call .first | .prevTime call => Fresh limit σ call ∧ σ.flag.thread = .idle
  | .head call | .begin call .retry => Live limit σ call ∧ σ.flag.thread = .idle
  | .wait call => Live limit σ call
  | .begin _ .last | .returned _ => σ.flag.thread = .idle
  | .notify => ∃ n, Ending .notify σ.flag.thread n
  | .idle | .copy .. | .commit .. => False

/-- All the waits of both loops so far were timed and ever shorter. -/
structure Waited (limit : Int64) (σ : State) : Prop where
  flag : EventFlag.Timed.Inv limit (due limit σ.readings) σ.flag
  boot : 0 ≤ σ.flag.clock
  waits : Descending limit σ.waits

structure Inv (limit : Int64) (σ : State) : Prop extends Waited limit σ where
  stage : Stage limit σ σ.phase

theorem Fresh.not_expired (fresh : Fresh limit σ call) : ¬ Expired limit σ := by
  rintro ⟨_, _, _, readings, -⟩
  rw [fresh.readings] at readings
  cases readings

/-- Not one of the readings of a loop that goes on was late. -/
theorem Live.not_expired (live : Live limit σ call) : ¬ Expired limit σ := by
  rintro ⟨first, later, now, readings, mem, late⟩
  have exact_due := live.exact
  have before := live.readings now (by rw [readings]; exact List.mem_cons_of_mem _ mem)
  have left := live.counting.pos
  rw [readings] at exact_due
  rw [Int64.le_iff_toInt_le] at before
  rw [Int64.lt_iff_toInt_lt, Int64.toInt_zero] at left
  simp only [due, deadline] at exact_due
  omega

/-- An expired call has left its loop. -/
theorem Inv.ending (inv : Inv limit σ) (expired : Expired limit σ) :
    ∃ n, Ending σ.phase σ.flag.thread n := by
  have stage := inv.stage
  cases at_phase : σ.phase with
  | begin call a =>
    rw [at_phase] at stage
    cases a with
    | first => exact absurd expired stage.1.not_expired
    | last => exact ⟨_, by rw [stage]; exact .last⟩
    | retry => exact absurd expired stage.1.not_expired
  | prevTime call =>
    rw [at_phase] at stage
    exact absurd expired stage.1.not_expired
  | head call =>
    rw [at_phase] at stage
    exact absurd expired stage.1.not_expired
  | wait call =>
    rw [at_phase] at stage
    exact absurd expired stage.not_expired
  | notify =>
    rw [at_phase] at stage
    exact stage
  | returned result =>
    rw [at_phase] at stage
    exact ⟨_, by rw [stage]; exact .returned⟩
  | idle | copy | commit =>
    rw [at_phase] at stage
    exact absurd stage id

/-! ### The end of a call -/

theorem succeeded_ending (mask : UInt32) :
    ∃ n < 4, Ending (succeeded mask).1 (succeeded mask).2 n := by
  unfold succeeded EventFlag.wake
  split
  · exact ⟨3, by decide, .fetchOr⟩
  · exact ⟨0, by decide, .returned⟩

theorem starts_ending {phase : Phase} {t : Thread} {n : Nat} (ending : Ending phase t n) :
    starts phase = [] := by
  cases ending <;> rfl

/-- A step of `wake`. -/
theorem Ending.flag {phase : Phase} {flag flag' : EventFlag.Timed.State}
    {a : EventFlag.FreeAction Unit} {n : Nat} (ending : Ending phase flag.thread n)
    (taken : EventFlag.Timed.Step flag a flag') :
    ∃ m < n, Ending phase flag'.thread m ∧ flag'.futexWaits = flag.futexWaits := by
  generalize thread : flag.thread = t at ending
  cases taken with
  | step inside free =>
    rw [thread] at free ⊢
    cases ending with
    | last | returned | woken =>
      -- No call of the event flag is in progress.
      obtain ⟨-, ⟨_, same, -⟩ | ⟨_, _, _, same, -⟩⟩ :=
        EventFlag.Timed.wake_cases free inside nofun <;> cases same
    | fetchOr =>
      obtain ⟨-, ⟨_, -, next | ⟨_, _, next⟩⟩ | ⟨_, _, _, same, -⟩⟩ :=
        EventFlag.Timed.wake_cases free inside nofun
      · exact ⟨2, by decide, by rw [next]; exact .futex, List.append_nil _⟩
      · exact ⟨1, by decide, by rw [next]; exact .woken, List.append_nil _⟩
      · cases same
    | futex =>
      obtain ⟨-, ⟨_, same, -⟩ | ⟨_, _, _, -, next⟩⟩ :=
        EventFlag.Timed.wake_cases free inside nofun
      · cases same
      · exact ⟨1, by decide, by rw [next]; exact .woken, List.append_nil _⟩

/-- A call that waits no more comes nearer to its end with every step. -/
theorem Ending.step {a : Action} {n : Nat} (ending : Ending σ.phase σ.flag.thread n)
    (taken : Step masks side σ a τ) :
    ∃ m < n, Ending τ.phase τ.flag.thread m ∧ τ.flag.futexWaits = σ.flag.futexWaits := by
  cases taken with
  | flag taken => exact ending.flag taken
  | @attempt call a ok phase =>
    rw [phase] at ending
    generalize σ.flag.thread = t at ending
    cases ending
    cases ok with
    | true =>
      obtain ⟨m, less, next⟩ := succeeded_ending (masks.notify side)
      exact ⟨m, less, next, rfl⟩
    | false => exact ⟨0, by decide, .returned, rfl⟩
  | prevTime phase | currentTime phase | enterWait phase | waitReturned phase =>
    rw [phase] at ending
    generalize σ.flag.thread = t at ending
    cases ending
  | wakeReturned phase returned =>
    rw [phase, returned] at ending
    cases ending
    exact ⟨0, by decide, .returned, rfl⟩

theorem Ending.le {phase : Phase} {t : Thread} {n : Nat} (ending : Ending phase t n) : n ≤ 4 := by
  cases ending <;> decide

/-- A call that waits no more has returned or goes on. -/
theorem Ending.progress {n : Nat} (ending : Ending σ.phase σ.flag.thread n) :
    (∃ result, σ.phase = .returned result) ∨ ∃ a τ, Step masks side σ a τ := by
  generalize at_phase : σ.phase = phase at ending
  generalize thread : σ.flag.thread = t at ending
  cases ending with
  | last => exact Or.inr ⟨.attempt true, _, .attempt at_phase⟩
  | fetchOr =>
    have step : EventFlag.FreeStep ⟨0, fun _ => σ.flag.thread⟩ (.step (.fetchOr ())) _ :=
      .step (.fetchOr thread)
    exact Or.inr ⟨_, _, .flag (.step (by exact trivial) step nofun)⟩
  | futex =>
    have step : EventFlag.FreeStep ⟨0, fun _ => σ.flag.thread⟩ (.step (.futexWake ())) _ :=
      .step (.futexWake thread)
    exact Or.inr ⟨_, _, .flag (.step (by exact trivial) step nofun)⟩
  | woken => exact Or.inr ⟨_, _, .wakeReturned at_phase thread⟩
  | returned => exact Or.inl ⟨_, rfl⟩

theorem Ending.run {labels : List Action} {n : Nat} (ending : Ending σ.phase σ.flag.thread n)
    (run : Run (Step masks side) σ labels τ) :
    labels.length ≤ n ∧ τ.flag.futexWaits = σ.flag.futexWaits ∧
      ∃ m, Ending τ.phase τ.flag.thread m := by
  induction run generalizing n with
  | done => exact ⟨Nat.zero_le _, rfl, _, ending⟩
  | cons taken _ ih =>
    obtain ⟨m, less, next, same⟩ := ending.step taken
    obtain ⟨short, same', last⟩ := ih next
    exact ⟨Nat.succ_le_of_lt (Nat.lt_of_le_of_lt short less), same'.trans same, last⟩

/-! ### The invariant -/

theorem Fresh.to (fresh : Fresh limit σ call) {next : Phase × Thread}
    (none_starts : starts next.1 = []) :
    Fresh limit (σ.to next) call :=
  { fresh with waits := by rw [State.to, none_starts, List.append_nil]; exact fresh.waits }

theorem Live.to (live : Live limit σ call) {next : Phase × Thread}
    (none_starts : starts next.1 = []) :
    Live limit (σ.to next) call :=
  { live with counting := by rw [State.to, none_starts, List.append_nil]; exact live.counting }

/-- A step that neither reads the clock nor begins a wait. -/
theorem Waited.to (inv : Waited limit σ) {next : Phase × Thread} (none_starts : starts next.1 = [])
    (idle : ∀ call pc, next.2 ≠ .wait call pc) (stage : Stage limit (σ.to next) next.1) :
    Inv limit (σ.to next) where
  flag := by
    refine ⟨inv.flag.descending, inv.flag.reach, ?_⟩
    rw [State.to]
    generalize next.2 = t at idle
    cases t with
    | wait call pc => exact absurd rfl (idle call pc)
    | idle | wakeFetchOr | wakeFutex | returned | crashed => trivial
  boot := inv.boot
  waits := by rw [State.to, none_starts, List.append_nil]; exact inv.waits
  stage := stage

theorem Waited.ends {n : Nat} (inv : Waited limit σ) {next : Phase × Thread}
    (ending : Ending next.1 next.2 n) : Inv limit (σ.to next) := by
  refine inv.to (starts_ending ending) ?_ ?_
  · generalize next.1 = phase, next.2 = t at ending
    cases ending <;> exact nofun
  · generalize at_phase : next.1 = phase at ending
    generalize thread : next.2 = t at ending
    cases ending with
    | last | returned => exact thread
    | fetchOr => exact ⟨_, by rw [State.to, thread]; exact .fetchOr⟩
    | futex => exact ⟨_, by rw [State.to, thread]; exact .futex⟩
    | woken => exact ⟨_, by rw [State.to, thread]; exact .woken⟩

theorem Inv.attempt (inv : Inv limit σ) {a : Attempt} (ok : Bool)
    (phase : σ.phase = .begin call a) :
    Inv limit (σ.to (if ok then succeeded (masks.notify side) else (call.failed a, .idle))) := by
  have stage := inv.stage
  rw [phase] at stage
  cases ok with
  | true =>
    obtain ⟨n, -, ending⟩ := succeeded_ending (masks.notify side)
    exact inv.ends ending
  | false =>
    cases a with
    | first =>
      have goes_on : call.failed .first = .prevTime call := if_pos stage.1.timed
      rw [if_neg nofun, goes_on]
      exact inv.to rfl nofun ⟨stage.1.to rfl, rfl⟩
    | last => exact inv.ends .returned
    | retry => exact inv.to rfl nofun ⟨stage.1.to rfl, rfl⟩

theorem Inv.waitReturned (inv : Inv limit σ) (phase : σ.phase = .wait call) (mask : UInt32)
    (status : Status) (efState : UInt32) :
    Inv limit (σ.to (call.waitReturned mask status efState, .idle)) := by
  have live := inv.stage
  rw [phase] at live
  rcases waitReturned_cases call mask status efState with eq | eq | eq <;> rw [eq]
  · exact inv.ends .returned
  · exact inv.to rfl nofun ⟨live.to rfl, rfl⟩
  · exact inv.to rfl nofun ⟨live.to rfl, rfl⟩

/-- The call's own loop reads the clock. -/
theorem Waited.read (inv : Waited limit σ) {now : Int64} (later : σ.flag.clock ≤ now)
    (idle : σ.flag.thread = .idle)
    (reach : ∀ t ∈ σ.flag.futexWaits, due limit (σ.read now).readings ≤ deadline t now) :
    Waited limit (σ.read now) where
  flag := ⟨inv.flag.descending, reach, by rw [State.read, idle]; trivial⟩
  boot := Int64.le_trans inv.boot later
  waits := inv.waits

/-- The first reading fixes when the call is due. -/
theorem Inv.prevTime (inv : Inv limit σ) (pos : 0 < limit) {now : Int64}
    (phase : σ.phase = .prevTime call) (later : σ.flag.clock ≤ now) :
    Inv limit ((σ.read now).to (.head { call with prevTimeNanos := now }, .idle)) := by
  have stage := inv.stage
  rw [phase] at stage
  obtain ⟨fresh, idle⟩ := stage
  have boot := Int64.le_trans inv.boot later
  have readings : (σ.read now).readings = [now] := by rw [State.read, fresh.readings]; rfl
  have waited : Waited limit (σ.read now) :=
    inv.toWaited.read later idle (by rw [fresh.futexWaits]; exact nofun)
  have live : Live limit (σ.read now) { call with prevTimeNanos := now } := by
    have exact_due : deadline call.timeOutNanos now = due limit (σ.read now).readings := by
      rw [readings, due, fresh.timeOutNanos]
    refine ⟨fresh.timed, ?_, exact_due, by rw [readings]; exact nofun, ?_⟩
    · refine ⟨fresh.timeOutNanos ▸ pos, Int64.le_of_eq fresh.timeOutNanos, boot,
        Int64.le_refl _, Int.le_of_eq exact_due.symm, ?_⟩
      rw [State.read, fresh.waits]
      exact nofun
    · intro r mem
      rw [readings, List.mem_singleton] at mem
      exact Int64.le_of_eq mem
  exact waited.to rfl nofun ⟨live.to rfl, rfl⟩

theorem due_append {readings : List Int64} (started : readings ≠ []) (now : Int64) :
    due limit (readings ++ [now]) = due limit readings := by
  cases readings with
  | nil => exact absurd rfl started
  | cons => rfl

/-- A reading of the loop ends it or leaves some time for the next wait. -/
theorem Inv.currentTime (inv : Inv limit σ) {now : Int64} (phase : σ.phase = .head call)
    (later : σ.flag.clock ≤ now) (mask : UInt32) :
    Inv limit ((σ.read now).to (call.readCurrentTime mask now)) := by
  have stage := inv.stage
  rw [phase] at stage
  obtain ⟨live, idle⟩ := stage
  have same_due : due limit (σ.read now).readings = due limit σ.readings :=
    due_append live.started now
  have waited : Waited limit (σ.read now) := by
    refine inv.toWaited.read later idle fun t mem => ?_
    rw [same_due]
    exact Int.le_trans (inv.flag.reach t mem) (deadline_mono t later)
  unfold BlockingCall.readCurrentTime
  dsimp only
  split
  · exact waited.ends .last
  next left =>
    have counting := live.counting.tick later (Int64.not_le.mp left)
    have ordered := Int64.le_trans live.counting.read later
    have exact_due : deadline (tick call.timeOutNanos call.prevTimeNanos now) now =
        due limit (σ.read now).readings := by
      rw [deadline_tick live.counting.pos live.counting.boot ordered, live.exact, same_due]
    rw [← same_due] at counting
    -- No earlier system call could have ended before the call is due.
    have below : ∀ t ∈ σ.flag.futexWaits, tick call.timeOutNanos call.prevTimeNanos now ≤ t := by
      intro t mem
      have reach : _ ≤ deadline t now := waited.flag.reach t mem
      rw [← exact_due, deadline, deadline] at reach
      rw [Int64.le_iff_toInt_le]
      omega
    refine ⟨⟨⟨waited.flag.descending, waited.flag.reach, ?_⟩, waited.boot, ?_⟩, ?_⟩
    · exact EventFlag.Timed.wait_countsDown mask true 0 { counting with below }
    · exact inv.waits.append counting.pos counting.le counting.below
    · refine ⟨live.timed, counting.wait, exact_due, ?_, ?_⟩
      · exact List.append_ne_nil_of_right_ne_nil _ (List.cons_ne_nil _ _)
      · intro r mem
        rcases List.mem_append.mp mem with old | new
        · exact Int64.le_trans (live.readings r old) ordered
        · exact Int64.le_of_eq (List.mem_singleton.mp new)

theorem Live.flag {flag : EventFlag.Timed.State} (live : Live limit σ call)
    (later : σ.flag.clock ≤ flag.clock) : Live limit { σ with flag } call :=
  { live with
    counting := { live.counting with read := Int64.le_trans live.counting.read later } }

/-- A step inside `wait` or `wake`. -/
theorem Inv.flagStep {a : EventFlag.FreeAction Unit} {flag : EventFlag.Timed.State}
    (inv : Inv limit σ) (taken : EventFlag.Timed.Step σ.flag a flag) :
    Inv limit { σ with flag } := by
  have later := taken.clock_le
  have busy : σ.flag.thread ≠ .idle := by
    intro idle
    cases taken with
    | step inside free =>
      rw [idle] at free
      obtain ⟨-, ⟨_, same, -⟩ | ⟨_, _, _, same, -⟩⟩ :=
        EventFlag.Timed.wake_cases free inside nofun <;> cases same
  refine ⟨⟨taken.inv inv.flag, Int64.le_trans inv.boot later, inv.waits⟩, ?_⟩
  -- Only a call in `wait` or `wake` has a thread that takes steps.
  suffices kept : ∀ phase, Stage limit σ phase → Stage limit { σ with flag } phase from
    kept σ.phase inv.stage
  intro phase stage
  cases phase with
  | begin call a =>
    cases a with
    | first | retry => exact absurd stage.2 busy
    | last => exact absurd stage busy
  | prevTime | head => exact absurd stage.2 busy
  | returned => exact absurd stage busy
  | wait call => exact stage.flag later
  | notify =>
    obtain ⟨n, ending⟩ := stage
    obtain ⟨m, -, next, -⟩ := ending.flag taken
    exact ⟨m, next⟩
  | idle | copy | commit => exact stage

theorem Step.inv {a : Action} (pos : 0 < limit) (inv : Inv limit σ)
    (taken : Step masks side σ a τ) : Inv limit τ := by
  cases taken with
  | attempt phase => exact inv.attempt _ phase
  | prevTime phase later => exact inv.prevTime pos phase later
  | currentTime phase _ later => exact inv.currentTime phase later _
  | enterWait phase endless =>
    have stage := inv.stage
    rw [phase] at stage
    exact absurd (stage.1.timed.symm.trans endless) nofun
  | flag taken => exact inv.flagStep taken
  | waitReturned phase => exact inv.waitReturned phase _ _ _
  | wakeReturned => exact inv.ends .returned

theorem entered_inv {clock : Int64} {hasEvFlag : Bool} {count : UInt64}
    {data : Option (List UInt8)} (pos : 0 < limit) (boot : 0 ≤ clock)
    (start : entered q masks side clock hasEvFlag count data limit σ) : Inv limit σ := by
  obtain ⟨phase, returned, rfl⟩ := start
  have waited : Waited limit ⟨⟨clock, .idle, []⟩, phase, [], []⟩ :=
    ⟨⟨.nil limit, nofun, trivial⟩, boot, .nil limit⟩
  refine ⟨waited, ?_⟩
  have timed : decide (limit ≠ 0) = true := by
    rw [decide_eq_true_eq]
    exact fun zero => absurd pos (by rw [zero]; decide)
  rcases enter_ok returned with rfl | ⟨_, -, -, rfl⟩
  · exact rfl
  · exact ⟨⟨rfl, timed, rfl, rfl, rfl⟩, rfl⟩

/-- Under a timeout `limit > 0` every `FUTEX_WAIT_BITSET` of a `wait`, or of a blocking call, is
timed, for at most `limit`, and never for longer than the one before; so are the `wait`s of a
blocking call. Once its loop has read the clock at or after it was due, it waits no more and
returns after at most four steps. -/
theorem reachable_timed {limit clock : Int64} (pos : 0 < limit) (boot : 0 ≤ clock) :
    (∀ bitmask hasEfState efState (σ : EventFlag.Timed.State),
      Reachable (EventFlag.Timed.entered clock bitmask hasEfState efState limit)
        EventFlag.Timed.Step σ → Descending limit σ.futexWaits) ∧
    ∀ q masks side hasEvFlag count data (σ : State),
      Reachable (entered q masks side clock hasEvFlag count data limit) (Step masks side) σ →
      Descending limit σ.flag.futexWaits ∧ Descending limit σ.waits ∧
      (Expired limit σ → ∀ labels τ, Run (Step masks side) σ labels τ →
        labels.length ≤ 4 ∧ τ.flag.futexWaits = σ.flag.futexWaits ∧
        ((∃ result, τ.phase = .returned result) ∨ ∃ a υ, Step masks side τ a υ)) := by
  constructor
  · intro bitmask hasEfState efState σ reachable
    suffices inv : EventFlag.Timed.Inv limit (deadline limit clock) σ from inv.descending
    refine reachable.invariant ?_ fun _ _ _ inv taken => taken.inv inv
    rintro σ rfl
    refine ⟨.nil limit, nofun, EventFlag.Timed.wait_countsDown bitmask hasEfState efState ?_⟩
    exact ⟨pos, Int64.le_refl _, boot, Int64.le_refl _, Int.le_refl _, nofun⟩
  · intro q masks side hasEvFlag count data σ reachable
    have inv : Inv limit σ :=
      reachable.invariant (fun _ start => entered_inv pos boot start)
        fun _ _ _ inv taken => taken.inv pos inv
    refine ⟨inv.flag.descending, inv.waits, fun expired labels τ run => ?_⟩
    obtain ⟨n, ending⟩ := inv.ending expired
    obtain ⟨short, same, m, last⟩ := ending.run run
    exact ⟨Nat.le_trans short ending.le, same, last.progress⟩

/-- A `wait` of five nanoseconds that sleeps for the last four. -/
theorem reachable_timed_wait :
    ∃ σ : EventFlag.Timed.State, σ.futexWaits = [4] ∧ Descending 5 σ.futexWaits := by
  have start : Reachable (EventFlag.Timed.entered 7 1 true 0 5) EventFlag.Timed.Step
      ⟨7, EventFlag.wait 1 true 0 5 true, []⟩ := .start rfl
  let call (remaining prev : Int64) : EventFlag.WaitCall :=
    ⟨1, true, 0, remaining, true, true, prev⟩
  have prevTime : EventFlag.FreeStep ⟨0, fun _ => .wait (call 5 0) .prevTime⟩
      (.step (.prevTime () 7)) _ := .step (.prevTime rfl)
  have currentTime : EventFlag.FreeStep ⟨0, fun _ => .wait (call 5 7) .currentTime⟩
      (.step (.currentTime () 8)) _ := .step (.currentTime rfl)
  have helper : EventFlag.FreeStep ⟨0, fun _ => .wait (call 4 8) .helper⟩
      (.step (.helper ())) _ := .step (.helper rfl)
  have futexWait : EventFlag.FreeStep ⟨0, fun _ => .wait (call 4 8) (.futexWait 0)⟩
      (.step (.futexWait ())) _ := .step (.futexWait rfl)
  have left : (call 5 7).readCurrentTime 8 = .wait (call 4 8) .helper := by decide
  have unset : ((call 4 8).helper 0).2 = .wait (call 4 8) (.futexWait 0) := by decide
  rw [left] at currentTime
  rw [unset] at helper
  have first := start.next (.step (by exact trivial) prevTime (by rintro _ ⟨⟩; decide))
  have second := first.next (.step (by exact trivial) currentTime (by rintro _ ⟨⟩; decide))
  have third := second.next (.step (by exact trivial) helper nofun)
  have fourth := third.next (.step (by exact trivial) futexWait nofun)
  exact ⟨_, rfl, (reachable_timed (by decide) (by decide)).1 1 true 0 _ fourth⟩

end Blocking.Timed
end Fmq
