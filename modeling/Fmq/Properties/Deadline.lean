import Mathlib.Algebra.Group.Int.Defs
import Fmq.Lib.TwoDigits
import Fmq.Model.Deadline
import Fmq.Properties.WaitSteps

/-!
# Well-formed deadlines

The seconds and the nanoseconds of a deadline are computed apart, with the quotient and the
remainder that round towards zero. The nanoseconds that are too many are carried; a remainder that
is negative is not borrowed for.
-/
namespace Fmq

open Transition

namespace Timespec

variable (t : Timespec)

def digits : TwoDigits := ⟨t.tv_sec.toInt, t.tv_nsec.toInt⟩

/-- The time in nanoseconds. -/
def nanos : Int := t.digits.value 1000000000

/-- A time that the clock returns. -/
structure Current : Prop where
  sec : 0 ≤ t.tv_sec
  nsec : t.digits.Normal 1000000000

/-- A well-formed time, `nanoSeconds` after `t`. -/
structure Reaches (nanoSeconds : Int64) (deadline : Timespec) : Prop where
  normal : deadline.digits.Normal 1000000000
  nanos : deadline.nanos = t.nanos + nanoSeconds.toInt

/-- The time `nanoSeconds` after `t` has a `tv_sec`. -/
def InRange (nanoSeconds : Int64) : Prop := t.nanos + nanoSeconds.toInt < 2 ^ 63 * 1000000000

end Timespec

namespace EventFlag

variable {now : Timespec} {n : Int64}

/-! ## The sum -/

theorem toInt_kNanosPerSecond : kNanosPerSecond.toInt = 1000000000 := by decide

theorem toInt_div_kNanosPerSecond (n : Int64) :
    (n / kNanosPerSecond).toInt = n.toInt.tdiv 1000000000 := by
  rw [Int64.toInt_div_of_ne_right _ _ (by decide), toInt_kNanosPerSecond]

theorem toInt_mod_kNanosPerSecond (n : Int64) :
    (n % kNanosPerSecond).toInt = n.toInt.tmod 1000000000 := by
  rw [Int64.toInt_mod, toInt_kNanosPerSecond]

/-- Nothing overflows as long as the sum itself is in range. -/
theorem digits_addNanosecondsToCurrentTime (current : now.Current) (inRange : now.InRange n) :
    (addNanosecondsToCurrentTime n now).digits = now.digits.add 1000000000 n.toInt := by
  obtain ⟨sec, ⟨nonneg, below⟩⟩ := current
  unfold Timespec.InRange Timespec.nanos TwoDigits.value Timespec.digits at inRange
  unfold Timespec.digits at nonneg below
  rw [Int64.le_iff_toInt_le, Int64.toInt_zero] at sec
  dsimp only at nonneg below inRange
  have secLarge := now.tv_sec.toInt_lt
  have small := n.toInt_lt
  have large := n.le_toInt
  have parts := Int.tdiv_mul_add_tmod n.toInt 1000000000
  have above := Int.lt_tmod_of_pos n.toInt (show (0 : Int) < 1000000000 by decide)
  have beneath := Int.tmod_lt_of_pos n.toInt (show (0 : Int) < 1000000000 by decide)
  -- A negative remainder is one of a negative number, which takes seconds away.
  have sign : 0 ≤ n.toInt → 0 ≤ n.toInt.tmod 1000000000 := Int.tmod_nonneg 1000000000
  have hi : (now.tv_sec + n / kNanosPerSecond).toInt =
      now.tv_sec.toInt + n.toInt.tdiv 1000000000 := by
    rw [Int64.toInt_add, toInt_div_kNanosPerSecond]
    exact Int.bmod_eq_of_le (by omega) (by omega)
  have lo : (now.tv_nsec + n % kNanosPerSecond).toInt =
      now.tv_nsec.toInt + n.toInt.tmod 1000000000 := by
    rw [Int64.toInt_add, toInt_mod_kNanosPerSecond]
    exact Int.bmod_eq_of_le (by omega) (by omega)
  unfold addNanosecondsToCurrentTime TwoDigits.add TwoDigits.carry Timespec.digits
  simp only [ge_iff_le, Int64.le_iff_toInt_le, toInt_kNanosPerSecond, lo]
  split
  next carries =>
    rw [TwoDigits.mk.injEq, Int64.toInt_add, hi, Int64.toInt_sub, lo, toInt_kNanosPerSecond,
      Int64.toInt_one]
    exact ⟨Int.bmod_eq_of_le (by omega) (by omega), Int.bmod_eq_of_le (by omega) (by omega)⟩
  next =>
    rw [TwoDigits.mk.injEq]
    exact ⟨hi, lo⟩

/-- The sum is always the right one. It is well-formed if the current time has the nanoseconds that
the remainder takes away. -/
theorem reaches_iff (current : now.Current) (inRange : now.InRange n) :
    now.Reaches n (addNanosecondsToCurrentTime n now) ↔
      -n.toInt.tmod 1000000000 ≤ now.tv_nsec.toInt := by
  have digits := digits_addNanosecondsToCurrentTime current inRange
  have normal := TwoDigits.normal_add_iff (n := n.toInt) (by decide) current.nsec
  rw [← digits] at normal
  refine ⟨fun reaches => normal.mp reaches.normal, fun enough => ⟨normal.mpr enough, ?_⟩⟩
  rw [Timespec.nanos, digits, TwoDigits.value_add]
  rfl

/-- The milliseconds since the start are a current time too. -/
theorem current_currentTimeOfTicks {cnt : Int64} (nonneg : 0 ≤ cnt) :
    (currentTimeOfTicks cnt).Current := by
  rw [Int64.le_iff_toInt_le, Int64.toInt_zero] at nonneg
  have limit := cnt.toInt_lt
  have parts := Int.tdiv_mul_add_tmod cnt.toInt 1000
  have remainder := Int.tmod_nonneg 1000 nonneg
  have below := Int.tmod_lt_of_pos cnt.toInt (show (0 : Int) < 1000 by decide)
  have thousand : (1000 : Int64).toInt = 1000 := by decide
  have million : (1000000 : Int64).toInt = 1000000 := by decide
  have sec : (cnt / 1000).toInt = cnt.toInt.tdiv 1000 := by
    rw [Int64.toInt_div_of_ne_right _ _ (by decide), thousand]
  have whole : (cnt / 1000 * 1000).toInt = cnt.toInt.tdiv 1000 * 1000 := by
    rw [Int64.toInt_mul, sec, thousand]
    exact Int.bmod_eq_of_le (by omega) (by omega)
  have rest : (cnt - cnt / 1000 * 1000).toInt = cnt.toInt.tmod 1000 := by
    rw [Int64.toInt_sub, whole, Int.bmod_eq_of_le (by omega) (by omega)]
    omega
  have nsec : ((cnt - cnt / 1000 * 1000) * 1000000).toInt = cnt.toInt.tmod 1000 * 1000000 := by
    rw [Int64.toInt_mul, rest, million]
    exact Int.bmod_eq_of_le (by omega) (by omega)
  constructor
  · rw [currentTimeOfTicks, Int64.le_iff_toInt_le, sec, Int64.toInt_zero]
    omega
  · rw [currentTimeOfTicks, Timespec.digits, nsec]
    constructor <;> dsimp only <;> omega

/-! ## The timeouts that `waitHelper` gets -/

/-- The timeout is not over, and 0 if there was none. -/
structure Left (call : WaitCall) : Prop where
  nonneg : 0 ≤ call.timeoutNanoSeconds
  untimed : call.shouldTimeOut = false → call.timeoutNanoSeconds = 0

/-- With `retry`, a `wait` reads the clock before `waitHelper` gets its timeout, and goes there only
with some of it left. -/
inductive RetryInv (call : WaitCall) : WaitPc → Prop
  | prevTime : call.shouldTimeOut = true → RetryInv call .prevTime
  | currentTime : call.shouldTimeOut = true → RetryInv call .currentTime
  | helper : Left call → RetryInv call .helper
  | futex {pc} : pc.InFutex → Left call → RetryInv call pc

variable {call call' : WaitCall} {pc pc' : WaitPc}

theorem RetryInv.left (inv : RetryInv call pc) (started : pc ≠ .prevTime)
    (read : pc ≠ .currentTime) : Left call := by
  cases inv with
  | prevTime => exact absurd rfl started
  | currentTime => exact absurd rfl read
  | helper left | futex _ left => exact left

theorem wait_retryInv {bitmask : UInt32} {hasEfState : Bool} {efState : UInt32}
    {timeoutNanoSeconds : Int64} {retry : Bool}
    (entered : wait bitmask hasEfState efState timeoutNanoSeconds retry = .wait call pc)
    (retries : call.retry = true) : RetryInv call pc := by
  rcases wait_eq bitmask hasEfState efState timeoutNanoSeconds retry with
    ⟨⟨-, timed⟩, eq⟩ | ⟨direct, eq⟩ <;> cases eq.symm.trans entered
  · exact .prevTime (decide_eq_true timed)
  · -- With `retry`, the call goes to `waitHelper` at once only if the timeout is 0.
    have zero : timeoutNanoSeconds = 0 := not_not.mp fun timed => direct ⟨retries, timed⟩
    exact .helper ⟨Int64.le_of_eq zero.symm, fun _ => zero⟩

theorem Left.helperReturned (left : Left call) {status : Status}
    (again : call.helperReturned status = .wait call' pc') : RetryInv call' pc' := by
  unfold WaitCall.helperReturned at again
  split at again
  · split at again
    next timed =>
      cases again
      exact .currentTime timed
    next =>
      cases again
      exact .helper left
  · cases again

theorem RetryInv.step (inv : RetryInv call pc) {word word' : UInt32} {reading : Option Int64}
    (step : WaitStep call word pc reading word' (.wait call' pc')) : RetryInv call' pc' := by
  rcases step.cases with ⟨now, -, rfl, eq⟩ | ⟨now, -, rfl, eq⟩ |
    ⟨-, started, read, ⟨pc'', eq, inFutex⟩ | ⟨efState, status, eq⟩⟩
  · cases eq
    cases inv with
    | prevTime timed => exact .currentTime timed
    | futex inFutex => cases inFutex
  · obtain ⟨left, rfl, same⟩ := readCurrentTime_call eq.symm
    cases inv with
    | currentTime timed =>
      refine .helper ⟨Int64.le_of_lt left, fun untimed => ?_⟩
      rw [same] at untimed
      cases timed.symm.trans untimed
    | futex inFutex => cases inFutex
  · cases eq
    exact .futex inFutex (inv.left started read)
  · have left := inv.left started read
    have left' : Left { call with efState } := ⟨left.nonneg, left.untimed⟩
    exact left'.helperReturned eq.symm

variable {ι : Type} [DecidableEq ι] {σ : State ι} {i : ι}

/-- In no run does a `wait` with `retry` give a negative timeout to `waitHelper`. -/
theorem reachable_retry_nonneg (reachable : Reachable initial FreeStep σ)
    (handed : σ.thread i = .wait call .helper) (retries : call.retry = true) :
    0 ≤ call.timeoutNanoSeconds := by
  suffices inv : call.retry = true → RetryInv call .helper from
    ((inv retries).left nofun nofun).nonneg
  refine reachable_wait (fun _ _ _ _ _ call pc entered retries => wait_retryInv entered retries)
    (fun call pc _ _ _ call' pc' inv step retries => ?_) reachable handed
  exact (inv (step.parameters.2.2.1 ▸ retries)).step step

/-- Whatever timeout a `wait` gives to `waitHelper`, the deadline is a well-formed time and the
right one if and only if the call retries, or the timeout is positive, or the current time has the
nanoseconds that a negative one takes away. -/
theorem reachable_reaches_iff (reachable : Reachable initial FreeStep σ)
    (handed : σ.thread i = .wait call .helper) (timed : call.timeoutNanoSeconds ≠ 0)
    (current : now.Current) (inRange : now.InRange call.timeoutNanoSeconds) :
    (∃ deadline, call.waitTimeAbsolute now = some deadline ∧
        now.Reaches call.timeoutNanoSeconds deadline) ↔
      call.retry = true ∨ 0 < call.timeoutNanoSeconds ∨
        -call.timeoutNanoSeconds.toInt.tmod 1000000000 ≤ now.tv_nsec.toInt := by
  have deadline : call.waitTimeAbsolute now =
      some (addNanosecondsToCurrentTime call.timeoutNanoSeconds now) := if_pos timed
  have enough (nonneg : 0 ≤ call.timeoutNanoSeconds) :
      -call.timeoutNanoSeconds.toInt.tmod 1000000000 ≤ now.tv_nsec.toInt := by
    rw [Int64.le_iff_toInt_le, Int64.toInt_zero] at nonneg
    exact TwoDigits.tmod_nonneg_of_nonneg nonneg current.nsec
  simp only [deadline, Option.some.injEq, exists_eq_left', reaches_iff current inRange]
  constructor
  · exact fun remainder => Or.inr (Or.inr remainder)
  · rintro (retries | positive | remainder)
    · exact enough (reachable_retry_nonneg reachable handed retries)
    · exact enough (Int64.le_of_lt positive)
    · exact remainder

/-- A `wait` without `retry`, just called. -/
theorem reachable_called (timeoutNanoSeconds : Int64) : Reachable initial FreeStep
    (State.set ⟨0, fun _ => .idle⟩ () 0 (wait 1 true 0 timeoutNanoSeconds false)) := by
  have start : Reachable initial FreeStep (⟨0, fun _ => .idle⟩ : State Unit) := .start fun _ => rfl
  have called : FreeStep (⟨0, fun _ => .idle⟩ : State Unit)
      (.step (.wait () 1 true 0 timeoutNanoSeconds false)) _ := .step (.wait rfl)
  exact start.next called

/-- Half a second before a full one, a second and a half are added. -/
theorem reachable_reaches_iff_carry :
    ∃ call : WaitCall, call.timeoutNanoSeconds = 1500000000 ∧
      ∃ deadline, call.waitTimeAbsolute ⟨5, 500000000⟩ = some deadline ∧
        Timespec.Reaches ⟨5, 500000000⟩ call.timeoutNanoSeconds deadline := by
  let call : WaitCall := ⟨1, true, 0, 1500000000, false, true, 0⟩
  have handed : (State.set ⟨0, fun _ => .idle⟩ () 0 (wait 1 true 0 1500000000 false)).thread () =
      .wait call .helper := rfl
  refine ⟨call, rfl, (reachable_reaches_iff (reachable_called _) handed (by decide) ?_ ?_).mpr ?_⟩
  · exact ⟨by decide, by decide, by decide⟩
  · unfold Timespec.InRange
    decide
  · exact Or.inr (Or.inl (by decide))

/-- A nanosecond is taken from a full second: `tv_nsec` is `-1`. -/
theorem not_reaches : ¬ ∀ (σ : State Unit) (call : WaitCall) (now : Timespec),
    Reachable initial FreeStep σ → σ.thread () = .wait call .helper →
    call.timeoutNanoSeconds ≠ 0 → now.Current → now.InRange call.timeoutNanoSeconds →
    ∃ deadline, call.waitTimeAbsolute now = some deadline ∧
      now.Reaches call.timeoutNanoSeconds deadline := by
  intro all
  have current : Timespec.Current ⟨5, 0⟩ := ⟨by decide, by decide, by decide⟩
  have inRange : Timespec.InRange ⟨5, 0⟩ (-1) := by
    unfold Timespec.InRange
    decide
  obtain ⟨deadline, computed, reaches⟩ :=
    all _ ⟨1, true, 0, -1, false, true, 0⟩ ⟨5, 0⟩ (reachable_called (-1)) rfl (by decide) current
      inRange
  cases computed
  exact absurd reaches.normal.nonneg (by decide)

end EventFlag
end Fmq
