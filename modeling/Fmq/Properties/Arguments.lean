import Fmq.Lib.Countdown
import Fmq.Lib.Transition
import Fmq.Properties.WaitSteps

/-!
# Bad arguments of `wait`

An empty mask and a missing result are found by `waitHelper`. The loop around it looks at the clock
before, and a timeout that is over by then is reported instead, with a store to the result.
-/
namespace Fmq.EventFlag

open Transition

/-- `BAD_VALUE` is due: no bit to wait for, or nowhere to store the bits. -/
def WaitCall.Bad (call : WaitCall) : Prop := call.bitmask = 0 ∨ call.hasEfState = false

/-- A call that is under way or has returned `BAD_VALUE`, and has left `*efState` alone. -/
def Rejecting (efState : UInt32) : Thread → Prop
  | .wait call _ => call.efState = efState
  | .returned status efState' => status = BAD_VALUE ∧ efState' = efState
  | _ => False

namespace Clocked

variable {ι : Type} [DecidableEq ι] {i : ι} {clock : Nat → Int64} {efState : UInt32}
  {σ τ : State ι}

/-- In every run the call does what `Rejecting` says and does not change the word, and it returns
within three steps of its own. -/
structure Rejected (i : ι) (clock : Nat → Int64) (efState : UInt32) (σ : State ι) : Prop where
  outcome : ∀ labels τ, Run (Step i clock) σ labels τ → Rejecting efState (τ.flag.thread i)
  word : ∀ labels τ a υ, Run (Step i clock) σ labels τ → Step i clock τ a υ → a.actor = i →
    υ.flag.word = τ.flag.word
  returns : ∀ labels τ, Run (Step i clock) σ labels τ →
    (labels.filter fun a => a.actor = i).length ≤ 3 ∧
      ((∃ status efState', τ.flag.thread i = .returned status efState') ∨
        ∃ a υ, a.actor = i ∧ Step i clock τ a υ)

/-- The timeout is longer than the time between two readings of a clock that does not go back. -/
structure Outlasts (timeoutNanoSeconds prev now : Int64) : Prop where
  boot : 0 ≤ prev
  later : prev ≤ now
  longer : now.toInt - prev.toInt < timeoutNanoSeconds.toInt

/-- The steps to `BAD_VALUE`: the thread, the readings of its clock so far, and the steps that are
left. -/
inductive Pending (clock : Nat → Int64) (efState : UInt32) : Thread → Nat → Nat → Prop
  | prevTime {call} : call.Bad → call.efState = efState →
      Outlasts call.timeoutNanoSeconds (clock 0) (clock 1) →
      Pending clock efState (.wait call .prevTime) 0 3
  | currentTime {call} : call.Bad → call.efState = efState →
      Outlasts call.timeoutNanoSeconds call.prevTimeNs (clock 1) →
      Pending clock efState (.wait call .currentTime) 1 2
  | helper {call readings} : call.Bad → call.efState = efState →
      Pending clock efState (.wait call .helper) readings 1
  | returned {readings} : Pending clock efState (.returned BAD_VALUE efState) readings 0

theorem Pending.rejecting {t : Thread} {readings n : Nat}
    (pending : Pending clock efState t readings n) : Rejecting efState t := by
  cases pending with
  | prevTime _ same | currentTime _ same | helper _ same => exact same
  | returned => exact ⟨rfl, rfl⟩

theorem Pending.le {t : Thread} {readings n : Nat} (pending : Pending clock efState t readings n) :
    n ≤ 3 := by
  cases pending <;> decide

/-- `waitHelper` finds a bad argument before it touches the word. -/
theorem helper_bad {call : WaitCall} (bad : call.Bad) (word : UInt32) :
    call.helper word = (word, .returned BAD_VALUE call.efState) := by
  have final : call.helperReturned BAD_VALUE = .returned BAD_VALUE call.efState :=
    if_neg fun spurious => absurd spurious.2 (by decide)
  rw [← final]
  exact if_pos bad

/-- No difference overflows while there is some time left. -/
theorem Outlasts.readCurrentTime {call : WaitCall} {now : Int64}
    (left : Outlasts call.timeoutNanoSeconds call.prevTimeNs now) :
    ∃ rest, call.readCurrentTime now =
      .wait { call with timeoutNanoSeconds := rest, prevTimeNs := now } .helper := by
  obtain ⟨boot, later, longer⟩ := left
  have passed := Countdown.toInt_elapsed boot later
  have pos : 0 < call.timeoutNanoSeconds := by
    rw [Int64.le_iff_toInt_le] at later
    rw [Int64.lt_iff_toInt_lt, Int64.toInt_zero]
    omega
  have rest := Countdown.toInt_tick pos boot later
  have difference : (signedSub now call.prevTimeNs).bind (signedSub call.timeoutNanoSeconds) =
      some (call.timeoutNanoSeconds - (now - call.prevTimeNs)) := by
    rw [signedSub, if_pos passed, Option.bind_some, signedSub, if_pos (by rw [passed]; exact rest)]
  have remains : ¬ call.timeoutNanoSeconds - (now - call.prevTimeNs) ≤ 0 := by
    unfold Countdown.tick at rest
    rw [Int64.le_iff_toInt_le, rest, Int64.toInt_zero]
    omega
  refine ⟨call.timeoutNanoSeconds - (now - call.prevTimeNs), ?_⟩
  unfold WaitCall.readCurrentTime
  rw [difference]
  exact if_neg remains

/-- A timeout that is over ends the call, or its difference overflows. -/
theorem readCurrentTime_expired (call : WaitCall) {now : Int64}
    (expired : ¬ now.toInt - call.prevTimeNs.toInt < call.timeoutNanoSeconds.toInt) :
    call.readCurrentTime now = .returned (-ETIMEDOUT) 0 ∨ call.readCurrentTime now = .crashed := by
  rcases call.readCurrentTime_cases now with eq | ⟨-, eq⟩ | ⟨rest, -, difference, remains, eq⟩
  · exact Or.inr eq
  · exact Or.inl eq
  · rw [Int64.lt_iff_toInt_lt, Int64.toInt_zero] at remains
    omega

/-- A step of the call itself. -/
theorem Pending.own {call : WaitCall} {pc : WaitPc} {readings n : Nat} {reading : Option Int64}
    {word word' : UInt32} {t : Thread} (pending : Pending clock efState (.wait call pc) readings n)
    (step : WaitStep call word pc reading word' t)
    (read : ∀ now, reading = some now → now = clock readings) :
    word' = word ∧
      ∃ m, m < n ∧ Pending clock efState t (readings + reading.toList.length) m := by
  cases pending with
  | prevTime bad same left =>
    cases step with
    | prevTime =>
      cases read _ rfl
      exact ⟨rfl, 2, by decide, .currentTime bad same left⟩
    | goesOn inFutex | failed inFutex => cases inFutex
  | currentTime bad same left =>
    cases step with
    | currentTime =>
      cases read _ rfl
      obtain ⟨rest, goes_on⟩ := left.readCurrentTime
      rw [goes_on]
      exact ⟨rfl, 1, by decide, .helper bad same⟩
    | goesOn inFutex | failed inFutex => cases inFutex
  | helper bad same =>
    cases step with
    | helper =>
      rw [helper_bad bad, same]
      exact ⟨rfl, 0, by decide, .returned⟩
    | goesOn inFutex | failed inFutex => cases inFutex

/-- Other threads have no influence on a call that does not sleep. -/
theorem Pending.others {a : FreeAction ι} {φ : EventFlag.State ι} {readings n : Nat}
    (pending : Pending clock efState (σ.flag.thread i) readings n) (taken : FreeStep σ.flag a φ)
    (other : a.actor ≠ i) : Pending clock efState (φ.thread i) readings n := by
  rcases taken.others (Ne.symm other) with same | ⟨call, asleep, -⟩
  · rwa [same]
  · rw [asleep] at pending
    cases pending

theorem Pending.step {a : FreeAction ι} {n : Nat}
    (pending : Pending clock efState (σ.flag.thread i) σ.readings n)
    (taken : Step i clock σ a τ) : ∃ m, Pending clock efState (τ.flag.thread i) τ.readings m ∧
      m ≤ n ∧ (a.actor = i → m < n ∧ τ.flag.word = σ.flag.word) := by
  cases taken with
  | other elsewhere taken =>
    exact ⟨n, pending.others taken elsewhere, Nat.le_refl n, fun own => absurd own elsewhere⟩
  | own actor at_wait taken read =>
    subst actor
    rw [at_wait] at pending
    obtain ⟨word, m, less, next⟩ := pending.own (taken.waitStep_self at_wait) read
    exact ⟨m, next, Nat.le_of_lt less, fun _ => ⟨less, word⟩⟩

theorem Pending.run {labels : List (FreeAction ι)} {n : Nat}
    (pending : Pending clock efState (σ.flag.thread i) σ.readings n)
    (run : Run (Step i clock) σ labels τ) :
    ∃ m, Pending clock efState (τ.flag.thread i) τ.readings m ∧
      (labels.filter fun a => a.actor = i).length + m ≤ n := by
  induction run generalizing n with
  | done => exact ⟨n, pending, Nat.le_of_eq (Nat.zero_add n)⟩
  | @cons _ a _ labels _ taken _ ih =>
    obtain ⟨k, next, le, own⟩ := pending.step taken
    obtain ⟨m, last, short⟩ := ih next
    refine ⟨m, last, ?_⟩
    by_cases actor : a.actor = i
    · have less := (own actor).1
      rw [List.filter_cons_of_pos (by simpa using actor), List.length_cons]
      omega
    · rw [List.filter_cons_of_neg (by simpa using actor)]
      omega

/-- The call can take its next step until it has returned. -/
theorem Pending.progress {n : Nat}
    (pending : Pending clock efState (σ.flag.thread i) σ.readings n) :
    (∃ status efState', σ.flag.thread i = .returned status efState') ∨
      ∃ a υ, a.actor = i ∧ Step i clock σ a υ := by
  generalize at_i : σ.flag.thread i = t, count : σ.readings = readings at pending
  cases pending with
  | prevTime =>
    refine Or.inr ⟨.step (.prevTime i (clock 0)), _, rfl, .own rfl at_i (.step (.prevTime at_i)) ?_⟩
    rintro _ ⟨⟩
    rw [count]
  | currentTime =>
    refine Or.inr
      ⟨.step (.currentTime i (clock 1)), _, rfl, .own rfl at_i (.step (.currentTime at_i)) ?_⟩
    rintro _ ⟨⟩
    rw [count]
  | helper =>
    exact Or.inr ⟨.step (.helper i), _, rfl, .own rfl at_i (.step (.helper at_i)) nofun⟩
  | returned => exact Or.inl ⟨_, _, rfl⟩

theorem Pending.rejected {n : Nat}
    (pending : Pending clock efState (σ.flag.thread i) σ.readings n) :
    Rejected i clock efState σ where
  outcome labels τ run := by
    obtain ⟨m, last, -⟩ := pending.run run
    exact last.rejecting
  word labels τ a υ run taken own := by
    obtain ⟨m, last, -⟩ := pending.run run
    obtain ⟨_, -, -, kept⟩ := last.step taken
    exact (kept own).2
  returns labels τ run := by
    obtain ⟨m, last, short⟩ := pending.run run
    have few := pending.le
    exact ⟨by omega, last.progress⟩

/-! ## The loop around `waitHelper` -/

variable {bitmask : UInt32} {hasEfState retry : Bool} {timeoutNanoSeconds : Int64}

/-- A timeout that is over at the second reading is reported in place of the bad argument. -/
theorem expired_not_rejected {call : WaitCall} (at_i : σ.flag.thread i = .wait call .prevTime)
    (count : σ.readings = 0)
    (expired : ¬ (clock 1).toInt - (clock 0).toInt < call.timeoutNanoSeconds.toInt) :
    ¬ Rejected i clock efState σ := by
  intro rejected
  let first : State ι := ⟨σ.flag.set i σ.flag.word (call.readPrevTime (clock 0)), 1⟩
  have at_first : first.flag.thread i = call.readPrevTime (clock 0) := set_thread_self _ _ _ _
  have prevTime : Step i clock σ (.step (.prevTime i (clock 0))) first := by
    have step : Step i clock σ (.step (.prevTime i (clock 0))) _ :=
      .own rfl at_i (.step (.prevTime at_i)) (by rintro _ ⟨⟩; rw [count])
    rw [count] at step
    exact step
  have currentTime : Step i clock first (.step (.currentTime i (clock 1))) _ :=
    .own rfl at_first (.step (.currentTime at_first)) (by rintro _ ⟨⟩; rfl)
  have outcome := rejected.outcome _ _ (.cons prevTime (.cons currentTime (.done _)))
  rw [set_thread_self] at outcome
  rcases readCurrentTime_expired { call with prevTimeNs := clock 0 } expired with
    eq | eq <;> rw [eq] at outcome
  · exact absurd outcome.1 (by decide)
  · exact outcome

/-- A call with a bad argument is rejected if and only if it does not retry, or has no timeout, or
its timeout is longer than the time between the first two readings of the clock. -/
theorem rejected_iff (bad : bitmask = 0 ∨ hasEfState = false)
    (later : ∀ k, clock k ≤ clock (k + 1)) (boot : 0 ≤ clock 0)
    (start : entered i bitmask hasEfState efState timeoutNanoSeconds retry σ) :
    Rejected i clock efState σ ↔ retry = false ∨ timeoutNanoSeconds = 0 ∨
      (clock 1).toInt - (clock 0).toInt < timeoutNanoSeconds.toInt := by
  obtain ⟨at_i, count⟩ := start
  rcases wait_eq bitmask hasEfState efState timeoutNanoSeconds retry with
    ⟨⟨retries, timed⟩, eq⟩ | ⟨direct, eq⟩
  · rw [or_iff_right (Bool.eq_false_iff.not.mpr (not_not.mpr retries)), or_iff_right timed]
    constructor
    · intro rejected
      by_contra expired
      exact expired_not_rejected (at_i.trans eq) count expired rejected
    · intro longer
      have pending : Pending clock efState (σ.flag.thread i) σ.readings 3 := by
        rw [at_i, eq, count]
        exact .prevTime bad rfl ⟨boot, later 0, longer⟩
      exact pending.rejected
  · have pending : Pending clock efState (σ.flag.thread i) σ.readings 1 := by
      rw [at_i, eq]
      exact .helper bad rfl
    refine iff_of_true pending.rejected ?_
    rw [not_and_or, Bool.not_eq_true, not_not] at direct
    exact direct.imp_right Or.inl

/-- An empty mask, with a timeout of five nanoseconds of which four have passed. -/
theorem rejected_iff_four :
    Rejected () (fun k => if k = 0 then 7 else 11) 9
      (⟨⟨3, fun _ => wait 0 true 9 5 true⟩, 0⟩ : State Unit) := by
  have start : entered () 0 true 9 5 true (⟨⟨3, fun _ => wait 0 true 9 5 true⟩, 0⟩ : State Unit) :=
    ⟨rfl, rfl⟩
  have later : ∀ k : Nat, (if k = 0 then 7 else 11 : Int64) ≤ if k + 1 = 0 then 7 else 11 := by
    intro k
    cases k with
    | zero => decide
    | succ k => exact Int64.le_refl 11
  refine (rejected_iff (Or.inl rfl) later (by decide) start).mpr (Or.inr (Or.inr ?_))
  decide

/-- An empty mask, with a timeout that is over from the start. -/
theorem not_rejected : ¬ ∀ (clock : Nat → Int64) (bitmask : UInt32) (hasEfState : Bool)
    (efState : UInt32) (timeoutNanoSeconds : Int64) (retry : Bool) (σ : State Unit),
    bitmask = 0 ∨ hasEfState = false → (∀ k, clock k ≤ clock (k + 1)) → 0 ≤ clock 0 →
    entered () bitmask hasEfState efState timeoutNanoSeconds retry σ →
    Rejected () clock efState σ := by
  intro all
  let σ : State Unit := ⟨⟨3, fun _ => wait 0 true 9 (-1) true⟩, 0⟩
  have at_wait : σ.flag.thread () = .wait (called 0 true 9 (-1) true) .prevTime := rfl
  have rejected := all (fun _ => 7) 0 true 9 (-1) true σ (Or.inl rfl) (fun _ => Int64.le_refl _)
    (by decide) ⟨rfl, rfl⟩
  exact expired_not_rejected at_wait rfl (by decide) rejected

end Clocked
end Fmq.EventFlag
