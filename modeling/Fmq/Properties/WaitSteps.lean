import Fmq.Model.Clocked
import Fmq.Properties.Sleepers

/-!
# The steps of a `wait`

What one step does to the thread that is in a `wait`, whatever the arguments of the call are.
-/
namespace Fmq.EventFlag

variable {ι : Type} [DecidableEq ι] {σ τ : State ι} {call : WaitCall} {pc : WaitPc}

/-- The call is between the two fetch-ands of `waitHelper`. -/
inductive WaitPc.InFutex : WaitPc → Prop
  | futexWait {efWord} : InFutex (.futexWait efWord)
  | asleep : InFutex .asleep
  | woken : InFutex .woken

/-- The steps of a `wait` by the place where it is: the reading of the clock, the word afterwards
and the thread afterwards. -/
inductive WaitStep (call : WaitCall) (word : UInt32) :
    WaitPc → Option Int64 → UInt32 → Thread → Prop
  | prevTime {now} : WaitStep call word .prevTime (some now) word (call.readPrevTime now)
  | currentTime {now} :
      WaitStep call word .currentTime (some now) word (call.readCurrentTime now)
  | helper : WaitStep call word .helper none (call.helper word).1 (call.helper word).2
  | goesOn {pc pc'} : pc.InFutex → pc'.InFutex → WaitStep call word pc none word (.wait call pc')
  | failed {pc errno} : pc.InFutex → 0 < errno →
      WaitStep call word pc none word (call.futexFailed errno)
  | afterWoken : WaitStep call word .woken none (call.afterWoken word).1 (call.afterWoken word).2

theorem inFutex_of_pending (pending : (∃ efWord, pc = .futexWait efWord) ∨ pc = .asleep) :
    pc.InFutex := by
  rcases pending with ⟨_, rfl⟩ | rfl
  · exact .futexWait
  · exact .asleep

/-- A thread that is in a `wait` moves by a step of that, and changes nothing but itself and the
word. -/
theorem FreeStep.waitStep {a : FreeAction ι} (taken : FreeStep σ a τ)
    (at_wait : σ.thread a.actor = .wait call pc) :
    ∃ word t, τ = σ.set a.actor word t ∧ WaitStep call σ.word pc (clockReading a) word t := by
  cases taken with
  | step taken =>
    cases taken with
    | wake at_i | wait at_i | fetchOr at_i | futexWake at_i | finish at_i =>
      cases at_i.symm.trans at_wait
    | prevTime at_i =>
      cases at_i.symm.trans at_wait
      exact ⟨_, _, rfl, .prevTime⟩
    | currentTime at_i =>
      cases at_i.symm.trans at_wait
      exact ⟨_, _, rfl, .currentTime⟩
    | helper at_i =>
      cases at_i.symm.trans at_wait
      exact ⟨_, _, rfl, .helper⟩
    | futexWait at_i =>
      cases at_i.symm.trans at_wait
      refine ⟨_, _, rfl, ?_⟩
      split
      · exact .goesOn .futexWait .asleep
      · exact .failed .futexWait (by decide)
    | futexError at_i failed =>
      cases at_i.symm.trans at_wait
      exact ⟨_, _, rfl, .failed .futexWait failed⟩
    | spurious at_i =>
      cases at_i.symm.trans at_wait
      exact ⟨_, _, rfl, .goesOn .asleep .woken⟩
    | interrupted at_i | timedOut at_i =>
      cases at_i.symm.trans at_wait
      exact ⟨_, _, rfl, .failed .asleep (by decide)⟩
    | afterWoken at_i =>
      cases at_i.symm.trans at_wait
      exact ⟨_, _, rfl, .afterWoken⟩
  | waitReturned at_i pending =>
    cases at_i.symm.trans at_wait
    exact ⟨_, _, rfl, .goesOn (inFutex_of_pending pending) .woken⟩
  | waitFailed at_i pending failed =>
    cases at_i.symm.trans at_wait
    exact ⟨_, _, rfl, .failed (inFutex_of_pending pending) failed⟩
  | wakeReturned at_i => cases at_i.symm.trans at_wait

theorem FreeStep.waitStep_self {a : FreeAction ι} (taken : FreeStep σ a τ)
    (at_wait : σ.thread a.actor = .wait call pc) :
    WaitStep call σ.word pc (clockReading a) τ.word (τ.thread a.actor) := by
  obtain ⟨word, t, rfl, step⟩ := taken.waitStep at_wait
  rw [set_thread_self]
  exact step

/-- `waitHelper` up to the system call, or to its end. -/
theorem helper_cases (call : WaitCall) (word : UInt32) :
    (∃ pc, (call.helper word).2 = .wait call pc ∧ pc.InFutex) ∨
      ∃ efState status, (call.helper word).2 = { call with efState }.helperReturned status := by
  unfold WaitCall.helper
  dsimp only
  split
  · exact Or.inr ⟨call.efState, _, rfl⟩
  split
  · exact Or.inr ⟨_, _, rfl⟩
  · exact Or.inl ⟨_, rfl, .futexWait⟩

/-- A step reads the clock, or stays inside `waitHelper`, or ends it. -/
theorem WaitStep.cases {reading : Option Int64} {word word' : UInt32} {t : Thread}
    (step : WaitStep call word pc reading word' t) :
    (∃ now, reading = some now ∧ pc = .prevTime ∧ t = call.readPrevTime now) ∨
    (∃ now, reading = some now ∧ pc = .currentTime ∧ t = call.readCurrentTime now) ∨
    (reading = none ∧ pc ≠ .prevTime ∧ pc ≠ .currentTime ∧
      ((∃ pc', t = .wait call pc' ∧ pc'.InFutex) ∨
        ∃ efState status, t = { call with efState }.helperReturned status)) := by
  cases step with
  | prevTime => exact Or.inl ⟨_, rfl, rfl, rfl⟩
  | currentTime => exact Or.inr (Or.inl ⟨_, rfl, rfl, rfl⟩)
  | helper => exact Or.inr (Or.inr ⟨rfl, nofun, nofun, helper_cases call word⟩)
  | goesOn before after =>
    refine Or.inr (Or.inr ⟨rfl, ?_, ?_, Or.inl ⟨_, rfl, after⟩⟩) <;> rintro rfl <;> cases before
  | failed before =>
    refine Or.inr (Or.inr ⟨rfl, ?_, ?_, Or.inr ⟨_, _, rfl⟩⟩) <;> rintro rfl <;> cases before
  | afterWoken => exact Or.inr (Or.inr ⟨rfl, nofun, nofun, Or.inr ⟨_, _, rfl⟩⟩)

/-- The loop goes on with the rest of the timeout, if there is some left. -/
theorem readCurrentTime_call {call' : WaitCall} {pc' : WaitPc} {now : Int64}
    (again : call.readCurrentTime now = .wait call' pc') :
    0 < call'.timeoutNanoSeconds ∧ pc' = .helper ∧
      call' = { call with timeoutNanoSeconds := call'.timeoutNanoSeconds, prevTimeNs := now } := by
  rcases call.readCurrentTime_cases now with eq | ⟨-, eq⟩ | ⟨left, -, -, remains, eq⟩ <;>
    rw [eq] at again <;> cases again
  exact ⟨remains, rfl, rfl⟩

theorem helperReturned_call {call' : WaitCall} {pc' : WaitPc} {status : Status}
    (again : call.helperReturned status = .wait call' pc') : call' = call := by
  unfold WaitCall.helperReturned at again
  split at again
  · split at again <;> cases again <;> rfl
  · cases again

/-- A call keeps its parameters, the timeout apart. -/
theorem WaitStep.parameters {reading : Option Int64} {word word' : UInt32} {call' : WaitCall}
    {pc' : WaitPc} (step : WaitStep call word pc reading word' (.wait call' pc')) :
    call'.bitmask = call.bitmask ∧ call'.hasEfState = call.hasEfState ∧
      call'.retry = call.retry ∧ call'.shouldTimeOut = call.shouldTimeOut := by
  rcases step.cases with ⟨now, -, -, eq⟩ | ⟨now, -, -, eq⟩ |
    ⟨-, -, -, ⟨pc'', eq, -⟩ | ⟨efState, status, eq⟩⟩
  · cases eq
    exact ⟨rfl, rfl, rfl, rfl⟩
  · obtain ⟨-, -, same⟩ := readCurrentTime_call eq.symm
    rw [same]
    exact ⟨rfl, rfl, rfl, rfl⟩
  · cases eq
    exact ⟨rfl, rfl, rfl, rfl⟩
  · rw [helperReturned_call eq.symm]
    exact ⟨rfl, rfl, rfl, rfl⟩

theorem wake_ne_wait (bitmask : UInt32) : EventFlag.wake bitmask ≠ .wait call pc := by
  unfold EventFlag.wake
  split <;> exact nofun

theorem afterFetchOr_ne_wait (old bitmask : UInt32) : afterFetchOr old bitmask ≠ .wait call pc := by
  unfold afterFetchOr
  split <;> exact nofun

/-- The only way into a `wait` is a call of it. -/
theorem FreeStep.enters {a : FreeAction ι} (taken : FreeStep σ a τ)
    (outside : ∀ call pc, σ.thread a.actor ≠ .wait call pc)
    (inside : τ.thread a.actor = .wait call pc) :
    ∃ bitmask hasEfState efState timeoutNanoSeconds retry,
      EventFlag.wait bitmask hasEfState efState timeoutNanoSeconds retry = .wait call pc := by
  cases taken with
  | step taken =>
    cases taken with
    | wake at_i =>
      rw [FreeAction.actor, Action.actor, set_thread_self] at inside
      exact absurd inside (wake_ne_wait _)
    | wait at_i =>
      rw [FreeAction.actor, Action.actor, set_thread_self] at inside
      exact ⟨_, _, _, _, _, inside⟩
    | fetchOr at_i =>
      rw [FreeAction.actor, Action.actor, set_thread_self] at inside
      exact absurd inside (afterFetchOr_ne_wait _ _)
    | futexWake at_i | finish at_i =>
      rw [FreeAction.actor, Action.actor, set_thread_self] at inside
      cases inside
    | prevTime at_i | currentTime at_i | helper at_i | futexWait at_i | futexError at_i
    | spurious at_i | interrupted at_i | timedOut at_i | afterWoken at_i =>
      exact absurd at_i (outside _ _)
  | waitReturned at_i | waitFailed at_i => exact absurd at_i (outside _ _)
  | wakeReturned at_i =>
    rw [FreeAction.actor, set_thread_self] at inside
    cases inside

/-- A step of another thread, or one that wakes sleepers. -/
theorem FreeStep.others {a : FreeAction ι} (taken : FreeStep σ a τ) {j : ι}
    (other : j ≠ a.actor) : τ.thread j = σ.thread j ∨
      ∃ call, σ.thread j = .wait call .asleep ∧ τ.thread j = .wait call .woken := by
  cases taken with
  | step taken =>
    cases taken with
    | @futexWake i bitmask at_i =>
      have kept := set_thread_of_ne (σ := ⟨σ.word, fun j => (σ.thread j).wokenBy bitmask⟩) other
        σ.word (.returned NO_ERROR 0)
      rcases wokenBy_cases (σ.thread j) bitmask with same | ⟨call, asleep, woken⟩
      · exact Or.inl (kept.trans same)
      · exact Or.inr ⟨call, asleep, kept.trans woken⟩
    | _ => exact Or.inl (set_thread_of_ne other _ _)
  | _ => exact Or.inl (set_thread_of_ne other _ _)

/-- What holds of a `wait` when it is called, and is kept by its own steps and by a wake-up, holds
of every `wait` in every run. -/
theorem reachable_wait {inv : WaitCall → WaitPc → Prop}
    (called : ∀ bitmask hasEfState efState timeoutNanoSeconds retry call pc,
      EventFlag.wait bitmask hasEfState efState timeoutNanoSeconds retry = .wait call pc →
        inv call pc)
    (kept : ∀ call pc word reading word' call' pc', inv call pc →
      WaitStep call word pc reading word' (.wait call' pc') → inv call' pc')
    (reachable : Transition.Reachable initial FreeStep σ) {i : ι}
    (at_wait : σ.thread i = .wait call pc) : inv call pc := by
  induction reachable generalizing i call pc with
  | start initial => cases (initial i).symm.trans at_wait
  | @next σ a τ _ taken ih =>
    by_cases own : i = a.actor
    · subst own
      cases before : σ.thread a.actor with
      | wait call₀ pc₀ =>
        have step := taken.waitStep_self before
        rw [at_wait] at step
        exact kept _ _ _ _ _ _ _ (ih before) step
      | idle | wakeFetchOr | wakeFutex | returned | crashed =>
        obtain ⟨_, _, _, _, _, entered⟩ :=
          taken.enters (fun _ _ inside => nomatch before.symm.trans inside) at_wait
        exact called _ _ _ _ _ _ _ entered
    · rcases taken.others own with same | ⟨call₀, asleep, woken⟩
      · exact ih (same.symm.trans at_wait)
      · cases woken.symm.trans at_wait
        exact kept _ _ 0 _ _ _ _ (ih asleep) (.goesOn .asleep .woken)

end Fmq.EventFlag
