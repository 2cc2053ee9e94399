import Fmq.Lib.Transition
import Fmq.Model.EventFlag

/-!
# Sleepers never miss a set bit

`wake` skips its system call when its bits were all set already, and `wait` compares the whole
word with a value computed from an earlier load. The invariant: a set bit that some sleeper
waits for is on the mask of a `wake` that has yet to make its system call.
-/
namespace Fmq.EventFlag

open Transition Function

variable {ι : Type}

/-- Some `wake` with bit `b` on its mask has yet to make its system call. -/
def Pending (σ : State ι) (b : Nat) : Prop :=
  ∃ j bitmask, σ.thread j = .wakeFutex bitmask ∧ bit bitmask b = true

structure Inv (σ : State ι) : Prop where
  /-- A thread goes to sleep only on a word with no bit of its mask. -/
  expected : ∀ i call efWord, σ.thread i = .wait call (.futexWait efWord) →
    efWord &&& call.bitmask = 0
  sleepers : ∀ i call b, σ.thread i = .wait call .asleep → bit call.bitmask b = true →
    bit σ.word b = true → Pending σ b

theorem initial_inv {σ : State ι} (start : initial σ) : Inv σ where
  expected i call efWord at_i := by
    rw [start i] at at_i
    cases at_i
  sleepers i call b at_i := by
    rw [start i] at at_i
    cases at_i

variable {σ τ : State ι}

/-! ## Threads that the local code produces -/

/-- A thread that neither sleeps, nor is about to, nor owes a system call. -/
def Thread.Quiet : Thread → Prop
  | .wait _ (.futexWait _) | .wait _ .asleep | .wakeFutex _ => False
  | _ => True

theorem WaitCall.helperReturned_quiet (call : WaitCall) (status : Status) :
    (call.helperReturned status).Quiet := by
  unfold helperReturned
  split
  · split <;> trivial
  · trivial

theorem signedSub_eq {a b c : Int64} (known : signedSub a b = some c) :
    c = a - b ∧ c.toInt = a.toInt - b.toInt := by
  unfold signedSub at known
  split at known
  next exact_ =>
    cases known
    exact ⟨rfl, exact_⟩
  next => cases known

/-- A reading ends the call, or leaves the rest of the timeout. -/
theorem WaitCall.readCurrentTime_cases (call : WaitCall) (now : Int64) :
    call.readCurrentTime now = .crashed ∨
    (call.hasEfState = true ∧ call.readCurrentTime now = .returned (-ETIMEDOUT) 0) ∨
    ∃ left, left = call.timeoutNanoSeconds - (now - call.prevTimeNs) ∧
      left.toInt = call.timeoutNanoSeconds.toInt - (now.toInt - call.prevTimeNs.toInt) ∧
      0 < left ∧ call.readCurrentTime now =
        .wait { call with timeoutNanoSeconds := left, prevTimeNs := now } .helper := by
  unfold readCurrentTime
  split
  next => exact Or.inl rfl
  next left difference =>
    obtain ⟨elapsed, passed, rest⟩ := Option.bind_eq_some_iff.mp difference
    obtain ⟨rfl, passed⟩ := signedSub_eq passed
    obtain ⟨rfl, rest⟩ := signedSub_eq rest
    rw [passed] at rest
    dsimp only
    split
    next =>
      split
      next result => exact Or.inr (Or.inl ⟨result, rfl⟩)
      next => exact Or.inl rfl
    next remains => exact Or.inr (Or.inr ⟨_, rfl, rest, Int64.not_le.mp remains, rfl⟩)

theorem WaitCall.readCurrentTime_quiet (call : WaitCall) (now : Int64) :
    (call.readCurrentTime now).Quiet := by
  rcases call.readCurrentTime_cases now with eq | ⟨-, eq⟩ | ⟨_, -, -, -, eq⟩ <;> rw [eq] <;> trivial

theorem wake_quiet (bitmask : UInt32) : (wake bitmask).Quiet := by
  unfold wake
  split <;> trivial

/-- The parameters and variables of a call that has just begun. -/
def called (bitmask : UInt32) (hasEfState : Bool) (efState : UInt32) (timeoutNanoSeconds : Int64)
    (retry : Bool) : WaitCall :=
  { bitmask, hasEfState, efState, timeoutNanoSeconds, retry
    shouldTimeOut := timeoutNanoSeconds ≠ 0, prevTimeNs := 0 }

/-- Only a call that retries with a timeout reads the clock before `waitHelper`. -/
theorem wait_eq (bitmask : UInt32) (hasEfState : Bool) (efState : UInt32)
    (timeoutNanoSeconds : Int64) (retry : Bool) :
    ((retry = true ∧ timeoutNanoSeconds ≠ 0) ∧
      wait bitmask hasEfState efState timeoutNanoSeconds retry =
        .wait (called bitmask hasEfState efState timeoutNanoSeconds retry) .prevTime) ∨
    (¬ (retry = true ∧ timeoutNanoSeconds ≠ 0) ∧
      wait bitmask hasEfState efState timeoutNanoSeconds retry =
        .wait (called bitmask hasEfState efState timeoutNanoSeconds retry) .helper) := by
  have condition : (retry && decide (timeoutNanoSeconds ≠ 0)) = true ↔
      retry = true ∧ timeoutNanoSeconds ≠ 0 := by
    rw [Bool.and_eq_true, decide_eq_true_iff]
  unfold wait
  dsimp only
  split
  next loops => exact Or.inl ⟨condition.mp loops, rfl⟩
  next direct => exact Or.inr ⟨fun both => direct (condition.mpr both), rfl⟩

theorem exists_wait (bitmask : UInt32) (hasEfState : Bool) (efState : UInt32)
    (timeoutNanoSeconds : Int64) (retry : Bool) : ∃ pc,
    wait bitmask hasEfState efState timeoutNanoSeconds retry =
      .wait (called bitmask hasEfState efState timeoutNanoSeconds retry) pc := by
  rcases wait_eq bitmask hasEfState efState timeoutNanoSeconds retry with ⟨-, eq⟩ | ⟨-, eq⟩
  · exact ⟨_, eq⟩
  · exact ⟨_, eq⟩

theorem wait_quiet (bitmask : UInt32) (hasEfState : Bool) (efState : UInt32) (timeout : Int64)
    (retry : Bool) : (wait bitmask hasEfState efState timeout retry).Quiet := by
  rcases wait_eq bitmask hasEfState efState timeout retry with ⟨-, eq⟩ | ⟨-, eq⟩
  · rw [eq]
    trivial
  · rw [eq]
    trivial

/-- The first fetch-and only clears bits, and the thread that goes on to the system call expects
a word with no bit of its mask. -/
theorem WaitCall.helper_cases (call : WaitCall) (word : UInt32) :
    (∀ b, bit (call.helper word).1 b = true → bit word b = true) ∧
      ((call.helper word).2.Quiet ∨ ∃ efWord, efWord &&& call.bitmask = 0 ∧
        (call.helper word).2 = .wait call (.futexWait efWord)) := by
  unfold helper
  dsimp only
  split
  next => exact ⟨fun b set => set, Or.inl (call.helperReturned_quiet _)⟩
  next =>
    have cleared : ∀ b, bit (word &&& ~~~call.bitmask) b = true → bit word b = true := by
      intro b set
      rw [bit_and_not, Bool.and_eq_true] at set
      exact set.1
    split
    next => exact ⟨cleared, Or.inl (WaitCall.helperReturned_quiet _ _)⟩
    next =>
      -- The expected value is the word without the mask.
      refine ⟨cleared, Or.inr ⟨_, ?_, rfl⟩⟩
      apply eq_zero_of_bit
      intro b
      rw [bit_and, bit_and_not]
      cases bit word b <;> cases bit call.bitmask b <;> rfl

theorem WaitCall.afterWoken_cases (call : WaitCall) (word : UInt32) :
    (∀ b, bit (call.afterWoken word).1 b = true → bit word b = true) ∧
      (call.afterWoken word).2.Quiet := by
  refine ⟨?_, WaitCall.helperReturned_quiet _ _⟩
  intro b set
  simp only [afterWoken, bit_and_not, Bool.and_eq_true] at set
  exact set.1

/-! ## Steps -/

variable [DecidableEq ι]

@[simp] theorem set_thread_self (σ : State ι) (i : ι) (word : UInt32) (t : Thread) :
    (σ.set i word t).thread i = t := update_self _ _ _

theorem set_thread_of_ne {i j : ι} (other : j ≠ i) (word : UInt32) (t : Thread) :
    (σ.set i word t).thread j = σ.thread j := update_of_ne other _ _

theorem set_thread_cases {i j : ι} {word : UInt32} {t u : Thread}
    (at_j : (σ.set i word t).thread j = u) : (j = i ∧ t = u) ∨ (j ≠ i ∧ σ.thread j = u) := by
  by_cases same : j = i
  · subst same
    rw [set_thread_self] at at_j
    exact Or.inl ⟨rfl, at_j⟩
  · rw [set_thread_of_ne same] at at_j
    exact Or.inr ⟨same, at_j⟩

/-- A pending system call stays pending when another thread moves. -/
theorem Pending.set {b : Nat} (pending : Pending σ b) {i : ι}
    (moves : ∀ bitmask, σ.thread i ≠ .wakeFutex bitmask) (word : UInt32) (t : Thread) :
    Pending (σ.set i word t) b := by
  obtain ⟨j, bitmask, at_j, set⟩ := pending
  refine ⟨j, bitmask, ?_, set⟩
  rw [set_thread_of_ne _ word t, at_j]
  rintro rfl
  exact moves bitmask at_j

/-- A thread that owes no system call moves to a quiet place, clearing bits at most. -/
theorem Inv.quiet (inv : Inv σ) {i : ι} (moves : ∀ bitmask, σ.thread i ≠ .wakeFutex bitmask)
    {word : UInt32} {t : Thread} (cleared : ∀ b, bit word b = true → bit σ.word b = true)
    (quiet : t.Quiet) : Inv (σ.set i word t) where
  expected j call efWord at_j := by
    rcases set_thread_cases at_j with ⟨rfl, rfl⟩ | ⟨_, at_j⟩
    · exact quiet.elim
    · exact inv.expected j call efWord at_j
  sleepers j call b at_j masked set := by
    rcases set_thread_cases at_j with ⟨rfl, rfl⟩ | ⟨_, at_j⟩
    · exact quiet.elim
    · exact (inv.sleepers j call b at_j masked (cleared b set)).set moves _ _

/-- A waiting thread goes on to the system call with an expected word free of its mask. -/
theorem Inv.expect (inv : Inv σ) {i : ι} (moves : ∀ bitmask, σ.thread i ≠ .wakeFutex bitmask)
    {word efWord : UInt32} {call : WaitCall}
    (cleared : ∀ b, bit word b = true → bit σ.word b = true)
    (free : efWord &&& call.bitmask = 0) :
    Inv (σ.set i word (.wait call (.futexWait efWord))) where
  expected j call' efWord' at_j := by
    rcases set_thread_cases at_j with ⟨rfl, eq⟩ | ⟨_, at_j⟩
    · cases eq
      exact free
    · exact inv.expected j call' efWord' at_j
  sleepers j call' b at_j masked set := by
    rcases set_thread_cases at_j with ⟨rfl, eq⟩ | ⟨_, at_j⟩
    · cases eq
    · exact (inv.sleepers j call' b at_j masked (cleared b set)).set moves _ _

/-- The futex puts a thread to sleep on a word with no bit of its mask. -/
theorem Inv.sleep (inv : Inv σ) {i : ι} {call : WaitCall}
    (at_i : σ.thread i = .wait call (.futexWait σ.word)) :
    Inv (σ.set i σ.word (.wait call .asleep)) where
  expected j call' efWord at_j := by
    rcases set_thread_cases at_j with ⟨rfl, eq⟩ | ⟨_, at_j⟩
    · cases eq
    · exact inv.expected j call' efWord at_j
  sleepers j call' b at_j masked set := by
    rcases set_thread_cases at_j with ⟨rfl, eq⟩ | ⟨_, at_j⟩
    · cases eq
      -- The word is the expected one, which has no bit of the mask.
      have free := congrArg (bit · b) (inv.expected j call _ at_i)
      simp only [bit_and, bit_zero, Bool.and_eq_false_iff] at free
      rcases free with clear | unmasked
      · exact absurd (set.symm.trans clear) (by decide)
      · exact absurd (masked.symm.trans unmasked) (by decide)
    · exact (inv.sleepers j call' b at_j masked set).set (by simp [at_i]) _ _

/-- A fetch-or that sets a new bit owes the system call; one that sets none changes nothing. -/
theorem Inv.fetchOr (inv : Inv σ) {i : ι} {bitmask : UInt32}
    (at_i : σ.thread i = .wakeFetchOr bitmask) :
    Inv (σ.set i (σ.word ||| bitmask) (afterFetchOr σ.word bitmask)) := by
  have moves : ∀ bitmask, σ.thread i ≠ .wakeFutex bitmask := by simp [at_i]
  unfold afterFetchOr
  split
  next fresh =>
    constructor
    · intro j call efWord at_j
      rcases set_thread_cases at_j with ⟨rfl, eq⟩ | ⟨_, at_j⟩
      · cases eq
      · exact inv.expected j call efWord at_j
    · intro j call b at_j masked set
      rcases set_thread_cases at_j with ⟨rfl, eq⟩ | ⟨_, at_j⟩
      · cases eq
      -- The bit was set before, or it is on the mask of this `wake`.
      have origin : bit σ.word b = true ∨ bit bitmask b = true := by
        simpa [State.set] using set
      rcases origin with old | new
      · exact (inv.sleepers j call b at_j masked old).set moves _ _
      · exact ⟨i, bitmask, set_thread_self _ _ _ _, new⟩
  next stale =>
    -- `~old & bitmask` is zero: every bit of the mask was set.
    have covered : ∀ b, bit bitmask b = true → bit σ.word b = true := by
      intro b on_mask
      have none_new := congrArg (bit · b) (not_not.mp stale)
      rw [UInt32.and_comm] at none_new
      simp only [bit_and_not, bit_zero, on_mask, Bool.true_and, Bool.not_eq_false'] at none_new
      exact none_new
    refine inv.quiet moves ?_ trivial
    intro b set
    rw [bit_or, Bool.or_eq_true] at set
    exact set.elim id (covered b)

/-- `FUTEX_WAKE_BITSET` only moves a sleeper inside its `wait`. -/
theorem wokenBy_cases (t : Thread) (m : UInt32) :
    t.wokenBy m = t ∨ ∃ call, t = .wait call .asleep ∧ t.wokenBy m = .wait call .woken := by
  unfold Thread.wokenBy
  split
  next call =>
    split
    next => exact Or.inr ⟨call, rfl, rfl⟩
    next => exact Or.inl rfl
  next => exact Or.inl rfl

theorem wokenBy_futexWait {t : Thread} {bitmask : UInt32} {call : WaitCall} {efWord : UInt32}
    (woken : t.wokenBy bitmask = .wait call (.futexWait efWord)) :
    t = .wait call (.futexWait efWord) := by
  unfold Thread.wokenBy at woken
  split at woken
  · split at woken <;> cases woken
  · exact woken

/-- Who still sleeps after `FUTEX_WAKE_BITSET` has a mask disjoint from it. -/
theorem wokenBy_asleep {t : Thread} {bitmask : UInt32} {call : WaitCall}
    (woken : t.wokenBy bitmask = .wait call .asleep) :
    t = .wait call .asleep ∧ call.bitmask &&& bitmask = 0 := by
  unfold Thread.wokenBy at woken
  split at woken
  next sleeper =>
    split at woken
    next => cases woken
    next disjoint =>
      cases woken
      exact ⟨rfl, not_not.mp disjoint⟩
  next awake => exact absurd woken (awake _)

theorem wokenBy_wakeFutex (bitmask m : UInt32) :
    (Thread.wakeFutex m).wokenBy bitmask = .wakeFutex m := rfl

theorem Inv.futexWake (inv : Inv σ) {i : ι} {bitmask : UInt32}
    (at_i : σ.thread i = .wakeFutex bitmask) :
    Inv (State.set ⟨σ.word, fun j => (σ.thread j).wokenBy bitmask⟩ i σ.word
      (.returned NO_ERROR 0)) where
  expected j call efWord at_j := by
    rcases set_thread_cases at_j with ⟨rfl, eq⟩ | ⟨_, at_j⟩
    · cases eq
    · exact inv.expected j call efWord (wokenBy_futexWait at_j)
  sleepers j call b at_j masked set := by
    rcases set_thread_cases at_j with ⟨rfl, eq⟩ | ⟨_, at_j⟩
    · cases eq
    · obtain ⟨slept, disjoint⟩ := wokenBy_asleep at_j
      obtain ⟨k, m, at_k, on_mask⟩ := inv.sleepers j call b slept masked set
      -- The pending call is not the one that is made now: the masks are disjoint.
      have other : k ≠ i := by
        rintro rfl
        rw [at_i] at at_k
        cases at_k
        have apart := congrArg (bit · b) disjoint
        simp [masked, on_mask] at apart
      refine ⟨k, m, ?_, on_mask⟩
      rw [set_thread_of_ne other]
      exact (congrArg (Thread.wokenBy bitmask) at_k).trans (wokenBy_wakeFutex _ _)

theorem Inv.step (inv : Inv σ) {a : Action ι} (taken : Step σ a τ) : Inv τ := by
  cases taken with
  | wake at_i => exact inv.quiet (by simp [at_i]) (fun _ => id) (wake_quiet _)
  | wait at_i => exact inv.quiet (by simp [at_i]) (fun _ => id) (wait_quiet _ _ _ _ _)
  | fetchOr at_i => exact inv.fetchOr at_i
  | futexWake at_i => exact inv.futexWake at_i
  | prevTime at_i => exact inv.quiet (by simp [at_i]) (fun _ => id) trivial
  | @currentTime i call now at_i =>
    exact inv.quiet (by simp [at_i]) (fun _ => id) (call.readCurrentTime_quiet now)
  | @helper i call at_i =>
    obtain ⟨cleared, quiet | ⟨efWord, free, eq⟩⟩ := call.helper_cases σ.word
    · exact inv.quiet (by simp [at_i]) cleared quiet
    · rw [eq]
      exact inv.expect (by simp [at_i]) cleared free
  | @futexWait i call efWord at_i =>
    split
    next equal =>
      subst equal
      exact inv.sleep at_i
    next =>
      exact inv.quiet (by simp [at_i]) (fun _ => id) (WaitCall.helperReturned_quiet _ _)
  | futexError at_i =>
    exact inv.quiet (by simp [at_i]) (fun _ => id) (WaitCall.helperReturned_quiet _ _)
  | spurious at_i => exact inv.quiet (by simp [at_i]) (fun _ => id) trivial
  | interrupted at_i =>
    exact inv.quiet (by simp [at_i]) (fun _ => id) (WaitCall.helperReturned_quiet _ _)
  | timedOut at_i =>
    exact inv.quiet (by simp [at_i]) (fun _ => id) (WaitCall.helperReturned_quiet _ _)
  | @afterWoken i call at_i =>
    obtain ⟨cleared, quiet⟩ := call.afterWoken_cases σ.word
    exact inv.quiet (by simp [at_i]) cleared quiet
  | finish at_i => exact inv.quiet (by simp [at_i]) (fun _ => id) trivial

theorem reachable_inv (reachable : Reachable initial Step σ) : Inv σ :=
  reachable.invariant (fun _ => initial_inv) fun _ _ _ inv taken => inv.step taken

/-- Every set bit that a sleeper waits for is on the mask of a `wake` that has yet to make its
system call; without one, no thread sleeps while a bit of its mask is set. -/
theorem reachable_sleepers (reachable : Reachable initial Step σ) :
    (∀ i call b, σ.thread i = .wait call .asleep → bit call.bitmask b = true →
      bit σ.word b = true → Pending σ b) ∧
    ((∀ j bitmask, σ.thread j ≠ .wakeFutex bitmask) → ∀ i call,
      σ.thread i = .wait call .asleep → σ.word &&& call.bitmask = 0) := by
  have inv := reachable_inv reachable
  refine ⟨inv.sleepers, ?_⟩
  intro none_pending i call asleep
  by_contra some_set
  -- A common bit would be pending, but nothing is.
  obtain ⟨b, both⟩ := exists_bit some_set
  rw [bit_and, Bool.and_eq_true] at both
  obtain ⟨j, bitmask, at_j, _⟩ := inv.sleepers i call b asleep both.2 both.1
  exact none_pending j bitmask at_j

/-- One thread sleeps, the other has set its bit. -/
theorem reachable_sleepers_two : ∃ σ : State Bool,
    (∃ call, σ.thread true = .wait call .asleep) ∧ σ.word = 1 ∧ Pending σ 0 := by
  have start : Reachable (initial (ι := Bool)) Step ⟨0, fun _ => .idle⟩ := .start fun _ => rfl
  have waits := start.next (a := .wait true 1 true 0 0 false) (.wait rfl)
  have cleared := waits.next (a := .helper true) (.helper rfl)
  have asleep := cleared.next (a := .futexWait true) (.futexWait rfl)
  have wakes := asleep.next (a := .wake false 1) (.wake rfl)
  have set := wakes.next (a := .fetchOr false) (.fetchOr rfl)
  exact ⟨_, ⟨_, rfl⟩, rfl, (reachable_sleepers set).1 true _ 0 rfl (by decide) (by decide)⟩

end Fmq.EventFlag
