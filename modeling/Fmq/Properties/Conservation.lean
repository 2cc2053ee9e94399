import Fmq.Model.Notifications
import Fmq.Properties.WaitSteps

/-!
# Notifications are conserved

Every bit that is set in the word, at the start or by a `wake`, is still set or was reported by
exactly one `wait`. A `wait` clears bits in one step at most, the one with which it returns them:
wherever it goes on, its fetch-and has found no bit of its mask.
-/
namespace Fmq.EventFlag

open Transition Function

variable {ι : Type}

theorem and_not_of_free {word mask : UInt32} (free : word &&& mask = 0) :
    word &&& ~~~mask = word := by
  apply eq_of_bit
  intro b
  have clear := congrArg (bit · b) free
  simp only [bit_and, bit_zero] at clear
  rw [bit_and_not]
  rcases Bool.and_eq_false_iff.mp clear with unset | unmasked
  · rw [unset, Bool.false_and]
  · rw [unmasked, Bool.not_false, Bool.and_true]

/-! ## One `wait` -/

/-- What a step of a `wait` does to the word, and where it leads. -/
inductive Progress (call : WaitCall) (word : UInt32) : UInt32 → Thread → Prop
  | goesOn {call' pc} : call'.bitmask = call.bitmask → call'.retry = call.retry →
      call'.hasEfState = call.hasEfState → Progress call word word (.wait call' pc)
  | delivers {efState} : efState = word &&& call.bitmask → efState ≠ 0 →
      Progress call word (word &&& ~~~call.bitmask) (.returned NO_ERROR efState)
  | fails {status} : status ≠ NO_ERROR →
      (call.retry = true → status ≠ -EAGAIN ∧ status ≠ -EINTR) →
      Progress call word word (.returned status 0)
  | crashes : Progress call word word .crashed

namespace WaitCall

variable (call : WaitCall) (word : UInt32)

/-- A `waitHelper` that fails with `*efState` zero. -/
theorem helperReturned_progress {status : Status} (failed : status ≠ NO_ERROR) :
    Progress call word word ({ call with efState := 0 }.helperReturned status) := by
  unfold helperReturned
  split
  next again =>
    -- The next round of the loop keeps the parameters of the call.
    split <;> exact .goesOn rfl rfl rfl
  next final =>
    refine .fails failed ?_
    intro retry
    have other := fun spurious => final ⟨retry, spurious⟩
    exact not_or.mp other

theorem helperReturned_delivers (efState : UInt32) :
    { call with efState }.helperReturned NO_ERROR = .returned NO_ERROR efState := by
  unfold helperReturned
  exact if_neg fun spurious => absurd spurious.2 (by decide)

theorem futexFailed_progress {errno : Int} (positive : 0 < errno) :
    Progress call word word (call.futexFailed errno) := by
  apply helperReturned_progress
  intro zero
  have nonpositive : -errno = 0 := zero
  omega

theorem readCurrentTime_progress (now : Int64) :
    Progress call word word (call.readCurrentTime now) := by
  rcases call.readCurrentTime_cases now with eq | ⟨-, eq⟩ | ⟨_, -, -, -, eq⟩ <;> rw [eq]
  · exact .crashes
  · exact .fails (by decide) fun _ => by decide
  · exact .goesOn rfl rfl rfl

theorem helper_progress (mask : call.bitmask ≠ 0) (result : call.hasEfState = true) :
    Progress call word (call.helper word).1 (call.helper word).2 := by
  unfold helper
  rw [if_neg (by simp [mask, result])]
  dsimp only
  split
  next set =>
    rw [helperReturned_delivers]
    exact .delivers rfl set
  next none_set =>
    -- Nothing to clear: the word is as before.
    rw [and_not_of_free (not_not.mp none_set)]
    exact .goesOn rfl rfl rfl

theorem afterWoken_progress : Progress call word (call.afterWoken word).1
    (call.afterWoken word).2 := by
  unfold afterWoken
  dsimp only
  by_cases free : word &&& call.bitmask = 0
  · -- A spurious wake-up.
    rw [free, and_not_of_free free, if_pos rfl]
    exact call.helperReturned_progress word (by decide)
  · rw [if_neg free, helperReturned_delivers]
    exact .delivers rfl free

end WaitCall

theorem WaitStep.progress {call : WaitCall} {word word' : UInt32} {pc : WaitPc}
    {reading : Option Int64} {t : Thread} (step : WaitStep call word pc reading word' t)
    (mask : call.bitmask ≠ 0) (result : call.hasEfState = true) : Progress call word word' t := by
  cases step with
  | prevTime => exact .goesOn rfl rfl rfl
  | currentTime => exact call.readCurrentTime_progress word _
  | helper => exact call.helper_progress word mask result
  | goesOn => exact .goesOn rfl rfl rfl
  | failed _ positive => exact call.futexFailed_progress word positive
  | afterWoken => exact call.afterWoken_progress word

/-! ## One step of all threads -/

/-- What a step does to the word and to the thread that takes it. -/
inductive Move (word : UInt32) : Thread → UInt32 → Thread → Prop
  | wakes {bitmask} : Move word .idle word (.wakeFetchOr bitmask)
  | waits {call pc} : call.bitmask ≠ 0 → call.hasEfState = true →
      Move word .idle word (.wait call pc)
  | raises {bitmask t} : t = .wakeFutex bitmask ∨ t = .returned NO_ERROR 0 →
      Move word (.wakeFetchOr bitmask) (word ||| bitmask) t
  | wakesUp {bitmask status} : Move word (.wakeFutex bitmask) word (.returned status 0)
  | progresses {call pc word' t} : Progress call word word' t → Move word (.wait call pc) word' t
  | finishes {status efState} : Move word (.returned status efState) word .idle

variable [DecidableEq ι] {σ τ : State ι}

theorem Move.moved {i : ι} {t t' : Thread} {word : UInt32} (at_i : σ.thread i = t)
    (move : Move σ.word t word t') :
    Move σ.word (σ.thread i) (σ.set i word t').word ((σ.set i word t').thread i) := by
  rw [at_i, set_thread_self]
  exact move

theorem FreeStep.move {a : FreeAction ι} (taken : FreeStep σ a τ) (proper : a.Proper)
    (waiting : ∀ call pc, σ.thread a.actor = .wait call pc →
      call.bitmask ≠ 0 ∧ call.hasEfState = true) :
    Move σ.word (σ.thread a.actor) τ.word (τ.thread a.actor) := by
  have progresses {call pc} (at_wait : σ.thread a.actor = .wait call pc) :
      Move σ.word (σ.thread a.actor) τ.word (τ.thread a.actor) := by
    have ⟨mask, result⟩ := waiting _ _ at_wait
    rw [at_wait]
    exact .progresses ((taken.waitStep_self at_wait).progress mask result)
  cases taken with
  | step taken =>
    cases taken with
    | @wake i bitmask at_i =>
      have fetchOr : wake bitmask = .wakeFetchOr bitmask := if_neg proper
      rw [fetchOr]
      exact Move.moved at_i .wakes
    | @wait i bitmask hasEfState efState timeoutNanoSeconds retry at_i =>
      obtain ⟨pc, eq⟩ := exists_wait bitmask hasEfState efState timeoutNanoSeconds retry
      rw [eq]
      exact Move.moved at_i (.waits proper.1 proper.2)
    | fetchOr at_i =>
      unfold afterFetchOr
      split
      · exact Move.moved at_i (.raises (Or.inl rfl))
      · exact Move.moved at_i (.raises (Or.inr rfl))
    | @futexWake i bitmask at_i =>
      -- The thread itself does not sleep, so the system call does not touch it.
      rw [FreeAction.actor, Action.actor, set_thread_self, at_i]
      exact .wakesUp
    | prevTime at_i | currentTime at_i | helper at_i | futexWait at_i | futexError at_i
    | spurious at_i | interrupted at_i | timedOut at_i | afterWoken at_i => exact progresses at_i
    | finish at_i => exact Move.moved at_i .finishes
  | waitReturned at_i | waitFailed at_i => exact progresses at_i
  | wakeReturned at_i => exact Move.moved at_i .wakesUp

/-! ## The log -/

/-- What holds of a `wait` that has returned. -/
structure Returned (record : WaitRecord) (status : Status) (efState : UInt32) : Prop where
  noError : status = NO_ERROR ↔ efState ≠ 0
  masked : ∀ b, bit efState b = true → bit record.bitmask b = true
  /-- It has cleared what it reports, each bit once, and nothing else. -/
  cleared : ∀ b, record.cleared b = (bit efState b).toNat
  consumed : status ≠ NO_ERROR → ∀ b, record.cleared b = 0
  retried : record.retry = true → status ≠ -EAGAIN ∧ status ≠ -EINTR

/-- A `wait` on its way has cleared nothing. -/
def Accounted (record : Option WaitRecord) : Thread → Prop
  | .idle => True
  | .wakeFetchOr _ | .wakeFutex _ => record = none
  | .wait call _ => call.bitmask ≠ 0 ∧ call.hasEfState = true ∧
      record = some ⟨call.bitmask, call.retry, fun _ => 0⟩
  | .returned status efState => ∀ known, record = some known → Returned known status efState
  | .crashed => True

structure Conserved (word : UInt32) (σ : Log ι) : Prop where
  balance : ∀ b, (bit word b).toNat + σ.raised b = σ.reported b + (bit σ.flag.word b).toNat
  within : ∀ i record b, σ.waits i = some record → bit record.bitmask b = false →
    record.cleared b = 0
  threads : ∀ i, Accounted (σ.waits i) (σ.flag.thread i)

omit [DecidableEq ι] in
theorem initial_conserved {word : UInt32} {σ : Log ι} (start : Log.initial word σ) :
    Conserved word σ := by
  obtain ⟨idle, same, raised, reported, waits⟩ := start
  refine ⟨fun b => ?_, fun i record b known => ?_, fun i => ?_⟩
  · rw [raised, reported, same, Nat.add_comm]
  · rw [waits i] at known
    cases known
  · rw [idle i]
    trivial

variable {word : UInt32} {σ : Log ι} {φ : State ι}

/-- The other threads are where they were, or woken. -/
theorem Conserved.others (inv : Conserved word σ) {a : FreeAction ι} (taken : FreeStep σ.flag a φ)
    {waits : ι → Option WaitRecord} (kept : ∀ j, j ≠ a.actor → waits j = σ.waits j)
    (own : Accounted (waits a.actor) (φ.thread a.actor)) :
    ∀ j, Accounted (waits j) (φ.thread j) := by
  intro j
  by_cases same : j = a.actor
  · rw [same]
    exact own
  · have before := inv.threads j
    rw [kept j same]
    rcases taken.others same with unmoved | ⟨call, asleep, woken⟩
    · rw [unmoved]
      exact before
    · rw [asleep] at before
      rw [woken]
      exact before

/-- A step that leaves the word alone. -/
theorem Conserved.kept (inv : Conserved word σ) {a : FreeAction ι} (taken : FreeStep σ.flag a φ)
    (same : φ.word = σ.flag.word) {waits : ι → Option WaitRecord}
    (kept : ∀ j, j ≠ a.actor → waits j = σ.waits j)
    (own : Accounted (waits a.actor) (φ.thread a.actor))
    (within : ∀ record b, waits a.actor = some record → bit record.bitmask b = false →
      record.cleared b = 0) : Conserved word { σ with flag := φ, waits } := by
  refine ⟨?_, ?_, inv.others taken kept own⟩
  · intro b
    dsimp only
    rw [same]
    exact inv.balance b
  · intro i record b known unmasked
    by_cases actor : i = a.actor
    · rw [actor] at known
      exact within record b known unmasked
    · exact inv.within i record b ((kept i actor).symm.trans known) unmasked

/-- A fetch-or: the bits that were not set are raised. -/
theorem Conserved.raises (inv : Conserved word σ) {a : FreeAction ι} (taken : FreeStep σ.flag a φ)
    {bitmask : UInt32} (set : φ.word = σ.flag.word ||| bitmask)
    (own : Accounted (σ.waits a.actor) (φ.thread a.actor)) :
    Conserved word { σ with
      flag := φ
      raised := fun b => σ.raised b + (!bit σ.flag.word b && bit φ.word b).toNat } := by
  refine ⟨?_, inv.within, inv.others taken (fun _ _ => rfl) own⟩
  intro b
  have balance := inv.balance b
  -- A bit was set before, or it is counted now.
  have raised : (bit φ.word b).toNat =
      (bit σ.flag.word b).toNat + (!bit σ.flag.word b && bit φ.word b).toNat := by
    rw [set, bit_or]
    cases bit σ.flag.word b <;> cases bit bitmask b <;> rfl
  dsimp only
  omega

omit [DecidableEq ι] in
/-- The bits that a step of a `wait` clears are those that it reports. -/
theorem Progress.reports {call : WaitCall} {w w' : UInt32} {t : Thread}
    (progress : Progress call w w' t) (b : Nat) :
    (bit w b && !bit w' b) = bit t.reports b ∧
      (bit w b).toNat = (bit t.reports b).toNat + (bit w' b).toNat ∧
      (bit t.reports b = true → bit call.bitmask b = true) := by
  cases progress with
  | goesOn =>
    simp only [Thread.reports, bit_zero]
    cases bit w b <;> simp
  | delivers taken _ =>
    rw [bit_and_not]
    simp only [Thread.reports, taken, bit_and]
    cases bit w b <;> cases bit call.bitmask b <;> simp
  | fails | crashes =>
    simp only [Thread.reports, bit_zero]
    cases bit w b <;> simp

omit [DecidableEq ι] in
theorem Progress.accounted {call : WaitCall} {w w' : UInt32} {t : Thread}
    (progress : Progress call w w' t) (mask : call.bitmask ≠ 0) (result : call.hasEfState = true) :
    Accounted (some ⟨call.bitmask, call.retry, fun b => (bit t.reports b).toNat⟩) t := by
  have masked := fun b => (progress.reports b).2.2
  cases progress with
  | goesOn sameMask sameRetry sameResult =>
    rw [← sameMask] at mask
    rw [← sameResult] at result
    refine ⟨mask, result, ?_⟩
    rw [sameMask, sameRetry]
    simp [Thread.reports]
  | delivers taken set =>
    rintro record ⟨⟩
    exact ⟨⟨fun _ => set, fun _ => rfl⟩, masked, fun _ => rfl, fun failed => absurd rfl failed,
      fun _ => by decide⟩
  | fails failed spurious =>
    rintro record ⟨⟩
    refine ⟨⟨fun ok => absurd ok failed, fun set => absurd rfl set⟩, masked, fun _ => rfl, ?_,
      spurious⟩
    intro _ b
    simp [Thread.reports]
  | crashes => trivial

/-- A step of a `wait`. -/
theorem Conserved.progresses (inv : Conserved word σ) {a : FreeAction ι}
    (taken : FreeStep σ.flag a φ) {call : WaitCall} {pc : WaitPc}
    (at_i : σ.flag.thread a.actor = .wait call pc)
    (progress : Progress call σ.flag.word φ.word (φ.thread a.actor)) :
    Conserved word (σ.record a.actor φ) := by
  have own := inv.threads a.actor
  rw [at_i] at own
  obtain ⟨mask, result, record⟩ := own
  have cleared : (fun b => 0 + (bit σ.flag.word b && !bit φ.word b).toNat) =
      fun b => (bit (φ.thread a.actor).reports b).toNat := by
    funext b
    rw [(progress.reports b).1, Nat.zero_add]
  simp only [Log.record, at_i, record, Option.map_some, cleared]
  refine ⟨?_, ?_, inv.others taken (fun j other => update_of_ne other _ _) ?_⟩
  · intro b
    have balance := inv.balance b
    have split := (progress.reports b).2.1
    dsimp only
    omega
  · intro i known b member unmasked
    dsimp only at member
    by_cases actor : i = a.actor
    · rw [actor, update_self] at member
      cases member
      -- A reported bit is on the mask.
      cases reported : bit (φ.thread a.actor).reports b with
      | true => exact absurd ((progress.reports b).2.2 reported) (by simp [unmasked])
      | false => simp only [reported, Bool.toNat_false]
    · rw [update_of_ne actor] at member
      exact inv.within i known b member unmasked
  · dsimp only
    rw [update_self]
    exact progress.accounted mask result

theorem Conserved.step (inv : Conserved word σ) {a : FreeAction ι} (proper : a.Proper)
    (taken : FreeStep σ.flag a φ) : Conserved word (σ.record a.actor φ) := by
  have own := inv.threads a.actor
  have waiting : ∀ call pc, σ.flag.thread a.actor = .wait call pc →
      call.bitmask ≠ 0 ∧ call.hasEfState = true := by
    intro call pc at_i
    rw [at_i] at own
    exact ⟨own.1, own.2.1⟩
  have move := taken.move proper waiting
  generalize source : σ.flag.thread a.actor = t at move own
  generalize target : φ.thread a.actor = t' at move
  generalize after : φ.word = word' at move
  cases move with
  | wakes =>
    simp only [Log.record, source, target]
    refine inv.kept taken after (fun j other => update_of_ne other _ _) ?_ ?_
    · rw [update_self, target]
      rfl
    · rw [update_self]
      nofun
  | waits mask result =>
    simp only [Log.record, source, target]
    refine inv.kept taken after (fun j other => update_of_ne other _ _) ?_ ?_
    · rw [update_self, target]
      exact ⟨mask, result, rfl⟩
    · rw [update_self]
      rintro record b ⟨⟩ _
      rfl
  | raises leads =>
    simp only [Log.record, source]
    refine inv.raises taken after ?_
    rw [target]
    rcases leads with rfl | rfl
    · exact own
    · intro record known
      cases own.symm.trans known
  | wakesUp =>
    simp only [Log.record, source]
    refine inv.kept taken after (fun _ _ => rfl) ?_ (inv.within _)
    rw [target]
    intro record known
    cases own.symm.trans known
  | progresses progress =>
    rw [← target, ← after] at progress
    exact inv.progresses taken source progress
  | finishes =>
    simp only [Log.record, source]
    refine inv.kept taken after (fun _ _ => rfl) ?_ (inv.within _)
    rw [target]
    trivial

theorem reachable_inv_conserved (reachable : Reachable (Log.initial word)
    (Restrict (fun _ => FreeAction.Proper) Log.Step) σ) : Conserved word σ := by
  refine reachable.invariant (fun _ => initial_conserved) ?_
  rintro σ a τ inv ⟨proper, ⟨taken⟩⟩
  exact inv.step proper taken

/-- Every bit that was set at the start or raised by a `wake` is still set or was reported by a
`wait`, and a `wait` that has returned has cleared exactly what it reports. -/
theorem reachable_conserved (reachable : Reachable (Log.initial word)
    (Restrict (fun _ => FreeAction.Proper) Log.Step) σ) :
    (∀ b, (bit word b).toNat + σ.raised b = σ.reported b + (bit σ.flag.word b).toNat) ∧
    (∀ i record b, σ.waits i = some record → bit record.bitmask b = false →
      record.cleared b = 0) ∧
    ∀ i record status efState, σ.waits i = some record →
      σ.flag.thread i = .returned status efState → Returned record status efState := by
  have inv := reachable_inv_conserved reachable
  refine ⟨inv.balance, inv.within, ?_⟩
  intro i record status efState known returned
  have own := inv.threads i
  rw [returned] at own
  exact own record known

/-- One thread sets bit 0, the other one takes it. -/
theorem reachable_conserved_two : ∃ σ : Log Bool, σ.raised 0 = 1 ∧ σ.reported 0 = 1 ∧
    (bit 0 0).toNat + σ.raised 0 = σ.reported 0 + (bit σ.flag.word 0).toNat := by
  have start : Reachable (Log.initial 0) (Restrict (fun _ => FreeAction.Proper) Log.Step)
      (⟨⟨0, fun _ => .idle⟩, fun _ => 0, fun _ => 0, fun _ => none⟩ : Log Bool) :=
    .start ⟨fun _ => rfl, rfl, fun _ => rfl, fun _ => rfl, fun _ => rfl⟩
  have proper : (1 : UInt32) ≠ 0 := by decide
  have wakes := start.next (a := FreeAction.step (.wake false 1))
    ⟨proper, .entered (.step (.wake rfl))⟩
  have raised := wakes.next (a := FreeAction.step (.fetchOr false))
    ⟨trivial, .entered (.step (.fetchOr rfl))⟩
  have waits := raised.next (a := FreeAction.step (.wait true 1 true 0 0 false))
    ⟨⟨proper, rfl⟩, .entered (.step (.wait rfl))⟩
  have taken := waits.next (a := FreeAction.step (.helper true))
    ⟨trivial, .entered (.step (.helper rfl))⟩
  exact ⟨_, rfl, rfl, (reachable_conserved taken).1 0⟩

end Fmq.EventFlag
