import Fmq.Properties.BlockingCalls
import Fmq.Properties.WaitSteps

/-!
# No lost wake-up

A side that failed an attempt waits for the bits of its mask. As long as the queue still refuses
its count this is right; the step that changes that is the commit of the other side, which then
owes the bits. The invariant follows the debt through the fetch-or and the futex system call.
-/
namespace Fmq.Blocking

open EventFlag (WaitCall WaitPc Thread bit)
open Transition Function

variable {g : Geometry} {masks : Masks}

/-! ## The threads of the event flag -/

/-- A `wait` of a blocking call on this mask: under way, or returned, with a set bit unless it
failed. -/
def WaitThread (mask : UInt32) : EventFlag.Thread → Prop
  | .wait call _ => call.bitmask = mask ∧ call.hasEfState = true ∧ call.retry = true
  | .returned status efState => status = NO_ERROR → efState &&& mask ≠ 0
  | .crashed => True
  | _ => False

/-- A `wake` of a blocking call on this mask. -/
def WakeThread (mask : UInt32) : EventFlag.Thread → Prop
  | .wakeFetchOr bitmask | .wakeFutex bitmask => bitmask = mask
  | .returned .. => True
  | _ => False

theorem waitThread_helperReturned {mask : UInt32} {call : WaitCall} {status : Status}
    (known : call.bitmask = mask ∧ call.hasEfState = true ∧ call.retry = true)
    (reports : status = NO_ERROR → call.efState &&& mask ≠ 0) :
    WaitThread mask (call.helperReturned status) := by
  unfold WaitCall.helperReturned
  split
  · split <;> exact known
  · exact reports

/-- What a step of a `wait` on this mask does to the word. While the call stays under way, the
bits of the mask are as they were. -/
structure WaitMove (mask word word' : UInt32) (t : Thread) : Prop where
  thread : WaitThread mask t
  clears : word' = word ∨ word' = word &&& ~~~mask
  stays : ∀ call pc, t = .wait call pc → word' &&& mask = word &&& mask

/-- A step that does not touch the word. -/
theorem WaitMove.local {mask word : UInt32} {t : Thread} (thread : WaitThread mask t) :
    WaitMove mask word word t := ⟨thread, Or.inl rfl, fun _ _ _ => rfl⟩

theorem and_not_and (word mask : UInt32) : (word &&& ~~~mask) &&& mask = 0 := by
  apply EventFlag.eq_zero_of_bit
  intro b
  rw [EventFlag.bit_and, EventFlag.bit_and_not]
  cases bit word b <;> cases bit mask b <;> rfl

theorem and_and_self (word mask : UInt32) : (word &&& mask) &&& mask = word &&& mask := by
  rw [UInt32.and_assoc, UInt32.and_self]

theorem WaitMove.helper {mask word : UInt32} {call : WaitCall}
    (known : call.bitmask = mask ∧ call.hasEfState = true ∧ call.retry = true) :
    WaitMove mask word (call.helper word).1 (call.helper word).2 := by
  obtain ⟨rfl, hasEfState, retry⟩ := known
  unfold WaitCall.helper
  dsimp only
  split
  next => exact .local (waitThread_helperReturned ⟨rfl, hasEfState, retry⟩ fun zero =>
      absurd zero (by decide))
  next =>
    split
    next some_set =>
      -- A bit was set: the call returns with it, and the fetch-and has cleared the mask.
      refine ⟨waitThread_helperReturned ⟨rfl, hasEfState, retry⟩ ?_, Or.inr rfl, ?_⟩
      · intro _
        rwa [and_and_self]
      · intro call' pc eq
        simp [WaitCall.helperReturned, NO_ERROR, EAGAIN, EINTR] at eq
    -- No bit of the mask was set, so clearing the mask has changed nothing.
    next none_set =>
      refine ⟨⟨rfl, hasEfState, retry⟩, Or.inr rfl, ?_⟩
      intro _ _ _
      rw [and_not_and, not_not.mp none_set]

theorem WaitMove.afterWoken {mask word : UInt32} {call : WaitCall}
    (known : call.bitmask = mask ∧ call.hasEfState = true ∧ call.retry = true) :
    WaitMove mask word (call.afterWoken word).1 (call.afterWoken word).2 := by
  obtain ⟨rfl, hasEfState, retry⟩ := known
  unfold WaitCall.afterWoken
  dsimp only
  split
  next none_set =>
    refine ⟨waitThread_helperReturned ⟨rfl, hasEfState, retry⟩ fun zero =>
      absurd zero (by decide), Or.inr rfl, ?_⟩
    intro _ _ _
    rw [and_not_and, none_set]
  next some_set =>
    refine ⟨waitThread_helperReturned ⟨rfl, hasEfState, retry⟩ ?_, Or.inr rfl, ?_⟩
    · intro _
      rwa [and_and_self]
    · intro call' pc eq
      simp [WaitCall.helperReturned, NO_ERROR, EAGAIN, EINTR] at eq

theorem waitThread_futexFailed {mask : UInt32} {call : WaitCall} {errno : Int}
    (known : call.bitmask = mask ∧ call.hasEfState = true ∧ call.retry = true)
    (failed : 0 < errno) : WaitThread mask (call.futexFailed errno) := by
  refine waitThread_helperReturned known ?_
  intro zero
  have zero_errno : -errno = 0 := zero
  omega

theorem waitThread_readCurrentTime {mask : UInt32} {call : WaitCall} (now : Int64)
    (known : call.bitmask = mask ∧ call.hasEfState = true ∧ call.retry = true) :
    WaitThread mask (call.readCurrentTime now) := by
  rcases call.readCurrentTime_cases now with eq | ⟨-, eq⟩ | ⟨_, -, -, -, eq⟩ <;> rw [eq]
  · trivial
  · simp [WaitThread, NO_ERROR, ETIMEDOUT]
  · exact known

theorem WaitMove.of_step {mask word word' : UInt32} {call : WaitCall} {pc : WaitPc}
    {reading : Option Int64} {t : Thread} (step : EventFlag.WaitStep call word pc reading word' t)
    (known : WaitThread mask (.wait call pc)) : WaitMove mask word word' t := by
  cases step with
  | prevTime => exact .local known
  | currentTime => exact .local (waitThread_readCurrentTime _ known)
  | helper => exact .helper known
  | goesOn => exact .local known
  | failed _ positive => exact .local (waitThread_futexFailed known positive)
  | afterWoken => exact .afterWoken known

/-- The steps of the event flag inside a running call, by the thread that takes them. -/
theorem inside_cases {f f' : EventFlag.State Side} {a : EventFlag.Action Side}
    (taken : EventFlag.Step f a f') (inside : Inside a) : ∃ i,
    (∃ m, f.thread i = .wakeFetchOr m ∧
      f' = f.set i (f.word ||| m) (EventFlag.afterFetchOr f.word m)) ∨
    (∃ m, f.thread i = .wakeFutex m ∧
      f' = EventFlag.State.set ⟨f.word, fun j => (f.thread j).wokenBy m⟩ i f.word
        (.returned NO_ERROR 0)) ∨
    (∃ call pc word t, f.thread i = .wait call pc ∧ f' = f.set i word t ∧
      ∀ mask, WaitThread mask (.wait call pc) → WaitMove mask f.word word t) := by
  have waits {call pc} (at_wait : f.thread a.actor = .wait call pc) :
      ∃ call pc word t, f.thread a.actor = .wait call pc ∧ f' = f.set a.actor word t ∧
        ∀ mask, WaitThread mask (.wait call pc) → WaitMove mask f.word word t := by
    obtain ⟨word, t, eq, step⟩ := (EventFlag.FreeStep.step taken).waitStep at_wait
    exact ⟨call, pc, word, t, at_wait, eq, fun _ known => .of_step step known⟩
  cases taken with
  | wake => exact inside.elim
  | wait => exact inside.elim
  | finish => exact inside.elim
  | @fetchOr i m at_i => exact ⟨i, Or.inl ⟨m, at_i, rfl⟩⟩
  | @futexWake i m at_i => exact ⟨i, Or.inr (Or.inl ⟨m, at_i, rfl⟩)⟩
  -- Every other step belongs to a running `wait`.
  | prevTime at_i | currentTime at_i | helper at_i | futexWait at_i | futexError at_i
  | spurious at_i | interrupted at_i | timedOut at_i | afterWoken at_i =>
    exact ⟨_, Or.inr (Or.inr (waits at_i))⟩

/-! ## The invariant -/

/-- The count a call was granted is still available, and its regions are those of slots. -/
def PhaseInv (g : Geometry) (n : Nat) (side : Side) : Phase → Prop
  | .begin call _ | .prevTime call | .head call | .wait call => call.count.toNat ≤ g.N
  | .copy call _ tx => call.count.toNat ≤ available g n side ∧
      ∃ p, tx = g.transaction p call.count
  | .commit call _ => call.count.toNat ≤ available g n side
  | _ => True

def ThreadInv (masks : Masks) (side : Side) : Phase → Thread → Prop
  | .wait _, t => WaitThread (masks.wait side) t
  | .notify, t => WakeThread (masks.notify side) t
  | _, t => t = .idle

/-- Why a side may wait for `count` messages: they are not there, or a bit of its mask is set,
or the other side is about to set one. -/
def Owed (g : Geometry) (masks : Masks) (n : Nat) (flag : EventFlag.State Side) (side : Side)
    (count : UInt64) : Prop :=
  available g n side < count.toNat ∨ flag.word &&& masks.wait side ≠ 0 ∨
    flag.thread side.other = .wakeFetchOr (masks.wait side)

/-- The calls between a failed attempt and the return of `wait`. -/
def Waits (call : BlockingCall) : Phase → Thread → Prop
  | .prevTime c, _ | .head c, _ | .wait c, .wait .. => c = call
  | _, _ => False

structure SideInv (g : Geometry) (masks : Masks) (n : Nat) (flag : EventFlag.State Side)
    (side : Side) (phase : Phase) : Prop where
  granted : PhaseInv g n side phase
  thread : ThreadInv masks side phase (flag.thread side)
  owed : ∀ call, Waits call phase (flag.thread side) → Owed g masks n flag side call.count

structure InvAt (g : Geometry) (masks : Masks) (n : Nat) (σ : State) : Prop where
  apart : g.Apart σ.storage n
  flag : EventFlag.Inv σ.flag
  sides : ∀ side, SideInv g masks n σ.flag side (σ.phase side)

def Inv (g : Geometry) (masks : Masks) (σ : State) : Prop := ∃ n, InvAt g masks n σ

theorem initial_inv {σ : State} (start : initial σ) : Inv g masks σ := by
  obtain ⟨⟨ring, storage⟩, idle, phases⟩ := start
  refine ⟨0, ?_, EventFlag.initial_inv idle, ?_⟩
  · rw [storage]
    exact ⟨by simp [Storage.reset], Nat.zero_le _⟩
  · intro side
    rw [phases side]
    exact ⟨trivial, idle side, fun _ waits => waits.elim⟩

variable {σ : State} {n : Nat} {side : Side}

/-! ## Steps of one side -/

/-- A step of one side outside the event flag. -/
theorem InvAt.to (inv : InvAt g masks n σ) {storage : Storage} {phase : Phase}
    (apart : g.Apart storage n) (own : SideInv g masks n σ.flag side phase) :
    InvAt g masks n ({ σ with storage }.to side phase) := by
  refine ⟨apart, inv.flag, ?_⟩
  intro side'
  simp only [State.to]
  by_cases same : side' = side
  · subst same
    rwa [update_self]
  · rw [update_of_ne same]
    exact inv.sides side'

/-- A thread of the event flag between two calls of it. -/
def Resting : Thread → Prop
  | .idle | .returned .. => True
  | _ => False

/-- Another number of unread messages, which is no less for this side. -/
theorem PhaseInv.more {phase : Phase} {m : Nat} (inv : PhaseInv g n side phase)
    (more : available g n side ≤ available g m side) : PhaseInv g m side phase := by
  cases phase with
  | copy call a tx => exact ⟨Nat.le_trans inv.1 more, inv.2⟩
  | commit call a =>
    have held : call.count.toNat ≤ available g n side := inv
    exact Nat.le_trans held more
  | _ => exact inv

/-- A step of one side that calls the event flag or returns from it. -/
theorem InvAt.toFlag (inv : InvAt g masks n σ) {storage : Storage} {m : Nat}
    {next : Phase × Thread} (apart : g.Apart storage m)
    (resting : Resting (σ.flag.thread side)) (quiet : next.2.Quiet)
    (own : SideInv g masks m (σ.flag.set side σ.flag.word next.2) side next.1)
    (more : available g n side.other ≤ available g m side.other)
    (debt : available g n side.other < available g m side.other →
      next.2 = .wakeFetchOr (masks.wait side.other)) :
    InvAt g masks m ({ σ with storage }.toFlag side next) := by
  have moves : ∀ bitmask, σ.flag.thread side ≠ .wakeFutex bitmask := by
    intro bitmask owes
    rw [owes] at resting
    exact resting
  refine ⟨apart, inv.flag.quiet moves (fun _ => id) quiet, ?_⟩
  intro side'
  simp only [State.toFlag, State.to]
  rcases side.eq_or_other side' with rfl | rfl
  · rwa [update_self]
  · rw [update_of_ne side.other_ne]
    have kept : (σ.flag.set side σ.flag.word next.2).thread side.other =
      σ.flag.thread side.other := EventFlag.set_thread_of_ne side.other_ne _ _
    have moved : (σ.flag.set side σ.flag.word next.2).thread side.other.other = next.2 := by
      rw [side.other_other, EventFlag.set_thread_self]
    obtain ⟨granted, thread, owed⟩ := inv.sides side.other
    refine ⟨granted.more more, kept ▸ thread, ?_⟩
    intro call waits
    rw [kept] at waits
    -- What was owed to the other side: the queue may have more for it now, the word is the same,
    -- and a side that calls or leaves the event flag was not about to pay.
    rcases owed call waits with short | set | coming
    · by_cases still : available g m side.other < call.count.toNat
      · exact Or.inl still
      · exact Or.inr (Or.inr (moved.trans (debt (by omega))))
    · exact Or.inr (Or.inl set)
    · rw [side.other_other] at coming
      rw [coming] at resting
      exact resting.elim

/-! ## Steps inside the event flag -/

theorem Masks.wait_apart (masks : Masks)
    (disjoint : masks.readNotification &&& masks.writeNotification = 0) (side : Side) :
    masks.wait side &&& masks.wait side.other = 0 := by
  cases side with
  | writer => exact disjoint
  | reader => rwa [UInt32.and_comm]

/-- Clearing the bits of one mask leaves those of a disjoint one. -/
theorem and_not_of_disjoint {mask mask' : UInt32} (disjoint : mask &&& mask' = 0)
    (word : UInt32) : (word &&& ~~~mask) &&& mask' = word &&& mask' := by
  apply EventFlag.eq_of_bit
  intro b
  have apart := congrArg (bit · b) disjoint
  simp only [EventFlag.bit_and, EventFlag.bit_zero] at apart
  rw [EventFlag.bit_and, EventFlag.bit_and_not, EventFlag.bit_and]
  -- Bit by bit.
  revert apart
  cases bit word b <;> cases bit mask b <;> cases bit mask' b <;> decide

theorem or_and_self_ne_zero {word mask : UInt32} (nonzero : mask ≠ 0) :
    (word ||| mask) &&& mask ≠ 0 := by
  obtain ⟨b, set⟩ := EventFlag.exists_bit nonzero
  intro zero
  have clear := congrArg (bit · b) zero
  simp [set] at clear

theorem or_and_ne_zero {word mask : UInt32} (m : UInt32) (nonzero : word &&& mask ≠ 0) :
    (word ||| m) &&& mask ≠ 0 := by
  obtain ⟨b, set⟩ := EventFlag.exists_bit nonzero
  intro zero
  have clear := congrArg (bit · b) zero
  rw [EventFlag.bit_and, Bool.and_eq_true] at set
  simp [set] at clear

/-- A running `wake` belongs to a side that has committed. -/
theorem ThreadInv.notify {phase : Phase} {t : Thread} {m : UInt32}
    (inv : ThreadInv masks side phase t) (wakes : t = .wakeFetchOr m ∨ t = .wakeFutex m) :
    phase = .notify ∧ m = masks.notify side := by
  rcases wakes with rfl | rfl
  · cases phase with
    | notify => exact ⟨rfl, inv⟩
    | wait => exact (show False from inv).elim
    | _ => cases inv
  · cases phase with
    | notify => exact ⟨rfl, inv⟩
    | wait => exact (show False from inv).elim
    | _ => cases inv

theorem ThreadInv.waiting {phase : Phase} {call : WaitCall} {pc : WaitPc}
    (inv : ThreadInv masks side phase (.wait call pc)) :
    ∃ c, phase = .wait c ∧ WaitThread (masks.wait side) (.wait call pc) := by
  cases phase with
  | wait c => exact ⟨c, rfl, inv⟩
  | notify => exact (show False from inv).elim
  | _ => cases inv

theorem wakeThread_afterFetchOr (old m : UInt32) : WakeThread m (EventFlag.afterFetchOr old m) := by
  unfold EventFlag.afterFetchOr
  split
  · exact rfl
  · trivial

theorem InvAt.fetchOr (inv : InvAt g masks n σ) (nonzero : ∀ side, masks.wait side ≠ 0)
    {m : UInt32} (at_i : σ.flag.thread side = .wakeFetchOr m) :
    InvAt g masks n { σ with
      flag := σ.flag.set side (σ.flag.word ||| m) (EventFlag.afterFetchOr σ.flag.word m) } := by
  have own := inv.sides side
  obtain ⟨phase, mask⟩ := own.thread.notify (Or.inl at_i)
  refine ⟨inv.apart, inv.flag.fetchOr at_i, ?_⟩
  intro side'
  dsimp only
  rcases side.eq_or_other side' with rfl | rfl
  · -- The side itself owes nobody but itself a system call now.
    rw [phase]
    refine ⟨trivial, ?_, fun _ waits => waits.elim⟩
    rw [EventFlag.set_thread_self, mask]
    exact wakeThread_afterFetchOr _ _
  · -- The bits that the other side was owed are set by this step.
    have kept := EventFlag.set_thread_of_ne (σ := σ.flag) side.other_ne
      (σ.flag.word ||| m) (EventFlag.afterFetchOr σ.flag.word m)
    obtain ⟨granted, thread, owed⟩ := inv.sides side.other
    refine ⟨granted, kept ▸ thread, ?_⟩
    intro call waits
    rw [kept] at waits
    rcases owed call waits with short | set | coming
    · exact Or.inl short
    · exact Or.inr (Or.inl (or_and_ne_zero m set))
    · rw [side.other_other, at_i] at coming
      cases coming
      exact Or.inr (Or.inl (or_and_self_ne_zero (nonzero _)))

theorem InvAt.futexWake (inv : InvAt g masks n σ) {m : UInt32}
    (at_i : σ.flag.thread side = .wakeFutex m) :
    InvAt g masks n { σ with
      flag := EventFlag.State.set ⟨σ.flag.word, fun j => (σ.flag.thread j).wokenBy m⟩ side
        σ.flag.word (.returned NO_ERROR 0) } := by
  have own := inv.sides side
  obtain ⟨phase, -⟩ := own.thread.notify (Or.inr at_i)
  refine ⟨inv.apart, inv.flag.futexWake at_i, ?_⟩
  intro side'
  dsimp only
  rcases side.eq_or_other side' with rfl | rfl
  · rw [phase]
    refine ⟨trivial, ?_, fun _ waits => waits.elim⟩
    rw [EventFlag.set_thread_self]
    trivial
  · obtain ⟨granted, thread, owed⟩ := inv.sides side.other
    have kept : (EventFlag.State.set ⟨σ.flag.word, fun j => (σ.flag.thread j).wokenBy m⟩ side
        σ.flag.word (.returned NO_ERROR 0)).thread side.other =
        (σ.flag.thread side.other).wokenBy m :=
      EventFlag.set_thread_of_ne side.other_ne _ _
    -- The debt of this side is paid by now, so the other one relies on the word or the queue.
    have owed' : ∀ call, Waits call (σ.phase side.other) (σ.flag.thread side.other) →
        available g n side.other < call.count.toNat ∨
          σ.flag.word &&& masks.wait side.other ≠ 0 := by
      intro call waits
      rcases owed call waits with short | set | coming
      · exact Or.inl short
      · exact Or.inr set
      · rw [side.other_other, at_i] at coming
        cases coming
    -- The other side is woken or left alone; either way it is inside the same `wait`.
    rcases EventFlag.wokenBy_cases (σ.flag.thread side.other) m with same | ⟨call, asleep, woken⟩
    · rw [same] at kept
      refine ⟨granted, kept ▸ thread, fun call waits => ?_⟩
      rw [kept] at waits
      exact (owed' call waits).elim Or.inl fun set => Or.inr (Or.inl set)
    · rw [woken] at kept
      rw [asleep] at thread
      obtain ⟨c, phase', known⟩ := thread.waiting
      rw [phase'] at granted ⊢
      refine ⟨granted, kept ▸ known, fun call' waits => ?_⟩
      rw [kept] at waits
      have waited : Waits call' (σ.phase side.other) (σ.flag.thread side.other) := by
        rw [phase', asleep]
        exact waits
      exact (owed' call' waited).elim Or.inl fun set => Or.inr (Or.inl set)

theorem InvAt.waitMove (inv : InvAt g masks n σ)
    (disjoint : masks.readNotification &&& masks.writeNotification = 0) {call : WaitCall}
    {pc : WaitPc} {word : UInt32} {t : Thread} (at_i : σ.flag.thread side = .wait call pc)
    (flag : EventFlag.Inv (σ.flag.set side word t))
    (move : ∀ mask, WaitThread mask (.wait call pc) → WaitMove mask σ.flag.word word t) :
    InvAt g masks n { σ with flag := σ.flag.set side word t } := by
  obtain ⟨granted, thread, owed⟩ := inv.sides side
  rw [at_i] at thread owed
  obtain ⟨c, phase, known⟩ := thread.waiting
  obtain ⟨thread', clears, stays⟩ := move _ known
  have unchanged : (σ.flag.set side word t).thread side.other = σ.flag.thread side.other :=
    EventFlag.set_thread_of_ne side.other_ne _ _
  refine ⟨inv.apart, flag, ?_⟩
  intro side'
  dsimp only
  rcases side.eq_or_other side' with rfl | rfl
  · -- The side's own debt: while its `wait` goes on, the bits of its mask stay.
    rw [phase] at granted owed ⊢
    refine ⟨granted, ?_, ?_⟩
    · rw [EventFlag.set_thread_self]
      exact thread'
    · intro call' waits
      rw [EventFlag.set_thread_self] at waits
      cases t with
      | wait call'' pc'' =>
        have same := stays call'' pc'' rfl
        rcases owed call' waits with short | set | coming
        · exact Or.inl short
        · exact Or.inr (Or.inl (by rw [EventFlag.State.set, same]; exact set))
        · exact Or.inr (Or.inr (unchanged.trans coming))
      | _ => exact (show False from waits).elim
  · -- The other side's bits are not on this mask.
    obtain ⟨granted', thread'', owed'⟩ := inv.sides side.other
    refine ⟨granted', unchanged ▸ thread'', ?_⟩
    intro call' waits
    rw [unchanged] at waits
    have same : word &&& masks.wait side.other = σ.flag.word &&& masks.wait side.other := by
      rcases clears with eq | eq
      · rw [eq]
      · rw [eq, and_not_of_disjoint (masks.wait_apart disjoint side)]
    rcases owed' call' waits with short | set | coming
    · exact Or.inl short
    · exact Or.inr (Or.inl (by rw [EventFlag.State.set, same]; exact set))
    · rw [side.other_other, at_i] at coming
      cases coming

/-! ## Runs -/

theorem InvAt.flagStep (inv : InvAt g masks n σ) (proper : masks.Proper)
    {a : EventFlag.Action Side} {f : EventFlag.State Side} (inside : Inside a)
    (taken : EventFlag.Step σ.flag a f) : InvAt g masks n { σ with flag := f } := by
  have flag := inv.flag.step taken
  obtain ⟨side, ⟨m, at_i, rfl⟩ | ⟨m, at_i, rfl⟩ | ⟨call, pc, word, t, at_i, rfl, move⟩⟩ :=
    inside_cases taken inside
  · exact inv.fetchOr proper.wait_ne_zero at_i
  · exact inv.futexWake at_i
  · exact inv.waitMove proper.disjoint at_i flag move

/-- After a failed attempt the side may wait, since its count was not available. -/
theorem sideInv_failed {flag : EventFlag.State Side} {call : BlockingCall} (a : Attempt)
    (idle : flag.thread side = .idle) (capacity : call.count.toNat ≤ g.N)
    (short : available g n side < call.count.toNat) :
    SideInv g masks n flag side (call.failed a) := by
  -- It was not available a step ago, and nothing has happened since.
  rcases failed_cases call a with eq | eq | eq <;> rw [eq]
  · exact ⟨trivial, idle, fun _ waits => waits.elim⟩
  · exact ⟨capacity, idle, fun call' same => Or.inl (same ▸ short)⟩
  · exact ⟨capacity, idle, fun call' same => Or.inl (same ▸ short)⟩

theorem InvAt.begin (inv : InvAt g masks n σ) {call : BlockingCall} {a : Attempt} {ok : Bool}
    {tx : MemTransaction} {storage : Storage} (phase : σ.phase side = .begin call a)
    (sound : Sound g σ (.begin side))
    (begun : beginSide (queue g) σ.storage call.count side = .ok (ok, tx, storage)) :
    InvAt g masks n
      ({ σ with storage }.to side (if ok then .copy call a tx else call.failed a)) := by
  obtain ⟨capacity, idle, -⟩ := phase ▸ inv.sides side
  -- Alignment is the one thing that the invariant does not give.
  have counts : g.Counts σ.storage n := ⟨inv.apart, sound.1, sound.2⟩
  rcases beginSide_cases counts side call.count capacity with ⟨enough, p, eq⟩ | ⟨short, eq⟩
  · rw [eq] at begun
    cases begun
    exact inv.to inv.apart ⟨⟨enough, p, rfl⟩, idle, fun _ waits => waits.elim⟩
  · rw [eq] at begun
    cases begun
    exact inv.to inv.apart (sideInv_failed a idle capacity short)

theorem InvAt.copy (inv : InvAt g masks n σ) {call : BlockingCall} {a : Attempt} {ok : Bool}
    {tx : MemTransaction} {storage : Storage} (phase : σ.phase side = .copy call a tx)
    (sound : Sound g σ (.copy side))
    (copied : copySide (queue g) σ.storage tx call.data call.count side = .ok (ok, storage)) :
    InvAt g masks n
      ({ σ with storage }.to side (if ok then .commit call a else call.failed a)) := by
  obtain ⟨⟨enough, p, rfl⟩, idle, -⟩ := phase ▸ inv.sides side
  have capacity := Nat.le_trans enough (available_le side inv.apart.bounded)
  obtain ⟨data, eq⟩ := Option.ne_none_iff_exists'.mp (sound call a _ phase)
  obtain ⟨ring, moved⟩ := copySide_eq σ.storage side p call.count data capacity
  rw [eq, moved] at copied
  cases copied
  exact inv.to ⟨inv.apart.count, inv.apart.bounded⟩ ⟨enough, idle, fun _ waits => waits.elim⟩

theorem InvAt.commit (inv : InvAt g masks n σ) (proper : masks.Proper) {call : BlockingCall}
    {a : Attempt} {ok : Bool} {storage : Storage} (phase : σ.phase side = .commit call a)
    (committed : commitSide (queue g) σ.storage call.count side = (ok, storage)) :
    Inv g masks (if ok then { σ with storage }.toFlag side (succeeded (masks.notify side))
      else { σ with storage }.to side (call.failed a)) := by
  obtain ⟨enough, idle, -⟩ := phase ▸ inv.sides side
  obtain ⟨storage', eq, apart⟩ := commitSide_eq inv.apart side call.count enough
  rw [eq] at committed
  cases committed
  have nonzero : masks.notify side ≠ 0 := proper.wait_ne_zero side.other
  have next : succeeded (masks.notify side) = (.notify, .wakeFetchOr (masks.notify side)) := by
    simp [succeeded, EventFlag.wake, nonzero]
  rw [if_pos rfl, next]
  -- The other side may now have what it waits for; the fetch-or that owes it the bit comes next.
  refine ⟨_, inv.toFlag apart ?_ trivial ?_ (available_other n _ side inv.apart.bounded)
    fun _ => rfl⟩
  · rw [show σ.flag.thread side = .idle from idle]
    trivial
  · refine ⟨trivial, ?_, fun _ waits => waits.elim⟩
    rw [EventFlag.set_thread_self]
    exact rfl

/-- A side enters `evFlag->wait`. -/
theorem InvAt.enterWait (inv : InvAt g masks n σ) {call call' : BlockingCall}
    (phase : σ.phase side = .head call) (count : call'.count = call.count) :
    InvAt g masks n (σ.toFlag side (call'.wait (masks.wait side))) := by
  obtain ⟨capacity, idle, owed⟩ := phase ▸ inv.sides side
  have resting : Resting (σ.flag.thread side) := by
    rw [show σ.flag.thread side = .idle from idle]
    trivial
  -- With or without a timeout, `wait` starts inside the call.
  obtain ⟨pc, eq⟩ := EventFlag.exists_wait (masks.wait side) true 0 call'.timeOutNanos true
  refine inv.toFlag inv.apart resting (EventFlag.wait_quiet _ _ _ _ _) ?_ (Nat.le_refl _)
    (fun less => absurd less (Nat.lt_irrefl _))
  refine ⟨?_, ?_, ?_⟩
  · rw [BlockingCall.wait]
    have same : call'.count.toNat ≤ g.N := by
      rw [count]
      exact capacity
    exact same
  · rw [EventFlag.set_thread_self, BlockingCall.wait, eq]
    exact ⟨rfl, rfl, rfl⟩
  · intro c waits
    rw [EventFlag.set_thread_self, BlockingCall.wait, eq] at waits
    cases waits
    rw [count]
    rcases owed call rfl with short | set | coming
    · exact Or.inl short
    · exact Or.inr (Or.inl set)
    · refine Or.inr (Or.inr ?_)
      rw [EventFlag.set_thread_of_ne side.other_ne]
      exact coming

/-- A side leaves the event flag for a phase in which nothing is owed to it. -/
theorem InvAt.leave (inv : InvAt g masks n σ) {phase : Phase}
    (resting : Resting (σ.flag.thread side)) (granted : PhaseInv g n side phase)
    (thread : ThreadInv masks side phase .idle) (owes_nothing : ∀ call, ¬ Waits call phase .idle) :
    InvAt g masks n (σ.toFlag side (phase, .idle)) := by
  refine inv.toFlag inv.apart resting trivial ?_ (Nat.le_refl _)
    (fun less => absurd less (Nat.lt_irrefl _))
  refine ⟨granted, ?_, ?_⟩
  · rw [EventFlag.set_thread_self]
    exact thread
  · intro call waits
    rw [EventFlag.set_thread_self] at waits
    exact (owes_nothing call waits).elim

theorem Inv.step (inv : Inv g masks σ) (proper : masks.Proper) {a : Action} {τ : State}
    (taken : Step g masks σ a τ) (sound : Sound g σ a) : Inv g masks τ := by
  obtain ⟨n, inv⟩ := inv
  cases taken with
  | @call side hasEvFlag count data timeout phase idle entered =>
    refine ⟨n, inv.to inv.apart ?_⟩
    have resting := (idle ▸ inv.sides side).thread
    rcases enter_cases entered with rfl | ⟨call, rfl, capacity⟩
    · exact ⟨trivial, resting, fun _ waits => waits.elim⟩
    · exact ⟨capacity, resting, fun _ waits => waits.elim⟩
  | begin phase begun => exact ⟨n, inv.begin phase sound begun⟩
  | copy phase copied => exact ⟨n, inv.copy phase sound copied⟩
  | commit phase committed => exact inv.commit proper phase committed
  | @prevTime side call now phase =>
    obtain ⟨capacity, idle, owed⟩ := phase ▸ inv.sides side
    refine ⟨n, inv.to inv.apart ⟨capacity, idle, ?_⟩⟩
    rintro call' rfl
    exact owed call rfl
  | @currentTime side call now phase =>
    obtain ⟨call', count, eq | eq⟩ := readCurrentTime_cases call (masks.wait side) now
    · rw [eq]
      obtain ⟨capacity, idle, -⟩ := phase ▸ inv.sides side
      have bounded : call'.count.toNat ≤ g.N := count ▸ capacity
      refine ⟨n, inv.leave ?_ bounded rfl fun _ waits => waits⟩
      rw [show σ.flag.thread side = .idle from idle]
      trivial
    · rw [eq]
      exact ⟨n, inv.enterWait phase count⟩
  | enterWait phase => exact ⟨n, inv.enterWait phase rfl⟩
  | flag inside taken => exact ⟨n, inv.flagStep proper inside taken⟩
  | @waitReturned side call status efState phase returned =>
    obtain ⟨capacity, thread, -⟩ := phase ▸ inv.sides side
    rw [returned] at thread
    have resting : Resting (σ.flag.thread side) := by
      rw [returned]
      trivial
    have reports : status = NO_ERROR → efState &&& masks.wait side ≠ 0 := thread
    unfold BlockingCall.waitReturned
    split
    next => exact ⟨n, inv.leave resting trivial rfl fun _ waits => waits⟩
    next known =>
      split
      next => exact ⟨n, inv.leave resting trivial rfl fun _ waits => waits⟩
      next not_timeout =>
        -- Only a `wait` that reports a bit gets here, so the attempt is repeated.
        have success : status = NO_ERROR := by
          by_contra failed
          exact known ⟨not_timeout, failed⟩
        rw [if_pos (reports success)]
        exact ⟨n, inv.leave resting capacity rfl fun _ waits => waits⟩
  | @wakeReturned side status efState phase returned =>
    refine ⟨n, inv.leave ?_ trivial rfl fun _ waits => waits⟩
    rw [returned]
    trivial
  | @finish side result phase =>
    have idle := (phase ▸ inv.sides side).thread
    exact ⟨n, inv.to inv.apart ⟨trivial, idle, fun _ waits => waits.elim⟩⟩

theorem reachable_inv (proper : masks.Proper)
    (reachable : Reachable initial (Restrict (Sound g) (Step g masks)) σ) : Inv g masks σ :=
  reachable.invariant (fun _ => initial_inv) fun _ _ _ inv taken => inv.step proper taken.2 taken.1

/-- The side has committed and its `wake` is not complete. -/
def Waking (σ : State) (side : Side) : Prop :=
  σ.phase side = .notify ∧
    ∃ m, σ.flag.thread side = .wakeFetchOr m ∨ σ.flag.thread side = .wakeFutex m

/-- Neither side sleeps while the queue has what it waits for, unless the other one is about to
wake it. -/
structure NoLostWakeup (g : Geometry) (σ : State) : Prop where
  reader : ∀ call wc k, σ.phase .reader = .wait call → σ.flag.thread .reader = .wait wc .asleep →
    (queue g).availableToRead σ.storage.writePtr σ.storage.readPtr = .ok k → call.count ≤ k →
    Waking σ .writer
  writer : ∀ call wc k, σ.phase .writer = .wait call → σ.flag.thread .writer = .wait wc .asleep →
    (queue g).availableToWrite σ.storage.writePtr σ.storage.readPtr = .ok k → call.count ≤ k →
    Waking σ .reader

/-- A sleeper that is not owed the messages is owed a bit, and the bit a system call. -/
theorem InvAt.waking (inv : InvAt g masks n σ) {call : BlockingCall} {wc : WaitCall}
    (phase : σ.phase side = .wait call) (asleep : σ.flag.thread side = .wait wc .asleep)
    (enough : call.count.toNat ≤ available g n side) : Waking σ side.other := by
  have peer := (inv.sides side.other).thread
  obtain ⟨-, thread, owed⟩ := phase ▸ inv.sides side
  rw [asleep] at thread owed
  rcases owed call rfl with short | set | coming
  · -- The queue does have the messages.
    omega
  · -- A bit of the mask is set, so some `wake` owes a system call, and only the other side runs
    -- one.
    obtain ⟨b, both⟩ := EventFlag.exists_bit set
    rw [EventFlag.bit_and, Bool.and_eq_true] at both
    have masked : bit wc.bitmask b = true := by
      rw [thread.1]
      exact both.2
    obtain ⟨j, m, at_j, -⟩ := inv.flag.sleepers side wc b asleep masked both.1
    rcases side.eq_or_other j with rfl | rfl
    · rw [asleep] at at_j
      cases at_j
    · exact ⟨(peer.notify (Or.inr at_j)).1, m, Or.inr at_j⟩
  · exact ⟨(peer.notify (Or.inl coming)).1, _, Or.inl coming⟩

/-- In every run whose attempts find aligned counters and a buffer, no wake-up is lost. -/
theorem reachable_noLostWakeup (proper : masks.Proper)
    (reachable : Reachable initial (Restrict (Sound g) (Step g masks)) σ) : NoLostWakeup g σ := by
  obtain ⟨n, inv⟩ := reachable_inv proper reachable
  constructor
  · intro call wc k phase asleep readable le
    refine inv.waking phase asleep ?_
    cases inv.apart.availableToRead.symm.trans readable
    rwa [UInt64.le_iff_toNat_le, Geometry.toNat_messages inv.apart.bounded] at le
  · intro call wc k phase asleep writable le
    refine inv.waking phase asleep ?_
    cases inv.apart.availableToWrite.symm.trans writable
    rwa [UInt64.le_iff_toNat_le, Geometry.toNat_messages (Nat.sub_le g.N n)] at le

theorem Masks.standard_proper : Masks.standard.Proper := ⟨by decide, by decide, by decide⟩

/-- The reader sleeps, and the writer has committed the message it waits for. -/
theorem reachable_noLostWakeup_single : ∃ σ : State,
    (∃ call wc, σ.phase .reader = .wait call ∧ σ.flag.thread .reader = .wait wc .asleep) ∧
      (queue .single).availableToRead σ.storage.writePtr σ.storage.readPtr = .ok 1 ∧
      Waking σ .writer := by
  let g := Geometry.single
  let σ : State := ⟨.reset fun _ => 0, ⟨0, fun _ => .idle⟩, fun _ => .idle⟩
  have proper := Masks.standard_proper
  have counts : g.Counts σ.storage 0 := ⟨⟨by decide, by decide⟩, by decide, by decide⟩
  have empty : beginSide (queue g) σ.storage 1 .reader = .ok (false, .empty, σ.storage) :=
    counts.beginRead 1 (by decide)
  have start : Reachable initial (Restrict (Sound g) (Step g .standard))
      (σ.with .reader σ.storage .idle .idle) := by
    rw [with_idle rfl rfl]
    exact .start ⟨⟨_, rfl⟩, fun _ => rfl, fun _ => rfl⟩
  have called := start.next (a := .call .reader true 1
    (some (.replicate ((1 : UInt64).toNat * g.s) 0)) 0)
    ⟨by exact trivial, .call with_phase (enter_patient (proper.wait_ne_zero .reader)
      (show (1 : UInt64).toNat ≤ g.N from g.N_pos))⟩
  rw [with_to] at called
  have aligned : Sound g (σ.with .reader σ.storage (.begin (patient g 1) .first) .idle)
      (.begin .reader) := ⟨counts.readAligned, counts.writeAligned⟩
  have failed := called.next ⟨aligned, .begin with_phase empty⟩
  rw [if_neg (by decide), with_to_storage] at failed
  have clear : σ.flag.word &&& Masks.standard.wait .reader = 0 := by decide
  obtain ⟨wc, _, sleeps⟩ := run_sleep (g := g) proper .reader
    (rfl : (patient g 1).shouldTimeOut = _) rfl clear σ.storage
  let τ := σ.with .reader σ.storage (.wait (patient g 1)) (.wait wc .asleep)
  have asleep : Reachable initial (Restrict (Sound g) (Step g .standard))
      (τ.with .writer τ.storage .idle .idle) := by
    rw [with_idle rfl rfl]
    exact sleeps.reachable failed
  have called' := asleep.next (a := .call .writer true 1
    (some (.replicate ((1 : UInt64).toNat * g.s) 0)) 0)
    ⟨by exact trivial, .call with_phase (enter_patient (proper.wait_ne_zero .writer)
      (show (1 : UInt64).toNat ≤ g.N from g.N_pos))⟩
  rw [with_to] at called'
  obtain ⟨_, storage, commits, _, apart⟩ :=
    run_commit (σ := τ) proper counts .writer (rfl : (patient g 1).data = _) (by decide) .first
  have one : (queue .single).availableToRead storage.writePtr storage.readPtr = .ok 1 :=
    apart.availableToRead
  let υ := τ.with .writer storage .notify (.wakeFetchOr (Masks.standard.notify .writer))
  have waits : τ.phase .reader = .wait (patient g 1) := with_phase
  have in_futex : τ.flag.thread .reader = .wait wc .asleep := with_thread
  have none_lost := reachable_noLostWakeup proper (commits.reachable called')
  exact ⟨υ, ⟨patient g 1, wc, waits, in_futex⟩, one,
    none_lost.reader _ wc 1 waits in_futex one (UInt64.le_refl 1)⟩

end Fmq.Blocking
