import Fmq.Properties.LostWakeup
import Fmq.Properties.Lagging

/-!
# When both sides sleep

A writer and a reader whose calls never time out can both be asleep at once. This is so exactly
for the pairs of counts that leave a fill level at which neither of them fits.
-/
namespace Fmq.Blocking

open EventFlag (WaitCall Thread)
open Transition Function

variable {g : Geometry} {masks : Masks}

/-! ## Two sleepers -/

/-- The side sleeps in the futex, waiting for `count` messages. -/
def Asleep (σ : State) (side : Side) (count : UInt64) : Prop :=
  ∃ call wc, σ.phase side = .wait call ∧ σ.flag.thread side = .wait wc .asleep ∧
    call.count = count

variable {σ : State} {n : Nat}

theorem InvAt.capacity (inv : InvAt g masks n σ) {side : Side} {count : UInt64}
    (asleep : Asleep σ side count) : count.toNat ≤ g.N := by
  obtain ⟨call, wc, phase, _, rfl⟩ := asleep
  exact (phase ▸ inv.sides side).granted

/-- A sleeper whose peer sleeps too does not have what it waits for. -/
theorem InvAt.short (inv : InvAt g masks n σ) {side : Side} {count count' : UInt64}
    (asleep : Asleep σ side count) (other : Asleep σ side.other count') :
    available g n side < count.toNat := by
  obtain ⟨call, wc, phase, thread, rfl⟩ := asleep
  obtain ⟨call', wc', phase', _, _⟩ := other
  apply Nat.lt_of_not_le
  intro enough
  have waking := (inv.waking phase thread enough).1
  rw [phase'] at waking
  cases waking

/-! ## Runs of one side -/

section

variable {side : Side} {storage : Storage} {count : UInt64}

theorem run_enter (proper : masks.Proper) (side : Side) (fits : count.toNat ≤ g.N) :
    Runs g masks (σ.with side storage .idle .idle)
      (σ.with side storage (.begin (patient g count) .first) .idle) := by
  have called : Step g masks (σ.with side storage .idle .idle) _ _ :=
    .call with_phase (enter_patient (proper.wait_ne_zero side) fits)
  rw [with_to] at called
  exact .single (by exact trivial) called

/-- An attempt that does not find what it needs is not the last one. -/
theorem run_refused (counts : g.Counts storage n) (fits : count.toNat ≤ g.N)
    (short : available g n side < count.toNat) {a : Attempt} (again : a ≠ .last) :
    Runs g masks (σ.with side storage (.begin (patient g count) a) .idle)
      (σ.with side storage (.head (patient g count)) .idle) := by
  rcases beginSide_cases counts side count fits with ⟨enough, _⟩ | ⟨_, begun⟩
  · exact absurd short (Nat.not_lt.mpr enough)
  have failed : (patient g count).failed a = .head (patient g count) := by
    cases a with
    | last => exact absurd rfl again
    | _ => rfl
  have begins : Step g masks (σ.with side storage (.begin (patient g count) a) .idle) _ _ :=
    .begin with_phase begun
  rw [if_neg Bool.false_ne_true, failed, with_to_storage] at begins
  have aligned : Sound g (σ.with side storage (.begin (patient g count) a) .idle) (.begin side) :=
    ⟨counts.readAligned, counts.writeAligned⟩
  exact .single aligned begins

variable (g masks storage) in
/-- The `wake` of a side whose peer is not in a call. -/
theorem run_wake (idle : σ.flag.thread side.other = .idle) (m : UInt32) :
    Runs g masks (σ.with side storage .notify (.wakeFetchOr m))
      ({ σ with flag := ⟨σ.flag.word ||| m, σ.flag.thread⟩ }.with side storage .idle .idle) := by
  let τ : State := { σ with flag := ⟨σ.flag.word ||| m, σ.flag.thread⟩ }
  have sets : Step g masks (σ.with side storage .notify (.wakeFetchOr m)) _ _ :=
    .flag (by exact trivial) (.fetchOr with_thread)
  rw [with_word, with_flag] at sets
  -- With or without the system call, `wake` returns and nobody else has moved.
  have returns : Runs g masks
      (τ.with side storage .notify (EventFlag.afterFetchOr σ.flag.word m))
      (τ.with side storage .notify (.returned NO_ERROR 0)) := by
    unfold EventFlag.afterFetchOr
    split
    · have wakes : Step g masks (τ.with side storage .notify (.wakeFutex m)) _ _ :=
        .flag (by exact trivial) (.futexWake with_thread)
      have nobody : update (fun j => (update τ.flag.thread side (.wakeFutex m) j).wokenBy m) side
          (.returned NO_ERROR 0) = update τ.flag.thread side (.returned NO_ERROR 0) := by
        funext j
        rcases side.eq_or_other j with rfl | rfl
        · rw [update_self, update_self]
        · rw [update_of_ne side.other_ne, update_of_ne side.other_ne, update_of_ne side.other_ne,
            show τ.flag.thread side.other = .idle from idle]
          rfl
      simp only [State.with, EventFlag.State.set, nobody] at wakes
      exact .single (by exact trivial) wakes
    · exact ⟨[], .done _⟩
  have leaves : Step g masks (τ.with side storage .notify (.returned NO_ERROR 0)) _ _ :=
    .wakeReturned with_phase with_thread
  have finishes : Step g masks (τ.with side storage (.returned true) .idle) _ _ :=
    .finish with_phase
  rw [with_toFlag] at leaves
  rw [with_to] at finishes
  exact (Runs.single (by exact trivial) sets).trans (returns.trans
    ((Runs.single (by exact trivial) leaves).trans (.single (by exact trivial) finishes)))

variable (g storage count) in
/-- A `wait` that finds bits of its mask set clears them, and the call tries again. -/
theorem run_retry (proper : masks.Proper) (set : σ.flag.word &&& masks.wait side ≠ 0) :
    Runs g masks (σ.with side storage (.head (patient g count)) .idle)
      ({ σ with flag := ⟨σ.flag.word &&& ~~~masks.wait side, σ.flag.thread⟩ }.with side storage
        (.begin (patient g count) .retry) .idle) := by
  let wc : WaitCall := ⟨masks.wait side, true, 0, 0, true, false, 0⟩
  let τ : State := { σ with flag := ⟨σ.flag.word &&& ~~~masks.wait side, σ.flag.thread⟩ }
  let bits : UInt32 := σ.flag.word &&& masks.wait side
  have call : (patient g count).wait (masks.wait side) =
      (.wait (patient g count), .wait wc .helper) := rfl
  have found : wc.helper σ.flag.word = (τ.flag.word, .returned NO_ERROR bits) := by
    simp [WaitCall.helper, wc, proper.wait_ne_zero side, set, WaitCall.helperReturned, τ, bits,
      NO_ERROR, EAGAIN, EINTR]
  have again : (patient g count).waitReturned (masks.wait side) NO_ERROR bits =
      .begin (patient g count) .retry := by
    have still : bits &&& masks.wait side ≠ 0 := by rwa [and_and_self]
    simp [BlockingCall.waitReturned, still, NO_ERROR, TIMED_OUT, ETIMEDOUT]
  have waits : Step g masks (σ.with side storage (.head (patient g count)) .idle) _ _ :=
    .enterWait with_phase rfl
  have looks : Step g masks
      (σ.with side storage (.wait (patient g count)) (.wait wc .helper)) _ _ :=
    .flag (by exact trivial) (.helper with_thread)
  have leaves : Step g masks
      (τ.with side storage (.wait (patient g count)) (.returned NO_ERROR bits)) _ _ :=
    .waitReturned with_phase with_thread
  rw [call, with_toFlag] at waits
  rw [with_word, found, with_flag] at looks
  rw [again, with_toFlag] at leaves
  exact (Runs.single (by exact trivial) waits).trans
    ((Runs.single (by exact trivial) looks).trans (.single (by exact trivial) leaves))

end

@[simp] theorem with_phase_other (side : Side) (storage : Storage) (phase : Phase)
    (thread : Thread) :
    (σ.with side storage phase thread).phase side.other = σ.phase side.other :=
  update_of_ne side.other_ne _ _

@[simp] theorem with_thread_other (side : Side) (storage : Storage) (phase : Phase)
    (thread : Thread) :
    (σ.with side storage phase thread).flag.thread side.other = σ.flag.thread side.other :=
  update_of_ne side.other_ne _ _

/-! ## The threshold -/

/-- No call in progress. -/
def resting (storage : Storage) (word : UInt32) : State :=
  ⟨storage, ⟨word, fun _ => .idle⟩, fun _ => .idle⟩

theorem resting_with (storage : Storage) (word : UInt32) (side : Side) :
    (resting storage word).with side storage .idle .idle = resting storage word :=
  with_idle rfl rfl storage

/-- The writer can leave any number of messages behind, and the bits of the reader's mask. -/
theorem reachable_filled (proper : masks.Proper) (count : UInt64) (fits : count.toNat ≤ g.N) :
    ∃ storage, g.Counts storage count.toNat ∧
      Reachable initial (Restrict (Sound g) (Step g masks))
        (resting storage (0 ||| masks.wait .reader)) := by
  let σ : State := resting (.reset fun _ => 0) 0
  have behind : g.Behind σ.storage 0 0 :=
    ⟨by simp [σ, resting, Storage.reset], by simp [σ, resting, Storage.reset], Nat.le_refl 0⟩
  obtain ⟨ring, storage, writes, committed, -⟩ := run_commit (σ := σ) proper
    (behind.counts (Nat.zero_le _)) .writer (rfl : (patient g count).data = _) fits .first
  refine ⟨storage, ?_, ?_⟩
  · cases committed
    have total : (0 + count.toNat) * g.s < 2 ^ 64 := g.bytes_lt (by omega)
    have moved := g.toNat_commitWrite .kSynchronizedReadWrite { σ.storage with ring } count
      behind.writePtr total
    rw [Nat.zero_add] at moved
    exact Geometry.Behind.counts (p := 0) (w := count.toNat)
      ⟨behind.readPtr, moved, Nat.zero_le _⟩ (by omega)
  · have resting_reader : σ.flag.thread Side.writer.other = .idle := rfl
    have wakes := run_wake g masks storage resting_reader (masks.wait .reader)
    obtain ⟨_, run⟩ := (run_enter proper .writer fits).trans (Runs.trans ⟨_, writes⟩ wakes)
    rw [show σ.with .writer σ.storage .idle .idle = σ from resting_with _ _ _] at run
    have start : initial σ := ⟨⟨_, rfl⟩, fun _ => rfl, fun _ => rfl⟩
    have filled := run.reachable (.start start)
    rwa [with_idle rfl rfl] at filled

/-- An attempt of a side that fails, and the `wait` that follows when its bits are not set. -/
theorem run_sleeps (σ : State) (side : Side) (a : Attempt) (proper : masks.Proper)
    {storage : Storage} {count : UInt64} (counts : g.Counts storage n) (fits : count.toNat ≤ g.N)
    (short : available g n side < count.toNat) (again : a ≠ .last)
    (clear : σ.flag.word &&& masks.wait side = 0) :
    ∃ wc, Runs g masks (σ.with side storage (.begin (patient g count) a) .idle)
      (σ.with side storage (.wait (patient g count)) (.wait wc .asleep)) := by
  obtain ⟨wc, sleeps⟩ := run_sleep proper side (rfl : (patient g count).shouldTimeOut = _) rfl
    clear storage
  exact ⟨wc, (run_refused counts fits short again).trans sleeps⟩

theorem reachable_bothAsleep (proper : masks.Proper) {n m : UInt64} (fits_n : n.toNat ≤ g.N)
    (fits_m : m.toNat ≤ g.N) (more : g.N + 1 < n.toNat + m.toNat) :
    ∃ σ, Reachable initial (Restrict (Sound g) (Step g masks)) σ ∧ Asleep σ .writer n ∧
      Asleep σ .reader m := by
  -- The writer leaves one message less than the reader will ask for.
  obtain ⟨k, count⟩ : ∃ k : UInt64, k.toNat = m.toNat - 1 :=
    ⟨.ofNat (m.toNat - 1), Geometry.toNat_messages (g := g) (by omega)⟩
  obtain ⟨storage, counts, filled⟩ := reachable_filled (g := g) proper k (by omega)
  have full : available g k.toNat .writer < n.toNat := by
    simp only [available]
    omega
  have empty : available g k.toNat .reader < m.toNat := by
    simp only [available]
    omega
  -- The reader finds the bits of its mask first, and clears them.
  let word : UInt32 := 0 ||| masks.wait .reader
  let σ : State := resting storage (word &&& ~~~masks.wait .reader)
  have set : word &&& masks.wait .reader ≠ 0 := or_and_self_ne_zero (proper.wait_ne_zero .reader)
  have retries := run_retry g storage m proper (show (resting storage word).flag.word &&& _ ≠ 0
    from set)
  have clear : σ.flag.word = 0 := by
    apply EventFlag.eq_zero_of_bit
    intro b
    rw [show σ.flag.word = word &&& ~~~masks.wait .reader from rfl, EventFlag.bit_and_not,
      EventFlag.bit_or, EventFlag.bit_zero, Bool.false_or, Bool.and_not_self]
  obtain ⟨wc, reads⟩ := run_sleeps σ .reader .retry proper counts fits_m empty
    (by decide) (by rw [clear, UInt32.zero_and])
  -- The writer finds the word clear.
  let τ : State := σ.with .reader storage (.wait (patient g m)) (.wait wc .asleep)
  have idle : τ.with .writer storage .idle .idle = τ := with_idle rfl rfl storage
  obtain ⟨wc', writes⟩ := run_sleeps τ .writer .first proper counts fits_n full
    (by decide) (by rw [show τ.flag.word = 0 from clear, UInt32.zero_and])
  obtain ⟨_, run⟩ := ((run_enter proper .reader fits_m).trans ((run_refused counts fits_m empty
    (by decide)).trans (retries.trans reads))).trans
      (idle ▸ (run_enter (σ := τ) proper .writer fits_n).trans writes)
  rw [resting_with] at run
  exact ⟨_, run.reachable filled, ⟨patient g n, wc', with_phase, with_thread, rfl⟩,
    patient g m, wc, (with_phase_other .writer _ _ _).trans with_phase,
    (with_thread_other .writer _ _ _).trans with_thread, rfl⟩

/-- A writer and a reader that wait for `n` and `m` messages are both asleep in some run if and
only if the counts do not fit together, that is `n + m > N + 1`. -/
theorem bothAsleep_iff (g : Geometry) (masks : Masks) (proper : masks.Proper) (n m : UInt64) :
    (∃ σ, Reachable initial (Restrict (Sound g) (Step g masks)) σ ∧ Asleep σ .writer n ∧
      Asleep σ .reader m) ↔
      n.toNat ≤ g.N ∧ m.toNat ≤ g.N ∧ g.N + 1 < n.toNat + m.toNat := by
  constructor
  · rintro ⟨σ, reachable, writer, reader⟩
    obtain ⟨k, inv⟩ := reachable_inv proper reachable
    have full : g.N - k < n.toNat := inv.short writer reader
    have empty : k < m.toNat := inv.short reader writer
    exact ⟨inv.capacity writer, inv.capacity reader, by omega⟩
  · rintro ⟨fits_n, fits_m, more⟩
    exact reachable_bothAsleep proper fits_n fits_m more

/-- Both want two messages of a ring of two that holds one. -/
theorem bothAsleep_two :
    ∃ σ, Reachable initial
        (Restrict (Sound ⟨1, 2, by decide, by decide, by decide⟩)
          (Step ⟨1, 2, by decide, by decide, by decide⟩ .standard)) σ ∧
      Asleep σ .writer 2 ∧ Asleep σ .reader 2 :=
  (bothAsleep_iff ⟨1, 2, by decide, by decide, by decide⟩ .standard Masks.standard_proper 2 2).mpr
    (by decide)

end Fmq.Blocking
