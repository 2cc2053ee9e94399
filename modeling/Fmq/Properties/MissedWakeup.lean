import Fmq.Properties.LostWakeup

/-!
# Sleeping beside an unread message

When the message size does not divide `2^64`, the write that wraps the counter misaligns it.
`beginRead` then refuses every attempt, and the reader goes back to sleep although the message
is there and the writer has finished.
-/
namespace Fmq.Blocking

open EventFlag (WaitCall Thread)
open Transition Function

variable {g : Geometry} {σ : State} {n : Nat}

/-- No call is in progress, and both bits of the default masks are set. -/
structure AtRest (σ : State) : Prop where
  word : σ.flag.word = 3
  phase : ∀ side, σ.phase side = .idle
  thread : ∀ side, σ.flag.thread side = .idle

/-- With every bit set already, a call that finds its message or slot transfers it and leaves
everything else at rest. -/
theorem AtRest.transfer (rest : AtRest σ) (counts : g.Counts σ.storage n) (side : Side)
    (enough : 1 ≤ available g n side) :
    ∃ ring storage labels,
      Run (Restrict (fun _ => Filled g) (Step g .standard)) σ labels { σ with storage } ∧
      commitSide (queue g) { σ.storage with ring } 1 side = (true, storage) ∧
      labels.length = 7 := by
  have idle := with_idle (rest.phase side) (rest.thread side)
  obtain ⟨ring, storage, run, committed, _⟩ :=
    run_commit (σ := σ) Masks.standard_proper counts side (rfl : (patient g 1).data = _) enough
      .first
  -- Both bits are set, so `wake` makes no system call.
  have skipped : EventFlag.afterFetchOr σ.flag.word (Masks.standard.notify side) =
      .returned NO_ERROR 0 := by
    rw [rest.word]
    cases side <;> rfl
  have kept : σ.flag.word ||| Masks.standard.notify side = σ.flag.word := by
    rw [rest.word]
    cases side <;> rfl
  have entered : Step g .standard (σ.with side σ.storage .idle .idle) _ _ :=
    .call with_phase (enter_patient (Masks.standard_proper.wait_ne_zero side)
      (show (1 : UInt64).toNat ≤ g.N from g.N_pos))
  have set : Step g .standard
      (σ.with side storage .notify (.wakeFetchOr (Masks.standard.notify side))) _ _ :=
    .flag (by exact trivial) (.fetchOr with_thread)
  have woke : Step g .standard (σ.with side storage .notify (.returned NO_ERROR 0)) _ _ :=
    .wakeReturned with_phase with_thread
  have done : Step g .standard (σ.with side storage (.returned true) .idle) _ _ :=
    .finish with_phase
  rw [with_to, idle] at entered
  rw [with_word, kept, skipped, with_flag] at set
  rw [with_toFlag] at woke
  rw [with_to, idle] at done
  -- `wake` runs to its end, and the call returns.
  have wakes : Run (Step g .standard) _ _ { σ with storage } :=
    .cons set (.cons woke (.cons done (.done _)))
  have commits := run.mono fun _ _ _ taken => taken.2
  have whole := Run.cons entered (commits.append wakes)
  refine ⟨ring, storage, _, whole.restrict ?_, committed, rfl⟩
  -- The first label is the call, with a buffer for its one message.
  simp [Filled]

/-! ## Up to the wrap -/

/-- Everything is at rest after `k` messages were written and read. -/
structure Drained (g : Geometry) (σ : State) (k : Nat) : Prop extends AtRest σ where
  readPtr : σ.storage.readPtr = .ofNat (k * g.s)
  writePtr : σ.storage.writePtr = .ofNat (k * g.s)

variable {k : Nat}

theorem ofNat_succ_mul : UInt64.ofNat (k * g.s) + 1 * .ofNat g.s = .ofNat ((k + 1) * g.s) := by
  rw [UInt64.one_mul, ← UInt64.ofNat_add, Nat.succ_mul]

theorem Drained.counts (drained : Drained g σ k) (small : k * g.s < 2 ^ 64) :
    g.Counts σ.storage 0 where
  count := by
    rw [drained.readPtr, drained.writePtr, UInt64.sub_self, UInt64.toNat_zero, Nat.zero_mul]
  bounded := Nat.zero_le _
  readAligned := by
    rw [drained.readPtr, UInt64.toNat_ofNat_of_lt' small]
    exact Nat.dvd_mul_left _ _
  writeAligned := by
    rw [drained.writePtr, UInt64.toNat_ofNat_of_lt' small]
    exact Nat.dvd_mul_left _ _

/-- One message is written. -/
theorem Drained.write (drained : Drained g σ k) (small : k * g.s < 2 ^ 64) :
    ∃ ring labels, Run (Restrict (fun _ => Filled g) (Step g .standard)) σ labels
      { σ with storage := ⟨ring, .ofNat (k * g.s), .ofNat ((k + 1) * g.s)⟩ } ∧
        labels.length = 7 := by
  obtain ⟨ring, storage, labels, run, committed, length⟩ :=
    drained.transfer (drained.counts small) .writer g.N_pos
  simp only [commitSide, Queue.commitWrite, drained.readPtr, drained.writePtr, g.queue_sizeofT,
    ofNat_succ_mul, Prod.mk.injEq, true_and] at committed
  subst committed
  exact ⟨ring, labels, run, length⟩

theorem Drained.written (drained : Drained g σ k) (small : k * g.s < 2 ^ 64) (ring : Ring) :
    g.Apart ⟨ring, .ofNat (k * g.s), .ofNat ((k + 1) * g.s)⟩ 1 := by
  have moved := (drained.counts small).toApart.commitWrite 1 g.N_pos
  simp only [Queue.commitWrite, drained.readPtr, drained.writePtr, g.queue_sizeofT,
    ofNat_succ_mul] at moved
  exact ⟨moved.count, moved.bounded⟩

/-- One message is written and read. -/
theorem Drained.round (drained : Drained g σ k) (small : (k + 1) * g.s < 2 ^ 64) :
    ∃ τ labels, Run (Restrict (fun _ => Filled g) (Step g .standard)) σ labels τ ∧
      Drained g τ (k + 1) ∧ labels.length = 14 := by
  have before : k * g.s < 2 ^ 64 := Nat.lt_of_le_of_lt (Nat.mul_le_mul_right _ k.le_succ) small
  obtain ⟨ring, labels, run, length⟩ := drained.write before
  have counts : g.Counts ⟨ring, .ofNat (k * g.s), .ofNat ((k + 1) * g.s)⟩ 1 := by
    refine ⟨drained.written before ring, ?_, ?_⟩
    · rw [UInt64.toNat_ofNat_of_lt' before]
      exact Nat.dvd_mul_left _ _
    · rw [UInt64.toNat_ofNat_of_lt' small]
      exact Nat.dvd_mul_left _ _
  have rest : AtRest { σ with storage := ⟨ring, .ofNat (k * g.s), .ofNat ((k + 1) * g.s)⟩ } :=
    ⟨drained.word, drained.phase, drained.thread⟩
  obtain ⟨ring', storage, labels', run', committed, length'⟩ :=
    rest.transfer counts .reader (Nat.le_refl 1)
  have apart : g.Apart ⟨ring', .ofNat (k * g.s), .ofNat ((k + 1) * g.s)⟩ 1 :=
    ⟨counts.count, counts.bounded⟩
  simp only [commitSide, apart.commitRead 1, Geometry.popped, ofNat_succ_mul, Prod.mk.injEq,
    true_and] at committed
  subst committed
  refine ⟨_, _, run.append run', ⟨⟨rest.word, rest.phase, rest.thread⟩, rfl, rfl⟩, ?_⟩
  rw [List.length_append, length, length']

theorem run_drained (k : Nat) (small : k * g.s < 2 ^ 64) :
    ∃ σ labels τ, initial σ ∧
      Run (Restrict (fun _ => Filled g) (Step g .standard)) σ labels τ ∧ Drained g τ k ∧
        labels.length = 14 * k := by
  -- Round by round; each message takes the counters `s` bytes further.
  induction k with
  | zero =>
    let σ : State := ⟨.reset fun _ => 0, ⟨3, fun _ => .idle⟩, fun _ => .idle⟩
    have start : initial σ := ⟨⟨_, rfl⟩, fun _ => rfl, fun _ => rfl⟩
    refine ⟨σ, [], σ, start, .done σ, ⟨⟨rfl, fun _ => rfl, fun _ => rfl⟩, ?_, ?_⟩, rfl⟩
    · rw [Nat.zero_mul]
      rfl
    · rw [Nat.zero_mul]
      rfl
  | succ k ih =>
    obtain ⟨σ, _, _, start, run, drained, length⟩ :=
      ih (Nat.lt_of_le_of_lt (Nat.mul_le_mul_right _ k.le_succ) small)
    obtain ⟨τ, _, run', drained, length'⟩ := drained.round small
    refine ⟨σ, _, τ, start, run.append run', drained, ?_⟩
    rw [List.length_append, length, length', Nat.mul_succ]

/-! ## After the wrap -/

theorem beginSide_reader_misaligned {storage : Storage}
    (misaligned : ¬ g.s ∣ storage.writePtr.toNat) (count : UInt64) :
    beginSide (queue g) storage count .reader = .ok (false, .empty, storage) := by
  simp only [beginSide, Queue.beginRead]
  rcases g.beginReadWith_cases .kSynchronizedReadWrite ⟨storage.writePtr, storage.readPtr⟩ count
    with ⟨_, eq⟩ | ⟨aligned, _⟩ | ⟨aligned, _⟩ | ⟨aligned, _⟩
  · rw [eq]
    rfl
  · exact absurd aligned misaligned
  · exact absurd aligned misaligned
  · exact absurd aligned misaligned

/-- The reader finds its bit set, fails the second attempt as well, and goes to sleep. -/
theorem AtRest.falls_asleep (rest : AtRest σ) (misaligned : ¬ g.s ∣ σ.storage.writePtr.toNat) :
    ∃ labels wc, Run (Step g .standard) σ labels
      ({ σ with flag := ⟨1, σ.flag.thread⟩ }.with .reader σ.storage (.wait (patient g 1))
        (.wait wc .asleep)) := by
  let wc : WaitCall := ⟨2, true, 0, 0, true, false, 0⟩
  let τ : State := { σ with flag := ⟨1, σ.flag.thread⟩ }
  have refused := beginSide_reader_misaligned misaligned (patient g 1).count
  have call : (patient g 1).wait (Masks.standard.wait .reader) =
      (.wait (patient g 1), .wait wc .helper) := rfl
  -- The bit left by the last `wake`, which `wait` clears and reports.
  have taken : wc.helper 3 = (1, .returned NO_ERROR 2) := by decide
  have retried : (patient g 1).waitReturned (Masks.standard.wait .reader) NO_ERROR 2 =
      .begin (patient g 1) .retry := rfl
  have entered : Step g .standard (σ.with .reader σ.storage .idle .idle) _ _ :=
    .call with_phase (enter_patient (Masks.standard_proper.wait_ne_zero .reader)
      (show (1 : UInt64).toNat ≤ g.N from g.N_pos))
  have failed : Step g .standard
      (σ.with .reader σ.storage (.begin (patient g 1) .first) .idle) _ _ :=
    .begin with_phase refused
  have waits : Step g .standard (σ.with .reader σ.storage (.head (patient g 1)) .idle) _ _ :=
    .enterWait with_phase rfl
  have notified : Step g .standard
      (σ.with .reader σ.storage (.wait (patient g 1)) (.wait wc .helper)) _ _ :=
    .flag (by exact trivial) (.helper with_thread)
  have again : Step g .standard
      (τ.with .reader σ.storage (.wait (patient g 1)) (.returned NO_ERROR 2)) _ _ :=
    .waitReturned with_phase with_thread
  have failed' : Step g .standard
      (τ.with .reader σ.storage (.begin (patient g 1) .retry) .idle) _ _ :=
    .begin with_phase refused
  rw [with_to, with_idle (rest.phase _) (rest.thread _)] at entered
  rw [if_neg (by decide), with_to_storage] at failed failed'
  rw [call, with_toFlag] at waits
  rw [with_word, rest.word, taken, with_flag] at notified
  rw [retried, with_toFlag] at again
  have clear : (1 : UInt32) &&& Masks.standard.wait .reader = 0 := by decide
  -- Now the bit is clear, so the next `wait` sleeps.
  obtain ⟨wc, labels, sleeps⟩ :=
    run_sleep (g := g) (σ := τ) Masks.standard_proper .reader
      (rfl : (patient g 1).shouldTimeOut = _) rfl clear σ.storage
  have sleeps := sleeps.mono fun _ _ _ taken => taken.2
  exact ⟨_, wc, .cons entered (.cons failed (.cons waits (.cons notified (.cons again
    (.cons failed' sleeps)))))⟩

/-- A message size that does not divide `2^64`: the write that wraps the counter is never read,
and its reader sleeps with nobody about to wake it. -/
theorem missed_of_size (odd : ¬ g.s ∣ 2 ^ 64) :
    ∃ σ, Reachable initial (Step g .standard) σ ∧ ¬ NoLostWakeup g σ := by
  have rounds := Nat.div_mul_le_self (2 ^ 64) g.s
  have ne : 2 ^ 64 / g.s * g.s ≠ 2 ^ 64 := fun same =>
    odd ⟨2 ^ 64 / g.s, by rw [Nat.mul_comm, same]⟩
  have small : 2 ^ 64 / g.s * g.s < 2 ^ 64 := by omega
  have past : 2 ^ 64 < (2 ^ 64 / g.s + 1) * g.s := by
    rw [Nat.mul_comm]
    exact Nat.lt_mul_div_succ _ g.s_pos
  -- The last round below `2^64`, and one more write.
  obtain ⟨_, _, σ, start, run, drained, -⟩ := run_drained (2 ^ 64 / g.s) small
  have reachable := (run.mono fun _ _ _ taken => taken.2).reachable (.start start)
  generalize 2 ^ 64 / g.s = k at *
  obtain ⟨ring, _, run, -⟩ := drained.write small
  have run := run.mono fun _ _ _ taken => taken.2
  have rest : AtRest { σ with storage := ⟨ring, .ofNat (k * g.s), .ofNat ((k + 1) * g.s)⟩ } :=
    ⟨drained.word, drained.phase, drained.thread⟩
  have wrapped : (UInt64.ofNat ((k + 1) * g.s)).toNat = (k + 1) * g.s - 2 ^ 64 := by
    rw [UInt64.toNat_ofNat', Nat.succ_mul]
    rw [Nat.succ_mul] at past
    have := g.s_lt
    omega
  -- `(k + 1) * s - 2^64` is no multiple of `s`, since `2^64` is none.
  have misaligned : ¬ g.s ∣ (UInt64.ofNat ((k + 1) * g.s)).toNat := by
    rw [wrapped, Nat.dvd_sub_iff_right (Nat.le_of_lt past) (Nat.dvd_mul_left _ _)]
    exact odd
  obtain ⟨_, wc, run'⟩ := rest.falls_asleep misaligned
  refine ⟨_, run'.reachable (run.reachable reachable), fun none_lost => ?_⟩
  -- The distance of the counters is still one message.
  have one : (queue g).availableToRead (.ofNat ((k + 1) * g.s)) (.ofNat (k * g.s)) = .ok 1 :=
    (drained.written small ring).availableToRead
  obtain ⟨notifying, -⟩ := none_lost.reader (patient g 1) wc 1 with_phase with_thread one
    (UInt64.le_refl 1)
  have idle := rest.phase .writer
  cases idle.symm.trans notifying

/-- One message of three bytes. -/
theorem not_noLostWakeup : ¬ ∀ (g : Geometry) (masks : Masks) (σ : State), masks.Proper →
    Reachable initial (Step g masks) σ → NoLostWakeup g σ := by
  intro all
  obtain ⟨σ, reachable, missed⟩ :=
    missed_of_size (g := ⟨3, 1, by decide, by decide, by decide⟩) (by decide)
  exact missed (all _ _ σ Masks.standard_proper reachable)

end Fmq.Blocking
