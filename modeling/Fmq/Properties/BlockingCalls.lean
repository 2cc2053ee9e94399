import Fmq.Lib.Transition
import Fmq.Model.Blocking
import Fmq.Properties.Counters
import Fmq.Properties.Sleepers

/-!
# Blocking calls

What the parts of `write` and `read` do on aligned counters, and the runs of one side while
the other one stands still.
-/
namespace Fmq.Blocking

open EventFlag (WaitCall Thread)
open Transition Function

variable {g : Geometry} {masks : Masks}

@[simp] theorem Side.other_ne (side : Side) : side.other ≠ side := by
  cases side <;> decide

@[simp] theorem Side.other_other (side : Side) : side.other.other = side := by
  cases side <;> rfl

theorem Side.eq_or_other (side side' : Side) : side' = side ∨ side' = side.other := by
  cases side <;> cases side' <;> decide

/-! ## The queue -/

/-- How many messages a side can transfer when `n` are unread. -/
def available (g : Geometry) (n : Nat) : Side → Nat
  | .writer => g.N - n
  | .reader => n

/-- The number of unread messages after a side transferred `k`. -/
def transferred (n k : Nat) : Side → Nat
  | .writer => n + k
  | .reader => n - k

/-- The first part of `write` or `read` succeeds exactly when enough is available. -/
theorem beginSide_cases {σ : Storage} {n : Nat} (counts : g.Counts σ n) (side : Side) (k : UInt64)
    (capacity : k.toNat ≤ g.N) :
    (k.toNat ≤ available g n side ∧
      ∃ p, beginSide (queue g) σ k side = .ok (true, g.transaction p k, σ)) ∨
    (available g n side < k.toNat ∧ beginSide (queue g) σ k side = .ok (false, .empty, σ)) := by
  cases side with
  | writer =>
    simp only [beginSide, counts.beginWrite k, available, bind, Except.bind, pure, Except.pure]
    split
    next room => exact Or.inl ⟨room, _, rfl⟩
    next full => exact Or.inr ⟨Nat.lt_of_not_le full, rfl⟩
  | reader =>
    simp only [beginSide, counts.beginRead k capacity, available]
    split
    next enough => exact Or.inl ⟨enough, _, rfl⟩
    next short => exact Or.inr ⟨Nat.lt_of_not_le short, rfl⟩

/-- A granted copy succeeds and moves no counter. -/
theorem copySide_eq (σ : Storage) (side : Side) (p : Nat) (k : UInt64) (data : List UInt8)
    (capacity : k.toNat ≤ g.N) :
    ∃ ring, copySide (queue g) σ (g.transaction p k) (some data) k side =
      .ok (true, { σ with ring }) := by
  cases side with
  | writer =>
    obtain ⟨ring, eq⟩ := g.copyTo_succeeds .kSynchronizedReadWrite σ.ring p k 0 k data capacity
      (by simp)
    exact ⟨ring, by simp only [copySide, eq, bind, Except.bind, pure, Except.pure]⟩
  | reader =>
    have eq := g.copyFrom_transaction .kSynchronizedReadWrite σ.ring p k 0 k capacity (by simp)
    refine ⟨σ.ring, ?_⟩
    simp only [copySide, Option.isSome_some, eq, bind, Except.bind, pure, Except.pure]

/-- A commit succeeds and moves the counters apart or together, aligned or not. -/
theorem commitSide_eq {σ : Storage} {n : Nat} (apart : g.Apart σ n) (side : Side) (k : UInt64)
    (room : k.toNat ≤ available g n side) :
    ∃ σ', commitSide (queue g) σ k side = (true, σ') ∧
      g.Apart σ' (transferred n k.toNat side) := by
  cases side with
  | writer => exact ⟨_, rfl, apart.commitWrite k room⟩
  | reader => exact ⟨_, apart.commitRead k, apart.popped k room⟩

/-- What one side transfers only helps the other one. -/
theorem available_other (n k : Nat) (side : Side) (capacity : n ≤ g.N) :
    available g n side.other ≤ available g (transferred n k side) side.other := by
  cases side <;> simp only [Side.other, available, transferred] <;> omega

theorem available_le (side : Side) (bounded : n ≤ g.N) : available g n side ≤ g.N := by
  cases side
  · exact Nat.sub_le _ _
  · exact bounded

/-! ## Where a call goes on -/

/-- A call returns at once, or makes its first attempt with a count that could succeed. -/
theorem enter_ok {q : Queue} {mask : UInt32} {hasEvFlag : Bool} {count : UInt64}
    {data : Option (List UInt8)} {timeout : Int64} {phase : Phase}
    (entered : enter q mask hasEvFlag count data timeout = .ok phase) :
    phase = .returned false ∨ ∃ capacity, q.getQuantumCount = .ok capacity ∧ count ≤ capacity ∧
      phase = .begin ⟨count, data, timeout, timeout ≠ 0, 0⟩ .first := by
  -- The three checks in turn; the last one bounds the count.
  unfold enter at entered
  split at entered
  · cases entered
    exact Or.inl rfl
  split at entered
  · cases entered
    exact Or.inl rfl
  obtain ⟨capacity, quantum, entered⟩ := bind_eq_ok.mp entered
  split at entered
  · cases entered
    exact Or.inl rfl
  next fits =>
    cases entered
    exact Or.inr ⟨capacity, quantum, UInt64.not_lt.mp fits, rfl⟩

theorem enter_cases {mask : UInt32} {hasEvFlag : Bool} {count : UInt64}
    {data : Option (List UInt8)} {timeout : Int64} {phase : Phase}
    (entered : enter (queue g) mask hasEvFlag count data timeout = .ok phase) :
    phase = .returned false ∨
      ∃ call, phase = .begin call .first ∧ call.count.toNat ≤ g.N := by
  rcases enter_ok entered with returned | ⟨capacity, quantum, fits, begins⟩
  · exact Or.inl returned
  · cases (g.getQuantumCount_eq _).symm.trans quantum
    rw [UInt64.le_iff_toNat_le, Geometry.toNat_messages (Nat.le_refl g.N)] at fits
    exact Or.inr ⟨_, begins, fits⟩

section

variable (call : BlockingCall)

theorem failed_cases (a : Attempt) :
    call.failed a = .returned false ∨ call.failed a = .head call ∨
      call.failed a = .prevTime call := by
  cases a with
  | first =>
    cases timed : call.shouldTimeOut
    · exact Or.inr (Or.inl (by simp [BlockingCall.failed, timed]))
    · exact Or.inr (Or.inr (by simp [BlockingCall.failed, timed]))
  | last => exact Or.inl rfl
  | retry => exact Or.inr (Or.inl rfl)

/-- A reading of the clock changes the times of the call only. -/
theorem readCurrentTime_cases (mask : UInt32) (now : Int64) :
    ∃ call' : BlockingCall, call'.count = call.count ∧
      (call.readCurrentTime mask now = (.begin call' .last, .idle) ∨
        call.readCurrentTime mask now = call'.wait mask) := by
  unfold BlockingCall.readCurrentTime
  dsimp only
  split
  · refine ⟨_, ?_, Or.inl rfl⟩
    rfl
  · refine ⟨_, ?_, Or.inr rfl⟩
    rfl

theorem waitReturned_cases (mask : UInt32) (status : Status) (efState : UInt32) :
    call.waitReturned mask status efState = .returned false ∨
      call.waitReturned mask status efState = .begin call .retry ∨
      call.waitReturned mask status efState = .head call := by
  unfold BlockingCall.waitReturned
  split
  · exact Or.inl rfl
  split
  · exact Or.inl rfl
  split
  · exact Or.inr (Or.inl rfl)
  · exact Or.inr (Or.inr rfl)

end

/-! ## Runs of one side -/

/-- The two masks are set and have no bit in common. -/
structure Masks.Proper (masks : Masks) : Prop where
  read : masks.readNotification ≠ 0
  write : masks.writeNotification ≠ 0
  disjoint : masks.readNotification &&& masks.writeNotification = 0

theorem Masks.Proper.wait_ne_zero (proper : masks.Proper) (side : Side) : masks.wait side ≠ 0 := by
  cases side with
  | writer => exact proper.read
  | reader => exact proper.write

/-- No attempt finds a misaligned counter or copies through a null pointer. -/
def Sound (g : Geometry) (σ : State) : Action → Prop
  | .begin _ => g.s ∣ σ.storage.readPtr.toNat ∧ g.s ∣ σ.storage.writePtr.toNat
  | .copy side => ∀ call a tx, σ.phase side = .copy call a tx → call.data ≠ none
  | _ => True

variable {σ : State} {n : Nat}

/-- `σ` with one side under way. -/
def State.with (σ : State) (side : Side) (storage : Storage) (phase : Phase) (thread : Thread) :
    State :=
  ⟨storage, ⟨σ.flag.word, update σ.flag.thread side thread⟩, update σ.phase side phase⟩

variable {side : Side} {storage storage' : Storage} {phase phase' : Phase} {thread thread' : Thread}
  {word : UInt32}

@[simp] theorem with_phase : (σ.with side storage phase thread).phase side = phase :=
  update_self _ _ _

@[simp] theorem with_thread : (σ.with side storage phase thread).flag.thread side = thread :=
  update_self _ _ _

@[simp] theorem with_word : (σ.with side storage phase thread).flag.word = σ.flag.word := rfl

theorem with_to : (σ.with side storage phase thread).to side phase' =
    σ.with side storage phase' thread := by
  simp [State.with, State.to]

theorem with_to_storage : ({ σ.with side storage phase thread with storage := storage' }).to side
    phase' = σ.with side storage' phase' thread := by
  simp [State.with, State.to]

theorem with_toFlag : (σ.with side storage phase thread).toFlag side (phase', thread') =
    σ.with side storage phase' thread' := by
  simp [State.with, State.to, State.toFlag, EventFlag.State.set]

theorem with_toFlag_storage : ({ σ.with side storage phase thread with
      storage := storage' }).toFlag side (phase', thread') =
    σ.with side storage' phase' thread' := by
  simp [State.with, State.to, State.toFlag, EventFlag.State.set]

/-- A step of the event flag. -/
theorem with_flag : { σ.with side storage phase thread with
      flag := (σ.with side storage phase thread).flag.set side word thread' } =
    { σ with flag := ⟨word, σ.flag.thread⟩ }.with side storage phase thread' := by
  simp [State.with, EventFlag.State.set]

theorem with_idle (phase : σ.phase side = .idle) (thread : σ.flag.thread side = .idle)
    (storage : Storage) : σ.with side storage .idle .idle = { σ with storage } := by
  unfold State.with
  rw [← phase, ← thread, update_eq_self, update_eq_self]

/-- The buffers hold as many messages as the calls announce. -/
def Filled (g : Geometry) : Action → Prop
  | .call _ _ count (some data) _ => count.toNat * g.s ≤ data.length
  | _ => True

/-- A call that never times out. -/
def patient (g : Geometry) (count : UInt64) : BlockingCall :=
  ⟨count, some (.replicate (count.toNat * g.s) 0), 0, false, 0⟩

theorem enter_patient {mask : UInt32} (nonzero : mask ≠ 0) {count : UInt64}
    (fits : count.toNat ≤ g.N) :
    enter (queue g) mask true count (some (.replicate (count.toNat * g.s) 0)) 0 =
      .ok (.begin (patient g count) .first) := by
  have capacity : ¬ count > .ofNat g.N := by
    rw [gt_iff_lt, UInt64.lt_iff_toNat_lt, Geometry.toNat_messages (Nat.le_refl g.N)]
    exact Nat.not_lt.mpr fits
  unfold enter
  simp only [g.getQuantumCount_eq, bind, Except.bind, pure, Except.pure, Bool.not_true,
    Bool.false_eq_true, if_false, if_neg nonzero, if_neg capacity]
  rfl

/-- The runs without unsound attempts. -/
abbrev Runs (g : Geometry) (masks : Masks) (σ τ : State) : Prop :=
  ∃ labels, Run (Restrict (Sound g) (Step g masks)) σ labels τ

theorem Runs.trans {σ τ υ : State} : Runs g masks σ τ → Runs g masks τ υ → Runs g masks σ υ
  | ⟨_, run⟩, ⟨_, run'⟩ => ⟨_, run.append run'⟩

theorem Runs.single {σ τ : State} {a : Action} (sound : Sound g σ a) (taken : Step g masks σ a τ) :
    Runs g masks σ τ := ⟨_, .cons ⟨sound, taken⟩ (.done τ)⟩

variable {call : BlockingCall} {data : List UInt8}

/-- A call that finds what it needs goes on to wake the other side. -/
theorem run_commit (proper : masks.Proper) (counts : g.Counts storage n) (side : Side)
    (buffer : call.data = some data) (enough : call.count.toNat ≤ available g n side)
    (a : Attempt) :
    ∃ ring storage',
      Run (Restrict (Sound g) (Step g masks)) (σ.with side storage (.begin call a) .idle)
        [.begin side, .copy side, .commit side]
        (σ.with side storage' .notify (.wakeFetchOr (masks.notify side))) ∧
      commitSide (queue g) { storage with ring } call.count side = (true, storage') ∧
      g.Apart storage' (transferred n call.count.toNat side) := by
  have fits := Nat.le_trans enough (available_le side counts.bounded)
  -- Enough is available, so the first part is granted.
  rcases beginSide_cases counts side call.count fits with ⟨_, p, begun⟩ | ⟨short, _⟩
  swap
  · exact absurd short (Nat.not_lt.mpr enough)
  obtain ⟨ring, copied⟩ := copySide_eq storage side p call.count data fits
  rw [← buffer] at copied
  have apart : g.Apart { storage with ring } n := ⟨counts.count, counts.bounded⟩
  obtain ⟨storage', committed, apart'⟩ := commitSide_eq apart side call.count enough
  have nonzero : masks.notify side ≠ 0 := proper.wait_ne_zero side.other
  -- The mask to notify is not zero, so the call goes on to `wake`.
  have next : succeeded (masks.notify side) = (.notify, .wakeFetchOr (masks.notify side)) := by
    simp [succeeded, EventFlag.wake, nonzero]
  have begins : Step g masks (σ.with side storage (.begin call a) .idle) _ _ :=
    .begin with_phase begun
  have copies : Step g masks
      (σ.with side storage (.copy call a (g.transaction p call.count)) .idle) _ _ :=
    .copy with_phase copied
  have commits : Step g masks (σ.with side { storage with ring } (.commit call a) .idle) _ _ :=
    .commit with_phase committed
  have aligned : Sound g (σ.with side storage (.begin call a) .idle) (.begin side) :=
    ⟨counts.readAligned, counts.writeAligned⟩
  have present : Sound g
      (σ.with side storage (.copy call a (g.transaction p call.count)) .idle) (.copy side) := by
    intro call' a' tx phase
    cases with_phase.symm.trans phase
    rw [buffer]
    exact Option.some_ne_none _
  rw [if_pos rfl, with_to_storage] at begins copies
  rw [if_pos rfl, next, with_toFlag_storage] at commits
  exact ⟨ring, storage', .cons ⟨aligned, begins⟩ (.cons ⟨present, copies⟩
    (.cons ⟨by exact trivial, commits⟩ (.done _))), committed, apart'⟩

theorem and_not_of_clear {mask : UInt32} (clear : word &&& mask = 0) : word &&& ~~~mask = word := by
  apply EventFlag.eq_of_bit
  intro b
  have both := congrArg (EventFlag.bit · b) clear
  simp only [EventFlag.bit_and, EventFlag.bit_zero] at both
  rw [EventFlag.bit_and_not]
  cases set : EventFlag.bit word b
  · rfl
  · rw [set, Bool.true_and] at both
    rw [both]
    rfl

/-- A `wait` without a timeout that finds no bit of its mask set falls asleep. -/
theorem run_sleep (proper : masks.Proper) (side : Side) (untimed : call.shouldTimeOut = false)
    (zero : call.timeOutNanos = 0) (clear : σ.flag.word &&& masks.wait side = 0)
    (storage : Storage) :
    ∃ wc, Runs g masks (σ.with side storage (.head call) .idle)
      (σ.with side storage (.wait call) (.wait wc .asleep)) := by
  let wc : WaitCall := ⟨masks.wait side, true, 0, 0, true, false, 0⟩
  have same := and_not_of_clear clear
  have called : call.wait (masks.wait side) = (.wait call, .wait wc .helper) := by
    unfold BlockingCall.wait
    rw [zero]
    rfl
  -- No bit to clear: the fetch-and leaves the word, and the futex finds what it expects.
  have unset : wc.helper σ.flag.word = (σ.flag.word, .wait wc (.futexWait σ.flag.word)) := by
    simp [WaitCall.helper, wc, proper.wait_ne_zero side, clear, same]
  have waits : Step g masks (σ.with side storage (.head call) .idle) _ _ :=
    .enterWait with_phase untimed
  have looks : Step g masks (σ.with side storage (.wait call) (.wait wc .helper)) _ _ :=
    .flag (by exact trivial) (.helper with_thread)
  have sleeps : Step g masks
      (σ.with side storage (.wait call) (.wait wc (.futexWait σ.flag.word))) _ _ :=
    .flag (by exact trivial) (.futexWait with_thread)
  rw [called, with_toFlag] at waits
  rw [with_word, unset, with_flag] at looks
  rw [with_word, if_pos rfl, with_flag] at sleeps
  exact ⟨wc, (Runs.single (by exact trivial) waits).trans
    ((Runs.single (by exact trivial) looks).trans (.single (by exact trivial) sleeps))⟩

end Fmq.Blocking
