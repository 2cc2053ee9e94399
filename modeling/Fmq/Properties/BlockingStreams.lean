import Fmq.Lib.Simulation
import Fmq.Model.BlockingStreams
import Fmq.Properties.MissedWakeup
import Fmq.Properties.SyncStream

/-!
# The blocking calls deliver the written stream

Whatever the two sides do between the parts of their attempts, an attempt is a transaction of
the synchronized queue. So every run of blocking calls is matched by a run of one writer and one
reader, and has the streams of that run.
-/
namespace Fmq.Blocking

open Function Memory Transition

variable {g : Geometry} {masks : Masks}

/-! ## Copies of a whole buffer -/

/-- A copy to the ring looks at the announced bytes only. -/
theorem memcpyTo_take (ring : Ring) (p : Ptr) (data : List UInt8) (sizeofT count : UInt64) {n : Nat}
    (le : (count * sizeofT).toNat ≤ n) :
    memcpyTo ring p (data.take n) sizeofT count = memcpyTo ring p data sizeofT count := by
  unfold memcpyTo
  rw [List.take_take, Nat.min_eq_left le]

theorem min_le_left (a b : UInt64) : (min a b).toNat ≤ a.toNat := by
  have minimum : min a b = if a ≤ b then a else b := rfl
  rw [minimum]
  split
  · exact Nat.le_refl _
  next gt =>
    rw [UInt64.le_iff_toNat_le] at gt
    omega

/-- The two counts of `getMemRegionInfo` add up to the announced one. -/
theorem counts_add {tx : MemTransaction} {sizeofT start n : UInt64} {info : MemRegionInfo}
    (known : tx.getMemRegionInfo sizeofT start n = some info) :
    info.firstCount.toNat + info.secondCount.toNat = n.toNat := by
  unfold MemTransaction.getMemRegionInfo at known
  dsimp only at known
  split at known
  · cases known
  cases known
  dsimp only
  have le : (if start < tx.first.length then min n (tx.first.length - start) else 0).toNat ≤
      n.toNat := by
    split
    · exact min_le_left _ _
    · exact Nat.zero_le _
  rw [UInt64.toNat_sub_of_le _ _ (UInt64.le_iff_toNat_le.mpr le)]
  omega

/-- `copyTo` from the first bytes of a buffer that holds the announced messages. -/
theorem copyTo_messages (tx : MemTransaction) (ring : Ring) (data : List UInt8) (n : UInt64)
    (capacity : n.toNat ≤ g.N) (holds : n.toNat * g.s ≤ data.length) :
    tx.copyTo (queue g).sizeofT ring (some data) 0 n =
      tx.copyTo (queue g).sizeofT ring (some (flat (records g.s n.toNat data))) 0 n := by
  rw [flat_records _ _ holds]
  unfold MemTransaction.copyTo
  dsimp only
  split
  · rfl
  next info known =>
    have sum := counts_add known
    have first := g.toNat_mul_sizeofT .kSynchronizedReadWrite info.firstCount (by omega)
    have second := g.toNat_mul_sizeofT .kSynchronizedReadWrite info.secondCount (by omega)
    -- Each region takes its own part of the announced bytes.
    have parts : n.toNat * g.s = info.firstCount.toNat * g.s + info.secondCount.toNat * g.s := by
      rw [← sum, Nat.add_mul]
    rw [memcpyTo_take _ _ _ _ _ (by rw [first]; omega), g.toNat_sizeofT]
    have rest : (data.take (n.toNat * g.s)).drop (info.firstCount.toNat * g.s) =
        (data.drop (info.firstCount.toNat * g.s)).take (info.secondCount.toNat * g.s) := by
      rw [List.drop_take]
      congr 1
      omega
    rw [rest]
    congr 1
    funext ring'
    rw [memcpyTo_take _ _ _ _ _ (by rw [second])]

/-- A refused `copyTo` leaves the ring as it is. -/
theorem copyTo_false {tx : MemTransaction} {sizeofT start n : UInt64} {ring ring' : Ring}
    {data : Option (List UInt8)}
    (refused : tx.copyTo sizeofT ring data start n = .ok (false, ring')) : ring' = ring := by
  unfold MemTransaction.copyTo at refused
  split at refused
  · cases refused
    rfl
  split at refused
  · cases refused
    rfl
  · -- A copy that starts succeeds or faults.
    obtain ⟨_, _, refused⟩ := bind_eq_ok.mp refused
    obtain ⟨_, _, refused⟩ := bind_eq_ok.mp refused
    cases refused

/-- A copy of all slots of a transaction is recorded slot by slot. -/
theorem load_store_all {s : Nat} (m : Mem (Option (Vector UInt8 s)))
    (xs : List (Vector UInt8 s)) :
    load (store m 0 (xs.map some)) 0 xs.length = xs.map some := by
  have all := load_store_inside m 0 0 xs.length (xs.map some) (by simp)
  rwa [List.drop_zero, List.take_of_length_le (by simp)] at all

/-! ## The matching run of the two endpoints -/

/-- A call that `writeBlocking` or `readBlocking` lets through, with a buffer large enough. -/
structure BlockingCall.Fits (g : Geometry) (call : BlockingCall) (side : Side) : Prop where
  capacity : call.count.toNat ≤ g.N
  holds : side = .writer → ∀ data, call.data = some data → call.count.toNat * g.s ≤ data.length

/-- The call under way in a phase. -/
def Phase.call : Phase → Option BlockingCall
  | .begin call _ | .copy call _ _ | .commit call _ | .prevTime call | .head call | .wait call =>
    some call
  | _ => none

/-- The transaction of the writer's attempt, and what it has stored. -/
def Writes (g : Geometry) (w : Option (OpenWrite g.s)) : Phase → Prop
  | .copy call _ tx => w = some (.granted tx call.count)
  | .commit call _ => ∃ tx, w = some ((OpenWrite.granted tx call.count).note 0 (call.messages g.s))
  | _ => w = none

/-- The transaction of the reader's attempt, and what it has copied. -/
def Reads (g : Geometry) (buffer : List (Vector UInt8 g.s)) (r : Option (OpenRead g.s)) :
    Phase → Prop
  | .copy call _ tx => r = some (.granted tx call.count)
  | .commit call _ => buffer.length = call.count.toNat ∧
      ∃ tx, r = some ((OpenRead.granted tx call.count).note 0 buffer)
  | _ => r = none

structure MatchesAt (t : Streams g.s) (w : Option (OpenWrite g.s)) (r : Option (OpenRead g.s)) :
    Prop where
  fits : ∀ side call, (t.state.phase side).call = some call → call.Fits g side
  writer : Writes g w (t.state.phase .writer)
  reader : Reads g t.buffer r (t.state.phase .reader)

/-- The two endpoints with these transactions open. -/
def Streams.endpoints (t : Streams g.s) (w : Option (OpenWrite g.s)) (r : Option (OpenRead g.s)) :
    Synchronized.State g.s :=
  ⟨t.state.storage, w, r, t.written.map some, t.delivered.map some⟩

def Matches (t : Streams g.s) (σ : Synchronized.State g.s) : Prop :=
  ∃ w r, σ = t.endpoints w r ∧ MatchesAt t w r

/-- Neither a copy nor a commit comes next. -/
def Phase.Closed : Phase → Prop
  | .copy .. | .commit .. => False
  | _ => True

variable {w : Option (OpenWrite g.s)} {r : Option (OpenRead g.s)} {phase : Phase}
  {buffer : List (Vector UInt8 g.s)}

theorem Phase.Closed.writes (closed : phase.Closed) : Writes g w phase ↔ w = none := by
  cases phase with
  | copy | commit => exact closed.elim
  | _ => exact Iff.rfl

theorem Phase.Closed.reads (closed : phase.Closed) : Reads g buffer r phase ↔ r = none := by
  cases phase with
  | copy | commit => exact closed.elim
  | _ => exact Iff.rfl

section

variable (call : BlockingCall)

theorem failed_closed (a : Attempt) : (call.failed a).Closed := by
  rcases failed_cases call a with eq | eq | eq <;> rw [eq] <;> trivial

theorem failed_call (a : Attempt) {c : BlockingCall} (same : (call.failed a).call = some c) :
    c = call := by
  rcases failed_cases call a with eq | eq | eq <;> rw [eq] at same
  · cases same
  · exact (Option.some.inj same).symm
  · exact (Option.some.inj same).symm

theorem succeeded_closed (mask : UInt32) :
    (succeeded mask).1.Closed ∧ (succeeded mask).1.call = none := by
  unfold succeeded
  split
  · exact ⟨trivial, rfl⟩
  · exact ⟨trivial, rfl⟩

variable {call} {side : Side}

theorem enter_fits {mask : UInt32} {hasEvFlag : Bool} {count : UInt64}
    {data : Option (List UInt8)} {timeout : Int64}
    (entered : enter (queue g) mask hasEvFlag count data timeout = .ok phase)
    (holds : side = .writer → ∀ bytes, data = some bytes → count.toNat * g.s ≤ bytes.length) :
    phase.Closed ∧ ∀ call, phase.call = some call → call.Fits g side := by
  rcases enter_ok entered with rfl | ⟨capacity, quantum, fits, rfl⟩
  · exact ⟨trivial, nofun⟩
  · cases (g.getQuantumCount_eq _).symm.trans quantum
    rw [UInt64.le_iff_toNat_le, Geometry.toNat_messages (Nat.le_refl g.N)] at fits
    refine ⟨trivial, ?_⟩
    intro call same
    cases same
    exact ⟨fits, holds⟩

theorem BlockingCall.Fits.readCurrentTime (fits : call.Fits g side) (mask : UInt32) (now : Int64) :
    (call.readCurrentTime mask now).1.Closed ∧
      ∀ c, (call.readCurrentTime mask now).1.call = some c → c.Fits g side := by
  unfold BlockingCall.readCurrentTime
  dsimp only
  -- Only the two times of the call change.
  split
  · refine ⟨trivial, ?_⟩
    intro c same
    cases same
    exact ⟨fits.capacity, fits.holds⟩
  · refine ⟨trivial, ?_⟩
    intro c same
    cases same
    exact ⟨fits.capacity, fits.holds⟩

theorem BlockingCall.Fits.waitReturned (fits : call.Fits g side) (mask : UInt32) (status : Status)
    (efState : UInt32) :
    (call.waitReturned mask status efState).Closed ∧
      ∀ c, (call.waitReturned mask status efState).call = some c → c.Fits g side := by
  rcases waitReturned_cases call mask status efState with eq | eq | eq <;> rw [eq]
  · exact ⟨trivial, nofun⟩
  · exact ⟨trivial, fun c same => Option.some.inj same ▸ fits⟩
  · exact ⟨trivial, fun c same => Option.some.inj same ▸ fits⟩

end

variable {t : Streams g.s} {side : Side}

theorem MatchesAt.writer_to (m : MatchesAt t w r) {w' : Option (OpenWrite g.s)}
    {storage : Storage} {flag : EventFlag.State Side} {written : List (Vector UInt8 g.s)}
    (fits : ∀ call, phase.call = some call → call.Fits g .writer) (writes : Writes g w' phase) :
    MatchesAt { t with state := ⟨storage, flag, update t.state.phase .writer phase⟩, written }
      w' r := by
  refine ⟨?_, ?_, ?_⟩
  · intro side call
    cases side with
    | writer => simpa using fits call
    | reader => simpa using m.fits .reader call
  · simpa using writes
  · simpa using m.reader

theorem MatchesAt.reader_to (m : MatchesAt t w r) {r' : Option (OpenRead g.s)}
    {storage : Storage} {flag : EventFlag.State Side} {delivered : List (Vector UInt8 g.s)}
    (fits : ∀ call, phase.call = some call → call.Fits g .reader)
    (reads : Reads g buffer r' phase) :
    MatchesAt { t with
      state := ⟨storage, flag, update t.state.phase .reader phase⟩, buffer, delivered } w r' := by
  refine ⟨?_, ?_, ?_⟩
  · intro side call
    cases side with
    | writer => simpa using m.fits .writer call
    | reader => simpa using fits call
  · simpa using m.writer
  · simpa using reads

/-- A step of one side between two phases without a transaction. -/
theorem MatchesAt.closed (m : MatchesAt t w r) {flag : EventFlag.State Side}
    (before : (t.state.phase side).Closed)
    (closed : phase.Closed ∧ ∀ call, phase.call = some call → call.Fits g side) :
    MatchesAt { t with state := ⟨t.state.storage, flag, update t.state.phase side phase⟩ } w r := by
  cases side with
  | writer => exact m.writer_to closed.2 (closed.1.writes.mpr (before.writes.mp m.writer))
  | reader => exact m.reader_to closed.2 (closed.1.reads.mpr (before.reads.mp m.reader))

/-- The endpoints can get to a state that matches `t'`. -/
def Streams.Follows (t : Streams g.s) (w : Option (OpenWrite g.s)) (r : Option (OpenRead g.s))
    (t' : Streams g.s) : Prop :=
  ∃ labels w' r', Run (Synchronized.Step g) (t.endpoints w r) labels (t'.endpoints w' r') ∧
    MatchesAt t' w' r'

variable {call : BlockingCall} {a : Attempt} {ok : Bool} {tx : MemTransaction} {storage : Storage}

theorem MatchesAt.begin (m : MatchesAt t w r) (phase : t.state.phase side = .begin call a)
    (begun : beginSide (queue g) t.state.storage call.count side = .ok (ok, tx, storage)) :
    t.Follows w r { t with state :=
      { t.state with storage }.to side (if ok then .copy call a tx else call.failed a) } := by
  have fits := m.fits side call (by rw [phase]; rfl)
  cases side with
  | writer =>
    have closed : w = none := by
      have writer := m.writer
      rwa [phase] at writer
    obtain ⟨⟨ok', tx'⟩, granted, returned⟩ := bind_eq_ok.mp begun
    cases returned
    refine ⟨[.beginWrite call.count], if ok then some (.granted tx call.count) else none, r,
      .single (.beginWrite closed granted), ?_⟩
    cases ok with
    | true =>
      exact m.writer_to (fun c same => Option.some.inj same ▸ fits) rfl
    | false =>
      refine m.writer_to (fun c same => ?_) ((failed_closed call a).writes.mpr rfl)
      rwa [failed_call call a same]
  | reader =>
    have closed : r = none := by
      have reader := m.reader
      rwa [phase] at reader
    refine ⟨[.beginRead call.count], w, if ok then some (.granted tx call.count) else none,
      .single (.beginRead closed fits.capacity begun), ?_⟩
    cases ok with
    | true => exact m.reader_to (fun c same => Option.some.inj same ▸ fits) rfl
    | false =>
      refine m.reader_to (fun c same => ?_) ((failed_closed call a).reads.mpr rfl)
      rwa [failed_call call a same]

theorem length_messages (call : BlockingCall) (s : Nat) :
    (call.messages s).length = call.count.toNat := by
  rw [BlockingCall.messages, length_records]

theorem MatchesAt.copyWrite (m : MatchesAt t w r) (phase : t.state.phase .writer = .copy call a tx)
    (copied : copySide (queue g) t.state.storage tx call.data call.count .writer =
      .ok (ok, storage)) :
    t.Follows w r (t.next g ({ t.state with storage }.to .writer
      (if ok then .commit call a else call.failed a)) (.copy .writer)) := by
  have fits := m.fits .writer call (by rw [phase]; rfl)
  have opened : w = some (.granted tx call.count) := by
    have writer := m.writer
    rwa [phase] at writer
  obtain ⟨⟨ok', ring⟩, moved, returned⟩ := bind_eq_ok.mp copied
  cases returned
  cases ok with
  | false =>
    cases copyTo_false moved
    refine ⟨_, none, r, .single .abandonWrite, ?_⟩
    refine m.writer_to (fun c same => ?_) ((failed_closed call a).writes.mpr rfl)
    rwa [failed_call call a same]
  | true =>
    cases held : call.data with
    | none =>
      rw [held] at moved
      cases moved
    | some data =>
      rw [held, copyTo_messages _ _ _ _ fits.capacity (fits.holds rfl data held)] at moved
      have messages : call.messages g.s = records g.s call.count.toNat data := by
        rw [BlockingCall.messages, held, Option.getD_some]
      have length := length_messages call g.s
      have count : UInt64.ofNat (call.messages g.s).length = call.count := by
        rw [length, UInt64.ofNat_toNat]
      rw [← messages, ← count] at moved
      refine ⟨_, _, r, .single (.copyTo opened ?_ moved), ?_⟩
      · rw [UInt64.toNat_zero, length, Nat.zero_add]
        exact Nat.le_refl _
      · exact m.writer_to (fun c same => Option.some.inj same ▸ fits) ⟨tx, rfl⟩

theorem MatchesAt.copyRead (m : MatchesAt t w r) (phase : t.state.phase .reader = .copy call a tx)
    (copied : copySide (queue g) t.state.storage tx call.data call.count .reader =
      .ok (ok, storage)) :
    t.Follows w r (t.next g ({ t.state with storage }.to .reader
      (if ok then .commit call a else call.failed a)) (.copy .reader)) := by
  have fits := m.fits .reader call (by rw [phase]; rfl)
  have opened : r = some (.granted tx call.count) := by
    have reader := m.reader
    rwa [phase] at reader
  obtain ⟨data, moved, returned⟩ := bind_eq_ok.mp copied
  cases returned
  cases data with
  | none =>
    refine ⟨_, w, none, .single .abandonRead, ?_⟩
    refine m.reader_to (fun c same => ?_) ((failed_closed call a).reads.mpr rfl)
    rwa [failed_call call a same]
  | some data =>
    have filled : t.filled g = records g.s call.count.toNat data := by
      unfold Streams.filled
      rw [phase]
      dsimp only
      rw [moved]
    cases held : call.data with
    | none =>
      rw [held] at moved
      cases moved
    | some bytes =>
      rw [held] at moved
      refine ⟨_, w, _, .single (.copyFrom opened ?_ moved), ?_⟩
      · rw [UInt64.toNat_zero, Nat.zero_add]
        exact Nat.le_refl _
      · refine m.reader_to (fun c same => Option.some.inj same ▸ fits) ⟨?_, tx, ?_⟩
        · rw [filled, length_records]
        · rw [filled]
          rfl

theorem MatchesAt.commitWrite (m : MatchesAt t w r)
    (phase : t.state.phase .writer = .commit call a) :
    t.Follows w r (t.next g ({ t.state with
        storage := (queue g).commitWrite t.state.storage call.count }.toFlag .writer
      (succeeded (masks.notify .writer))) (.commit .writer)) := by
  obtain ⟨tx, opened⟩ : ∃ tx, w = some
      ((OpenWrite.granted tx call.count).note 0 (call.messages g.s)) := by
    have writer := m.writer
    rwa [phase] at writer
  have committed : t.committed g .writer = call.messages g.s := by
    unfold Streams.committed
    rw [phase]
    rfl
  -- All slots of the transaction were stored to.
  have stored : load (store (fun _ => none) 0 ((call.messages g.s).map some)) 0 call.count.toNat =
      (call.messages g.s).map some := by
    rw [← length_messages call g.s, load_store_all]
  have closed := succeeded_closed (masks.notify .writer)
  refine ⟨[.commitWrite call.count], none, r, .single ?_, ?_⟩
  · have step : Synchronized.Step g (t.endpoints w r) _ _ :=
      .commitWrite opened (UInt64.le_refl call.count)
    simp only [OpenWrite.note, OpenWrite.granted, stored, Streams.endpoints,
      ← List.map_append] at step
    rw [← committed] at step
    exact step
  · refine m.writer_to ?_ (closed.1.writes.mpr rfl)
    rw [closed.2]
    intro c same
    cases same

theorem MatchesAt.commitRead (m : MatchesAt t w r) (phase : t.state.phase .reader = .commit call a)
    (committed : commitSide (queue g) t.state.storage call.count .reader = (ok, storage)) :
    t.Follows w r (t.next g (if ok then { t.state with storage }.toFlag .reader
      (succeeded (masks.notify .reader)) else { t.state with storage }.to .reader (call.failed a))
      (.commit .reader)) := by
  have fits := m.fits .reader call (by rw [phase]; rfl)
  obtain ⟨length, tx, opened⟩ : t.buffer.length = call.count.toNat ∧ ∃ tx, r = some
      ((OpenRead.granted tx call.count).note 0 t.buffer) := by
    have reader := m.reader
    rwa [phase] at reader
  have delivered : t.committed g .reader = if ok then t.buffer else [] := by
    unfold Streams.committed
    rw [phase]
    dsimp only
    rw [committed]
  -- All slots of the transaction were copied from.
  have copied : load (store (fun _ => none) 0 (t.buffer.map some)) 0 call.count.toNat =
      t.buffer.map some := by
    rw [← length, load_store_all]
  have step : Synchronized.Step g (t.endpoints w r) _ _ :=
    .commitRead opened (UInt64.le_refl call.count) committed
  simp only [OpenRead.note, OpenRead.granted, copied, Streams.endpoints, ← List.map_append] at step
  cases ok with
  | true =>
    rw [if_pos rfl] at step delivered ⊢
    rw [← delivered] at step
    have closed := succeeded_closed (masks.notify .reader)
    refine ⟨[.commitRead call.count], w, none, .single step, ?_⟩
    refine m.reader_to ?_ (closed.1.reads.mpr rfl)
    rw [closed.2]
    intro c same
    cases same
  | false =>
    rw [if_neg Bool.false_ne_true] at step delivered ⊢
    refine ⟨[.commitRead call.count], w, none, .single ?_, ?_⟩
    · simp only [Streams.next, Streams.endpoints, delivered, List.append_nil]
      exact step
    · refine m.reader_to (fun c same => ?_) ((failed_closed call a).reads.mpr rfl)
      rwa [failed_call call a same]

/-! ## Runs -/

/-- A step of the calls is a step of the endpoints, or none of them moves. -/
theorem MatchesAt.step (m : MatchesAt t w r) {act : Action} {t' : Streams g.s}
    (holds : Holds g t act) (taken : t.Step g masks act t') : t.Follows w r t' := by
  obtain ⟨taken⟩ := taken
  have still {side : Side} {call : BlockingCall} {phase : Phase}
      (at_phase : t.state.phase side = phase) (known : phase.call = some call) :
      call.Fits g side :=
    m.fits side call (by rw [at_phase, known])
  cases taken with
  | @call side _ _ data _ _ idle entered =>
    refine ⟨[], w, r, .done _, m.closed (by rw [idle]; trivial) (enter_fits entered ?_)⟩
    rintro rfl bytes rfl
    exact holds
  | @begin side _ _ _ _ _ phase begun =>
    exact m.begin phase begun
  | @copy side _ _ _ _ _ phase copied =>
    cases side with
    | writer => exact m.copyWrite phase copied
    | reader => exact m.copyRead phase copied
  | @commit side _ _ _ _ phase committed =>
    cases side with
    | writer =>
      cases committed
      exact m.commitWrite phase
    | reader => exact m.commitRead phase committed
  | prevTime phase =>
    have fits := still phase rfl
    refine ⟨[], w, r, .done _, m.closed (by rw [phase]; trivial) ⟨trivial, ?_⟩⟩
    intro c same
    cases same
    exact ⟨fits.capacity, fits.holds⟩
  | currentTime phase =>
    exact ⟨[], w, r, .done _, m.closed (by rw [phase]; trivial)
      ((still phase rfl).readCurrentTime _ _)⟩
  | enterWait phase =>
    refine ⟨[], w, r, .done _, m.closed (by rw [phase]; trivial) ⟨trivial, ?_⟩⟩
    intro c same
    cases same
    exact still phase rfl
  | flag => exact ⟨[], w, r, .done _, ⟨m.fits, m.writer, m.reader⟩⟩
  | waitReturned phase =>
    exact ⟨[], w, r, .done _, m.closed (by rw [phase]; trivial)
      ((still phase rfl).waitReturned _ _ _)⟩
  | wakeReturned phase =>
    exact ⟨[], w, r, .done _, m.closed (by rw [phase]; trivial) ⟨trivial, nofun⟩⟩
  | finish phase =>
    exact ⟨[], w, r, .done _, m.closed (by rw [phase]; trivial) ⟨trivial, nofun⟩⟩

theorem simulates :
    Simulates (Restrict (Holds g) (Streams.Step g masks)) (Synchronized.Step g) Matches := by
  rintro t act t' σ ⟨w, r, rfl, m⟩ ⟨holds, taken⟩
  obtain ⟨labels, w', r', run, m'⟩ := m.step holds taken
  exact ⟨labels, _, run, w', r', rfl, m'⟩

theorem initial_matches (start : t.initial g) :
    ∃ σ, (∃ ring, Synchronized.initial g ring σ) ∧ Matches t σ := by
  obtain ⟨⟨⟨ring, storage⟩, _, idle⟩, written, delivered⟩ := start
  refine ⟨t.endpoints none none, ⟨ring, ?_⟩, none, none, rfl, ?_, ?_, ?_⟩
  · rw [Synchronized.initial, Streams.endpoints, storage, written, delivered]
    rfl
  · intro side call under_way
    rw [idle side] at under_way
    cases under_way
  · rw [idle]
    rfl
  · rw [idle]
    rfl

/-- What the blocking calls of both sides have done to the queue. -/
structure InOrder (g : Geometry) (t : Streams g.s) : Prop where
  /-- The reader's calls got the messages of the writer's calls in order. -/
  isPrefix : t.delivered <+: t.written
  /-- The messages under way are still in their slots. -/
  held : ∀ p, t.delivered.length ≤ p → ∀ below : p < t.written.length,
    g.slotAt t.state.storage.ring p = t.written[p]
  window : t.written.length ≤ t.delivered.length + g.N
  writePtr : t.state.storage.writePtr.toNat = t.written.length * g.s
  readPtr : t.state.storage.readPtr.toNat = t.delivered.length * g.s

/-- In every run of blocking calls, with any masks, timeouts and outcomes of `wait`, the reader's
calls get the messages of the writer's calls, each once and in order. -/
theorem reachable_inOrder
    (reachable : Reachable (Streams.initial g) (Restrict (Holds g) (Streams.Step g masks)) t)
    (total : t.written.length * g.s < 2 ^ 64) : InOrder g t := by
  obtain ⟨σ, reachable', w, r, rfl, m⟩ := simulates.reachable (fun _ => initial_matches) reachable
  obtain ⟨ring, reachable'⟩ := reachable'.exists_init
  have inv := Synchronized.reachable_inv reachable'
    (by rw [Streams.endpoints, List.length_map]; exact total)
  have written := inv.writePtr
  have delivered := inv.readPtr
  have ordered := inv.ordered
  have window := inv.window
  simp only [Streams.endpoints, List.length_map] at written delivered ordered window
  refine ⟨inv.agree.isPrefix inv.ordered _ _ rfl rfl, ?_, window, written, delivered⟩
  intro p lower below
  refine inv.held p _ ?_ ?_
  · rw [Streams.endpoints, List.length_map]
    exact lower
  · simp [Streams.endpoints, below]

theorem next_state (t : Streams g.s) (σ : State) (a : Action) : (t.next g σ a).state = σ := by
  cases a with
  | copy side => cases side <;> rfl
  | commit side => cases side <;> rfl
  | _ => rfl

theorem holds_of_filled (t : Streams g.s) {a : Action} (filled : Filled g a) : Holds g t a := by
  cases a with
  | call side _ _ data _ =>
    cases side with
    | writer =>
      cases data with
      | none => exact trivial
      | some data => exact filled
    | reader => cases data <;> exact trivial
  | _ => exact trivial

/-- One step writes at most a ring of messages. -/
theorem length_next_le
    (reachable : Reachable (Streams.initial g) (Restrict (Holds g) (Streams.Step g masks)) t)
    (σ : State) (a : Action) : (t.next g σ a).written.length ≤ t.written.length + g.N := by
  obtain ⟨_, -, _, _, -, m⟩ := simulates.reachable (fun _ => initial_matches) reachable
  cases a with
  | copy side => cases side <;> exact Nat.le_add_right _ _
  | commit side =>
    cases side with
    | reader => exact Nat.le_add_right _ _
    | writer =>
      rw [Streams.next, List.length_append]
      refine Nat.add_le_add_left ?_ _
      unfold Streams.committed
      split
      next call _ phase =>
        have fits := m.fits .writer call (by rw [phase]; rfl)
        split
        · rw [BlockingCall.messages, length_records]
          exact fits.capacity
        · exact Nat.zero_le _
      next => exact Nat.zero_le _
  | _ => exact Nat.le_add_right _ _

/-- The records can be kept along any run whose buffers are long enough. -/
theorem exists_streams
    (reachable : Reachable (Streams.initial g) (Restrict (Holds g) (Streams.Step g masks)) t)
    {labels : List Action} {τ : State}
    (run : Run (Restrict (fun _ => Filled g) (Step g masks)) t.state labels τ) :
    ∃ t', t'.state = τ ∧
      Reachable (Streams.initial g) (Restrict (Holds g) (Streams.Step g masks)) t' ∧
      t'.written.length ≤ t.written.length + labels.length * g.N := by
  generalize same : t.state = σ at run
  induction run generalizing t with
  | done σ => exact ⟨t, same, reachable, Nat.le_add_right _ _⟩
  | @cons σ a τ labels υ taken _ ih =>
    subst same
    have next := reachable.next ⟨holds_of_filled t taken.1, .step taken.2⟩
    obtain ⟨t', same', reachable', bound⟩ := ih next (next_state t τ a)
    have grown := length_next_le reachable τ a
    refine ⟨t', same', reachable', ?_⟩
    rw [List.length_cons, Nat.succ_mul]
    omega

/-- Four messages go through a ring of three. -/
theorem reachable_inOrder_around : ∃ t : Streams Geometry.three.s,
    t.written.length = 4 ∧ t.delivered.length = 4 ∧ InOrder .three t := by
  obtain ⟨σ, labels, τ, start, run, drained, count⟩ := run_drained (g := .three) 4 (by decide)
  obtain ⟨t, same, reachable, bound⟩ := exists_streams (t := ⟨σ, [], [], []⟩)
    (.start ⟨start, rfl, rfl⟩) run
  rw [count, List.length_nil, Nat.zero_add] at bound
  have total : t.written.length * Geometry.three.s < 2 ^ 64 :=
    Nat.lt_of_le_of_lt (Nat.mul_le_mul_right _ bound) (by decide)
  have inOrder := reachable_inOrder reachable total
  have written := inOrder.writePtr
  have delivered := inOrder.readPtr
  rw [same, drained.writePtr] at written
  rw [same, drained.readPtr] at delivered
  refine ⟨t, ?_, ?_, inOrder⟩
  · exact (Nat.mul_one _).symm.trans written.symm
  · exact (Nat.mul_one _).symm.trans delivered.symm

end Fmq.Blocking
