import Fmq.Model.OneCall
import Fmq.Properties.BlockingCalls

/-!
# Blocking calls are all or nothing

Whatever the peer, the clock and `wait` do, a blocking call that returns `true` has committed all
its messages once and then called `wake` once, unless the mask is zero. One that returns `false`
has done neither.
-/
namespace Fmq.Blocking.OneCall

open Transition

variable {q : Queue} {args : Arguments}

/-! ## The log -/

/-- What a call that returned `result` has done. -/
def Arguments.done (args : Arguments) (result : Bool) : List Event :=
  if result then
    .committed args.count ::
      if args.masks.notify args.side ≠ 0 then [.wake (args.masks.notify args.side)] else []
  else []

/-- Before its transfer a call has done nothing, after it everything. -/
def InStep (args : Arguments) (events : List Event) : Phase → Prop
  | .idle => False
  | .notify => events = args.done true
  | .returned result => events = args.done result
  | .begin call _ | .copy call _ _ | .commit call _ | .prevTime call | .head call | .wait call =>
    events = [] ∧ call.count = args.count

variable {call : BlockingCall}

theorem failed_inStep (count : call.count = args.count) (a : Attempt) :
    InStep args [] (call.failed a) := by
  rcases failed_cases call a with eq | eq | eq <;> rw [eq]
  · rfl
  · exact ⟨rfl, count⟩
  · exact ⟨rfl, count⟩

theorem succeeded_inStep (args : Arguments) :
    InStep args (.committed args.count :: calls (succeeded (args.masks.notify args.side)).2)
      (succeeded (args.masks.notify args.side)).1 := by
  unfold succeeded
  split
  next set => simp [InStep, Arguments.done, calls, EventFlag.wake, set]
  next zero => simp [InStep, Arguments.done, calls, zero]

theorem readCurrentTime_inStep (count : call.count = args.count) (mask : UInt32) (now : Int64) :
    InStep args [] (call.readCurrentTime mask now).1 := by
  obtain ⟨call', same, eq | eq⟩ := readCurrentTime_cases call mask now
  · rw [eq]
    exact ⟨rfl, same.trans count⟩
  · rw [eq]
    exact ⟨rfl, same.trans count⟩

theorem waitReturned_inStep (count : call.count = args.count) (mask : UInt32) (status : Status)
    (efState : UInt32) : InStep args [] (call.waitReturned mask status efState) := by
  rcases waitReturned_cases call mask status efState with eq | eq | eq <;> rw [eq]
  · rfl
  · exact ⟨rfl, count⟩
  · exact ⟨rfl, count⟩

/-- The invariant of the log. -/
theorem Step.inStep {σ τ : State} {a : Action} (inv : InStep args σ.events σ.phase)
    (taken : Step q args σ a τ) : InStep args τ.events τ.phase := by
  cases taken with
  | @begin call a ok _ _ phase =>
    rw [phase] at inv
    obtain ⟨nothing, count⟩ := inv
    cases ok with
    | true => exact ⟨nothing, count⟩
    | false => exact nothing ▸ failed_inStep count a
  | @copy call a _ ok _ phase =>
    rw [phase] at inv
    obtain ⟨nothing, count⟩ := inv
    cases ok with
    | true => exact ⟨nothing, count⟩
    | false => exact nothing ▸ failed_inStep count a
  | @commit call a ok storage phase =>
    rw [phase] at inv
    obtain ⟨nothing, count⟩ := inv
    cases ok with
    | true =>
      -- The only step that enters anything into the log, which is still empty.
      simp only [if_pos, State.commit, nothing, List.nil_append, count]
      exact succeeded_inStep args
    | false => exact nothing ▸ failed_inStep count a
  | prevTime phase =>
    rw [phase] at inv
    exact inv
  | currentTime phase =>
    rw [phase] at inv
    exact inv.1 ▸ readCurrentTime_inStep inv.2 _ _
  | enterWait phase =>
    rw [phase] at inv
    exact inv
  | waitReturned phase =>
    rw [phase] at inv
    exact inv.1 ▸ waitReturned_inStep inv.2 _ _ _
  | wakeReturned phase =>
    rw [phase] at inv
    exact inv
  | peerBegin | peerStore | peerCommit => exact inv

/-! ## The counters -/

/-- The counter that a side commits to. -/
def ownPtr (σ : Storage) : Side → UInt64
  | .writer => σ.writePtr
  | .reader => σ.readPtr

/-- The bytes between the counters. -/
def unread (σ : Storage) : UInt64 := σ.writePtr - σ.readPtr

/-- A reader whose counters are within the ring finds no overflow and, if it is granted its
messages, all their bytes. -/
theorem beginReadWith_within {loads : BeginReadLoads} {n : UInt64} {r : BeginRead}
    (begun : q.beginReadWith loads n = .ok r)
    (within : loads.writePtr - loads.readPtr ≤ q.getSize) :
    r.stored = none ∧ (r.returned = true → n * q.sizeofT ≤ loads.writePtr - loads.readPtr) := by
  rcases Queue.beginReadWith_ok begun with rfl | ⟨far, -⟩ | ⟨-, enough, tx, rfl⟩
  · exact ⟨rfl, nofun⟩
  · exact absurd within (UInt64.not_le.mpr far)
  · exact ⟨rfl, fun _ => enough⟩

theorem beginRead_within {σ σ' : Storage} {n : UInt64} {ok : Bool} {tx : MemTransaction}
    (within : unread σ ≤ q.getSize) (begun : q.beginRead σ n = .ok (ok, tx, σ')) :
    σ' = σ ∧ (ok = true → n * q.sizeofT ≤ unread σ) := by
  obtain ⟨r, loaded, returned⟩ := bind_eq_ok.mp begun
  cases returned
  obtain ⟨stored, enough⟩ := beginReadWith_within loaded within
  rw [stored]
  exact ⟨rfl, enough⟩

/-- A synchronized writer is granted only what the reader has left free. -/
theorem beginWrite_room {σ : Storage} {n : UInt64} {old tx : MemTransaction}
    (sync : q.flavor = .kSynchronizedReadWrite) (within : unread σ ≤ q.getSize)
    (begun : q.beginWrite σ n old = .ok (true, tx)) :
    (unread σ).toNat + n.toNat * q.sizeofT.toNat ≤ q.getSize.toNat := by
  unfold Queue.beginWrite Queue.beginWriteWith at begun
  obtain ⟨refuses, size, begun⟩ := bind_eq_ok.mp begun
  cases refuses with
  | true => cases begun
  | false =>
    unfold Queue.refusesWrite Queue.availableToWrite at size
    rw [if_pos sync] at size
    obtain ⟨available, division, size⟩ := bind_eq_ok.mp size
    split at size
    · cases size
    next fits =>
      unfold div at division
      split at division
      · cases division
      cases division
      rw [UInt64.not_lt, UInt64.le_iff_toNat_le, UInt64.toNat_div] at fits
      have free := UInt64.toNat_sub_of_le _ _ within
      have bytes : n.toNat * q.sizeofT.toNat ≤ (q.getSize - unread σ).toNat :=
        Nat.mul_le_of_le_div _ _ _ fits
      have le := UInt64.le_iff_toNat_le.mp within
      omega

theorem commitRead_cases (q : Queue) (σ : Storage) (n : UInt64) :
    q.getSize < unread σ ∧ q.commitRead σ n = (false, { σ with readPtr := σ.writePtr }) ∨
    unread σ ≤ q.getSize ∧
      q.commitRead σ n = (true, { σ with readPtr := σ.readPtr + n * q.sizeofT }) := by
  by_cases far : q.getSize < unread σ
  · exact Or.inl ⟨far, if_pos far⟩
  · exact Or.inr ⟨UInt64.not_lt.mp far, if_neg far⟩

/-! ### The two sides -/

variable {σ σ' : Storage} {side : Side} {n : UInt64} {ok : Bool}

/-- The peer never stores to the counter of a side. -/
theorem beginSide_other {tx : MemTransaction}
    (begun : beginSide q σ n side = .ok (ok, tx, σ')) :
    ownPtr σ' side.other = ownPtr σ side.other := by
  cases side with
  | writer =>
    obtain ⟨_, -, returned⟩ := bind_eq_ok.mp begun
    cases returned
    rfl
  | reader =>
    obtain ⟨_, -, returned⟩ := bind_eq_ok.mp begun
    cases returned
    rfl

theorem commitSide_other (committed : commitSide q σ n side = (ok, σ')) :
    ownPtr σ' side.other = ownPtr σ side.other := by
  cases side with
  | writer =>
    cases committed
    rfl
  | reader =>
    rcases commitRead_cases q σ n with ⟨_, eq⟩ | ⟨_, eq⟩
    · cases eq.symm.trans committed
      rfl
    · cases eq.symm.trans committed
      rfl

/-- Without an overflow the first part of a transfer moves no counter. -/
theorem beginSide_own {tx : MemTransaction} (within : side = .reader → unread σ ≤ q.getSize)
    (begun : beginSide q σ n side = .ok (ok, tx, σ')) :
    σ' = σ ∧ (side = .reader → ok = true → n * q.sizeofT ≤ unread σ) := by
  cases side with
  | writer =>
    obtain ⟨_, -, returned⟩ := bind_eq_ok.mp begun
    cases returned
    exact ⟨rfl, nofun⟩
  | reader =>
    obtain ⟨same, enough⟩ := beginRead_within (within rfl) begun
    exact ⟨same, fun _ => enough⟩

theorem copySide_counters {tx : MemTransaction} {data : Option (List UInt8)}
    (copied : copySide q σ tx data n side = .ok (ok, σ')) :
    σ'.readPtr = σ.readPtr ∧ σ'.writePtr = σ.writePtr := by
  cases side with
  | writer =>
    obtain ⟨_, -, returned⟩ := bind_eq_ok.mp copied
    cases returned
    exact ⟨rfl, rfl⟩
  | reader =>
    obtain ⟨_, -, returned⟩ := bind_eq_ok.mp copied
    cases returned
    exact ⟨rfl, rfl⟩

theorem commitSide_own (committed : commitSide q σ n side = (true, σ')) :
    ownPtr σ' side = ownPtr σ side + n * q.sizeofT := by
  cases side with
  | writer =>
    cases committed
    rfl
  | reader =>
    rcases commitRead_cases q σ n with ⟨_, eq⟩ | ⟨_, eq⟩
    · cases eq.symm.trans committed
    · cases eq.symm.trans committed
      rfl

/-- The last part fails only where a reader finds an overflow. -/
theorem commitSide_ok (within : side = .reader → unread σ ≤ q.getSize)
    (committed : commitSide q σ n side = (ok, σ')) : ok = true := by
  cases side with
  | writer =>
    cases committed
    rfl
  | reader =>
    rcases commitRead_cases q σ n with ⟨far, _⟩ | ⟨_, eq⟩
    · exact absurd (within rfl) (UInt64.not_le.mpr far)
    · cases eq.symm.trans committed
      rfl

theorem commitRead_unread (committed : q.commitRead σ n = (true, σ')) :
    unread σ' = unread σ - n * q.sizeofT := by
  rcases commitRead_cases q σ n with ⟨_, eq⟩ | ⟨_, eq⟩
  · cases eq.symm.trans committed
  · cases eq.symm.trans committed
    unfold unread
    grind

theorem commitWrite_unread : unread (q.commitWrite σ n) = unread σ + n * q.sizeofT := by
  unfold unread Queue.commitWrite
  grind

/-! ### Runs -/

/-- The unread bytes, and those that the writer was granted, have room in the ring. -/
structure Fits (q : Queue) (σ : Storage) (granted : Option UInt64) : Prop where
  within : unread σ ≤ q.getSize
  room : ∀ n, granted = some n →
    (unread σ).toNat + n.toNat * q.sizeofT.toNat ≤ q.getSize.toNat

variable {granted : Option UInt64}

theorem Fits.beginWrite (fits : Fits q σ granted) (sync : q.flavor = .kSynchronizedReadWrite)
    {tx : MemTransaction} (begun : q.beginWrite σ n .empty = .ok (ok, tx)) :
    Fits q σ (if ok then some n else granted) := by
  refine ⟨fits.within, fun n' same => ?_⟩
  cases ok with
  | true =>
    cases same
    exact beginWrite_room sync fits.within begun
  | false => exact fits.room n' same

/-- The writer commits no more than it was granted. -/
theorem Fits.commitWrite {granted : UInt64} (fits : Fits q σ (some granted)) (le : n ≤ granted) :
    (unread (q.commitWrite σ n)).toNat = (unread σ).toNat + n.toNat * q.sizeofT.toNat ∧
      Fits q (q.commitWrite σ n) none := by
  have room := fits.room granted rfl
  have less := Nat.mul_le_mul_right q.sizeofT.toNat (UInt64.le_iff_toNat_le.mp le)
  have small : q.getSize.toNat < 2 ^ 64 := q.getSize.toNat_lt
  have moved : (unread (q.commitWrite σ n)).toNat =
      (unread σ).toNat + n.toNat * q.sizeofT.toNat := by
    rw [commitWrite_unread, UInt64.toNat_add, UInt64.toNat_mul, Nat.add_mod_mod,
      Nat.mod_eq_of_lt (by omega)]
  refine ⟨moved, ?_, nofun⟩
  rw [UInt64.le_iff_toNat_le, moved]
  omega

theorem Fits.commitRead (fits : Fits q σ granted) (enough : n * q.sizeofT ≤ unread σ)
    (committed : q.commitRead σ n = (true, σ')) : Fits q σ' granted := by
  have fewer : (unread σ').toNat ≤ (unread σ).toNat := by
    rw [commitRead_unread committed, UInt64.toNat_sub_of_le _ _ enough]
    exact Nat.sub_le _ _
  constructor
  · exact UInt64.le_iff_toNat_le.mpr
      (Nat.le_trans fewer (UInt64.le_iff_toNat_le.mp fits.within))
  · intro n' same
    have room := fits.room n' same
    omega

/-- The count of a granted transaction that is not committed yet. -/
def claimed : Phase → Option UInt64
  | .copy call _ _ | .commit call _ => some call.count
  | _ => none

/-- The own counter agrees with the log, and a reader finds what it was granted. -/
structure Balanced (q : Queue) (args : Arguments) (before : UInt64) (σ : State) : Prop where
  own : ownPtr σ.storage args.side =
    before + if σ.events = [] then 0 else args.count * q.sizeofT
  fits : args.side = .reader → Fits q σ.storage σ.granted
  enough : args.side = .reader → ∀ n, claimed σ.phase = some n →
    n * q.sizeofT ≤ unread σ.storage

variable {before : UInt64} {σ τ : State}

/-- A step of the call that claims nothing. -/
theorem Balanced.to (balanced : Balanced q args before σ) {phase : Phase}
    (free : claimed phase = none) : Balanced q args before { σ with phase } where
  own := balanced.own
  fits := balanced.fits
  enough _ n claim := by
    rw [free] at claim
    cases claim

@[simp] theorem claimed_failed (call : BlockingCall) (a : Attempt) :
    claimed (call.failed a) = none := by
  rcases failed_cases call a with eq | eq | eq <;> rw [eq] <;> rfl

@[simp] theorem claimed_succeeded (mask : UInt32) : claimed (succeeded mask).1 = none := by
  unfold succeeded
  split <;> rfl

@[simp] theorem claimed_readCurrentTime (call : BlockingCall) (mask : UInt32) (now : Int64) :
    claimed (call.readCurrentTime mask now).1 = none := by
  obtain ⟨_, -, eq | eq⟩ := readCurrentTime_cases call mask now <;> rw [eq] <;> rfl

@[simp] theorem claimed_waitReturned (call : BlockingCall) (mask : UInt32) (status : Status)
    (efState : UInt32) : claimed (call.waitReturned mask status efState) = none := by
  rcases waitReturned_cases call mask status efState with eq | eq | eq <;> rw [eq] <;> rfl

/-- A step of the peer. -/
theorem Balanced.peer (balanced : Balanced q args before σ) {storage : Storage}
    {granted : Option UInt64}
    (own : ownPtr storage args.side = ownPtr σ.storage args.side)
    (reader : args.side = .reader →
      Fits q storage granted ∧ unread σ.storage ≤ unread storage) :
    Balanced q args before { σ with storage, granted } where
  own := own.trans balanced.own
  fits read := (reader read).1
  enough read n claim := UInt64.le_trans (balanced.enough read n claim) (reader read).2

theorem Balanced.begin (balanced : Balanced q args before σ) {call : BlockingCall} {a : Attempt}
    {ok : Bool} {tx : MemTransaction} {storage : Storage}
    (begun : beginSide q σ.storage call.count args.side = .ok (ok, tx, storage)) :
    Balanced q args before
      { σ with storage, phase := if ok then .copy call a tx else call.failed a } := by
  obtain ⟨rfl, enough⟩ := beginSide_own (fun read => (balanced.fits read).within) begun
  cases ok with
  | true =>
    refine ⟨balanced.own, balanced.fits, fun read n claim => ?_⟩
    cases claim
    exact enough read rfl
  | false => exact balanced.to (claimed_failed call a)

theorem Balanced.copy (balanced : Balanced q args before σ) {call : BlockingCall} {a : Attempt}
    {ok : Bool} {tx : MemTransaction} {storage : Storage} (phase : σ.phase = .copy call a tx)
    (copied : copySide q σ.storage tx call.data call.count args.side = .ok (ok, storage)) :
    Balanced q args before
      { σ with storage, phase := if ok then .commit call a else call.failed a } := by
  obtain ⟨readPtr, writePtr⟩ := copySide_counters copied
  have same : unread storage = unread σ.storage := by rw [unread, readPtr, writePtr]; rfl
  have own : ownPtr storage args.side = ownPtr σ.storage args.side := by
    cases args.side with
    | writer => exact writePtr
    | reader => exact readPtr
  have moved : Balanced q args before { σ with storage } :=
    balanced.peer own fun read =>
      have fits := balanced.fits read
      ⟨⟨same ▸ fits.within, same ▸ fits.room⟩, UInt64.le_of_eq same.symm⟩
  cases ok with
  | true =>
    refine ⟨moved.own, moved.fits, fun read n claim => moved.enough read n ?_⟩
    rw [phase]
    exact claim
  | false => exact moved.to (claimed_failed call a)

/-- The transfer itself: the log is still empty before. -/
theorem Balanced.commit (balanced : Balanced q args before σ) {call : BlockingCall} {a : Attempt}
    {ok : Bool} {storage : Storage} (phase : σ.phase = .commit call a) (nothing : σ.events = [])
    (count : call.count = args.count)
    (committed : commitSide q σ.storage call.count args.side = (ok, storage)) :
    Balanced q args before
      (if ok then σ.commit call.count (args.masks.notify args.side) storage
        else { σ with storage, phase := call.failed a }) := by
  obtain rfl := commitSide_ok (fun read => (balanced.fits read).within) committed
  have own := balanced.own
  rw [if_pos nothing, UInt64.add_zero] at own
  refine ⟨?_, fun read => ?_, fun _ n claim => ?_⟩
  · rw [← count]
    simp only [if_pos, State.commit, nothing, List.nil_append, List.cons_ne_nil, if_false]
    rw [commitSide_own committed, own]
  · have enough := balanced.enough read call.count (by rw [phase]; rfl)
    rw [read] at committed
    exact (balanced.fits read).commitRead enough committed
  · simp [State.commit] at claim

/-- What the peer does to the counters. -/
theorem Balanced.peerBegin (balanced : Balanced q args before σ)
    (sync : q.flavor = .kSynchronizedReadWrite) {n : UInt64} {ok : Bool} {tx : MemTransaction}
    {storage : Storage}
    (begun : beginSide q σ.storage n args.side.other = .ok (ok, tx, storage)) :
    Balanced q args before
      { σ with storage, granted := if ok then some n else σ.granted } := by
  have own := beginSide_other begun
  rw [Side.other_other] at own
  refine balanced.peer own fun read => ?_
  -- A writer as the peer of a reader: its request moves nothing.
  rw [read] at begun
  obtain ⟨⟨_, _⟩, requested, returned⟩ := bind_eq_ok.mp begun
  cases returned
  exact ⟨(balanced.fits read).beginWrite sync requested, UInt64.le_refl _⟩

theorem Balanced.peerCommit (balanced : Balanced q args before σ) {n granted : UInt64} {ok : Bool}
    {storage : Storage} (open_ : σ.granted = some granted) (le : n ≤ granted)
    (committed : commitSide q σ.storage n args.side.other = (ok, storage)) :
    Balanced q args before { σ with storage, granted := none } := by
  have own := commitSide_other committed
  rw [Side.other_other] at own
  refine balanced.peer own fun read => ?_
  rw [read] at committed
  cases committed
  have fits := balanced.fits read
  rw [open_] at fits
  obtain ⟨more, after⟩ := fits.commitWrite le
  refine ⟨after, UInt64.le_iff_toNat_le.mpr ?_⟩
  rw [more]
  exact Nat.le_add_right _ _

theorem Step.balanced {a : Action} (sync : q.flavor = .kSynchronizedReadWrite)
    (inv : InStep args σ.events σ.phase) (balanced : Balanced q args before σ)
    (taken : Step q args σ a τ) : Balanced q args before τ := by
  cases taken with
  | begin _ begun => exact balanced.begin begun
  | copy phase copied => exact balanced.copy phase copied
  | commit phase committed =>
    rw [phase] at inv
    exact balanced.commit phase inv.1 inv.2 committed
  | prevTime | wakeReturned | enterWait => exact balanced.to rfl
  | currentTime => exact balanced.to (claimed_readCurrentTime _ _ _)
  | waitReturned => exact balanced.to (claimed_waitReturned _ _ _ _)
  | peerBegin begun => exact balanced.peerBegin sync begun
  | @peerStore ring =>
    have own : ownPtr { σ.storage with ring } args.side = ownPtr σ.storage args.side := by
      cases args.side <;> rfl
    exact balanced.peer own fun read =>
      have fits := balanced.fits read
      ⟨⟨fits.within, fits.room⟩, UInt64.le_refl _⟩
  | peerCommit granted le committed => exact balanced.peerCommit granted le committed

/-- Before its first step a call has done nothing. -/
theorem entered_inv {storage : Storage} (start : entered q args storage granted σ) :
    InStep args σ.events σ.phase ∧
      ((args.side = .reader → Fits q storage granted) →
        Balanced q args (ownPtr storage args.side) σ) := by
  obtain ⟨phase, returned, rfl⟩ := start
  have own : ownPtr storage args.side = ownPtr storage args.side + 0 := (UInt64.add_zero _).symm
  rcases enter_ok returned with rfl | ⟨_, -, -, rfl⟩
  · exact ⟨rfl, fun fits => ⟨own, fits, nofun⟩⟩
  · exact ⟨⟨rfl, rfl⟩, fun fits => ⟨own, fits, nofun⟩⟩

/-- A call that has returned `true` has committed all its messages once and then called `wake` at
most once, as its mask says, and one that has returned `false` has done nothing. -/
theorem reachable_allOrNothing {storage : Storage} {result : Bool}
    (reachable : Reachable (entered q args storage granted) (Step q args) σ)
    (returned : σ.phase = .returned result) :
    σ.events = args.done result ∧
      (q.flavor = .kSynchronizedReadWrite → (args.side = .reader → Fits q storage granted) →
        ownPtr σ.storage args.side = ownPtr storage args.side +
          if result then args.count * q.sizeofT else 0) := by
  let Logged (σ : State) : Prop := InStep args σ.events σ.phase
  have logged : Logged σ :=
    reachable.invariant (fun _ start => (entered_inv start).1) fun _ _ _ inv taken =>
      taken.inStep inv
  simp only [Logged, returned] at logged
  refine ⟨logged, fun sync fits => ?_⟩
  -- The counters need the log: a commit finds it empty.
  let Inv (σ : State) : Prop := Logged σ ∧ Balanced q args (ownPtr storage args.side) σ
  have inv : Inv σ := by
    refine reachable.invariant ?_ ?_
    · intro σ start
      exact ⟨(entered_inv start).1, (entered_inv start).2 fits⟩
    · rintro σ a τ ⟨inv, balanced⟩ taken
      exact ⟨taken.inStep inv, taken.balanced sync inv balanced⟩
  have own := inv.2.own
  rw [logged] at own
  cases result with
  | true => simpa [Arguments.done] using own
  | false => simpa [Arguments.done] using own

/-- A writer finds a ring of one full, waits, and writes after the reader has notified it. -/
theorem reachable_allOrNothing_notified :
    let args : Arguments := ⟨.writer, .standard, true, 1, some [7], 0⟩
    ∃ σ : State, σ.phase = .returned true ∧ σ.events = args.done true ∧
      σ.storage.writePtr = 1 + 1 := by
  intro args
  let q := queue .single
  let call : BlockingCall := ⟨1, some [7], 0, false, 0⟩
  let full : Storage := ⟨fun _ => 0, 0, 1⟩
  let read : Storage := ⟨fun _ => 0, 1, 1⟩
  have counts : Geometry.single.Counts full 1 := ⟨⟨by decide, by decide⟩, by decide, by decide⟩
  have counts' : Geometry.single.Counts read 0 := ⟨⟨by decide, by decide⟩, by decide, by decide⟩
  rcases beginSide_cases counts .writer 1 (by decide) with ⟨room, _⟩ | ⟨_, refused⟩
  · exact absurd room (by decide)
  rcases beginSide_cases counts .reader 1 (by decide) with ⟨_, _, reads⟩ | ⟨short, _⟩
  swap
  · exact absurd short (by decide)
  rcases beginSide_cases counts' .writer 1 (by decide) with ⟨_, p, granted⟩ | ⟨short, _⟩
  swap
  · exact absurd short (by decide)
  have taken : commitSide q full 1 .reader = (true, read) := counts.commitRead 1
  obtain ⟨ring, copied⟩ := copySide_eq (g := .single) read .writer p 1 [7] (by decide)
  have entering : enter q 0x01 true 1 (some [7]) 0 = .ok (.begin call .first) := by
    simp [enter, q, call, Geometry.getQuantumCount_eq, bind, Except.bind, pure, Except.pure]
    decide
  have start : Reachable (entered q args full none) (Step q args)
      ⟨full, .begin call .first, none, []⟩ := .start ⟨_, entering, rfl⟩
  have failed := start.next (a := .begin) (.begin rfl refused)
  have waits := failed.next (a := .enterWait) (.enterWait rfl rfl)
  -- The reader takes the message in the meantime.
  have peerBegun := waits.next (a := .peerBegin 1) (.peerBegin reads)
  have peerCommitted := peerBegun.next (a := .peerCommit 1)
    (.peerCommit rfl (UInt64.le_refl 1) taken)
  have notified := peerCommitted.next (a := .waitReturned NO_ERROR 1)
    (.waitReturned (show _ = Phase.wait call from rfl))
  have retried : call.waitReturned (args.masks.wait args.side) NO_ERROR 1 =
      .begin call .retry := by
    unfold BlockingCall.waitReturned
    rw [if_neg (by decide), if_neg (by decide), if_pos (by decide)]
  have begun := notified.next (a := .begin) (.begin retried granted)
  have copied := begun.next (a := .copy) (.copy rfl copied)
  have committed := copied.next (a := .commit) (.commit rfl rfl)
  have returned := committed.next (a := .wakeReturned) (.wakeReturned rfl)
  have done := reachable_allOrNothing returned rfl
  exact ⟨_, rfl, done.1, done.2 rfl nofun⟩

end Fmq.Blocking.OneCall
