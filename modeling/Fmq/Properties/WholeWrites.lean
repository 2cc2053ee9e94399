import Fmq.Properties.Broadcast

/-!
# Unsynchronized queues whose writer only calls `write`

No slot ever holds an uncommitted store, so the distance test of `commitRead` certifies every
earlier copy. A reader that was lapped is moved to the write position by the call that tells it.
-/
namespace Fmq.Unsynchronized

open Fmq.Geometry (single)
open Memory RecordRing Transition Function

variable {ι : Type} {g : Geometry}

/-- Steps of a writer that only calls `write`, and all steps of the readers. -/
def WholeWrites {s : Nat} : Action ι s → Prop
  | .beginWrite .. | .copyTo .. | .commitWrite .. | .abandonWrite => False
  | _ => True

/-- Every store is committed, and no open read transaction has copied anything else. -/
structure Settled (σ : State ι g.s) : Prop where
  idle : σ.writer = none
  touched : ∀ q ∈ σ.touched, q < σ.written.length
  stored : ∃ ws : List (Vector UInt8 g.s), σ.written = ws.map some
  exposed : ∀ i r t, σ.readers i = some r → r.tx = some t → ∀ j, t.exposed j = false

variable {σ τ : State ι g.s}

theorem Settled.not_overwritten (settled : Settled σ) (p : Nat) : σ.overwritten g p = false := by
  simp only [State.overwritten, Bool.and_eq_false_iff, decide_eq_false_iff_not]
  -- Every position stored to is committed, so none is a revolution ahead.
  by_cases near : σ.written.length ≤ p + g.N
  · right
    by_contra stale
    rw [Bool.not_eq_false, List.contains_iff_mem] at stale
    have old := settled.touched _ stale
    omega
  · exact Or.inl near

/-! ## What every step does -/

/-- A call of reader `i` changes nothing but its own endpoint. -/
def OnlyReader (σ τ : State ι g.s) (i : ι) : Prop :=
  τ.ring = σ.ring ∧ τ.writePtr = σ.writePtr ∧ τ.written = σ.written ∧
    ∀ j, j ≠ i → τ.readers j = σ.readers j

/-- The reader was more than the capacity behind, and now is where the writer is. -/
def Skipped (σ : State ι g.s) (r r' : Reader g.s) : Prop :=
  r.position g + g.N < σ.written.length ∧ r'.position g = σ.written.length

/-- The messages at the `n` stream positions from `p` on. -/
def Consecutive (σ : State ι g.s) (p n : Nat) (xs : List (Vector UInt8 g.s)) : Prop :=
  xs.length = n ∧ ∀ j x, xs[j]? = some x → σ.written[p + j]? = some (some x)

/-- The counters are exactly the stream positions, and no reader is ahead of the writer. -/
def Positions (σ : State ι g.s) : Prop :=
  σ.writePtr.toNat = σ.written.length * g.s ∧ ∀ i r, σ.readers i = some r →
    r.readPtr.toNat = r.position g * g.s ∧ r.position g ≤ σ.written.length

/-- What a step does to the stream and to the position of the reader that takes it. -/
def StepSpec (σ τ : State ι g.s) : Action ι g.s → Prop
  | .attach i => OnlyReader σ τ i ∧ ∀ r', τ.readers i = some r' → r'.readPtr = 0
  | .write xs ok => τ.readers = σ.readers ∧ (ok = true ↔ xs.length ≤ g.N) ∧
      τ.written = σ.written ++ if ok then xs.map some else []
  | .beginRead i _ ok => OnlyReader σ τ i ∧ ∀ r r', σ.readers i = some r → τ.readers i = some r' →
      r'.position g = r.position g ∨ ok = false ∧ Skipped σ r r'
  | .copyFrom i _ _ | .abandonRead i =>
      OnlyReader σ τ i ∧ ∀ r r', σ.readers i = some r → τ.readers i = some r' →
        r'.position g = r.position g
  | .commitRead i n ok => OnlyReader σ τ i ∧ ∀ r t r', σ.readers i = some r → r.tx = some t →
      τ.readers i = some r' →
        if ok then r'.position g = r.position g + n.toNat ∧
          ∃ xs, Consecutive σ (r.position g) n.toNat xs ∧
            ∀ j x, j < n.toNat → t.copied j = some x → xs[j]? = some x
        else Skipped σ r r'
  | .read i n ok data => OnlyReader σ τ i ∧ ∀ r r', σ.readers i = some r →
      τ.readers i = some r' →
        if ok then r'.position g = r.position g + n.toNat ∧
          ∃ xs, Consecutive σ (r.position g) n.toNat xs ∧ data = some (flat xs)
        else r'.position g = r.position g ∨ Skipped σ r r'
  | _ => True

/-- The `n` messages from position `p` on. -/
theorem Settled.consecutive (settled : Settled σ) {p n : Nat} (below : p + n ≤ σ.written.length) :
    ∃ xs, Consecutive σ p n xs := by
  obtain ⟨ws, written⟩ := settled.stored
  rw [written, List.length_map] at below
  refine ⟨(ws.drop p).take n, ?_, ?_⟩
  · rw [List.length_take, List.length_drop]
    omega
  · intro j x at_j
    rw [List.getElem?_take] at at_j
    split at at_j
    next =>
      rw [List.getElem?_drop] at at_j
      rw [written, List.getElem?_map, at_j, Option.map_some]
    next => cases at_j

/-- The slots of `n` positions that the writer has not lapped hold their messages. -/
theorem Settled.window (settled : Settled σ) (inv : Inv g σ) {p n : Nat}
    (near : σ.written.length ≤ p + g.N) (below : p + n ≤ σ.written.length) :
    Consecutive σ p n (window g.s g.N σ.ring p n) := by
  obtain ⟨xs, length, messages⟩ := settled.consecutive below
  refine ⟨length_window _ _ _, ?_⟩
  intro j x at_j
  obtain ⟨inside, at_j⟩ := List.getElem?_eq_some_iff.mp at_j
  rw [length_window] at inside
  have message := messages j xs[j] (List.getElem?_eq_getElem (by omega))
  -- Positions one revolution ahead are not written yet, hence not stored to.
  have untouched : p + j + g.N ∉ σ.touched := by
    intro stale
    have old := settled.touched _ stale
    omega
  rw [getElem_window] at at_j
  rw [message, ← inv.held _ _ (by omega) untouched message, ← at_j]

/-! ## Runs -/

variable [DecidableEq ι]

theorem Settled.afterRead (settled : Settled σ) (i : ι) (storage : Storage) (r : Reader g.s)
    (own : ∀ t, r.tx = some t → ∀ j, t.exposed j = false) : Settled (σ.afterRead i storage r) := by
  refine ⟨settled.idle, settled.touched, settled.stored, ?_⟩
  intro j r' t member opened
  rcases afterRead_readers member with ⟨rfl, rfl⟩ | other
  · exact own t opened
  · exact settled.exposed j r' t other opened

/-- A reader without an open transaction has no copies to account for. -/
theorem Settled.afterClosed (settled : Settled σ) (i : ι) (storage : Storage) (r : Reader g.s)
    (closed : r.tx = none) : Settled (σ.afterRead i storage r) := by
  apply settled.afterRead
  intro t opened
  rw [closed] at opened
  cases opened

theorem Settled.step (settled : Settled σ) {a : Action ι g.s} (taken : Step g σ a τ)
    (whole : WholeWrites a) : Settled τ := by
  cases taken with
  | attach => exact settled.afterClosed _ _ _ rfl
  | beginWrite => exact whole.elim
  | copyTo => exact whole.elim
  | commitWrite => exact whole.elim
  | abandonWrite => exact whole.elim
  | @write xs ok storage =>
    cases ok with
    -- A write appends exactly the positions it stores to.
    | true =>
      refine ⟨settled.idle, ?_, ?_, settled.exposed⟩
      · intro q member
        simp only [if_true, List.length_append, List.length_map]
        rcases List.mem_append.mp member with new | old
        · have bounds := List.mem_range'_1.mp new
          omega
        · have bound := settled.touched q old
          omega
      · obtain ⟨ws, written⟩ := settled.stored
        exact ⟨ws ++ xs, by simp [written]⟩
    | false => exact ⟨settled.idle, settled.touched, settled.stored, settled.exposed⟩
  | @beginRead i r n ok tx storage member =>
    refine settled.afterRead _ _ _ ?_
    intro t opened j
    cases ok with
    | true =>
      cases opened
      rfl
    | false => cases opened
  -- What is copied now is not exposed, and what was copied before was not.
  | @copyFrom i r t start n data member opened =>
    refine settled.afterRead _ _ _ ?_
    intro t' eq j
    cases eq
    simp only [OpenRead.noteCopy]
    rcases store_cases t.exposed start.toNat j ((List.range n.toNat).map fun k =>
        σ.overwritten g (r.position g + start.toNat + k)) with ⟨k, _, _, eq⟩ | ⟨_, eq⟩
    · rw [eq, List.getElem_map]
      exact settled.not_overwritten _
    · rw [eq]
      exact settled.exposed i r t member opened j
  | commitRead => exact settled.afterClosed _ _ _ rfl
  | abandonRead => exact settled.afterClosed _ _ _ rfl
  | read member closed => exact settled.afterClosed _ _ _ closed

theorem reachable_settled {ring : Ring}
    (reachable : Reachable (initial g ring) (Restrict (fun _ => WholeWrites) (Step g)) σ)
    (total : σ.written.length * g.s < 2 ^ 64) : Inv g σ ∧ Settled σ := by
  -- Only `Inv` needs the bound on the bytes written.
  refine reachable.invariant_within (fun σ => σ.written.length * g.s < 2 ^ 64)
    (fun σ => Inv g σ ∧ Settled σ) ?_ ?_ ?_ total
  · intro σ start
    refine ⟨initial_inv ring σ start, ?_⟩
    cases start
    exact ⟨rfl, nofun, ⟨[], rfl⟩, nofun⟩
  · intro σ a τ taken bounded
    exact Nat.lt_of_le_of_lt (Nat.mul_le_mul_right _ taken.2.written_grows.length_le) bounded
  · intro σ a τ holds bounded taken
    exact ⟨holds.1.step taken.2 bounded, holds.2.step taken.2 taken.1⟩

theorem afterRead_only (i : ι) (storage : Storage) (r : Reader g.s)
    (ring : storage.ring = σ.ring) (writePtr : storage.writePtr = σ.writePtr) :
    OnlyReader σ (σ.afterRead i storage r) i := by
  refine ⟨ring, writePtr, rfl, ?_⟩
  intro j other
  simp only [State.afterRead, update_of_ne other]

theorem afterRead_own {i : ι} {storage : Storage} {r r' : Reader g.s}
    (member : (σ.afterRead i storage r).readers i = some r') :
    r' = { r with readPtr := storage.readPtr } := by
  simp only [State.afterRead, update_self, Option.some.injEq] at member
  exact member.symm

/-- A call of reader `i` meets what relates its endpoint before and after the call. -/
theorem afterRead_spec {P : Reader g.s → Reader g.s → Prop} {i : ι} {r r₀ : Reader g.s}
    {storage : Storage} (member : σ.readers i = some r) (ring : storage.ring = σ.ring)
    (writePtr : storage.writePtr = σ.writePtr) (own : P r { r₀ with readPtr := storage.readPtr }) :
    OnlyReader σ (σ.afterRead i storage r₀) i ∧ ∀ r₁ r', σ.readers i = some r₁ →
      (σ.afterRead i storage r₀).readers i = some r' → P r₁ r' := by
  refine ⟨afterRead_only i storage r₀ ring writePtr, ?_⟩
  intro r₁ r' known updated
  cases member.symm.trans known
  cases afterRead_own updated
  exact own

theorem StepSpec.commitRead (inv : Inv g σ) (settled : Settled σ) {i : ι} {r : Reader g.s}
    {t : OpenRead g.s} {n : UInt64} {ok : Bool} {storage : Storage}
    (member : σ.readers i = some r) (opened : r.tx = some t) (le : n ≤ t.nMessages)
    (returned : (queue g).commitRead (σ.readerView g r) n = (ok, storage))
    (delivered : List (Nat × Option (Vector UInt8 g.s))) :
    StepSpec σ (σ.afterRead i storage { r with tx := none, delivered }) (.commitRead i n ok) := by
  have behind := inv.behind member
  obtain ⟨-, available, -, copied⟩ := (inv.readers i r member).tx t opened
  rw [UInt64.le_iff_toNat_le] at le
  rw [behind.commitRead] at returned
  split at returned
  next far =>
    -- The writer has lapped the reader since `beginRead`: the test fails.
    cases returned
    refine ⟨afterRead_only i _ _ rfl rfl, ?_⟩
    intro r₁ t₁ r' known _ updated
    cases member.symm.trans known
    cases afterRead_own updated
    refine ⟨by omega, ?_⟩
    exact behind.skip.readPosition
  next near =>
    -- The writer has not, so every copy is still covered by the invariant.
    cases returned
    refine ⟨afterRead_only i _ _ rfl rfl, ?_⟩
    intro r₁ t₁ r' known opened' updated
    cases member.symm.trans known
    cases opened.symm.trans opened'
    cases afterRead_own updated
    refine ⟨(behind.popped n (by omega)).readPosition, ?_⟩
    obtain ⟨xs, consecutive⟩ := settled.consecutive (p := r.position g) (n := n.toNat) (by omega)
    refine ⟨xs, consecutive, ?_⟩
    intro j x below at_j
    have length := consecutive.1
    have inside : xs[j]? = some xs[j] := List.getElem?_eq_getElem (by omega)
    have clean := settled.exposed i r t member opened j
    rw [copied j x _ (by omega) at_j clean (by omega) (consecutive.2 j _ inside), inside]

theorem StepSpec.beginRead (inv : Inv g σ) {i : ι} {r : Reader g.s} {n : UInt64} {ok : Bool}
    {tx : MemTransaction} {storage : Storage} (member : σ.readers i = some r)
    (capacity : n.toNat ≤ g.N)
    (returned : (queue g).beginRead (σ.readerView g r) n = .ok (ok, tx, storage))
    (opened : Option (OpenRead g.s)) :
    StepSpec σ (σ.afterRead i storage { r with tx := opened }) (.beginRead i n ok) := by
  have behind := inv.behind member
  rw [behind.beginRead _ n (g.bytes_lt capacity)] at returned
  split at returned
  next far =>
    cases returned
    refine afterRead_spec member rfl rfl (Or.inr ⟨rfl, ?_, behind.skip.readPosition⟩)
    omega
  next =>
    -- Granted or refused for want of messages, the counter stays.
    have kept : storage = σ.readerView g r := by
      split at returned <;> cases returned <;> rfl
    subst kept
    exact afterRead_spec member rfl rfl (Or.inl rfl)

theorem StepSpec.read (inv : Inv g σ) (settled : Settled σ) {i : ι} {r : Reader g.s} {n : UInt64}
    {ok : Bool} {data : Option (List UInt8)} {storage : Storage} (member : σ.readers i = some r)
    (capacity : n.toNat ≤ g.N)
    (returned : (queue g).read (σ.readerView g r) true n = .ok (ok, storage, data)) :
    StepSpec σ (σ.afterRead i storage r) (.read i n ok data) := by
  have behind := inv.behind member
  rw [behind.read _ n (g.bytes_lt capacity)] at returned
  split at returned
  next far =>
    cases returned
    refine afterRead_spec member rfl rfl (Or.inr ⟨?_, behind.skip.readPosition⟩)
    omega
  next near =>
    split at returned
    next enough =>
      cases returned
      have delivered := settled.window inv (by omega) enough
      exact afterRead_spec member rfl rfl
        ⟨(behind.popped n enough).readPosition, _, delivered, rfl⟩
    next =>
      cases returned
      exact afterRead_spec member rfl rfl (Or.inl rfl)

/-- In every run whose writer only calls `write`, successful reads deliver consecutive messages
from the reader's position on, and a position changes otherwise only in a call that fails by
overflow, to the write position. -/
theorem reachable_stepSpec {ring : Ring} {a : Action ι g.s}
    (reachable : Reachable (initial g ring) (Restrict (fun _ => WholeWrites) (Step g)) σ)
    (taken : Step g σ a τ) (total : τ.written.length * g.s < 2 ^ 64) :
    Positions σ ∧ StepSpec σ τ a := by
  have bounded := Nat.mul_le_mul_right g.s taken.written_grows.length_le
  obtain ⟨inv, settled⟩ := reachable_settled reachable (by omega)
  refine ⟨⟨inv.writePtr, fun i r member => ?_⟩, ?_⟩
  · exact ⟨(inv.behind member).readPtr, (inv.behind member).ordered⟩
  cases taken with
  | attach =>
    refine ⟨afterRead_only _ _ _ rfl rfl, ?_⟩
    intro r' updated
    cases afterRead_own updated
    rfl
  | beginWrite => trivial
  | copyTo => trivial
  | commitWrite => trivial
  | abandonWrite => trivial
  | @write xs ok storage idle small returned =>
    have length : (UInt64.ofNat xs.length).toNat = xs.length := UInt64.toNat_ofNat_of_lt' small
    rw [g.write_unsynchronized _ _ _ length inv.writeAligned] at returned
    split at returned
    next capacity =>
      cases returned
      exact ⟨rfl, ⟨fun _ => capacity, fun _ => rfl⟩, rfl⟩
    next large =>
      cases returned
      refine ⟨rfl, ⟨nofun, fun capacity => absurd capacity large⟩, ?_⟩
      simp
  | beginRead member _ capacity returned => exact .beginRead inv member capacity returned _
  | copyFrom member => exact afterRead_spec member rfl rfl rfl
  | commitRead member opened le returned =>
    exact .commitRead inv settled member opened le returned _
  | abandonRead member => exact afterRead_spec member rfl rfl rfl
  | read member _ capacity returned => exact .read inv settled member capacity returned

/-! ## Possible steps -/

variable {ring : Ring} {i : ι} {r : Reader g.s}

theorem write_run
    (reachable : Reachable (initial g ring) (Restrict (fun _ => WholeWrites) (Step g)) σ)
    (total : σ.written.length * g.s < 2 ^ 64) (xs : List (Vector UInt8 g.s))
    (fits : xs.length ≤ g.N) :
    ∃ τ, Reachable (initial g ring) (Restrict (fun _ => WholeWrites) (Step g)) τ ∧
      τ.readers = σ.readers ∧ τ.written = σ.written ++ xs.map some := by
  obtain ⟨inv, settled⟩ := reachable_settled reachable total
  have bound := Nat.lt_of_le_of_lt fits g.N_lt
  have wrote := g.write_unsynchronized (σ.writerView g) xs (.ofNat xs.length)
    (UInt64.toNat_ofNat_of_lt' bound) inv.writeAligned
  rw [if_pos fits] at wrote
  have taken : Step g σ (.write xs true) _ := .write settled.idle bound wrote
  exact ⟨_, reachable.next ⟨by exact trivial, taken⟩, rfl, rfl⟩

/-- A reader that was not lapped copies `k` messages. -/
theorem copy_run
    (reachable : Reachable (initial g ring) (Restrict (fun _ => WholeWrites) (Step g)) σ)
    (total : σ.written.length * g.s < 2 ^ 64) (member : σ.readers i = some r)
    (closed : r.tx = none) (near : σ.written.length ≤ r.position g + g.N) (k : UInt64)
    (capacity : k.toNat ≤ g.N) (enough : r.position g + k.toNat ≤ σ.written.length) :
    ∃ τ r' t, Reachable (initial g ring) (Restrict (fun _ => WholeWrites) (Step g)) τ ∧
      τ.readers i = some r' ∧ r'.tx = some t ∧ t.nMessages = k ∧ r'.readPtr = r.readPtr ∧
      τ.written = σ.written := by
  have behind := (reachable_settled reachable total).1.behind member
  have begun := behind.beginRead .kUnsynchronizedWrite k (g.bytes_lt capacity)
  rw [if_neg (by omega), if_pos enough] at begun
  have copied := g.copyFrom_whole .kUnsynchronizedWrite σ.ring (r.position g) capacity
  let t : OpenRead g.s := ⟨.granted (g.transaction (r.position g) k) k, fun _ => false⟩
  let opened : Reader g.s := { r with tx := some t }
  have first : Step g σ (.beginRead i k true) (σ.afterRead i (σ.readerView g r) opened) :=
    .beginRead member closed capacity begun
  have own : (σ.afterRead i (σ.readerView g r) opened).readers i = some opened :=
    Function.update_self ..
  have inside : (0 : UInt64).toNat + k.toNat ≤ t.nMessages.toNat := by simp [t, OpenRead.granted]
  have second := Step.copyFrom own rfl inside copied
  exact ⟨_, _, _, (reachable.next ⟨by exact trivial, first⟩).next ⟨by exact trivial, second⟩,
    Function.update_self .., rfl, rfl, rfl, rfl⟩

/-- Then `commitRead` reports whether it was lapped meanwhile. -/
theorem commit_step
    (reachable : Reachable (initial g ring) (Restrict (fun _ => WholeWrites) (Step g)) σ)
    (total : σ.written.length * g.s < 2 ^ 64) (member : σ.readers i = some r) {t : OpenRead g.s}
    (opened : r.tx = some t) :
    ∃ ok τ, Step g σ (.commitRead i t.nMessages ok) τ ∧
      (ok = true ↔ σ.written.length ≤ r.position g + g.N) ∧
      (∃ r', τ.readers i = some r' ∧ r'.tx = none) ∧ τ.written = σ.written := by
  have behind := (reachable_settled reachable total).1.behind member
  have committed := behind.commitRead .kUnsynchronizedWrite t.nMessages
  by_cases near : σ.written.length ≤ r.position g + g.N
  · rw [if_neg (by omega)] at committed
    exact ⟨true, _, .commitRead member opened (UInt64.le_refl _) committed, iff_of_true rfl near,
      ⟨_, Function.update_self .., rfl⟩, rfl⟩
  · rw [if_pos (by omega)] at committed
    exact ⟨false, _, .commitRead member opened (UInt64.le_refl _) committed,
      iff_of_false Bool.false_ne_true near, ⟨_, Function.update_self .., rfl⟩, rfl⟩

/-- A reader of a ring of one message is lapped between `copyFrom` and `commitRead`, and gets the
next message that is written. -/
theorem reachable_stepSpec_lapped : ∃ σ₁ τ₁ σ₂ τ₂ : State Unit single.s,
    σ₁.written.length = 2 ∧ StepSpec σ₁ τ₁ (.commitRead () 1 false) ∧
    σ₂.written.length = 3 ∧ StepSpec σ₂ τ₂ (.commitRead () 1 true) := by
  let x : Vector UInt8 single.s := .replicate _ 7
  have start : Reachable (initial (ι := Unit) single fun _ => 0)
      (Restrict (fun _ => WholeWrites) (Step single)) _ := .start rfl
  have attached := start.next (a := .attach ()) ⟨by exact trivial, .attach rfl⟩
  obtain ⟨σ₀, run, readers₀, written₀⟩ := write_run attached (by decide) [x] (by decide)
  have one : σ₀.written.length = 1 := by rw [written₀]; rfl
  have member : σ₀.readers () = some .attached := by rw [readers₀]; rfl
  obtain ⟨σ, r, t, run, member, opened, count, readPtr, written⟩ := copy_run run
    (by rw [one]; decide) member rfl (by rw [one]; decide) 1 (by decide) (by rw [one]; decide)
  have position : r.position single = 0 := by rw [Reader.position, readPtr]; rfl
  rw [← written] at one
  -- One more message than the ring has room for.
  obtain ⟨σ₁, run, readers₁, written₁⟩ := write_run run (by rw [one]; decide) [x] (by decide)
  have two : σ₁.written.length = 2 := by simp [written₁, one]
  rw [← readers₁] at member
  obtain ⟨ok, τ₁, fails, iff, ⟨r₁, member₁, closed⟩, same₁⟩ :=
    commit_step run (by rw [two]; decide) member opened
  obtain rfl : ok = false := by
    rw [← Bool.not_eq_true, iff, two, position]
    decide
  rw [count] at fails
  have spec₁ := (reachable_stepSpec run fails (by rw [same₁, two]; decide)).2
  have skipped : r₁.position single = 2 := by
    have moved := spec₁.2 r t r₁ member opened member₁
    rw [if_neg Bool.false_ne_true] at moved
    exact moved.2.trans two
  rw [← same₁] at two
  have lapped := run.next ⟨by exact trivial, fails⟩
  obtain ⟨σ₂, run, readers₂, written₂⟩ := write_run lapped (by rw [two]; decide) [x] (by decide)
  have three : σ₂.written.length = 3 := by simp [written₂, two]
  rw [← readers₂] at member₁
  obtain ⟨σ₃, r₃, t₃, run, member₃, opened₃, count₃, readPtr₃, written₃⟩ := copy_run run
    (by rw [three]; decide) member₁ closed (by rw [three, skipped]; decide) 1 (by decide)
    (by rw [three, skipped]; decide)
  rw [← written₃] at three
  have position₃ : r₃.position single = 2 := by rw [Reader.position, readPtr₃]; exact skipped
  obtain ⟨ok, τ₃, succeeds, iff₃, -, same₃⟩ :=
    commit_step run (by rw [three]; decide) member₃ opened₃
  obtain rfl : ok = true := iff₃.mpr (by rw [three, position₃]; decide)
  rw [count₃] at succeeds
  exact ⟨σ₁, τ₁, σ₃, τ₃, same₁ ▸ two, spec₁, three,
    (reachable_stepSpec run succeeds (by rw [same₃, three]; decide)).2⟩

end Fmq.Unsynchronized
