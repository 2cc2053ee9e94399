import Fmq.Properties.Broadcast

/-!
# Torn reads of an unsynchronized queue

`commitRead` looks at the write counter only, and the writer moves it after its stores. A reader
that copies a slot between such a store and its commit is told that the read succeeded.
-/
namespace Fmq.Unsynchronized

open Fmq.Geometry (single)
open Memory RecordRing Transition Function

variable {ι : Type} {g : Geometry}

/-- What every successful `commitRead` handed over was committed at those positions. -/
def Untorn (σ : State ι g.s) : Prop :=
  ∀ i r, σ.readers i = some r → ∀ (p : Nat) (copy : Option (Vector UInt8 g.s)),
    (p, copy) ∈ r.delivered → p < σ.written.length ∧
      ∀ x y, copy = some x → σ.written[p]? = some (some y) → x = y

/-- A `commitRead` of slots none of which held an uncommitted store when they were copied,
unless the distance test fails anyway. -/
def Unexposed (σ : State ι g.s) : Action ι g.s → Prop
  | .commitRead i n _ => ∀ r t, σ.readers i = some r → r.tx = some t →
      g.N * g.s < (σ.writePtr - r.readPtr).toNat ∨ ∀ j < n.toNat, t.exposed j = false
  | _ => True

variable {σ τ : State ι g.s}

/-- What a `commitRead` that meets the condition hands over. -/
theorem Inv.handed_over (inv : Inv g σ) {i : ι} {r : Reader g.s} {t : OpenRead g.s} {n : UInt64}
    {storage : Storage} (member : σ.readers i = some r) (opened : r.tx = some t)
    (le : n ≤ t.nMessages)
    (returned : (queue g).commitRead (σ.readerView g r) n = (true, storage))
    (unexposed : Unexposed σ (.commitRead i n true)) (j : Nat) (below : j < n.toNat) :
    r.position g + j < σ.written.length ∧
      ∀ x y, t.copied j = some x → σ.written[r.position g + j]? = some (some y) → x = y := by
  obtain ⟨-, available, -, copied⟩ := (inv.readers i r member).tx t opened
  have behind := inv.behind member
  rw [UInt64.le_iff_toNat_le] at le
  rw [behind.commitRead] at returned
  split at returned
  next => cases returned
  next near =>
    refine ⟨by omega, ?_⟩
    intro x y at_j at_p
    -- The call succeeded, so the distance test has not failed.
    have clean : ∀ j < n.toNat, t.exposed j = false := by
      rcases unexposed r t member opened with far | clean
      · exact absurd (behind.overflow.mp far) near
      · exact clean
    exact copied j x y (by omega) at_j (clean j below) (by omega) at_p

variable [DecidableEq ι]

/-- A call that hands over nothing leaves every record as it was. -/
theorem afterRead_delivered {i j : ι} {storage : Storage} {r r₀ r' : Reader g.s}
    (member : (σ.afterRead i storage r₀).readers j = some r') (known : σ.readers i = some r)
    (kept : r₀.delivered = r.delivered)
    {entry : Nat × Option (Vector UInt8 g.s)} (listed : entry ∈ r'.delivered) :
    ∃ r, σ.readers j = some r ∧ entry ∈ r.delivered := by
  rcases afterRead_readers member with ⟨rfl, rfl⟩ | other
  · exact ⟨r, known, kept ▸ listed⟩
  · exact ⟨r', other, listed⟩

/-- Only a successful `commitRead` hands messages over. -/
theorem Step.delivered {a : Action ι g.s} (taken : Step g σ a τ) {j : ι} {r' : Reader g.s}
    (member : τ.readers j = some r') {p : Nat} {copy : Option (Vector UInt8 g.s)}
    (entry : (p, copy) ∈ r'.delivered) :
    (∃ r, σ.readers j = some r ∧ (p, copy) ∈ r.delivered) ∨
      ∃ r t n storage k, a = .commitRead j n true ∧ σ.readers j = some r ∧ r.tx = some t ∧
        n ≤ t.nMessages ∧ (queue g).commitRead (σ.readerView g r) n = (true, storage) ∧
        k < n.toNat ∧ p = r.position g + k ∧ copy = t.copied k := by
  cases taken with
  | @attach i fresh =>
    rcases afterRead_readers member with ⟨rfl, rfl⟩ | other
    · simp [Reader.attached] at entry
    · exact Or.inl ⟨r', other, entry⟩
  | beginRead known => exact Or.inl (afterRead_delivered member known rfl entry)
  | copyFrom known => exact Or.inl (afterRead_delivered member known rfl entry)
  | @commitRead i r t n ok storage known opened le returned =>
    rcases afterRead_readers member with ⟨rfl, rfl⟩ | other
    · cases ok with
      | true =>
        simp only [if_true, List.mem_append, List.mem_map, List.mem_range] at entry
        rcases entry with old | ⟨k, below, eq⟩
        · exact Or.inl ⟨r, known, old⟩
        · cases eq
          exact Or.inr ⟨r, t, n, storage, k, rfl, known, opened, le, returned, below, rfl, rfl⟩
      | false => exact Or.inl ⟨r, known, entry⟩
    · exact Or.inl ⟨r', other, entry⟩
  | abandonRead known => exact Or.inl (afterRead_delivered member known rfl entry)
  | read known => exact Or.inl (afterRead_delivered member known rfl entry)
  -- The writer's steps do not touch the endpoints.
  | _ => exact Or.inl ⟨r', member, entry⟩

theorem Untorn.step (untorn : Untorn σ) (inv : Inv g σ) {a : Action ι g.s}
    (taken : Step g σ a τ) (unexposed : Unexposed σ a) : Untorn τ := by
  obtain ⟨more, grown⟩ := taken.written_grows
  intro j r' member p copy entry
  have committed : p < σ.written.length ∧
      ∀ x y, copy = some x → σ.written[p]? = some (some y) → x = y := by
    -- Either the entry was there before, or this `commitRead` made it.
    rcases taken.delivered member entry with
      ⟨r, known, old⟩ | ⟨r, t, n, storage, k, rfl, known, opened, le, returned, below, rfl, rfl⟩
    · exact untorn j r known p copy old
    · exact inv.handed_over known opened le returned unexposed k below
  rw [← grown, List.length_append, List.getElem?_append_left committed.1]
  exact ⟨by omega, committed.2⟩

/-- In every run whose `commitRead` steps meet the condition no successful read was torn. -/
theorem reachable_untorn {ring : Ring}
    (reachable : Reachable (initial g ring) (Restrict Unexposed (Step g)) σ)
    (total : σ.written.length * g.s < 2 ^ 64) : Untorn σ := by
  have both : Inv g σ ∧ Untorn σ := by
    refine reachable.invariant_within (fun σ => σ.written.length * g.s < 2 ^ 64)
      (fun σ => Inv g σ ∧ Untorn σ) ?_ ?_ ?_ total
    · intro σ start
      refine ⟨initial_inv ring σ start, ?_⟩
      cases start
      intro i r member
      cases member
    · intro σ a τ taken bounded
      exact Nat.lt_of_le_of_lt (Nat.mul_le_mul_right _ taken.2.written_grows.length_le) bounded
    · intro σ a τ holds bounded taken
      exact ⟨holds.1.step taken.2 bounded, holds.2.step holds.1 taken.2 taken.1⟩
  exact both.2

/-- A reader that copies and commits while no store is uncommitted. -/
theorem reachable_untorn_single : ∃ σ : State Unit single.s,
    (∃ r, σ.readers () = some r ∧ r.delivered = [(0, some #v[7])]) ∧ Untorn σ := by
  have start : Reachable (initial (ι := Unit) single fun _ => 0) (Restrict Unexposed (Step single))
      ⟨fun _ => 0, 0, none, fun _ => none, [], []⟩ := .start rfl
  have attached := start.next (a := .attach ()) ⟨by exact trivial, .attach rfl⟩
  have written := attached.next (a := .write [#v[7]] true) ⟨by exact trivial, .write rfl (by decide)
    (single.write_unsynchronized _ _ _ rfl (by decide))⟩
  have begun := written.next (a := .beginRead () 1 true) ⟨by exact trivial,
    .beginRead rfl rfl (by decide)
      (Geometry.Behind.beginRead (p := 0) (w := 1) ⟨rfl, rfl, by decide⟩ _ 1 (by decide))⟩
  have copied := begun.next (a := .copyFrom () 0 1) ⟨by exact trivial,
    .copyFrom rfl rfl (by decide)
      (single.copyFrom_transaction _ _ 0 1 0 1 (by decide) (by decide))⟩
  have committed := copied.next (a := .commitRead () 1 true) ⟨by
      intro r t known opened
      cases known
      cases opened
      exact Or.inr (by decide),
    .commitRead rfl rfl (by decide)
      (Geometry.Behind.commitRead (p := 0) (w := 1) ⟨rfl, rfl, by decide⟩ _ 1)⟩
  exact ⟨_, ⟨_, rfl, rfl⟩, reachable_untorn committed (by decide)⟩

/-! ## A torn read -/

/-- The reader begins, the writer stores the next message into the same slot, the reader copies
it and commits; the writer has not committed yet. -/
theorem torn_run : ∃ σ : State Unit single.s,
    Reachable (initial single fun _ => 0) (Step single) σ ∧
      σ.written = [some #v[7]] ∧
      ∃ r, σ.readers () = some r ∧ r.delivered = [(0, some #v[8])] := by
  have start : Reachable (initial (ι := Unit) single fun _ => 0) (Step single)
      ⟨fun _ => 0, 0, none, fun _ => none, [], []⟩ := .start rfl
  have attached := start.next (a := .attach ()) (.attach rfl)
  have written := attached.next (a := .write [#v[7]] true) (.write rfl (by decide)
    (single.write_unsynchronized _ _ _ rfl (by decide)))
  have begun := written.next (a := .beginRead () 1 true) (.beginRead rfl rfl (by decide)
    (Geometry.Behind.beginRead (p := 0) (w := 1) ⟨rfl, rfl, by decide⟩ _ 1 (by decide)))
  have granted := begun.next (a := .beginWrite 1 true) (.beginWrite rfl
    (single.beginWrite_unsynchronized _ 1 (by decide)))
  have stored := granted.next (a := .copyTo 0 [#v[8]]) (.copyTo rfl (by decide)
    (single.copyTo_transaction _ _ 1 1 0 1 _ rfl (by decide) (by decide)))
  -- The reader copies 8 out of the slot of the unread 7.
  have copied := stored.next (a := .copyFrom () 0 1) (.copyFrom rfl rfl (by decide)
    (single.copyFrom_transaction _ _ 0 1 0 1 (by decide) (by decide)))
  have committed := copied.next (a := .commitRead () 1 true) (.commitRead rfl rfl (by decide)
    (Geometry.Behind.commitRead (p := 0) (w := 1) ⟨rfl, rfl, by decide⟩ _ 1))
  exact ⟨_, committed, rfl, _, rfl, rfl⟩

theorem not_untorn : ¬ ∀ (g : Geometry) (ring : Ring) (σ : State Unit g.s),
    Reachable (initial g ring) (Step g) σ → σ.written.length * g.s < 2 ^ 64 → Untorn σ := by
  intro all
  obtain ⟨σ, reachable, written, r, member, delivered⟩ := torn_run
  have untorn := all single _ σ reachable (by rw [written]; decide) () r member 0 (some #v[8])
    (by rw [delivered]; exact List.mem_singleton_self _)
  have same := untorn.2 #v[8] #v[7] rfl (by rw [written]; rfl)
  exact absurd (congrArg Vector.toList same) (by decide)

end Fmq.Unsynchronized
