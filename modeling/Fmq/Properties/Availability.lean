import Fmq.Model.WholeCalls
import Fmq.Properties.Requests

/-!
# The availability figures

`availableToRead` and `availableToWrite` are plain differences of the counters. They stay within
the capacity as long as no endpoint falls more than the capacity behind the writer.
-/
namespace Fmq.WholeCalls

open Fmq.Geometry Transition

variable {ι : Type} {g : Geometry} {flavor : MQFlavor}

/-- At every endpoint the two figures are at most the capacity, and add up to it. -/
def Within (g : Geometry) (flavor : MQFlavor) (σ : State ι) : Prop :=
  ∀ i, ∃ toRead toWrite count,
    (g.queue flavor).availableToRead (σ.view flavor i).writePtr (σ.view flavor i).readPtr =
      .ok toRead ∧
    (g.queue flavor).availableToWrite (σ.view flavor i).writePtr (σ.view flavor i).readPtr =
      .ok toWrite ∧
    (g.queue flavor).getQuantumCount = .ok count ∧
    toRead ≤ count ∧ toWrite ≤ count ∧ toRead.toNat + toWrite.toNat = count.toNat

/-- A write that would take place in an unsynchronized queue leaves no endpoint more than the
capacity behind, and the size of a read in bytes does not wrap to one that is there. -/
def Keeps (g : Geometry) (flavor : MQFlavor) (σ : State ι) : Action ι → Prop
  | .write _ data n => flavor = .kUnsynchronizedWrite → data.isSome → n.toNat ≤ g.N →
      ∀ j, distance (σ.view flavor j) / g.s + n.toNat ≤ g.N
  | .read i _ n => n.toNat * g.s < 2 ^ 64 ∨
      distance (σ.view flavor i) < n.toNat * g.s % 2 ^ 64

/-- No endpoint is more than the capacity behind the writer. -/
structure Inv (g : Geometry) (flavor : MQFlavor) (σ : State ι) : Prop where
  near : ∀ i, ∃ p, g.Behind (σ.view flavor i) p σ.written ∧ σ.written ≤ p + g.N

theorem initial_inv (σ : State ι) (start : initial σ) : Inv g flavor σ := by
  obtain ⟨ring, rfl⟩ := start
  refine ⟨fun i => ⟨0, ?_, Nat.zero_le _⟩⟩
  cases flavor <;> exact ⟨by simp [State.view], by simp [State.view], Nat.le_refl _⟩

theorem Inv.within {σ : State ι} (inv : Inv g flavor σ) : Within g flavor σ := by
  intro i
  obtain ⟨p, behind, near⟩ := inv.near i
  have apart := (behind.counts near).toApart
  have below : σ.written - p ≤ g.N := apart.bounded
  have toRead := toNat_messages below
  have toWrite := toNat_messages (Nat.sub_le g.N (σ.written - p))
  have count := toNat_messages (Nat.le_refl g.N)
  -- The figures do not depend on the flavor.
  refine ⟨_, _, _, apart.availableToRead, apart.availableToWrite, g.getQuantumCount_eq flavor, ?_⟩
  rw [UInt64.le_iff_toNat_le, UInt64.le_iff_toNat_le, toRead, toWrite, count]
  omega

/-! ## Steps -/

theorem view_writePtr (flavor : MQFlavor) (σ : State ι) (i : ι) :
    (σ.view flavor i).writePtr = σ.writePtr := by
  cases flavor <;> rfl

variable [DecidableEq ι] {σ τ : State ι}

/-- What an endpoint sees after a call: what the call left, or that with a counter of its own. -/
theorem view_after (flavor : MQFlavor) (i j : ι) (storage : Storage) (more : Nat) :
    (σ.after flavor i storage more).view flavor j = storage ∨
      flavor = .kUnsynchronizedWrite ∧ (σ.after flavor i storage more).view flavor j =
        ⟨storage.ring, (σ.view flavor j).readPtr, storage.writePtr⟩ := by
  cases flavor with
  | kSynchronizedReadWrite =>
    left
    simp [State.after, State.view]
  | kUnsynchronizedWrite =>
    by_cases same : j = i
    · left
      simp [State.after, State.view, same]
    · right
      simp [State.after, State.view, same]

/-- A call that leaves the write counter alone. -/
theorem Inv.kept (inv : Inv g flavor σ) (i : ι) (storage : Storage) {p : Nat}
    (writePtr : storage.writePtr = σ.writePtr) (behind : g.Behind storage p σ.written)
    (near : σ.written ≤ p + g.N) : Inv g flavor (σ.after flavor i storage 0) := by
  refine ⟨fun j => ?_⟩
  rcases view_after flavor i j storage 0 with same | ⟨-, other⟩
  · rw [same]
    exact ⟨p, behind, near⟩
  · obtain ⟨p', behind', near'⟩ := inv.near j
    rw [other]
    refine ⟨p', ⟨behind'.readPtr, ?_, behind'.ordered⟩, near'⟩
    rw [writePtr, ← view_writePtr flavor σ j]
    exact behind'.writePtr

/-- A write of `n` messages that leaves every endpoint within the capacity. -/
theorem Inv.wrote (inv : Inv g flavor σ) (i : ι) (ring : Ring) (n : UInt64)
    (own : ∀ p, g.Behind (σ.view flavor i) p σ.written → σ.written ≤ p + g.N →
      σ.written + n.toNat ≤ p + g.N)
    (others : flavor = .kUnsynchronizedWrite →
      ∀ j, distance (σ.view flavor j) / g.s + n.toNat ≤ g.N)
    (total : (σ.written + n.toNat) * g.s < 2 ^ 64) :
    Inv g flavor (σ.after flavor i
      ((g.queue flavor).commitWrite { σ.view flavor i with ring } n) n.toNat) := by
  obtain ⟨p, behind, near⟩ := inv.near i
  have moved : ((g.queue flavor).commitWrite { σ.view flavor i with ring } n).writePtr.toNat =
      (σ.written + n.toNat) * g.s := g.toNat_commitWrite flavor _ n behind.writePtr total
  refine ⟨fun j => ?_⟩
  rcases view_after flavor i j
      ((g.queue flavor).commitWrite { σ.view flavor i with ring } n) n.toNat with
    same | ⟨unsync, other⟩
  · rw [same]
    exact ⟨p, ⟨behind.readPtr, moved, Nat.le_trans behind.ordered (Nat.le_add_right _ _)⟩,
      own p behind near⟩
  · obtain ⟨p', behind', near'⟩ := inv.near j
    rw [other]
    refine ⟨p', ⟨behind'.readPtr, moved, Nat.le_trans behind'.ordered (Nat.le_add_right _ _)⟩, ?_⟩
    have unread := others unsync j
    rw [distance, behind'.distance, Nat.mul_div_cancel _ g.s_pos] at unread
    have ordered := behind'.ordered
    simp only [State.after]
    omega

theorem Inv.write (inv : Inv g flavor σ) {i : ι} {data : Option (List UInt8)} {n : UInt64}
    {ok : Bool} {storage : Storage} (keeps : Keeps g flavor σ (.write i data n))
    (returned : (g.queue flavor).write (σ.view flavor i) data n = .ok (ok, storage))
    (total : (σ.written + if ok then n.toNat else 0) * g.s < 2 ^ 64) :
    Inv g flavor (σ.after flavor i storage (if ok then n.toNat else 0)) := by
  rcases write_cases (g := g) (σ := σ.view flavor i) (n := n) flavor data with
    eq | ⟨accepts, some_data, ring, eq⟩
  · rw [eq] at returned
    cases returned
    obtain ⟨p, behind, near⟩ := inv.near i
    exact inv.kept i _ (view_writePtr flavor σ i) behind near
  · rw [eq] at returned
    cases returned
    rw [if_pos rfl] at total
    have capacity : n.toNat ≤ g.N := Nat.le_of_not_lt fun more => accepts (Or.inr more)
    refine inv.wrote i ring n ?_ (fun unsync => keeps unsync some_data capacity) total
    intro p behind near
    cases flavor with
    | kSynchronizedReadWrite =>
      -- The synchronized writer has compared with the free space itself.
      rw [(behind.counts near).refusesWrite] at accepts
      have ordered := behind.ordered
      omega
    | kUnsynchronizedWrite =>
      have unread := keeps rfl some_data capacity i
      rw [distance, behind.distance, Nat.mul_div_cancel _ g.s_pos] at unread
      have ordered := behind.ordered
      omega

omit [DecidableEq ι] in
/-- A read of an endpoint within the capacity refuses, or takes messages that are there. -/
theorem read_near (flavor : MQFlavor) {storage : Storage} {p w : Nat} {n : UInt64}
    (behind : g.Behind storage p w) (near : w ≤ p + g.N) (hasData : Bool)
    (plain : n.toNat * g.s < 2 ^ 64 ∨ distance storage < n.toNat * g.s % 2 ^ 64) :
    (g.queue flavor).read storage hasData n = .ok (false, storage, none) ∨
      p + n.toNat ≤ w ∧ ∃ data,
        (g.queue flavor).read storage hasData n = .ok (true, g.popped storage n, data) := by
  have within : distance storage ≤ g.N * g.s := by
    rw [distance, behind.distance]
    exact Nat.mul_le_mul_right _ (by omega)
  by_cases short : distance storage < n.toNat * g.s % 2 ^ 64
  · exact Or.inl (read_short flavor behind.readAligned behind.writeAligned within short hasData)
  · have fits : n.toNat * g.s < 2 ^ 64 := plain.resolve_right short
    rw [Nat.mod_eq_of_lt fits, Nat.not_lt, distance, behind.distance] at short
    have enough := Nat.le_of_mul_le_mul_right short g.s_pos
    have ordered := behind.ordered
    cases hasData with
    | false =>
      have begun := behind.beginRead flavor n fits
      rw [if_neg (by omega), if_pos (by omega)] at begun
      exact Or.inl (Queue.read_null begun)
    | true =>
      have read := behind.read flavor n fits
      rw [if_neg (by omega), if_pos (by omega)] at read
      exact Or.inr ⟨by omega, _, read⟩

theorem Inv.read (inv : Inv g flavor σ) {i : ι} {hasData : Bool} {n : UInt64} {ok : Bool}
    {storage : Storage} {data : Option (List UInt8)} (keeps : Keeps g flavor σ (.read i hasData n))
    (returned : (g.queue flavor).read (σ.view flavor i) hasData n = .ok (ok, storage, data)) :
    Inv g flavor (σ.after flavor i storage 0) := by
  obtain ⟨p, behind, near⟩ := inv.near i
  rcases read_near flavor behind near hasData keeps with eq | ⟨enough, _, eq⟩
  · rw [eq] at returned
    cases returned
    exact inv.kept i _ (view_writePtr flavor σ i) behind near
  · rw [eq] at returned
    cases returned
    exact inv.kept i _ (view_writePtr flavor σ i) (behind.popped n enough) (by omega)

/-! ## Runs -/

theorem Step.written_le {a : Action ι} (taken : Step g flavor σ a τ) : σ.written ≤ τ.written := by
  cases taken with
  | write => exact Nat.le_add_right _ _
  | read => exact Nat.le_refl _

/-- In every run whose steps keep every endpoint near, the figures are within the capacity and
add up to it, in every state and at every endpoint. -/
theorem reachable_within
    (reachable : Reachable initial (Restrict (Keeps g flavor) (Step g flavor)) σ)
    (total : σ.written * g.s < 2 ^ 64) : Within g flavor σ := by
  suffices inv : Inv g flavor σ from inv.within
  refine reachable.invariant_within (fun σ => σ.written * g.s < 2 ^ 64) (Inv g flavor)
    initial_inv ?_ ?_ total
  · rintro σ a τ ⟨-, taken⟩ bounded
    exact Nat.lt_of_le_of_lt (Nat.mul_le_mul_right _ taken.written_le) bounded
  · rintro σ a τ inv bounded ⟨keeps, taken⟩
    cases taken with
    | write returned => exact inv.write keeps returned bounded
    | read returned => exact inv.read keeps returned

/-- One message in a ring of one. -/
theorem reachable_within_single : ∃ σ : State Unit, σ.written = 1 ∧
    Within single .kUnsynchronizedWrite σ := by
  let σ : State Unit := ⟨fun _ => 0, 0, 0, fun _ => 0, 0⟩
  have start : Reachable initial (Restrict (Keeps single .kUnsynchronizedWrite)
      (Step (ι := Unit) single .kUnsynchronizedWrite)) σ := .start ⟨_, rfl⟩
  have keeps : Keeps single .kUnsynchronizedWrite σ (.write () (some [7]) 1) :=
    fun _ _ _ () => by decide
  have written := start.next ⟨keeps,
    .write (single.write_unsynchronized _ [#v[7]] 1 rfl (by decide))⟩
  exact ⟨_, rfl, reachable_within written (by decide)⟩

/-! ## A lapped endpoint -/

/-- Two messages in a ring of one, at an endpoint that reads none. -/
theorem lapped_run : ∃ σ : State Unit,
    Reachable initial (Step single .kUnsynchronizedWrite) σ ∧ σ.written = 2 ∧
      σ.view .kUnsynchronizedWrite () = ⟨σ.ring, 0, 2⟩ := by
  have start : Reachable initial (Step (ι := Unit) single .kUnsynchronizedWrite)
      ⟨fun _ => 0, 0, 0, fun _ => 0, 0⟩ := .start ⟨_, rfl⟩
  have first := start.next (a := .write () (some [7]) 1)
    (.write (single.write_unsynchronized _ [#v[7]] 1 rfl (by decide)))
  have second := first.next (a := .write () (some [8]) 1)
    (.write (single.write_unsynchronized _ [#v[8]] 1 rfl (by decide)))
  exact ⟨_, second, rfl, rfl⟩

theorem not_within : ¬ ∀ (g : Geometry) flavor (σ : State Unit),
    Reachable initial (Step g flavor) σ → σ.written * g.s < 2 ^ 64 → Within g flavor σ := by
  intro all
  obtain ⟨σ, reachable, written, view⟩ := lapped_run
  obtain ⟨toRead, _, count, read, _, capacity, below, -⟩ :=
    all single _ σ reachable (by rw [written]; decide) ()
  have two : (single.queue .kUnsynchronizedWrite).availableToRead 2 0 = .ok 2 := by decide
  have one : (single.queue .kUnsynchronizedWrite).getQuantumCount = .ok 1 := by decide
  rw [view, two] at read
  rw [one] at capacity
  cases read
  cases capacity
  exact absurd below (by decide)

end Fmq.WholeCalls
