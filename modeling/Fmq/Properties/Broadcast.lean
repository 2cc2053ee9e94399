import Fmq.Model.Unsynchronized
import Fmq.Properties.Lagging

/-!
# What the readers of an unsynchronized queue get

A slot holds what was committed at a position of the last revolution, unless the writer has
stored a message of the next revolution into it and not committed that yet. A reader that
copied no such slot may trust the distance test of `commitRead`.
-/
namespace Fmq.Unsynchronized

open Cyclic Memory RecordRing Transition Function

variable {ι : Type} {g : Geometry}

/-- What an open read transaction copied was committed, if the slot was not exposed and the
writer has not lapped it since. -/
structure TxInv (σ : State ι g.s) (r : Reader g.s) (t : OpenRead g.s) : Prop where
  regions : t.tx = g.transaction (r.position g) t.nMessages
  available : r.position g + t.nMessages.toNat ≤ σ.written.length
  capacity : t.nMessages.toNat ≤ g.N
  copied : ∀ j x y, j < t.nMessages.toNat → t.copied j = some x → t.exposed j = false →
    σ.written.length ≤ r.position g + j + g.N →
    σ.written[r.position g + j]? = some (some y) → x = y

structure ReaderInv (σ : State ι g.s) (r : Reader g.s) : Prop where
  aligned : g.s ∣ r.readPtr.toNat
  behind : r.position g ≤ σ.written.length
  tx : ∀ t, r.tx = some t → TxInv σ r t

structure WriterInv (σ : State ι g.s) (w : OpenWrite g.s) : Prop where
  regions : w.tx = g.transaction σ.written.length w.nMessages
  capacity : w.nMessages.toNat ≤ g.N
  stored : ∀ i x, i < w.nMessages.toNat → w.stored i = some x →
    g.slotAt σ.ring (σ.written.length + i) = x

structure Inv (g : Geometry) (σ : State ι g.s) : Prop where
  writePtr : σ.writePtr.toNat = σ.written.length * g.s
  touched : ∀ q ∈ σ.touched, q < σ.written.length + g.N
  held : ∀ p x, σ.written.length ≤ p + g.N → p + g.N ∉ σ.touched →
    σ.written[p]? = some (some x) → g.slotAt σ.ring p = x
  writer : ∀ w, σ.writer = some w → WriterInv σ w
  readers : ∀ i r, σ.readers i = some r → ReaderInv σ r

theorem initial_inv (ring : Ring) (σ : State ι g.s) (start : initial g ring σ) : Inv g σ := by
  cases start
  refine ⟨?_, nofun, ?_, nofun, nofun⟩
  · simp
  · simp

variable {σ : State ι g.s}

theorem Inv.behind (inv : Inv g σ) {i : ι} {r : Reader g.s} (member : σ.readers i = some r) :
    g.Behind (σ.readerView g r) (r.position g) σ.written.length where
  readPtr := (Nat.div_mul_cancel (inv.readers i r member).aligned).symm
  writePtr := inv.writePtr
  ordered := (inv.readers i r member).behind

theorem Inv.writeAligned (inv : Inv g σ) : g.s ∣ σ.writePtr.toNat := by
  rw [inv.writePtr]
  exact Nat.dvd_mul_left _ _

theorem Inv.writePosition (inv : Inv g σ) : σ.writePtr.toNat / g.s = σ.written.length := by
  rw [inv.writePtr, Nat.mul_div_cancel _ g.s_pos]

/-! ## Steps of the writer -/

/-- The stream only grows: readers keep their invariant. -/
theorem ReaderInv.extend {r : Reader g.s} (inv : ReaderInv σ r) {τ : State ι g.s}
    (more : List (Option (Vector UInt8 g.s))) (extended : τ.written = σ.written ++ more) :
    ReaderInv τ r where
  aligned := inv.aligned
  behind := by
    have behind := inv.behind
    rw [extended, List.length_append]
    omega
  tx t member := by
    obtain ⟨regions, available, capacity, copied⟩ := inv.tx t member
    refine ⟨regions, ?_, capacity, ?_⟩
    · rw [extended, List.length_append]
      omega
    · intro j x y below at_j clean near at_p
      rw [extended, List.length_append] at near
      rw [extended, List.getElem?_append_left (by omega)] at at_p
      exact copied j x y below at_j clean (by omega) at_p

theorem Inv.beginWrite (inv : Inv g σ) {n : UInt64} {ok : Bool} {tx : MemTransaction}
    (returned : (queue g).beginWrite (σ.writerView g) n .empty = .ok (ok, tx)) :
    Inv g { σ with writer := if ok then some (.granted tx n) else none } := by
  refine { inv with
    writer := ?_, readers := fun i r member => (inv.readers i r member).extend [] (by simp) }
  rw [g.beginWrite_unsynchronized (σ.writerView g) n inv.writeAligned] at returned
  intro w member
  split at returned
  next capacity =>
    cases returned
    cases member
    refine ⟨?_, capacity, ?_⟩
    · simp only [OpenWrite.granted, State.writerView, inv.writePosition]
    · intro i x _ stored
      simp [OpenWrite.granted] at stored
  next =>
    cases returned
    cases member

/-- A position that is still in the ring and whose slot is not stored to keeps its message. -/
theorem slotAt_put_untouched (ring : Ring) (w start p : Nat) (xs : List (Vector UInt8 g.s))
    (old : p < w) (near : w ≤ p + g.N) (inside : start + xs.length ≤ g.N)
    (untouched : p + g.N ∉ List.range' (w + start) xs.length) :
    g.slotAt (put g.s g.N ring (w + start) xs) p = g.slotAt ring p := by
  apply peek_put_outside
  intro i below
  have apart : w + start + i ≠ p + g.N := by
    intro same
    exact untouched (List.mem_range'_1.mpr ⟨by omega, by omega⟩)
  rcases Nat.lt_or_gt_of_ne apart with before | after
  · exact mod_ne_of_window (by omega) (by omega)
  · -- The slot of `p` is also that of `p + N`, one revolution ahead.
    rw [← Nat.add_mod_right p g.N]
    exact mod_ne_of_window (by omega) (by omega)

/-- Storing messages into slots of the open write transaction. -/
theorem Inv.store (inv : Inv g σ) {w : OpenWrite g.s} (start : Nat) (xs : List (Vector UInt8 g.s))
    (member : σ.writer = some w) (inside : start + xs.length ≤ w.nMessages.toNat) :
    Inv g { σ with
      ring := put g.s g.N σ.ring (σ.written.length + start) xs
      writer := some (w.note start xs)
      touched := .range' (σ.written.length + start) xs.length ++ σ.touched } := by
  obtain ⟨regions, capacity, stored⟩ := inv.writer w member
  refine ⟨inv.writePtr, ?_, ?_, ?_, fun i r member => (inv.readers i r member).extend [] (by simp)⟩
  · -- Stores go to at most `N` positions from the write position on.
    intro q member
    rcases List.mem_append.mp member with new | old
    · have bounds := List.mem_range'_1.mp new
      dsimp only
      omega
    · exact inv.touched q old
  · -- A position still in the ring whose slot was not stored to.
    intro p x near untouched at_p
    rw [List.mem_append, not_or] at untouched
    have old : p < σ.written.length := (List.getElem?_eq_some_iff.mp at_p).1
    rw [slotAt_put_untouched σ.ring _ _ _ _ old near (by omega) untouched.1]
    exact inv.held p x near untouched.2 at_p
  · intro w' member'
    cases member'
    exact ⟨regions, capacity, g.slotAt_note _ w _ _ start xs capacity inside stored⟩

theorem Inv.commitWrite (inv : Inv g σ) {w : OpenWrite g.s} {n : UInt64}
    (member : σ.writer = some w) (le : n ≤ w.nMessages)
    (total : (σ.written.length + n.toNat) * g.s < 2 ^ 64) :
    Inv g { σ with
      writePtr := ((queue g).commitWrite (σ.writerView g) n).writePtr
      writer := none
      written := σ.written ++ load w.stored 0 n.toNat } := by
  obtain ⟨-, capacity, stored⟩ := inv.writer w member
  rw [UInt64.le_iff_toNat_le] at le
  have length : (σ.written ++ load w.stored 0 n.toNat).length = σ.written.length + n.toNat := by
    simp
  refine ⟨?_, ?_, ?_, nofun, fun i r member => (inv.readers i r member).extend _ rfl⟩
  · dsimp only
    rw [g.toNat_commitWrite _ (σ.writerView g) _ inv.writePtr total, length]
  · intro q member'
    have bound := inv.touched q member'
    dsimp only
    omega
  · intro p x near untouched at_p
    dsimp only at near untouched at_p
    rcases getElem?_append_load at_p with old | ⟨i, below, rfl, new⟩
    · exact inv.held p x (by omega) untouched old
    · -- The stores of the transaction are committed positions now.
      rw [Nat.zero_add] at new
      exact stored i x (by omega) new

/-- A whole `write` of at most `N` messages is its three parts in a row. -/
theorem Inv.write (inv : Inv g σ) (idle : σ.writer = none) (xs : List (Vector UInt8 g.s))
    (k : UInt64) (length : k.toNat = xs.length) (capacity : xs.length ≤ g.N)
    (total : (σ.written.length + xs.length) * g.s < 2 ^ 64) :
    Inv g { σ with
      ring := (g.pushed (σ.writerView g) xs k).ring
      writePtr := (g.pushed (σ.writerView g) xs k).writePtr
      written := σ.written ++ xs.map some
      touched := .range' σ.written.length xs.length ++ σ.touched } := by
  have granted := g.beginWrite_unsynchronized (σ.writerView g) k inv.writeAligned
  rw [if_pos (by omega)] at granted
  have begun := inv.beginWrite granted
  have stored := begun.store 0 xs rfl (by simp [OpenWrite.granted, length])
  have committed := stored.commitWrite (n := k) rfl (UInt64.le_refl _) (by rwa [length])
  -- One `copyTo` has recorded exactly `xs`.
  have noted := load_store_inside (fun _ => (none : Option (Vector UInt8 g.s))) 0 0 k.toNat
    (xs.map some) (by simp [length])
  rw [Nat.zero_add, List.drop_zero, List.take_of_length_le (by simp [length])] at noted
  simp only [OpenWrite.note, OpenWrite.granted, noted, Nat.add_zero] at committed
  simpa only [Geometry.pushed, State.writerView, inv.writePosition, idle, Queue.commitWrite,
    Geometry.queue_sizeofT] using committed

/-! ## Steps of a reader -/

variable [DecidableEq ι]

theorem afterRead_readers {i j : ι} {storage : Storage} {r r' : Reader g.s}
    (member : (σ.afterRead i storage r).readers j = some r') :
    (j = i ∧ r' = { r with readPtr := storage.readPtr }) ∨ σ.readers j = some r' := by
  simp only [State.afterRead] at member
  by_cases same : j = i
  · subst same
    rw [update_self, Option.some.injEq] at member
    exact Or.inl ⟨rfl, member.symm⟩
  · rw [update_of_ne same] at member
    exact Or.inr member

/-- A call of a reader that leaves the ring and the write counter alone keeps the invariant if
its own endpoint does. -/
theorem Inv.afterRead (inv : Inv g σ) (i : ι) (storage : Storage) (r : Reader g.s)
    (ring : storage.ring = σ.ring) (writePtr : storage.writePtr = σ.writePtr)
    (own : ReaderInv σ { r with readPtr := storage.readPtr }) :
    Inv g (σ.afterRead i storage r) := by
  unfold State.afterRead
  rw [ring, writePtr]
  refine { inv with
    writer := fun w member => ?_, readers := fun j r' member => ?_ }
  · exact { inv.writer w member with }
  · -- The other endpoints are as before.
    have updated : (σ.afterRead i storage r).readers j = some r' := member
    rcases afterRead_readers updated with ⟨rfl, rfl⟩ | other
    · exact own.extend [] (by simp)
    · exact (inv.readers j r' other).extend [] (by simp)

omit [DecidableEq ι] in
/-- Without an open transaction only the position matters. -/
theorem ReaderInv.closed {r : Reader g.s} (behind : ∃ p, r.readPtr.toNat = p * g.s ∧ p ≤
    σ.written.length) (none : r.tx = none) : ReaderInv σ r where
  aligned := by
    obtain ⟨p, eq, _⟩ := behind
    rw [eq]
    exact Nat.dvd_mul_left _ _
  behind := by
    obtain ⟨p, eq, le⟩ := behind
    rwa [Reader.position, eq, Nat.mul_div_cancel _ g.s_pos]
  tx t member := by
    rw [none] at member
    cases member

theorem Inv.beginRead (inv : Inv g σ) {i : ι} {r : Reader g.s} {n : UInt64} {ok : Bool}
    {tx : MemTransaction} {storage : Storage} (member : σ.readers i = some r)
    (capacity : n.toNat ≤ g.N)
    (returned : (queue g).beginRead (σ.readerView g r) n = .ok (ok, tx, storage)) :
    Inv g (σ.afterRead i storage
      { r with tx := if ok then some ⟨.granted tx n, fun _ => false⟩ else none }) := by
  have behind := inv.behind member
  rw [behind.beginRead _ n (g.bytes_lt capacity)] at returned
  split at returned
  next =>
    cases returned
    exact inv.afterRead i _ _ rfl rfl (.closed ⟨_, behind.writePtr, Nat.le_refl _⟩ rfl)
  next =>
    split at returned
    next enough =>
      cases returned
      -- The transaction is open, and nothing is copied yet.
      refine inv.afterRead i _ _ rfl rfl ⟨(inv.readers i r member).aligned, behind.ordered, ?_⟩
      intro t granted
      cases granted
      refine ⟨rfl, enough, capacity, ?_⟩
      intro j x y _ copied
      simp [OpenRead.granted] at copied
    next =>
      cases returned
      exact inv.afterRead i _ _ rfl rfl (.closed ⟨_, behind.readPtr, behind.ordered⟩ rfl)

/-- Copying messages out of slots of the open read transaction. -/
theorem Inv.copy (inv : Inv g σ) {i : ι} {r : Reader g.s} {t : OpenRead g.s} (start n : Nat)
    (member : σ.readers i = some r) (opened : r.tx = some t) :
    Inv g (σ.afterRead i (σ.readerView g r)
      { r with
        tx := some <| t.noteCopy start
          (window g.s g.N σ.ring (r.position g + start) n)
          ((List.range n).map fun j => σ.overwritten g (r.position g + start + j)) }) := by
  obtain ⟨aligned, behind, tx⟩ := inv.readers i r member
  obtain ⟨regions, available, capacity, copied⟩ := tx t opened
  refine inv.afterRead i _ _ rfl rfl ⟨aligned, behind, ?_⟩
  intro t' eq
  cases eq
  refine ⟨regions, available, capacity, ?_⟩
  intro j x y below at_j clean near at_p
  simp only [OpenRead.noteCopy] at below at_j clean
  rcases g.copied_note_window σ.ring t.toOpenRead _ start n j x at_j with
    ⟨k, inside, rfl, new⟩ | ⟨apart, old⟩
  · rw [store_inside _ _ _ _ (by simpa using inside), List.getElem_map, List.getElem_range] at clean
    -- A slot that was not exposed when it was copied holds a committed message.
    have untouched : r.position g + (start + k) + g.N ∉ σ.touched := by
      intro stale
      rw [← Nat.add_assoc] at stale near
      simp only [State.overwritten, Bool.and_eq_false_iff, decide_eq_false_iff_not] at clean
      rcases clean with far | absent
      · exact far near
      · simp [stale] at absent
    rw [← new]
    exact inv.held _ y near untouched at_p
  · rw [store_outside _ _ _ _ (by simpa using apart)] at clean
    exact copied j x y below old clean near at_p

theorem Inv.commitRead (inv : Inv g σ) {i : ι} {r : Reader g.s} {t : OpenRead g.s} {n : UInt64}
    {ok : Bool} {storage : Storage} (member : σ.readers i = some r) (opened : r.tx = some t)
    (le : n ≤ t.nMessages)
    (returned : (queue g).commitRead (σ.readerView g r) n = (ok, storage))
    (delivered : List (Nat × Option (Vector UInt8 g.s))) :
    Inv g (σ.afterRead i storage { r with tx := none, delivered }) := by
  have behind := inv.behind member
  have available := ((inv.readers i r member).tx t opened).available
  rw [UInt64.le_iff_toNat_le] at le
  rw [behind.commitRead] at returned
  split at returned
  next =>
    cases returned
    exact inv.afterRead i _ _ rfl rfl (.closed ⟨_, behind.writePtr, Nat.le_refl _⟩ rfl)
  next =>
    cases returned
    have popped := behind.popped n (by omega)
    exact inv.afterRead i _ _ rfl rfl (.closed ⟨_, popped.readPtr, popped.ordered⟩ rfl)

theorem Inv.read (inv : Inv g σ) {i : ι} {r : Reader g.s} {n : UInt64} {ok : Bool}
    {data : Option (List UInt8)} {storage : Storage} (member : σ.readers i = some r)
    (closed : r.tx = none) (capacity : n.toNat ≤ g.N)
    (returned : (queue g).read (σ.readerView g r) true n = .ok (ok, storage, data)) :
    Inv g (σ.afterRead i storage r) := by
  have behind := inv.behind member
  rw [behind.read _ n (g.bytes_lt capacity)] at returned
  split at returned
  next =>
    cases returned
    exact inv.afterRead i _ _ rfl rfl (.closed ⟨_, behind.writePtr, Nat.le_refl _⟩ closed)
  next =>
    split at returned
    next enough =>
      cases returned
      have popped := behind.popped n enough
      exact inv.afterRead i _ _ rfl rfl (.closed ⟨_, popped.readPtr, popped.ordered⟩ closed)
    next =>
      cases returned
      exact inv.afterRead i _ _ rfl rfl (.closed ⟨_, behind.readPtr, behind.ordered⟩ closed)

/-! ## Runs -/

theorem Inv.step (inv : Inv g σ) {a : Action ι g.s} {τ : State ι g.s} (taken : Step g σ a τ)
    (total : τ.written.length * g.s < 2 ^ 64) : Inv g τ := by
  cases taken with
  | @attach i fresh =>
    exact inv.afterRead i _ _ rfl rfl
      (.closed ⟨0, by simp [State.readerView, Reader.attached], Nat.zero_le _⟩ rfl)
  | beginWrite _ returned => exact inv.beginWrite returned
  | @copyTo w start xs ok ring member inside returned =>
    obtain ⟨regions, capacity, -⟩ := inv.writer w member
    have length : (UInt64.ofNat xs.length).toNat = xs.length :=
      UInt64.toNat_ofNat_of_lt' (Nat.lt_of_le_of_lt (by omega) w.nMessages.toNat_lt)
    rw [regions, g.copyTo_transaction _ _ _ _ _ _ _ length capacity (by omega)] at returned
    cases returned
    exact inv.store _ xs member inside
  | commitWrite member le =>
    rw [List.length_append, length_load] at total
    exact inv.commitWrite member le total
  | abandonWrite =>
    exact { inv with
      writer := nofun, readers := fun i r member => (inv.readers i r member).extend [] (by simp) }
  | @write xs ok storage idle small returned =>
    have length : (UInt64.ofNat xs.length).toNat = xs.length := UInt64.toNat_ofNat_of_lt' small
    rw [g.write_unsynchronized _ _ _ length inv.writeAligned] at returned
    split at returned
    next capacity =>
      cases returned
      rw [if_pos rfl, List.length_append, List.length_map] at total
      exact inv.write idle xs _ length capacity total
    next =>
      cases returned
      exact inv
  | @beginRead i r n ok tx storage member closed capacity returned =>
    exact inv.beginRead member capacity returned
  | @copyFrom i r t start n data member opened inside returned =>
    obtain ⟨regions, available, capacity, -⟩ := (inv.readers i r member).tx t opened
    rw [regions, g.copyFrom_transaction _ _ _ _ _ _ capacity inside] at returned
    cases returned
    rw [records_window]
    exact inv.copy _ _ member opened
  | commitRead member opened le returned => exact inv.commitRead member opened le returned _
  | @abandonRead i r member =>
    have behind := inv.behind member
    exact inv.afterRead i _ _ rfl rfl (.closed ⟨_, behind.readPtr, behind.ordered⟩ rfl)
  | read member closed capacity returned => exact inv.read member closed capacity returned

/-- The stream only grows. -/
theorem Step.written_grows {a : Action ι g.s} {τ : State ι g.s} (taken : Step g σ a τ) :
    σ.written <+: τ.written := by
  cases taken with
  | commitWrite => exact List.prefix_append _ _
  | @write xs ok =>
    cases ok with
    | true => exact List.prefix_append _ _
    | false => exact List.prefix_refl _
  | _ => exact List.prefix_refl _

theorem reachable_inv {ring : Ring} {σ : State ι g.s}
    (reachable : Reachable (initial g ring) (Step g) σ)
    (total : σ.written.length * g.s < 2 ^ 64) : Inv g σ := by
  refine reachable.invariant_within (fun σ => σ.written.length * g.s < 2 ^ 64)
    (Inv g) (initial_inv ring) ?_ ?_ total
  · intro σ a τ taken bounded
    exact Nat.lt_of_le_of_lt (Nat.mul_le_mul_right _ taken.written_grows.length_le) bounded
  · intro σ a τ inv bounded taken
    exact inv.step taken bounded

end Fmq.Unsynchronized
