import Fmq.Model.Synchronized
import Fmq.Properties.Lagging

/-!
# The synchronized queue delivers the written stream

The invariant relates the counters to the lengths of the two ghost streams, and says which
slots are live: those of unread positions hold what was written, those of the open write
transaction hold what was stored so far. They never overlap.
-/
namespace Fmq.Synchronized

open Memory RecordRing Transition

variable {g : Geometry}

/-- A message recorded at a position is the one that the other record has there. -/
def Agree {s : Nat} (seen written : List (Option (Vector UInt8 s))) : Prop :=
  ∀ (p : Nat) (x y : Vector UInt8 s),
    seen[p]? = some (some x) → written[p]? = some (some y) → x = y

/-- An open write transaction covers free positions behind the stream. -/
structure WriterInv (σ : State g.s) (w : OpenWrite g.s) : Prop where
  regions : w.tx = g.transaction σ.written.length w.nMessages
  room : σ.written.length + w.nMessages.toNat ≤ σ.delivered.length + g.N
  stored : ∀ i x, i < w.nMessages.toNat → w.stored i = some x →
    g.slotAt σ.storage.ring (σ.written.length + i) = x

/-- An open read transaction covers unread positions. -/
structure ReaderInv (σ : State g.s) (r : OpenRead g.s) : Prop where
  regions : r.tx = g.transaction σ.delivered.length r.nMessages
  available : σ.delivered.length + r.nMessages.toNat ≤ σ.written.length
  copied : ∀ i x, i < r.nMessages.toNat → r.copied i = some x →
    g.slotAt σ.storage.ring (σ.delivered.length + i) = x

structure Inv (g : Geometry) (σ : State g.s) : Prop where
  writePtr : σ.storage.writePtr.toNat = σ.written.length * g.s
  readPtr : σ.storage.readPtr.toNat = σ.delivered.length * g.s
  ordered : σ.delivered.length ≤ σ.written.length
  window : σ.written.length ≤ σ.delivered.length + g.N
  held : ∀ p x, σ.delivered.length ≤ p → σ.written[p]? = some (some x) →
    g.slotAt σ.storage.ring p = x
  writer : ∀ w, σ.writer = some w → WriterInv σ w
  reader : ∀ r, σ.reader = some r → ReaderInv σ r
  agree : Agree σ.delivered σ.written

theorem initial_inv (ring : Ring) (σ : State g.s) (start : initial g ring σ) : Inv g σ := by
  cases start
  refine ⟨?_, ?_, Nat.le_refl _, Nat.zero_le _, ?_, nofun, nofun, ?_⟩
  · simp [Storage.reset]
  · simp [Storage.reset]
  · simp
  · intro p x y seen
    simp at seen

variable {σ : State g.s}

theorem Inv.behind (inv : Inv g σ) :
    g.Behind σ.storage σ.delivered.length σ.written.length :=
  ⟨inv.readPtr, inv.writePtr, inv.ordered⟩

/-- The counters are aligned, and as far apart as there are unread messages. -/
theorem Inv.counts (inv : Inv g σ) :
    g.Counts σ.storage (σ.written.length - σ.delivered.length) := inv.behind.counts inv.window

/-! ## Steps of the writer -/

theorem Inv.beginWrite (inv : Inv g σ) {n : UInt64} {ok : Bool} {tx : MemTransaction}
    (returned : (queue g).beginWrite σ.storage n .empty = .ok (ok, tx)) :
    Inv g { σ with writer := if ok then some (.granted tx n) else none } := by
  refine { inv with writer := ?_, reader := fun r member => ?_ }
  · -- A granted transaction starts at the write position, and the test has left it room.
    rw [inv.counts.beginWrite n, inv.behind.writePosition] at returned
    have window := inv.window
    have ordered := inv.ordered
    intro w member
    split at returned
    next room =>
      cases returned
      cases member
      refine ⟨rfl, ?_, ?_⟩
      · simp only [OpenWrite.granted]
        omega
      · intro i x _ stored
        simp [OpenWrite.granted] at stored
    next =>
      cases returned
      cases member
  · exact { inv.reader r member with }

/-- Storing messages into slots of the open write transaction. -/
theorem Inv.store (inv : Inv g σ) {w : OpenWrite g.s} (start : Nat) (xs : List (Vector UInt8 g.s))
    (member : σ.writer = some w) (inside : start + xs.length ≤ w.nMessages.toNat) :
    Inv g { σ with
      storage := { σ.storage with
        ring := put g.s g.N σ.storage.ring (σ.written.length + start) xs }
      writer := some (w.note start xs) } := by
  obtain ⟨regions, room, stored⟩ := inv.writer w member
  have ordered := inv.ordered
  -- Unread positions lie before the stored ones, less than one revolution away.
  have unread : ∀ p, σ.delivered.length ≤ p → p < σ.written.length →
      g.slotAt (put g.s g.N σ.storage.ring (σ.written.length + start) xs) p =
        g.slotAt σ.storage.ring p := by
    intro p lower upper
    exact peek_put_apart _ _ (Or.inl (by omega)) (by omega) (by omega)
  refine { inv with held := ?_, writer := ?_, reader := ?_ }
  · -- Nothing unread has changed.
    intro p x lower at_p
    have upper : p < σ.written.length := (List.getElem?_eq_some_iff.mp at_p).1
    rw [unread p lower upper]
    exact inv.held p x lower at_p
  · -- The new stores are recorded and in their slots.
    intro w' member'
    cases member'
    have capacity : w.nMessages.toNat ≤ g.N := by omega
    exact ⟨regions, room, g.slotAt_note _ w _ _ start xs capacity inside stored⟩
  · -- The reader's slots are unread ones.
    intro r member'
    obtain ⟨regions_r, available, copied⟩ := inv.reader r member'
    refine ⟨regions_r, available, ?_⟩
    intro i x below at_i
    rw [← copied i x below at_i]
    exact unread _ (by dsimp only; omega) (by dsimp only; omega)

theorem Inv.commitWrite (inv : Inv g σ) {w : OpenWrite g.s} {n : UInt64}
    (member : σ.writer = some w) (le : n ≤ w.nMessages)
    (total : (σ.written.length + n.toNat) * g.s < 2 ^ 64) :
    Inv g { σ with
      storage := (queue g).commitWrite σ.storage n
      writer := none
      written := σ.written ++ load w.stored 0 n.toNat } := by
  obtain ⟨-, room, stored⟩ := inv.writer w member
  rw [UInt64.le_iff_toNat_le] at le
  have ordered := inv.ordered
  have length : (σ.written ++ load w.stored 0 n.toNat).length = σ.written.length + n.toNat := by
    simp
  refine ⟨?_, inv.readPtr, ?_, ?_, ?_, nofun, ?_, ?_⟩
  · dsimp only
    rw [g.toNat_commitWrite _ _ _ inv.writePtr total, length]
  · dsimp only
    omega
  · dsimp only
    omega
  · intro p x lower at_p
    rcases getElem?_append_load at_p with old | ⟨i, below, rfl, new⟩
    · exact inv.held p x lower old
    · -- What the transaction had stored becomes live with the commit.
      rw [Nat.zero_add] at new
      exact stored i x (by omega) new
  · intro r member'
    have available := (inv.reader r member').available
    exact { inv.reader r member' with available := by dsimp only; omega }
  · -- Positions already delivered are not among the new ones.
    intro p x y seen at_p
    have upper : p < σ.delivered.length := (List.getElem?_eq_some_iff.mp seen).1
    rcases getElem?_append_load at_p with old | ⟨i, _, rfl, _⟩
    · exact inv.agree p x y seen old
    · omega

/-! ## Steps of the reader -/

theorem Inv.beginRead (inv : Inv g σ) {n : UInt64} {ok : Bool} {tx : MemTransaction}
    {storage : Storage} (capacity : n.toNat ≤ g.N)
    (returned : (queue g).beginRead σ.storage n = .ok (ok, tx, storage)) :
    Inv g { σ with storage, reader := if ok then some (.granted tx n) else none } := by
  rw [inv.counts.beginRead n capacity, inv.behind.readPosition] at returned
  have ordered := inv.ordered
  split at returned
  next enough =>
    -- The transaction starts at the read position.
    cases returned
    refine { inv with writer := fun w member => ?_, reader := fun r member => ?_ }
    · exact { inv.writer w member with }
    · cases member
      refine ⟨rfl, ?_, ?_⟩
      · simp only [OpenRead.granted]
        omega
      · intro i x _ copied
        simp [OpenRead.granted] at copied
  next =>
    cases returned
    refine { inv with writer := fun w member => ?_, reader := nofun }
    exact { inv.writer w member with }

/-- Copying messages out of slots of the open read transaction. -/
theorem Inv.copy (inv : Inv g σ) {r : OpenRead g.s} (start n : Nat)
    (member : σ.reader = some r) :
    Inv g { σ with
      reader := some (r.note start
        (RecordRing.window g.s g.N σ.storage.ring (σ.delivered.length + start) n)) } := by
  obtain ⟨regions, available, copied⟩ := inv.reader r member
  refine { inv with writer := fun w member => ?_, reader := fun r' member' => ?_ }
  · exact { inv.writer w member with }
  · cases member'
    refine ⟨regions, available, ?_⟩
    intro i x below at_i
    rcases g.copied_note_window _ r _ start n i x at_i with ⟨_, _, _, new⟩ | ⟨_, old⟩
    · exact new
    · exact copied i x below old

theorem Inv.commitRead (inv : Inv g σ) {r : OpenRead g.s} {n : UInt64} {ok : Bool}
    {storage : Storage} (member : σ.reader = some r) (le : n ≤ r.nMessages)
    (returned : (queue g).commitRead σ.storage n = (ok, storage)) :
    Inv g { σ with
      storage
      reader := none
      delivered :=
        if ok then σ.delivered ++ load r.copied 0 n.toNat else σ.delivered } := by
  obtain ⟨-, available, copied⟩ := inv.reader r member
  rw [UInt64.le_iff_toNat_le] at le
  -- The overflow branch is excluded by the distance.
  rw [inv.counts.commitRead n, Prod.mk.injEq] at returned
  obtain ⟨rfl, rfl⟩ := returned
  rw [if_pos rfl]
  have window := inv.window
  have length : (σ.delivered ++ load r.copied 0 n.toNat).length =
      σ.delivered.length + n.toNat := by
    simp
  refine ⟨inv.writePtr, ?_, ?_, ?_, ?_, ?_, nofun, ?_⟩
  · dsimp only
    rw [(inv.behind.popped n (by omega)).readPtr, length]
  · dsimp only
    omega
  · dsimp only
    omega
  · intro p x lower at_p
    exact inv.held p x (by dsimp only at lower; omega) at_p
  · intro w member'
    have room := (inv.writer w member').room
    exact { inv.writer w member' with room := by dsimp only; omega }
  · intro p x y seen at_p
    dsimp only at seen at_p
    rcases getElem?_append_load seen with old | ⟨i, below, rfl, new⟩
    · exact inv.agree p x y old at_p
    · -- The copies of the transaction are of live slots, which held what was written.
      rw [Nat.zero_add] at new
      rw [← copied i x (by omega) new]
      exact inv.held _ y (by omega) at_p

/-! ## Runs -/

theorem Inv.step (inv : Inv g σ) {a : Action g.s} {τ : State g.s} (taken : Step g σ a τ)
    (total : τ.written.length * g.s < 2 ^ 64) : Inv g τ := by
  cases taken with
  | beginWrite _ returned => exact inv.beginWrite returned
  | @copyTo w start xs ok ring member inside returned =>
    obtain ⟨regions, room, -⟩ := inv.writer w member
    have ordered := inv.ordered
    have capacity : w.nMessages.toNat ≤ g.N := by omega
    have length : (UInt64.ofNat xs.length).toNat = xs.length :=
      UInt64.toNat_ofNat_of_lt' (Nat.lt_of_le_of_lt (by omega) w.nMessages.toNat_lt)
    rw [regions, g.copyTo_transaction _ _ _ _ _ _ _ length capacity (by omega)] at returned
    cases returned
    exact inv.store _ xs member inside
  | @storeSlot w idx x ring member inside returned =>
    obtain ⟨regions, room, -⟩ := inv.writer w member
    have ordered := inv.ordered
    have capacity : w.nMessages.toNat ≤ g.N := by omega
    rw [regions, g.storeSlot_transaction _ _ _ _ _ _ capacity inside] at returned
    cases returned
    exact inv.store _ [x] member (UInt64.lt_iff_toNat_lt.mp inside)
  | commitWrite member le =>
    rw [List.length_append, length_load] at total
    exact inv.commitWrite member le total
  | abandonWrite =>
    refine { inv with writer := nofun, reader := fun r member => ?_ }
    exact { inv.reader r member with }
  | beginRead _ capacity returned => exact inv.beginRead capacity returned
  | @copyFrom r start n data member inside returned =>
    obtain ⟨regions, available, -⟩ := inv.reader r member
    have window := inv.window
    have capacity : r.nMessages.toNat ≤ g.N := by omega
    rw [regions, g.copyFrom_transaction _ _ _ _ _ _ capacity inside] at returned
    cases returned
    rw [records_window]
    exact inv.copy _ _ member
  | commitRead member le returned => exact inv.commitRead member le returned
  | abandonRead =>
    refine { inv with reader := nofun, writer := fun w member => ?_ }
    exact { inv.writer w member with }

theorem Step.written_le {a : Action g.s} {τ : State g.s} (taken : Step g σ a τ) :
    σ.written.length ≤ τ.written.length := by
  cases taken with
  | commitWrite => simp
  | _ => exact Nat.le_refl _

theorem reachable_inv {ring : Ring}
    (reachable : Reachable (initial g ring) (Step g) σ)
    (total : σ.written.length * g.s < 2 ^ 64) : Inv g σ := by
  -- The bound on the bytes written holds in every earlier state of the run.
  refine reachable.invariant_within (fun σ => σ.written.length * g.s < 2 ^ 64) (Inv g)
    (initial_inv ring) ?_ ?_ total
  · intro σ a τ taken bounded
    exact Nat.lt_of_le_of_lt (Nat.mul_le_mul_right _ taken.written_le) bounded
  · intro σ a τ inv bounded taken
    exact inv.step taken bounded

/-- Records that agree and are complete form an initial part. -/
theorem Agree.isPrefix {s : Nat} {seen written : List (Option (Vector UInt8 s))}
    (agree : Agree seen written) (shorter : seen.length ≤ written.length)
    (ds ws : List (Vector UInt8 s)) (all_seen : seen = ds.map some)
    (all_written : written = ws.map some) : ds <+: ws := by
  subst all_seen all_written
  simp only [List.length_map] at shorter
  rw [List.prefix_iff_eq_take]
  apply List.ext_getElem
  · rw [List.length_take]
    omega
  · intro i below below'
    rw [List.length_take] at below'
    rw [List.getElem_take]
    exact agree i _ _ (by simp [below]) (by simp)

/-- What a state of the queue guarantees about the two streams. -/
structure Delivers (g : Geometry) (σ : State g.s) : Prop where
  /-- What was delivered at a position is what was written there. -/
  agree : Agree σ.delivered σ.written
  shorter : σ.delivered.length ≤ σ.written.length
  /-- Where every committed slot was stored and copied, what was delivered is an initial part. -/
  isPrefix : ∀ ds ws, σ.delivered = ds.map some → σ.written = ws.map some → ds <+: ws
  /-- Messages not yet read are still in their slots. -/
  held : ∀ p x, σ.delivered.length ≤ p → σ.written[p]? = some (some x) →
    g.slotAt σ.storage.ring p = x
  writePtr : σ.storage.writePtr.toNat = σ.written.length * g.s
  readPtr : σ.storage.readPtr.toNat = σ.delivered.length * g.s
  distance : σ.storage.writePtr.toNat ≤ σ.storage.readPtr.toNat + g.N * g.s
  beginRead : ∀ n r, (queue g).beginReadWith ⟨σ.storage.writePtr, σ.storage.readPtr⟩ n = .ok r →
    r.stored = none
  commitRead : ∀ n, ((queue g).commitRead σ.storage n).1 = true

/-- In every interleaving of one writer and one reader, from reset counters, the reader gets the
written stream in order and neither overflow branch is ever taken. -/
theorem reachable_delivers {ring : Ring}
    (reachable : Reachable (initial g ring) (Step g) σ)
    (total : σ.written.length * g.s < 2 ^ 64) : Delivers g σ := by
  have inv := reachable_inv reachable total
  refine ⟨inv.agree, inv.ordered, inv.agree.isPrefix inv.ordered, inv.held, inv.writePtr,
    inv.readPtr, ?_, ?_, ?_⟩
  · rw [inv.writePtr, inv.readPtr, ← Nat.add_mul]
    exact Nat.mul_le_mul_right _ inv.window
  · intro n r returned
    rcases g.beginReadWith_cases .kSynchronizedReadWrite
        ⟨σ.storage.writePtr, σ.storage.readPtr⟩ n with
      ⟨_, eq⟩ | ⟨_, _, far, _⟩ | ⟨_, _, _, _, eq⟩ | ⟨_, _, _, _, eq⟩
    · rw [eq] at returned
      cases returned
      rfl
    · -- The overflow branch.
      exact absurd far inv.counts.not_overflow
    · rw [eq] at returned
      cases returned
      rfl
    · rw [eq] at returned
      cases returned
      rfl
  · intro n
    rw [inv.counts.commitRead n]

/-! ## Whole transactions -/

/-- The writer stores into all slots of a transaction and commits it. -/
theorem write_run {ring : Ring} (reachable : Reachable (initial g ring) (Step g) σ)
    (total : σ.written.length * g.s < 2 ^ 64) (idle : σ.writer = none)
    (xs : List (Vector UInt8 g.s))
    (room : xs.length ≤ g.N - (σ.written.length - σ.delivered.length)) :
    ∃ τ, Reachable (initial g ring) (Step g) τ ∧ τ.writer = none ∧ τ.reader = σ.reader ∧
      τ.written = σ.written ++ xs.map some ∧ τ.delivered = σ.delivered := by
  have capacity : xs.length ≤ g.N := Nat.le_trans room (Nat.sub_le _ _)
  have length : (UInt64.ofNat xs.length).toNat = xs.length :=
    UInt64.toNat_ofNat_of_lt' (Nat.lt_of_le_of_lt capacity g.N_lt)
  have begun := (reachable_inv reachable total).counts.beginWrite (.ofNat xs.length)
  rw [if_pos (by rwa [length])] at begun
  have copied := g.copyTo_whole .kSynchronizedReadWrite σ.storage.ring
    (σ.storage.writePtr.toNat / g.s) length capacity
  have granted := reachable.next (.beginWrite idle begun)
  have stored := granted.next (.copyTo rfl (by simp [OpenWrite.granted, length]) copied)
  have committed := stored.next (.commitWrite rfl (UInt64.le_refl (.ofNat xs.length)))
  refine ⟨_, committed, rfl, rfl, ?_, rfl⟩
  -- All slots were noted.
  have noted := load_store_inside (fun _ => none) 0 0 xs.length (xs.map some) (by simp)
  dsimp only [OpenWrite.note, OpenWrite.granted]
  rw [length, UInt64.toNat_zero, noted, List.drop_zero, List.take_of_length_le (by simp)]

/-- The reader copies all slots of a transaction and commits it. -/
theorem read_run {ring : Ring} (reachable : Reachable (initial g ring) (Step g) σ)
    (total : σ.written.length * g.s < 2 ^ 64) (idle : σ.reader = none) (k : UInt64)
    (enough : k.toNat ≤ σ.written.length - σ.delivered.length) :
    ∃ τ, Reachable (initial g ring) (Step g) τ ∧ τ.writer = σ.writer ∧ τ.reader = none ∧
      τ.written = σ.written ∧ τ.delivered.length = σ.delivered.length + k.toNat := by
  have counts := (reachable_inv reachable total).counts
  have capacity := Nat.le_trans enough counts.bounded
  have begun := counts.beginRead k capacity
  rw [if_pos enough] at begun
  have copied := g.copyFrom_whole .kSynchronizedReadWrite σ.storage.ring
    (σ.storage.readPtr.toNat / g.s) capacity
  have granted := reachable.next (.beginRead idle capacity begun)
  have loaded := granted.next (.copyFrom rfl (by simp [OpenRead.granted]) copied)
  have committed := loaded.next (.commitRead rfl (UInt64.le_refl k) (counts.commitRead k))
  refine ⟨_, committed, rfl, rfl, rfl, ?_⟩
  simp [length_load]

/-- Two messages in a ring of three, then two more around its end, of which one is read. -/
theorem reachable_delivers_around : ∃ σ : State Geometry.three.s,
    σ.written.length = 4 ∧ σ.delivered.length = 3 ∧ Delivers .three σ := by
  let x : Vector UInt8 Geometry.three.s := .replicate _ 7
  let y : Vector UInt8 Geometry.three.s := .replicate _ 8
  have start : Reachable (initial .three fun _ => 0) (Step .three) _ := .start rfl
  obtain ⟨σ₁, run, writer, reader, written₁, delivered₁⟩ :=
    write_run start (by decide) rfl [x, y] (by decide)
  have unread : σ₁.written.length = 2 ∧ σ₁.delivered.length = 0 := by
    simp [written₁, delivered₁]
  obtain ⟨σ₂, run, writer₂, reader, written₂, delivered₂⟩ :=
    read_run run (by rw [unread.1]; decide) reader 2 (by rw [unread.1, unread.2]; decide)
  have emptied : σ₂.written.length = 2 ∧ σ₂.delivered.length = 2 := by
    rw [written₂, delivered₂, unread.1, unread.2]
    decide
  obtain ⟨σ₃, run, writer, reader₃, written₃, delivered₃⟩ :=
    write_run run (by rw [emptied.1]; decide) (writer₂.trans writer) [y, x]
      (by rw [emptied.1, emptied.2]; decide)
  have refilled : σ₃.written.length = 4 ∧ σ₃.delivered.length = 2 := by
    simp [written₃, delivered₃, emptied]
  obtain ⟨σ₄, run, -, -, written₄, delivered₄⟩ :=
    read_run run (by rw [refilled.1]; decide) (reader₃.trans reader) 1
      (by rw [refilled.1, refilled.2]; decide)
  have length : σ₄.written.length = 4 := by rw [written₄, refilled.1]
  refine ⟨σ₄, length, ?_, reachable_delivers run ?_⟩
  · rw [delivered₄, refilled.2]
    decide
  · rw [length]
    decide

end Fmq.Synchronized
