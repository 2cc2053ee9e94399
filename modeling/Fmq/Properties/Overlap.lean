import Fmq.Lib.Cyclic
import Fmq.Properties.Accepted
import Fmq.Properties.MappedCalls
import Fmq.Properties.OneFifo

/-!
# Messages that share bytes

The ring offset is the counter modulo the extent, but the slots are counted in whole messages.
When the extent is no multiple of the message size, the message that follows the last slot goes to
the start of the ring, and the one after it overlaps it.
-/
namespace Fmq

open Memory Scatter Cyclic SharedFiles Transition

namespace Extent

variable (e : Extent)

/-- Where the message of position `p` is stored by a transaction of its own. -/
def home (p : Nat) : Nat := e.place p 0

/-- A message that is part of a transaction lies inside the ring. -/
theorem place_inside (p i : Nat) (capacity : i < e.C) : e.place p i + e.s ≤ e.E := by
  have below := Nat.mod_lt (p * e.s) (Nat.lt_of_lt_of_le e.s_pos e.s_le)
  unfold place
  dsimp only
  split
  -- The message ends where the next one would begin, inside the contiguous part.
  next before =>
    have room := Nat.le_trans (Nat.mul_le_mul_right e.s (Nat.succ_le_of_lt before))
      (Nat.div_mul_le_self _ _)
    rw [Nat.succ_mul] at room
    omega
  -- At the start of the ring there is room for `C` messages.
  next =>
    have slot := Nat.lt_of_le_of_lt (Nat.sub_le i ((e.E - p * e.s % e.E) / e.s)) capacity
    have room := Nat.mul_le_mul_right e.s (Nat.succ_le_of_lt slot)
    rw [Nat.succ_mul] at room
    exact Nat.le_trans room e.C_mul_le

/-- The places of messages depend on their positions only, and positions that can be unread
together are apart, as long as fewer than `2^64` bytes are written. -/
structure Stable : Prop where
  consistent : ∀ p i, i < e.C → (p + i + 1) * e.s < 2 ^ 64 → e.place p i = e.home (p + i)
  apart : ∀ p q, p < q → q < p + e.C → (q + 1) * e.s < 2 ^ 64 →
    Apart e.s (e.home p) (e.home q)

/-- The extents over which messages never share bytes. -/
def Harmless : Prop :=
  e.s ∣ e.E ∨ e.E < 2 * e.s ∨ 2 ^ 64 ≤ (e.C + 2) * e.s

/-! ## Harmless extents -/

theorem place_of_dvd (divides : e.s ∣ e.E) (p i : Nat) (capacity : i < e.C) :
    e.place p i = slot e.s e.C (p + i) := by
  have total : e.E = e.C * e.s := (Nat.div_mul_cancel divides).symm
  have bound := Nat.mod_lt p e.C_pos
  have contiguous : (e.E - p * e.s % e.E) / e.s = e.C - p % e.C := by
    rw [total, Nat.mul_mod_mul_right, ← Nat.sub_mul, Nat.mul_div_cancel _ e.s_pos]
  unfold place
  rw [contiguous, total, Nat.mul_mod_mul_right]
  dsimp only
  split
  next before => rw [slot_add_before before, slot]
  next after => rw [slot_add_after (by omega) capacity]

theorem stable_of_dvd (divides : e.s ∣ e.E) : e.Stable where
  consistent p i capacity _ := by
    rw [e.place_of_dvd divides p i capacity, home, e.place_of_dvd divides _ 0 e.C_pos, Nat.add_zero]
  apart p q less window _ := by
    rw [home, home, e.place_of_dvd divides p 0 e.C_pos, e.place_of_dvd divides q 0 e.C_pos]
    exact slot_disjoint (mod_ne_of_window less window)

/-- With room for one message there is never more than one. -/
theorem stable_of_single (single : e.E < 2 * e.s) : e.Stable := by
  -- No position has another one in its window.
  have one : e.C = 1 := by
    refine Nat.le_antisymm (Nat.le_of_lt_succ ?_) e.C_pos
    exact (Nat.div_lt_iff_lt_mul e.s_pos).mpr single
  constructor
  · intro p i capacity _
    rw [show i = 0 by omega]
    rfl
  · intro p q less window _
    omega

/-- Up to the last slot the places are consecutive; the message after it starts over. -/
theorem place_first_lap (odd : ¬ e.s ∣ e.E) (p i : Nat) (lap : p + i ≤ e.C) :
    e.place p i = if p + i < e.C then (p + i) * e.s else 0 := by
  have strict := e.C_mul_lt odd
  have start : p * e.s < e.E :=
    Nat.lt_of_le_of_lt (Nat.mul_le_mul_right _ (Nat.le_trans (Nat.le_add_right p i) lap)) strict
  -- The offset is not reduced before the counter passes the extent.
  have contiguous : (e.E - p * e.s) / e.s = e.C - p := by
    rw [Nat.mul_comm, Nat.sub_mul_div]
    rfl
  unfold place
  rw [Nat.mod_eq_of_lt start, contiguous]
  dsimp only
  by_cases before : p + i < e.C
  · rw [if_pos before, if_pos (by omega), Nat.add_mul]
  · rw [if_neg before, if_neg (by omega), show i - (e.C - p) = 0 by omega, Nat.zero_mul]

/-- Fewer than `2^64` bytes never reach the second position after the last slot. -/
theorem stable_of_short (odd : ¬ e.s ∣ e.E) (short : 2 ^ 64 ≤ (e.C + 2) * e.s) : e.Stable := by
  have lap : ∀ q, (q + 1) * e.s < 2 ^ 64 → q ≤ e.C := by
    intro q total
    have less := Nat.lt_of_mul_lt_mul_right (Nat.lt_of_lt_of_le total short)
    omega
  constructor
  · intro p i _ total
    have inside := lap _ total
    rw [home, e.place_first_lap odd p i inside, e.place_first_lap odd (p + i) 0 inside,
      Nat.add_zero]
  · -- All homes are consecutive but that of position `C`, which is the start of the ring.
    intro p q less window total
    have inside := lap _ total
    rw [home, home, e.place_first_lap odd p 0 (by omega), e.place_first_lap odd q 0 inside,
      Nat.add_zero, Nat.add_zero, if_pos (by omega)]
    split
    next =>
      have next := Nat.mul_le_mul_right e.s (Nat.succ_le_of_lt less)
      rw [Nat.succ_mul] at next
      exact Or.inl next
    next =>
      have moved := Nat.mul_le_mul_right e.s (show 1 ≤ p by omega)
      rw [Nat.one_mul] at moved
      exact Or.inr (by rwa [Nat.zero_add])

theorem stable_of_harmless (harmless : e.Harmless) : e.Stable := by
  by_cases divides : e.s ∣ e.E
  · exact e.stable_of_dvd divides
  · rcases harmless with divides' | single | short
    · exact absurd divides' divides
    · exact e.stable_of_single single
    · exact e.stable_of_short divides short

/-! ## Harmful extents -/

/-- The two positions after the last slot, when the extent has room for two messages but is no
multiple of their size. -/
theorem homes_overlap (odd : ¬ e.s ∣ e.E) (two : 2 * e.s ≤ e.E) :
    ¬ Apart e.s (e.home e.C) (e.home (e.C + 1)) := by
  have pos := e.s_pos
  have upper := e.E_lt
  have lower := e.C_mul_lt odd
  -- Nothing contiguous is left at position `C`, so its message goes to the start.
  have first : e.home e.C = 0 := by
    rw [home, e.place_first_lap odd e.C 0 (Nat.le_refl _), Nat.add_zero,
      if_neg (Nat.lt_irrefl _)]
  have next : (e.C + 1) * e.s = e.C * e.s + e.s := Nat.succ_mul _ _
  -- The next counter has passed the extent by less than a message.
  have offset : (e.C + 1) * e.s % e.E = (e.C + 1) * e.s - e.E := by
    rw [Nat.mod_eq_sub_mod (Nat.le_of_lt upper), Nat.mod_eq_of_lt (by omega)]
  have second : e.home (e.C + 1) = (e.C + 1) * e.s - e.E := by
    have room : 0 < (e.E - ((e.C + 1) * e.s - e.E)) / e.s := Nat.div_pos (by omega) pos
    rw [home, place, offset, if_pos room, Nat.zero_mul, Nat.add_zero]
  rw [first, second, Apart]
  omega

end Extent

/-! ## The calls of an object -/

variable {F : Type}

/-- The object is one of a queue with this extent, over memory that does not overlap. -/
structure Serves (object : Endpoint F) (P : Placement F) (e : Extent) : Prop where
  shows_ : object.Shows P
  queue : object.queue = some e.queue

namespace Serves

variable {object : Endpoint F} {P : Placement F} {e : Extent} {files : Files F UInt8} {r n : Nat}

theorem sizeofT (serves : Serves object P e) : object.sizeofT = e.sizeofT :=
  (Endpoint.Shows.sizeofT_of_queue serves.queue).symm

theorem inRing (serves : Serves object P e) {p : Nat} {k : UInt64} {tx : MemTransaction}
    (transaction : e.Transaction p k tx) (capacity : k.toNat ≤ e.C) :
    P.InRing tx object.sizeofT k := by
  rw [serves.sizeofT]
  refine ⟨transaction.toGrants, fun i below => ?_⟩
  rw [transaction.slots i below, serves.shows_.size_of_queue serves.queue]
  exact e.place_inside p i (by omega)

variable [DecidableEq F]

/-- `write` stores its messages at the places of its transaction, or refuses and changes
nothing. -/
theorem write (serves : Serves object P e) (counts : e.Counts (P.storage files) r n)
    (xs : List (Vector UInt8 e.s)) (k : UInt64) (length : k.toNat = xs.length) :
    (xs.length ≤ e.C - n ∧ ∃ tx files', e.Transaction (r + n) k tx ∧
      object.beginWrite files k .empty = .ok (true, tx) ∧
      object.write files (some (flat xs)) k = .ok (true, files') ∧
      P.storage files' = ⟨scatter (P.storage files).ring (e.place (r + n)) xs,
        (P.storage files).readPtr, (P.storage files).writePtr + k * e.sizeofT⟩) ∨
    (e.C - n < xs.length ∧ object.beginWrite files k .empty = .ok (false, .empty) ∧
      object.write files (some (flat xs)) k = .ok (false, files)) := by
  have begins := serves.shows_.beginWrite serves.queue files k .empty
  rcases counts.write xs k length with ⟨room, tx, transaction, begun, wrote⟩ | ⟨full, begun, -⟩
  · obtain ⟨files', wrote'⟩ := serves.shows_.write_granted serves.queue begun
      (serves.inRing transaction (by omega)) (flat xs)
    have stored := wrote'.2.symm.trans wrote
    rw [Except.ok.injEq, Prod.mk.injEq] at stored
    exact Or.inl ⟨room, tx, files', transaction, begins.trans begun, wrote'.1, stored.2⟩
  · exact Or.inr ⟨full, begins.trans begun, serves.shows_.write_refused serves.queue begun _⟩

/-- `read` delivers what lies at the places of its transaction, or refuses and changes no
counter. -/
theorem read (serves : Serves object P e) (counts : e.Counts (P.storage files) r n) (k : UInt64)
    (fits : k.toNat * e.s < 2 ^ 64) :
    (k.toNat ≤ n ∧ ∃ files', object.read files true k = .ok (true, files',
        some (flat (gather e.s (P.storage files).ring (e.place r) k.toNat))) ∧
      P.storage files' = ⟨(P.storage files).ring, (P.storage files).readPtr + k * e.sizeofT,
        (P.storage files).writePtr⟩) ∨
    (n < k.toNat ∧ ∃ files', object.read files true k = .ok (false, files', none) ∧
      P.storage files' = P.storage files) := by
  have bounded := counts.bounded
  rcases counts.beginRead k fits with ⟨enough, tx, transaction, begun⟩ | ⟨short, begun⟩
  · have copied := transaction.toGrants.copyFrom fits (P.storage files).ring
    have reads := Queue.read_granted begun copied
    obtain ⟨files', read', same⟩ := serves.shows_.read_granted serves.queue begun
      (serves.inRing transaction (by omega)) copied
    rcases counts.read k fits with ⟨-, reads'⟩ | ⟨short, -⟩
    · rw [reads] at reads'
      simp only [Except.ok.injEq, Prod.mk.injEq] at reads'
      rw [reads'.1, reads'.2.2] at read'
      exact Or.inl ⟨enough, files', read', same.trans reads'.2.1⟩
    · omega
  · obtain ⟨files', read', same⟩ := serves.shows_.read_refused serves.queue begun true
    exact Or.inr ⟨short, files', read', same⟩

end Serves

namespace Ledger

variable (e : Extent) (P : Placement F)

/-- The unread messages lie apart inside the ring, and a successful `read` returns them as they
were written. -/
structure Intact [DecidableEq F] (object : Endpoint F) (σ : State F e.s) : Prop where
  disjoint : σ.unread.Pairwise fun m m' => Apart e.s m.offset m'.offset
  inside : ∀ m ∈ σ.unread, m.offset + e.s ≤ e.E
  reads : ∀ n data τ, Step object σ (.read n (some data)) τ →
    n ≤ σ.unread.length ∧ data = flat ((σ.unread.take n).map (·.value))

/-- After `r` messages were read, the unread ones lie at their homes. -/
structure InvAt (r : Nat) (σ : State F e.s) : Prop where
  counts : e.Counts (P.storage σ.files) r σ.unread.length
  written : r + σ.unread.length = σ.written
  held : ∀ i, (inside : i < σ.unread.length) → σ.unread[i].offset = e.home (r + i) ∧
    record e.s (P.storage σ.files).ring (e.home (r + i)) = σ.unread[i].value

variable {e} {P} {σ τ : State F e.s} {r : Nat}

theorem toNat_count {n : Nat} (buffer : n * e.s < 2 ^ 64) : (UInt64.ofNat n).toNat = n := by
  apply UInt64.toNat_ofNat_of_lt'
  exact Nat.lt_of_le_of_lt (Nat.le_mul_of_pos_right n e.s_pos) buffer

theorem getElem_messages (tx : MemTransaction) (xs : List (Vector UInt8 e.s)) (i : Nat)
    (known : i < (messages tx xs).length) (inside : i < xs.length) :
    (messages tx xs)[i] = ⟨tx.slotOffset e.s i, xs[i]⟩ := by
  simp [messages]

/-- A `write` that succeeds puts its messages at their homes. -/
theorem InvAt.written_step (inv : InvAt e P r σ) (stable : e.Stable)
    (xs : List (Vector UInt8 e.s)) (k : UInt64) (length : k.toNat = xs.length)
    (room : xs.length ≤ e.C - σ.unread.length) {tx : MemTransaction}
    (transaction : e.Transaction (r + σ.unread.length) k tx)
    (total : (σ.written + xs.length) * e.s < 2 ^ 64) {files : Files F UInt8}
    (stored : P.storage files = ⟨scatter (P.storage σ.files).ring
      (e.place (r + σ.unread.length)) xs, (P.storage σ.files).readPtr,
      (P.storage σ.files).writePtr + k * e.sizeofT⟩) :
    InvAt e P r (σ.afterWrite xs tx true files) := by
  have bounded := inv.counts.bounded
  have written := inv.written
  have lengthMessages : (messages tx xs).length = xs.length := by simp [messages]
  -- Every position that is unread afterwards was counted in `total`.
  have below : ∀ q, q < r + (σ.unread.length + xs.length) → (q + 1) * e.s < 2 ^ 64 := by
    intro q less
    exact Nat.lt_of_le_of_lt (Nat.mul_le_mul_right _ (by omega)) total
  have places : ∀ j < xs.length, e.place (r + σ.unread.length) j =
      e.home (r + σ.unread.length + j) := by
    intro j less
    exact stable.consistent _ j (by omega) (below _ (by omega))
  rw [scatter_congr _ _ _ xs places] at stored
  refine ⟨?_, ?_, ?_⟩
  · have counts := inv.counts.written (k := k) (length ▸ room)
      (by rw [length, written]; exact total) (scatter (P.storage σ.files).ring
        (fun j => e.home (r + σ.unread.length + j)) xs)
    rw [length] at counts
    simpa [State.afterWrite, lengthMessages, stored] using counts
  · simp only [State.afterWrite, if_true, List.length_append, lengthMessages]
    omega
  · intro i inside
    simp only [State.afterWrite, if_true, List.length_append, lengthMessages] at inside ⊢
    rw [stored]
    -- Messages already unread are apart from all new ones; a new one is apart from those after it.
    by_cases old : i < σ.unread.length
    · obtain ⟨offset, value⟩ := inv.held i old
      rw [List.getElem_append_left old, record_scatter_apart]
      · exact ⟨offset, value⟩
      · intro j less
        exact stable.apart _ _ (by omega) (by omega) (below _ (by omega))
    · obtain ⟨j, rfl⟩ := Nat.le.dest (Nat.le_of_not_lt old)
      rw [List.getElem_append_right (by omega), getElem_messages _ _ _ _ (by omega)]
      simp only [Nat.add_sub_cancel_left, ← Nat.add_assoc]
      rw [transaction.slots j (by omega), places j (by omega)]
      refine ⟨rfl, ?_⟩
      apply record_scatter _ fun j => e.home (r + σ.unread.length + j)
      intro j' less later
      exact stable.apart _ _ (by omega) (by omega) (below _ (by omega))

/-- A `read` that succeeds leaves the messages behind it at their homes. -/
theorem InvAt.read_step (inv : InvAt e P r σ) (k : UInt64) (enough : k.toNat ≤ σ.unread.length)
    {files : Files F UInt8} (stored : P.storage files = ⟨(P.storage σ.files).ring,
      (P.storage σ.files).readPtr + k * e.sizeofT, (P.storage σ.files).writePtr⟩) :
    InvAt e P (r + k.toNat) (σ.afterRead k.toNat true files) := by
  have written := inv.written
  refine ⟨?_, ?_, ?_⟩
  · have counts := inv.counts.consumed enough
    simpa [State.afterRead, stored] using counts
  · simp only [State.afterRead, if_true, List.length_drop]
    omega
  · intro i inside
    simp only [State.afterRead, if_true, List.length_drop] at inside ⊢
    rw [List.getElem_drop, Nat.add_assoc, stored]
    exact inv.held (k.toNat + i) (by omega)

/-- A call that is refused. -/
theorem InvAt.refused_step (inv : InvAt e P r σ) {files : Files F UInt8}
    (same : P.storage files = P.storage σ.files) : InvAt e P r { σ with files } := by
  obtain ⟨counts, written, held⟩ := inv
  refine ⟨?_, written, ?_⟩
  · dsimp only
    rw [same]
    exact counts
  · dsimp only
    rw [same]
    exact held

variable [DecidableEq F] {object : Endpoint F}

/-- What a call does: it stores messages at the places of its transaction, delivers what lies
at them, or is refused. -/
theorem Step.accepted_or_refused (serves : Serves object P e)
    (counts : e.Counts (P.storage σ.files) r σ.unread.length)
    {a : Action e.s} (taken : Step object σ a τ) :
    (∃ xs k tx files, a = .write xs true ∧ k.toNat = xs.length ∧
      xs.length ≤ e.C - σ.unread.length ∧ e.Transaction (r + σ.unread.length) k tx ∧
      P.storage files = ⟨scatter (P.storage σ.files).ring (e.place (r + σ.unread.length)) xs,
        (P.storage σ.files).readPtr, (P.storage σ.files).writePtr + k * e.sizeofT⟩ ∧
      τ = σ.afterWrite xs tx true files) ∨
    (∃ (k : UInt64) (files : Files F UInt8), a = .read k.toNat
        (some (flat (gather e.s (P.storage σ.files).ring (e.place r) k.toNat))) ∧
      k.toNat ≤ σ.unread.length ∧
      P.storage files = ⟨(P.storage σ.files).ring,
        (P.storage σ.files).readPtr + k * e.sizeofT, (P.storage σ.files).writePtr⟩ ∧
      τ = σ.afterRead k.toNat true files) ∨
    ∃ files, P.storage files = P.storage σ.files ∧ τ = { σ with files } ∧
      ∃ xs n, a = .write xs false ∨ a = .read n none := by
  cases taken with
  | @write xs begun tx ok files buffer began wrote =>
    have length := toNat_count buffer
    rcases serves.write counts xs _ length with
      ⟨room, tx', files', transaction, begun', wrote', stored⟩ | ⟨_, _, refused⟩
    · rw [began] at begun'
      rw [wrote] at wrote'
      cases begun'
      cases wrote'
      exact Or.inl ⟨xs, _, tx, files, rfl, length, room, transaction, stored, rfl⟩
    · rw [wrote] at refused
      cases refused
      exact Or.inr (Or.inr ⟨_, rfl, rfl, xs, 0, Or.inl rfl⟩)
  | @read n ok files data buffer returned =>
    -- The count of a buffer that exists is its own 64-bit value.
    obtain ⟨k, rfl⟩ : ∃ k : UInt64, k.toNat = n := ⟨_, toNat_count buffer⟩
    rw [UInt64.ofNat_toNat] at returned
    rcases serves.read counts k buffer with ⟨enough, files', returned', stored⟩ |
      ⟨_, files', refused, same⟩
    · rw [returned] at returned'
      cases returned'
      exact Or.inr (Or.inl ⟨k, files, rfl, enough, stored, rfl⟩)
    · rw [returned] at refused
      cases refused
      exact Or.inr (Or.inr ⟨_, same, rfl, [], k.toNat, Or.inr rfl⟩)

theorem InvAt.step (inv : InvAt e P r σ) (serves : Serves object P e) (stable : e.Stable)
    {a : Action e.s} (taken : Step object σ a τ) (total : τ.written * e.s < 2 ^ 64) :
    ∃ r', InvAt e P r' τ := by
  rcases taken.accepted_or_refused serves inv.counts with
    ⟨xs, k, tx, files, -, length, room, transaction, stored, rfl⟩ |
      ⟨k, files, -, enough, stored, rfl⟩ | ⟨files, same, rfl, -⟩
  · exact ⟨r, inv.written_step stable xs k length room transaction total stored⟩
  · exact ⟨r + k.toNat, inv.read_step k enough stored⟩
  · exact ⟨r, inv.refused_step same⟩

theorem InvAt.intact (inv : InvAt e P r σ) (serves : Serves object P e) (stable : e.Stable)
    (total : σ.written * e.s < 2 ^ 64) : Intact e object σ := by
  have bounded := inv.counts.bounded
  have written := inv.written
  have below : ∀ i < σ.unread.length, (r + i + 1) * e.s < 2 ^ 64 := by
    intro i less
    exact Nat.lt_of_le_of_lt (Nat.mul_le_mul_right _ (by omega)) total
  refine ⟨?_, ?_, ?_⟩
  · -- Unread positions are less than a capacity apart.
    rw [List.pairwise_iff_getElem]
    intro i j insideI insideJ less
    rw [(inv.held i insideI).1, (inv.held j insideJ).1]
    exact stable.apart _ _ (by omega) (by omega) (below j insideJ)
  · intro m member
    obtain ⟨i, inside, rfl⟩ := List.getElem_of_mem member
    rw [(inv.held i inside).1]
    exact e.place_inside _ 0 e.C_pos
  · intro n data τ taken
    rcases taken.accepted_or_refused serves inv.counts with
      ⟨_, _, _, _, label, _⟩ | ⟨k, _, label, enough, _⟩ | ⟨_, _, _, _, _, label | label⟩
    · cases label
    · cases label
      refine ⟨enough, congrArg flat ?_⟩
      apply List.ext_getElem (by simp [gather, enough])
      intro i h1 h2
      have inside : i < k.toNat := by simpa [gather] using h1
      simp only [gather, List.getElem_map, List.getElem_range, List.getElem_take]
      rw [stable.consistent r i (by omega) (below i (by omega)), (inv.held i (by omega)).2]
    · cases label
    · cases label

/-! ## Runs -/

variable {p : Process F} {sizeofT : UInt64} {desc : AidlMQDescriptorShim} {mq : MessageQueueBase}

/-- A valid queue built with `resetPointers` starts at the counters 0. -/
theorem initial_inv (serves : Serves object P e) (readStored : object.mq.readStored = some 0)
    (writeStored : object.mq.writeStored = some 0) {σ : State F e.s} (start : initial object σ) :
    InvAt e P 0 σ := by
  obtain ⟨memory, files, stored, rfl⟩ := start
  obtain ⟨files', stored', same⟩ := serves.shows_.initStores memory
  cases stored.symm.trans stored'
  rw [MessageQueueBase.attach, readStored, writeStored] at same
  refine ⟨⟨?_, ?_, Nat.zero_le _⟩, rfl, nofun⟩
  · simp [same]
  · simp [same]

theorem Step.written_le {a : Action e.s} (taken : Step object σ a τ) :
    σ.written ≤ τ.written := by
  cases taken with
  | @write xs begun tx ok files =>
    cases ok
    · exact Nat.le_refl _
    · exact Nat.le_add_right _ _
  | @read n ok files data =>
    cases ok
    · exact Nat.le_refl _
    · exact Nat.le_refl _

theorem reachable_intact (serves : Serves object P e)
    (readStored : object.mq.readStored = some 0) (writeStored : object.mq.writeStored = some 0)
    (stable : e.Stable) (reachable : Reachable (initial object) (Step object) σ)
    (total : σ.written * e.s < 2 ^ 64) : Intact e object σ := by
  have inv : ∃ r, InvAt e P r σ := by
    refine reachable.invariant_within (fun σ => σ.written * e.s < 2 ^ 64)
      (fun σ => ∃ r, InvAt e P r σ) ?_ ?_ ?_ total
    · intro σ start
      exact ⟨0, initial_inv serves readStored writeStored start⟩
    · intro σ a τ taken bounded
      exact Nat.lt_of_le_of_lt (Nat.mul_le_mul_right _ taken.written_le) bounded
    · rintro σ a τ ⟨r, inv⟩ bounded taken
      exact inv.step serves stable taken bounded
  obtain ⟨r, inv⟩ := inv
  exact inv.intact serves stable total

/-- A `write` that fits. -/
theorem write_run (serves : Serves object P e) {n : Nat}
    (counts : e.Counts (P.storage σ.files) r n) (xs : List (Vector UInt8 e.s))
    (room : xs.length ≤ e.C - n) (total : (r + n + xs.length) * e.s < 2 ^ 64) :
    ∃ τ, Step object σ (.write xs true) τ ∧
      e.Counts (P.storage τ.files) r (n + xs.length) ∧
      τ.unread = σ.unread ++ xs.mapIdx (fun i x => ⟨e.place (r + n) i, x⟩) ∧
      τ.written = σ.written + xs.length := by
  have buffer := e.bytes_lt (Nat.le_trans room (Nat.sub_le _ _))
  have length := toNat_count buffer
  rcases serves.write counts xs _ length with
    ⟨_, tx, files, transaction, begun, wrote, stored⟩ | ⟨full, _⟩
  · refine ⟨_, .write buffer begun wrote, ?_, ?_, rfl⟩
    · have moved := counts.written (k := .ofNat xs.length) (length.symm ▸ room)
        (length.symm ▸ total) (scatter (P.storage σ.files).ring (e.place (r + n)) xs)
      rw [length] at moved
      simpa only [State.afterWrite, if_true, stored] using moved
    · have same : messages tx xs = xs.mapIdx (fun i x => ⟨e.place (r + n) i, x⟩) := by
        apply List.ext_getElem (by simp [messages])
        intro i h1 h2
        have inside : i < xs.length := by simpa using h2
        rw [getElem_messages _ _ _ _ inside, transaction.slots i (by omega)]
        simp
      rw [← same]
      rfl
  · exact absurd room (Nat.not_le.mpr full)

/-- A `read` of everything. -/
theorem read_run (serves : Serves object P e) {n : Nat}
    (counts : e.Counts (P.storage σ.files) r n) (length : σ.unread.length = n) :
    ∃ τ data, Step object σ (.read n (some data)) τ ∧
      e.Counts (P.storage τ.files) (r + n) 0 ∧ τ.unread = [] ∧ τ.written = σ.written := by
  have buffer := e.bytes_lt counts.bounded
  have value := toNat_count buffer
  rcases serves.read counts (.ofNat n) (value.symm ▸ buffer) with
    ⟨enough, files, returned, stored⟩ | ⟨short, _⟩
  · refine ⟨_, _, .read buffer returned, ?_, ?_, rfl⟩
    · have moved := counts.consumed enough
      rw [value, Nat.sub_self] at moved
      simpa only [State.afterRead, if_true, stored] using moved
    · exact List.drop_eq_nil_of_le (Nat.le_of_eq length)
  · omega

/-- The ring is filled and emptied, and two messages are written one by one. -/
theorem overlaps (serves : Serves object P e) (readStored : object.mq.readStored = some 0)
    (writeStored : object.mq.writeStored = some 0) (odd : ¬ e.s ∣ e.E) (two : 2 * e.s ≤ e.E)
    (total : (e.C + 2) * e.s < 2 ^ 64) :
    ∃ σ : State F e.s, Reachable (initial object) (Step object) σ ∧ σ.written * e.s < 2 ^ 64 ∧
      ¬ Intact e object σ := by
  have several : 2 ≤ e.C := (Nat.le_div_iff_mul_le e.s_pos).mpr two
  let x : Vector UInt8 e.s := .replicate e.s 0
  obtain ⟨files, stored, -⟩ := serves.shows_.initStores fun _ _ => 0
  let σ₀ : State F e.s := ⟨files, [], 0⟩
  have start : initial object σ₀ := ⟨_, _, stored, rfl⟩
  have counts₀ := (initial_inv serves readStored writeStored start).counts
  have below : ∀ k, k ≤ e.C + 2 → k * e.s < 2 ^ 64 := fun k le =>
    Nat.lt_of_le_of_lt (Nat.mul_le_mul_right _ le) total
  obtain ⟨σ₁, filled, counts₁, unread₁, written₁⟩ := write_run serves counts₀ (.replicate e.C x)
    (by simp [σ₀]) (by simpa [σ₀] using below e.C (by omega))
  have length₁ : σ₁.unread.length = e.C := by simp [unread₁, σ₀]
  rw [List.length_replicate, show σ₀.unread.length = 0 from rfl, Nat.zero_add] at counts₁
  obtain ⟨σ₂, data, emptied, counts₂, unread₂, written₂⟩ := read_run serves counts₁ length₁
  rw [Nat.zero_add] at counts₂
  -- The messages at the positions `C` and `C + 1`, each by a `write` of its own.
  obtain ⟨σ₃, third, counts₃, unread₃, written₃⟩ := write_run serves counts₂ [x]
    (by simp; omega) (by simpa using below (e.C + 1) (by omega))
  obtain ⟨σ₄, fourth, counts₄, unread₄, written₄⟩ := write_run serves counts₃ [x]
    (by simp; omega) (by simpa using below (e.C + 2) (by omega))
  refine ⟨σ₄, ((((Reachable.start start).next filled).next emptied).next third).next fourth, ?_, ?_⟩
  · -- `C + 2` messages in total.
    rw [written₄, written₃, written₂, written₁]
    simpa [σ₀] using total
  · intro intact
    have pair := intact.disjoint
    rw [unread₄, unread₃, unread₂] at pair
    simp only [List.mapIdx_cons, List.mapIdx_nil, List.nil_append, List.cons_append,
      List.pairwise_cons, List.mem_singleton, forall_eq] at pair
    exact e.homes_overlap odd two pair.1

omit [DecidableEq F] in
/-- The data path of an accepted queue. -/
theorem serves_of_valid (pos : sizeofT ≠ 0) (extent : sizeofT ≤ desc.getSize)
    (constructed : MessageQueueBase.ofDescriptor p.os .kSynchronizedReadWrite sizeofT desc true =
      .ok mq) (valid : mq.isValid = true) (shows_ : (⟨p, sizeofT, mq⟩ : Endpoint F).Shows P) :
    Serves ⟨p, sizeofT, mq⟩ P ⟨sizeofT, desc.getSize, pos, extent⟩ ∧
      mq.readStored = some 0 ∧ mq.writeStored = some 0 := by
  obtain ⟨desc', copied, initialized⟩ := MessageQueueBase.ofDescriptor_valid constructed valid
  refine ⟨⟨shows_, ?_⟩, initialized.reset rfl⟩
  unfold Endpoint.queue
  rw [MessageQueueBase.queue, initialized.mDesc, Option.map_some, initialized.quantum,
    AidlMQDescriptorShim.copy_getSize copied]

/-- Messages of an accepted queue whose ring and counters share no byte keep apart exactly when its
data extent is a multiple of the message size, has room for one message only, or is too large to be
filled beyond its end. -/
theorem intact_iff (p : Process F) (sizeofT : UInt64) (desc : AidlMQDescriptorShim)
    (mq : MessageQueueBase) (pos : sizeofT ≠ 0) (extent : sizeofT ≤ desc.getSize)
    (constructed : MessageQueueBase.ofDescriptor p.os .kSynchronizedReadWrite sizeofT desc true =
      .ok mq) (valid : mq.isValid = true) (P : Placement F)
    (shows_ : (⟨p, sizeofT, mq⟩ : Endpoint F).Shows P) :
    let e : Extent := ⟨sizeofT, desc.getSize, pos, extent⟩
    let object : Endpoint F := ⟨p, sizeofT, mq⟩
    object.queue = some e.queue ∧
      ((∀ σ, Reachable (initial object) (Step object) σ → σ.written * e.s < 2 ^ 64 →
        Intact e object σ) ↔ e.Harmless) := by
  obtain ⟨serves, readStored, writeStored⟩ :=
    serves_of_valid pos extent constructed valid shows_
  intro e object
  refine ⟨serves.queue, ?_, ?_⟩
  · intro intact
    by_contra harmful
    rw [Extent.Harmless, not_or, not_or, Nat.not_lt, Nat.not_le] at harmful
    obtain ⟨odd, two, total⟩ := harmful
    obtain ⟨σ, reachable, bounded, broken⟩ :=
      overlaps serves readStored writeStored odd two total
    exact broken (intact σ reachable bounded)
  · intro harmless σ reachable total
    exact reachable_intact serves readStored writeStored (e.stable_of_harmless harmless)
      reachable total

/-- The counters and a ring of this many bytes, one behind the other. -/
def contiguous (length : Nat) : Placement Unit where
  readPtr := ⟨(), 0, 8⟩
  writePtr := ⟨(), 8, 8⟩
  ring := ⟨(), 16, length⟩
  readLength := rfl
  writeLength := rfl
  readWrite := Or.inr (Or.inl (Nat.le_refl 8))
  readRing := Or.inr (Or.inl (Nat.le_add_left 8 8))
  writeRing := Or.inr (Or.inl (Nat.le_refl 16))

/-- Two messages of four bytes. -/
theorem intact_iff_two : ∃ (e : Extent) (mq : MessageQueueBase),
    let object : Endpoint Unit := ⟨singleProcess, 4, mq⟩
    e.sizeofT = 4 ∧ e.size = 8 ∧ object.queue = some e.queue ∧
      ∀ σ, Reachable (initial object) (Step object) σ → σ.written * e.s < 2 ^ 64 →
        Intact e object σ := by
  let desc : AidlMQDescriptorShim :=
    ⟨[⟨0, 0, 0, 8⟩, ⟨0, 0, 8, 8⟩, ⟨0, 0, 16, 8⟩], some ⟨[3], []⟩, 4, 1⟩
  obtain ⟨mq, constructed, valid⟩ : ∃ mq, MessageQueueBase.ofDescriptor singleProcess.os
      .kSynchronizedReadWrite 4 desc true = .ok mq ∧ mq.isValid = true := ⟨_, rfl, rfl⟩
  have shows_ := Endpoint.shows_of_grantors (P := contiguous 8) constructed valid
    ⟨rfl, rfl, by decide, rfl, rfl, rfl, by decide, by decide, by decide⟩
    ⟨rfl, rfl, by decide, rfl, rfl, rfl, by decide, by decide, by decide⟩
    ⟨rfl, rfl, by decide, rfl, rfl, rfl, by decide, by decide, by decide⟩ rfl
  obtain ⟨known, iff⟩ := intact_iff singleProcess 4 desc mq (by decide) (by decide) constructed
    valid (contiguous 8) shows_
  exact ⟨⟨4, 8, by decide, by decide⟩, mq, rfl, rfl, known, iff.mpr (Or.inl (by decide))⟩

/-- Messages of two bytes over an extent of five. -/
theorem not_intact : ¬ ∀ (p : Process Unit) (e : Extent) (desc : AidlMQDescriptorShim)
    (mq : MessageQueueBase), desc.getSize = e.size →
    MessageQueueBase.ofDescriptor p.os .kSynchronizedReadWrite e.sizeofT desc true = .ok mq →
    mq.isValid = true → ∀ σ : State Unit e.s,
      Reachable (initial ⟨p, e.sizeofT, mq⟩) (Step ⟨p, e.sizeofT, mq⟩) σ →
      σ.written * e.s < 2 ^ 64 → Intact e ⟨p, e.sizeofT, mq⟩ σ := by
  intro all
  let desc : AidlMQDescriptorShim :=
    ⟨[⟨0, 0, 0, 8⟩, ⟨0, 0, 8, 8⟩, ⟨0, 0, 16, 5⟩], some ⟨[3], []⟩, 2, 1⟩
  let e : Extent := ⟨2, 5, by decide, by decide⟩
  obtain ⟨mq, constructed, valid⟩ : ∃ mq, MessageQueueBase.ofDescriptor singleProcess.os
      .kSynchronizedReadWrite 2 desc true = .ok mq ∧ mq.isValid = true := ⟨_, rfl, rfl⟩
  have shows_ := Endpoint.shows_of_grantors (P := contiguous 5) constructed valid
    ⟨rfl, rfl, by decide, rfl, rfl, rfl, by decide, by decide, by decide⟩
    ⟨rfl, rfl, by decide, rfl, rfl, rfl, by decide, by decide, by decide⟩
    ⟨rfl, rfl, by decide, rfl, rfl, rfl, by decide, by decide, by decide⟩ rfl
  obtain ⟨serves, readStored, writeStored⟩ :=
    serves_of_valid (by decide) (by decide) constructed valid shows_
  obtain ⟨σ, reachable, total, broken⟩ :=
    overlaps (e := e) serves readStored writeStored (by decide) (by decide) (by decide)
  exact broken (all singleProcess e desc mq rfl constructed valid σ reachable total)

/-- What a `write` of 5 and a `read` reply when the ring is the write counter. -/
example : ∃ mq, MessageQueueBase.ofDescriptor singleProcess.os .kSynchronizedReadWrite 1
      ⟨[⟨0, 0, 0, 8⟩, ⟨0, 0, 8, 8⟩, ⟨0, 0, 8, 8⟩], some ⟨[3], []⟩, 1, 1⟩ true = .ok mq ∧
    mq.isValid = true ∧
    (let object : Endpoint Unit := ⟨singleProcess, 1, mq⟩
     do let files ← object.initStores fun _ _ => 0
        let (written, files) ← object.write files (some [5]) 1
        let (delivered, _, data) ← object.read files true 1
        return (written, delivered, data)) = .ok (true, true, some [6]) :=
  ⟨_, rfl, rfl, by decide +kernel⟩

end Ledger
end Fmq
