import Fmq.Properties.Lagging

/-!
# One request on arbitrary counters

What `beginRead`, `write` and `read` do to a queue whose counters may have any value: which
counts a reader is granted, what a refused request leaves in the caller's transaction, and what
a failed call leaves in the queue.
-/
namespace Fmq

open Memory

namespace Geometry

variable (g : Geometry) (flavor : MQFlavor) (σ : Storage) (n : UInt64)

/-- The bytes between the two counters. -/
def distance (σ : Storage) : Nat := (σ.writePtr - σ.readPtr).toNat

/-! ## The counts a reader is granted -/

/-- `beginRead(n)` succeeds exactly when `n` messages are there, and otherwise a `read` of `n`
messages fails without a copy. -/
structure AcceptsReadable : Prop where
  begun : ∃ ok tx σ', (g.queue flavor).beginRead σ n = .ok (ok, tx, σ') ∧
    (ok = true ↔ n.toNat ≤ distance σ / g.s)
  refused : distance σ / g.s < n.toNat → ∀ hasData, ∃ σ',
    (g.queue flavor).read σ hasData n = .ok (false, σ', none)

variable {g σ n}

/-- `beginRead` compares bytes, in `size_t`. -/
theorem beginRead_within (alignedRead : g.s ∣ σ.readPtr.toNat)
    (alignedWrite : g.s ∣ σ.writePtr.toNat) (within : distance σ ≤ g.N * g.s) :
    (g.queue flavor).beginRead σ n =
      .ok (if n.toNat * g.s % 2 ^ 64 ≤ distance σ then
        (true, g.transaction (σ.readPtr.toNat / g.s) n, σ) else (false, .empty, σ)) := by
  unfold Queue.beginRead
  unfold distance at within ⊢
  rcases g.beginReadWith_cases flavor ⟨σ.writePtr, σ.readPtr⟩ n with
    ⟨misaligned, _⟩ | ⟨_, _, far, _⟩ | ⟨_, _, _, short, eq⟩ | ⟨_, _, _, enough, eq⟩
  · exact absurd ⟨alignedWrite, alignedRead⟩ misaligned
  · exact absurd far (Nat.not_lt.mpr within)
  · rw [eq, if_neg (Nat.not_le.mpr short)]
    rfl
  · rw [eq, if_pos enough]
    rfl

theorem read_short (alignedRead : g.s ∣ σ.readPtr.toNat) (alignedWrite : g.s ∣ σ.writePtr.toNat)
    (within : distance σ ≤ g.N * g.s) (short : distance σ < n.toNat * g.s % 2 ^ 64)
    (hasData : Bool) : (g.queue flavor).read σ hasData n = .ok (false, σ, none) := by
  have begun := beginRead_within flavor (n := n) alignedRead alignedWrite within
  rw [if_neg (Nat.not_le.mpr short)] at begun
  exact Queue.read_refused hasData begun

/-- A size that wraps to so few bytes that they are there. -/
theorem not_acceptsReadable (alignedRead : g.s ∣ σ.readPtr.toNat)
    (alignedWrite : g.s ∣ σ.writePtr.toNat) (within : distance σ ≤ g.N * g.s)
    (wraps : 2 ^ 64 ≤ n.toNat * g.s) (enough : n.toNat * g.s % 2 ^ 64 ≤ distance σ) :
    ¬ g.AcceptsReadable flavor σ n := by
  intro accepts
  obtain ⟨ok, tx, σ', eq, meaning⟩ := accepts.begun
  rw [beginRead_within flavor alignedRead alignedWrite within, if_pos enough] at eq
  cases eq
  -- So many messages are more than the distance holds.
  have readable := (Nat.le_div_iff_mul_le g.s_pos).mp (meaning.mp rfl)
  have below : distance σ < 2 ^ 64 := (σ.writePtr - σ.readPtr).toNat_lt
  omega

variable (g σ n)

/-- `beginRead` accepts exactly the readable counts, as long as the size in bytes does not wrap
to one that is there. -/
theorem acceptsReadable_iff (alignedRead : g.s ∣ σ.readPtr.toNat)
    (alignedWrite : g.s ∣ σ.writePtr.toNat) (within : distance σ ≤ g.N * g.s) :
    g.AcceptsReadable flavor σ n ↔
      n.toNat * g.s < 2 ^ 64 ∨ distance σ < n.toNat * g.s % 2 ^ 64 := by
  constructor
  · intro accepts
    by_contra wrapped
    rw [not_or, Nat.not_lt, Nat.not_lt] at wrapped
    exact not_acceptsReadable flavor alignedRead alignedWrite within wrapped.1 wrapped.2 accepts
  · intro condition
    -- Either way the comparison of `size_t` values is the one of the exact sizes.
    have exact_size : n.toNat * g.s % 2 ^ 64 ≤ distance σ ↔ n.toNat ≤ distance σ / g.s := by
      rw [Nat.le_div_iff_mul_le g.s_pos]
      have below : distance σ < 2 ^ 64 := (σ.writePtr - σ.readPtr).toNat_lt
      rcases condition with small | short
      · rw [Nat.mod_eq_of_lt small]
      · have le := Nat.mod_le (n.toNat * g.s) (2 ^ 64)
        omega
    constructor
    · have begun := beginRead_within flavor (n := n) alignedRead alignedWrite within
      by_cases enough : n.toNat * g.s % 2 ^ 64 ≤ distance σ
      · rw [if_pos enough] at begun
        exact ⟨_, _, _, begun, by simpa using exact_size.mp enough⟩
      · rw [if_neg enough] at begun
        refine ⟨_, _, _, begun, ?_⟩
        simpa using fun readable => enough (exact_size.mpr readable)
    · intro more hasData
      have short : ¬ n.toNat * g.s % 2 ^ 64 ≤ distance σ := fun enough =>
        absurd (exact_size.mp enough) (Nat.not_le.mpr more)
      exact ⟨σ, read_short flavor alignedRead alignedWrite within (Nat.not_le.mp short) hasData⟩

/-- One of one message of two bytes. -/
theorem acceptsReadable_iff_single :
    let g : Geometry := ⟨2, 1, by decide, by decide, by decide⟩
    g.AcceptsReadable .kUnsynchronizedWrite ⟨fun _ => 0, 0, 2⟩ 1 :=
  (acceptsReadable_iff ⟨2, 1, by decide, by decide, by decide⟩ .kUnsynchronizedWrite
    ⟨fun _ => 0, 0, 2⟩ 1 (by decide) (by decide) (by decide)).mpr (by decide)

/-- `2^63` messages of two bytes from an empty queue. -/
theorem not_acceptsReadable_empty :
    ¬ ∀ (g : Geometry) flavor σ n, g.s ∣ σ.readPtr.toNat → g.s ∣ σ.writePtr.toNat →
      distance σ ≤ g.N * g.s → g.AcceptsReadable flavor σ n := fun all =>
  let g : Geometry := ⟨2, 1, by decide, by decide, by decide⟩
  not_acceptsReadable .kSynchronizedReadWrite (by decide) (by decide) (by decide) (by decide)
    (by decide)
    (all g _ ⟨fun _ => 0, 0, 0⟩ 0x8000000000000000 (by decide) (by decide) (by decide))

/-! ## What a failed call leaves -/

variable {g σ n}

theorem write_null : (g.queue flavor).write σ none n = .ok (false, σ) := by
  rcases g.beginWriteWith_cases flavor ⟨σ.writePtr, σ.readPtr, σ.writePtr⟩ n .empty with
    ⟨_, eq⟩ | ⟨_, _, eq⟩ | ⟨_, _, eq⟩
  · exact Queue.write_refused none eq
  · exact Queue.write_refused none eq
  · exact Queue.write_null eq

/-- A `write` of `n` messages changes nothing, or there is room, and it stores something and
commits. -/
theorem write_cases (data : Option (List UInt8)) :
    (g.queue flavor).write σ data n = .ok (false, σ) ∨
      ¬ g.RefusesWrite flavor ⟨σ.writePtr, σ.readPtr, σ.writePtr⟩ n ∧ data.isSome ∧
        ∃ ring, (g.queue flavor).write σ data n =
          .ok (true, (g.queue flavor).commitWrite { σ with ring } n) := by
  cases data with
  | none => exact Or.inl (write_null flavor)
  | some data =>
    rcases g.beginWriteWith_cases flavor ⟨σ.writePtr, σ.readPtr, σ.writePtr⟩ n .empty with
      ⟨_, eq⟩ | ⟨_, _, eq⟩ | ⟨accepts, _, eq⟩
    · exact Or.inl (Queue.write_refused _ eq)
    · exact Or.inl (Queue.write_refused _ eq)
    · -- A granted transaction takes every buffer.
      have capacity : n.toNat ≤ g.N := Nat.le_of_not_lt fun more => accepts (Or.inr more)
      obtain ⟨ring, copied⟩ := g.copyTo_succeeds flavor σ.ring (σ.writePtr.toNat / g.s) n 0 n data
        capacity (by simp)
      exact Or.inr ⟨accepts, rfl, ring, Queue.write_granted eq copied⟩

/-- Both counters are aligned, and further apart than the ring is long. -/
def Lapped (g : Geometry) (σ : Storage) : Prop :=
  g.s ∣ σ.readPtr.toNat ∧ g.s ∣ σ.writePtr.toNat ∧ g.N * g.s < distance σ

theorem read_lapped (lapped : g.Lapped σ) (hasData : Bool) :
    (g.queue flavor).read σ hasData n = .ok (false, skipped σ, none) := by
  obtain ⟨alignedRead, alignedWrite, far⟩ := lapped
  rcases g.beginReadWith_cases flavor ⟨σ.writePtr, σ.readPtr⟩ n with
    ⟨misaligned, _⟩ | ⟨_, _, _, eq⟩ | ⟨_, _, near, _⟩ | ⟨_, _, near, _⟩
  · exact absurd ⟨alignedWrite, alignedRead⟩ misaligned
  · exact Queue.read_refused hasData (Queue.beginRead_of_loads eq)
  · exact absurd far near
  · exact absurd far near

/-- A `read` of at most `N` messages skips what was overwritten, changes nothing, or commits. -/
theorem read_cases (capacity : n.toNat ≤ g.N) (hasData : Bool) :
    (g.Lapped σ ∧ (g.queue flavor).read σ hasData n = .ok (false, skipped σ, none)) ∨
    (¬ g.Lapped σ ∧ (g.queue flavor).read σ hasData n = .ok (false, σ, none)) ∨
    (∃ σ' data, (g.queue flavor).read σ hasData n = .ok (true, σ', data)) := by
  by_cases lapped : g.Lapped σ
  · exact Or.inl ⟨lapped, read_lapped flavor lapped hasData⟩
  right
  rcases g.beginReadWith_cases flavor ⟨σ.writePtr, σ.readPtr⟩ n with
    ⟨_, eq⟩ | ⟨alignedWrite, alignedRead, far, _⟩ | ⟨_, _, _, _, eq⟩ | ⟨_, _, near, _, eq⟩
  · exact Or.inl ⟨lapped, Queue.read_refused hasData (Queue.beginRead_of_loads eq)⟩
  · exact absurd ⟨alignedRead, alignedWrite, far⟩ lapped
  · exact Or.inl ⟨lapped, Queue.read_refused hasData (Queue.beginRead_of_loads eq)⟩
  · have begun : (g.queue flavor).beginRead σ n =
        .ok (true, g.transaction (σ.readPtr.toNat / g.s) n, σ) := Queue.beginRead_of_loads eq
    cases hasData with
    | false => exact Or.inl ⟨lapped, Queue.read_null begun⟩
    | true =>
      right
      -- Nobody moves the counters between the two overflow tests.
      have committed : (g.queue flavor).commitRead σ n = (true, g.popped σ n) := by
        refine if_neg ?_
        rw [gt_iff_lt, UInt64.lt_iff_toNat_lt, toNat_getSize]
        exact near
      have copied := g.copyFrom_whole flavor σ.ring (σ.readPtr.toNat / g.s) capacity
      rw [Queue.read_granted begun copied, committed]
      exact ⟨_, _, rfl⟩

variable (g σ n)

/-- A failed `write` leaves the queue as it was, and so does a failed `read`, except that a
reader that was lapped has skipped everything. -/
theorem failed_unchanged :
    (∀ data σ', (g.queue flavor).write σ data n = .ok (false, σ') → σ' = σ) ∧
    (n.toNat ≤ g.N → ∀ hasData σ' data,
      (g.queue flavor).read σ hasData n = .ok (false, σ', data) →
      σ'.ring = σ.ring ∧ σ'.writePtr = σ.writePtr ∧
      (¬ g.Lapped σ → σ'.readPtr = σ.readPtr) ∧
      (g.Lapped σ → σ'.readPtr = σ.writePtr ∧
        (g.queue flavor).availableToRead σ'.writePtr σ'.readPtr = .ok 0)) := by
  constructor
  · intro data σ' failed
    rcases write_cases (g := g) (σ := σ) (n := n) flavor data with eq | ⟨_, _, ring, eq⟩
    · rw [eq] at failed
      cases failed
      rfl
    · rw [eq] at failed
      cases failed
  · intro capacity hasData σ' data failed
    rcases read_cases (σ := σ) flavor capacity hasData with
      ⟨lapped, eq⟩ | ⟨inside, eq⟩ | ⟨_, _, eq⟩
    · rw [eq] at failed
      cases failed
      refine ⟨rfl, rfl, fun inside => absurd lapped inside, fun _ => ⟨rfl, ?_⟩⟩
      -- The reader has caught up.
      unfold Queue.availableToRead Queue.availableToReadBytes skipped
      rw [div_sizeofT, UInt64.sub_self, UInt64.zero_div]
    · rw [eq] at failed
      cases failed
      exact ⟨rfl, rfl, fun _ => rfl, fun lapped => absurd lapped inside⟩
    · rw [eq] at failed
      cases failed

/-- A full ring of one, and a reader one message beyond such a ring. -/
theorem failed_unchanged_single :
    let full : Storage := ⟨fun _ => 0, 0, 1⟩
    let σ : Storage := ⟨fun _ => 0, 0, 2⟩
    (∃ σ', (Geometry.single.queue .kSynchronizedReadWrite).write full (some [7]) 1 =
        .ok (false, σ') ∧ σ' = full) ∧
      (skipped σ).ring = σ.ring ∧ (skipped σ).readPtr = 2 := by
  intro full σ
  have counts : Geometry.single.Counts full 1 := ⟨⟨by decide, by decide⟩, by decide, by decide⟩
  have refused := counts.write_refuses (some [7]) 1 (by decide)
  have lapped : Geometry.single.Lapped σ := ⟨by decide, by decide, by decide⟩
  have written := failed_unchanged .single .kSynchronizedReadWrite full 1
  have failed := failed_unchanged .single .kUnsynchronizedWrite σ 1
  have read := failed.2 (by decide) true (skipped σ) none (read_lapped _ lapped true)
  exact ⟨⟨full, refused, written.1 _ _ refused⟩, read.1, (read.2.2.2 lapped).1⟩

end Geometry

/-! ## What a refused request leaves in the transaction -/

namespace Queue

variable (q : Queue) (σ : Storage) (n : UInt64) (old : MemTransaction)

/-- A refused request leaves two null regions of length zero in `*memTx`, which held `old`. -/
def NullWhenRefused : Prop :=
  (∀ tx, q.beginWrite σ n old = .ok (false, tx) → tx = .empty) ∧
    (∀ tx σ', q.beginRead σ n = .ok (false, tx, σ') → tx = .empty)

/-- The request passes the size test of `beginWrite` and stops at the alignment test. -/
def StopsMisaligned : Prop :=
  q.refusesWrite ⟨σ.writePtr, σ.readPtr, σ.writePtr⟩ n = .ok false ∧
    ∃ rest, mod σ.writePtr q.sizeofT = .ok rest ∧ rest ≠ 0

variable {q σ n}

theorem beginWrite_misaligned (stops : q.StopsMisaligned σ n) :
    q.beginWrite σ n old = .ok (false, old) := by
  obtain ⟨fits, rest, offset, misaligned⟩ := stops
  unfold beginWrite beginWriteWith
  simp [fits, offset, misaligned, bind, Except.bind, pure, Except.pure]

theorem beginWrite_refused {tx : MemTransaction} (aligned : ¬ q.StopsMisaligned σ n)
    (refused : q.beginWrite σ n old = .ok (false, tx)) : tx = .empty := by
  unfold beginWrite beginWriteWith at refused
  obtain ⟨tooLarge, size, refused⟩ := bind_eq_ok.mp refused
  cases tooLarge with
  | true =>
    cases refused
    rfl
  | false =>
    obtain ⟨rest, offset, refused⟩ := bind_eq_ok.mp refused
    have zero : ¬ rest ≠ 0 := fun misaligned => aligned ⟨size, rest, offset, misaligned⟩
    rw [if_neg zero] at refused
    obtain ⟨granted, -, returned⟩ := bind_eq_ok.mp refused
    cases returned

/-- `beginRead` clears the transaction first. -/
theorem beginReadWith_refused {loads : BeginReadLoads} {r : BeginRead}
    (begun : q.beginReadWith loads n = .ok r) (refused : r.returned = false) :
    r.memTx = .empty := by
  rcases beginReadWith_ok begun with rfl | ⟨-, rfl⟩ | ⟨-, -, tx, rfl⟩
  · rfl
  · rfl
  · cases refused

theorem beginRead_refused {tx : MemTransaction} {σ' : Storage}
    (refused : q.beginRead σ n = .ok (false, tx, σ')) : tx = .empty := by
  obtain ⟨r, begun, refused⟩ := bind_eq_ok.mp refused
  simp only [pure, Except.pure, Except.ok.injEq, Prod.mk.injEq] at refused
  obtain ⟨returned, same, -⟩ := refused
  rw [← same]
  exact beginReadWith_refused begun returned

variable (q σ n)

/-- A refused request leaves a null transaction, except where `beginWrite` gives up on a
misaligned write counter. -/
theorem nullWhenRefused_iff :
    q.NullWhenRefused σ n old ↔ (q.StopsMisaligned σ n → old = .empty) := by
  constructor
  · intro null stops
    exact null.1 old (beginWrite_misaligned old stops)
  · intro condition
    refine ⟨fun tx refused => ?_, fun tx σ' refused => beginRead_refused refused⟩
    by_cases stops : q.StopsMisaligned σ n
    · rw [beginWrite_misaligned old stops] at refused
      cases refused
      exact condition stops
    · exact beginWrite_refused old stops refused

/-- A caller that reuses its last transaction after the write counter has become odd. -/
theorem not_nullWhenRefused_stale : ¬ ∀ (q : Queue) σ n old, q.NullWhenRefused σ n old := by
  intro all
  let q : Queue := ⟨.kUnsynchronizedWrite, 2, 2, 2⟩
  let stale : MemTransaction := ⟨⟨⟨.ring, 0⟩, 1⟩, .empty⟩
  have stops : q.StopsMisaligned ⟨fun _ => 0, 0, 1⟩ 1 := ⟨by decide, 1, by decide, by decide⟩
  have null := (all q _ 1 stale).1 stale (beginWrite_misaligned stale stops)
  exact absurd null (by decide)

end Queue
end Fmq
