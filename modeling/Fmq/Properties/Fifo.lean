import Fmq.Model.Calls
import Fmq.Properties.Counters

/-!
# The synchronized queue refines a bounded FIFO

The unread messages are the window of the ring from the read counter on. Each whole call keeps
this representation as long as the counter it moves stays `Regular`, which holds below `2^64`
and, for a data size that divides `2^64`, always.
-/
namespace Fmq

open Memory RecordRing BoundedFifo

namespace Geometry

variable (g : Geometry)

/-- Moving the counter by `k` messages moves its slot by `k` and keeps it aligned. -/
def Regular (ptr k : UInt64) : Prop :=
  g.s ∣ (ptr + k * .ofNat g.s).toNat ∧
    (ptr + k * .ofNat g.s).toNat / g.s % g.N = (ptr.toNat / g.s + k.toNat) % g.N

/-- Below `2^64` the counters do not wrap. -/
theorem regular_of_lt (ptr k : UInt64) (aligned : g.s ∣ ptr.toNat)
    (small : ptr.toNat + k.toNat * g.s < 2 ^ 64) : g.Regular ptr k := by
  unfold Regular
  rw [g.toNat_advance_lt ptr k small]
  refine ⟨Nat.dvd_add aligned (Nat.dvd_mul_left _ _), ?_⟩
  rw [Nat.add_mul_div_right _ _ g.s_pos]

/-- The unread messages are the records of the slots from `readPtr` on, and the write counter
points behind them. -/
structure Repr (σ : Storage) (items : List (Vector UInt8 g.s)) : Prop
    extends g.Counts σ items.length where
  cursor : σ.writePtr.toNat / g.s % g.N = (σ.readPtr.toNat / g.s + items.length) % g.N
  held : window g.s g.N σ.ring (σ.readPtr.toNat / g.s) items.length = items

theorem repr_reset (ring : Ring) : g.Repr (.reset ring) [] where
  readAligned := Nat.dvd_zero _
  writeAligned := Nat.dvd_zero _
  count := by simp [Storage.reset]
  bounded := Nat.zero_le _
  cursor := rfl
  held := rfl

variable {g} {σ : Storage} {items : List (Vector UInt8 g.s)}

/-- Writing messages that fit appends them. -/
theorem Repr.pushed (repr : g.Repr σ items) (xs : List (Vector UInt8 g.s)) (k : UInt64)
    (length : k.toNat = xs.length) (room : xs.length ≤ g.N - items.length)
    (regular : g.Regular σ.writePtr k) : g.Repr (g.pushed σ xs k) (items ++ xs) := by
  have bounded := repr.bounded
  have counts := repr.toCounts.pushed xs k (by omega) regular.1
  rw [length, ← List.length_append] at counts
  -- The cursor moves by `k` with the write counter; the window grows behind the old one.
  refine ⟨counts, ?_, ?_⟩
  · rw [Geometry.pushed, regular.2, List.length_append, Nat.add_mod, repr.cursor, ← Nat.add_mod,
      length, Nat.add_assoc]
  · rw [Geometry.pushed]
    dsimp only
    rw [put_congr σ.ring xs repr.cursor, List.length_append, window_put _ _ _ _ (by omega),
      repr.held]

/-- Reading messages that are there removes them. -/
theorem Repr.popped (repr : g.Repr σ items) (k : UInt64) (enough : k.toNat ≤ items.length)
    (regular : g.Regular σ.readPtr k) : g.Repr (g.popped σ k) (items.drop k.toNat) := by
  have counts := repr.toCounts.popped k enough regular.1
  rw [← List.length_drop] at counts
  -- The read counter moves towards the cursor; the window loses its first `k` records.
  refine ⟨counts, ?_, ?_⟩
  · rw [List.length_drop]
    calc σ.writePtr.toNat / g.s % g.N
      _ = (σ.readPtr.toNat / g.s + k.toNat + (items.length - k.toNat)) % g.N := by
        rw [repr.cursor, Nat.add_assoc, Nat.add_sub_cancel' enough]
      _ = ((σ.readPtr + k * .ofNat g.s).toNat / g.s + (items.length - k.toNat)) % g.N := by
        rw [Nat.add_mod, ← regular.2, ← Nat.add_mod]
  · rw [Geometry.popped]
    dsimp only
    rw [window_congr σ.ring _ regular.2, List.length_drop, ← drop_window _ _ _ _ enough, repr.held]

/-- A read that finds enough messages returns the first ones. -/
theorem Repr.read_accepts (repr : g.Repr σ items) (k : UInt64)
    (enough : k.toNat ≤ items.length) :
    (g.queue .kSynchronizedReadWrite).read σ true k =
      .ok (true, g.popped σ k, some (flat (items.take k.toNat))) := by
  rw [repr.toCounts.read_accepts k enough, ← take_window _ _ _ _ enough, repr.held]

/-! ## Whole calls -/

/-- A call that a caller can make: the buffer of a write exists, a read asks for at most the
capacity. -/
def Legal (g : Geometry) : Op (Vector UInt8 g.s) → Prop
  | .write xs => xs.length < 2 ^ 64
  | .read n => n ≤ g.N
  | .availableToRead | .availableToWrite => True

/-- The counter that the call moves, if it succeeds, stays regular. -/
def RegularFor (g : Geometry) (σ : Storage) (items : List (Vector UInt8 g.s)) :
    Op (Vector UInt8 g.s) → Prop
  | .write xs => xs.length ≤ g.N - items.length → g.Regular σ.writePtr (.ofNat xs.length)
  | .read n => n ≤ items.length → g.Regular σ.readPtr (.ofNat n)
  | .availableToRead | .availableToWrite => True

/-- The storage after one call on a queue that holds `items`. -/
def next (g : Geometry) (σ : Storage) (items : List (Vector UInt8 g.s)) :
    Op (Vector UInt8 g.s) → Storage
  | .write xs => if xs.length ≤ g.N - items.length then g.pushed σ xs (.ofNat xs.length) else σ
  | .read n => if n ≤ items.length then g.popped σ (.ofNat n) else σ
  | .availableToRead | .availableToWrite => σ

/-- Every call replies as the bounded FIFO does. -/
theorem Repr.exec (repr : g.Repr σ items) (op : Op (Vector UInt8 g.s)) (legal : g.Legal op) :
    (g.queue .kSynchronizedReadWrite).exec σ op =
      .ok (g.next σ items op, (step g.N items op).2.map flat) := by
  cases op with
  | write xs =>
    have length : (UInt64.ofNat xs.length).toNat = xs.length := UInt64.toNat_ofNat_of_lt' legal
    by_cases fits : xs.length ≤ g.N - items.length
    · simp only [Queue.exec, repr.write_accepts xs _ length fits, bind, Except.bind, pure,
        Except.pure, next, step, if_pos fits, Reply.map]
    · have full : g.N - items.length < (UInt64.ofNat xs.length).toNat := by omega
      simp only [Queue.exec, repr.write_refuses _ _ full, bind, Except.bind, pure, Except.pure,
        next, step, if_neg fits, Reply.map]
  | read n =>
    have count : (UInt64.ofNat n).toNat = n := toNat_messages legal
    by_cases enough : n ≤ items.length
    · have accepted := repr.read_accepts (.ofNat n) (by rw [count]; exact enough)
      rw [count] at accepted
      simp only [Queue.exec, accepted, bind, Except.bind, pure, Except.pure, next, step,
        if_pos enough, if_true, Reply.map, Option.map_some]
    · have refused := repr.read_refuses true (.ofNat n) (by rw [count]; exact legal)
        (by rw [count]; omega)
      simp only [Queue.exec, refused, bind, Except.bind, pure, Except.pure, next, step,
        if_neg enough, Bool.false_eq_true, if_false, Reply.map, Option.map_none]
  | availableToRead =>
    simp only [Queue.exec, repr.availableToRead, toNat_messages repr.bounded, bind, Except.bind,
      pure, Except.pure, next, step, Reply.map]
  | availableToWrite =>
    have free : (UInt64.ofNat (g.N - items.length)).toNat = g.N - items.length :=
      toNat_messages (Nat.sub_le _ _)
    simp only [Queue.exec, repr.availableToWrite, free, bind, Except.bind, pure, Except.pure, next,
      step, Reply.map]

/-- A sequence of calls replies as the bounded FIFO does if the calls after the first one do. -/
theorem Repr.execAll_cons (repr : g.Repr σ items) (op : Op (Vector UInt8 g.s))
    (legal : g.Legal op) (ops : List (Op (Vector UInt8 g.s)))
    (rest : (g.queue .kSynchronizedReadWrite).execAll (g.next σ items op) ops =
      .ok ((replies g.N (step g.N items op).1 ops).map (Reply.map flat))) :
    (g.queue .kSynchronizedReadWrite).execAll σ (op :: ops) =
      .ok ((replies g.N items (op :: ops)).map (Reply.map flat)) := by
  simp only [Queue.execAll, repr.exec op legal, rest, bind, Except.bind, pure, Except.pure,
    replies, List.map_cons]

theorem Repr.next (repr : g.Repr σ items) (op : Op (Vector UInt8 g.s)) (legal : g.Legal op)
    (regular : g.RegularFor σ items op) : g.Repr (g.next σ items op) (step g.N items op).1 := by
  cases op with
  | write xs =>
    simp only [Geometry.next, step]
    split
    next fits =>
      exact repr.pushed xs _ (UInt64.toNat_ofNat_of_lt' legal) fits (regular fits)
    next => exact repr
  | read n =>
    have count : (UInt64.ofNat n).toNat = n := toNat_messages legal
    simp only [Geometry.next, step]
    split
    next enough =>
      have popped := repr.popped (.ofNat n) (by rw [count]; exact enough) (regular enough)
      rwa [count] at popped
    next => exact repr
  | availableToRead => exact repr
  | availableToWrite => exact repr

/-- The counters as exact integers, as long as none of them has wrapped. -/
def Exact (g : Geometry) (σ : Storage) (items : List (Vector UInt8 g.s)) : Prop :=
  σ.readPtr.toNat + items.length * g.s = σ.writePtr.toNat

/-- Below `2^64` written bytes every call keeps the counters exact, hence regular. -/
theorem Repr.exact_next (repr : g.Repr σ items) (exact_ : g.Exact σ items)
    (op : Op (Vector UInt8 g.s)) (legal : g.Legal op)
    (total : σ.writePtr.toNat + accepted op (step g.N items op).2 * g.s < 2 ^ 64) :
    g.RegularFor σ items op ∧ g.Exact (g.next σ items op) (step g.N items op).1 ∧
      (g.next σ items op).writePtr.toNat =
        σ.writePtr.toNat + accepted op (step g.N items op).2 * g.s := by
  unfold Exact at exact_ ⊢
  -- Only an accepted write moves the write counter; a read moves the read counter up to it.
  cases op with
  | write xs =>
    have length : (UInt64.ofNat xs.length).toNat = xs.length := UInt64.toNat_ofNat_of_lt' legal
    simp only [RegularFor, Geometry.next, step] at total ⊢
    split
    next fits =>
      rw [if_pos fits] at total
      simp only [accepted] at total ⊢
      have small : σ.writePtr.toNat + (UInt64.ofNat xs.length).toNat * g.s < 2 ^ 64 := by
        rwa [length]
      have moved := g.toNat_advance_lt _ _ small
      refine ⟨fun _ => g.regular_of_lt _ _ repr.writeAligned small, ?_, ?_⟩
      · rw [Geometry.pushed]
        dsimp only
        rw [moved, length, List.length_append, Nat.add_mul]
        omega
      · rw [Geometry.pushed]
        dsimp only
        rw [moved, length]
    next full => exact ⟨fun fits => absurd fits full, exact_, by simp [accepted]⟩
  | read n =>
    have count : (UInt64.ofNat n).toNat = n := toNat_messages legal
    have written := σ.writePtr.toNat_lt
    simp only [RegularFor, Geometry.next, step, accepted, Nat.zero_mul, Nat.add_zero]
    split
    next enough =>
      have le : n * g.s ≤ items.length * g.s := Nat.mul_le_mul_right _ enough
      have small : σ.readPtr.toNat + (UInt64.ofNat n).toNat * g.s < 2 ^ 64 := by
        rw [count]
        omega
      have moved := g.toNat_advance_lt _ _ small
      refine ⟨fun _ => g.regular_of_lt _ _ repr.readAligned small, ?_, rfl⟩
      rw [Geometry.popped]
      dsimp only
      rw [moved, count, List.length_drop, Nat.sub_mul]
      omega
    next short => exact ⟨fun enough => absurd enough short, exact_, rfl⟩
  | availableToRead => exact ⟨trivial, exact_, by simp [Geometry.next, accepted]⟩
  | availableToWrite => exact ⟨trivial, exact_, by simp [Geometry.next, accepted]⟩

theorem Repr.execAll (repr : g.Repr σ items) (exact_ : g.Exact σ items)
    (ops : List (Op (Vector UInt8 g.s))) (legal : ∀ op ∈ ops, g.Legal op)
    (total : σ.writePtr.toNat + written ops (replies g.N items ops) * g.s < 2 ^ 64) :
    (g.queue .kSynchronizedReadWrite).execAll σ ops =
      .ok ((replies g.N items ops).map (Reply.map flat)) := by
  -- Induction on the calls; the bytes written so far are in the write counter.
  induction ops generalizing σ items with
  | nil => rfl
  | cons op ops ih =>
    have legal_op := legal op (by simp)
    simp only [replies, written, Nat.add_mul] at total
    obtain ⟨regular, exact_next, moved⟩ := repr.exact_next exact_ op legal_op (by omega)
    have rest := ih (repr.next op legal_op regular) exact_next
      (fun op member => legal op (by simp [member])) (by omega)
    exact repr.execAll_cons op legal_op ops rest

/-- From reset counters, with fewer than `2^64` bytes written in total, every call returns
exactly what the bounded FIFO of capacity `N` returns. -/
theorem execAll_refines_fifo (g : Geometry) (ring : Ring) (ops : List (Op (Vector UInt8 g.s)))
    (legal : ∀ op ∈ ops, g.Legal op)
    (total : written ops (replies g.N [] ops) * g.s < 2 ^ 64) :
    (g.queue .kSynchronizedReadWrite).execAll (.reset ring) ops =
      .ok ((replies g.N [] ops).map (Reply.map flat)) :=
  (g.repr_reset ring).execAll (by simp [Exact, Storage.reset]) ops legal
    (by simpa [Storage.reset] using total)

/-- Two messages of one byte through a ring of three. -/
theorem execAll_refines_fifo_three :
    (Geometry.queue ⟨1, 3, by decide, by decide, by decide⟩ .kSynchronizedReadWrite).execAll
      (s := 1) (.reset fun _ => 0)
      [.write [#v[7], #v[8]], .write [#v[1], #v[2]], .read 1, .availableToRead] =
    .ok [.written true, .written false, .read (some [7]), .count 1] :=
  execAll_refines_fifo ⟨1, 3, by decide, by decide, by decide⟩ (fun _ => 0)
    [.write [#v[7], #v[8]], .write [#v[1], #v[2]], .read 1, .availableToRead]
    (by simp [Legal]) (by decide)

end Geometry
end Fmq
