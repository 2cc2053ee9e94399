import Fmq.Properties.WrapAround

/-!
# Calls with any arguments a caller can have

A buffer is smaller than the address space, so the size of what `read` asks for is not reduced
modulo `2^64`, however large it is. The counters may wrap where the data size divides `2^64`.
-/
namespace Fmq

open BoundedFifo Memory

variable {g : Geometry} {σ : Storage} {items : List (Vector UInt8 g.s)} {total : Nat}
  {op : Op (Vector UInt8 g.s)}

/-- `beginRead` grants what is there, for every count whose bytes fit into a buffer. -/
theorem Geometry.Counts.beginRead_buffer {k : Nat} (counts : g.Counts σ k) {n : Nat}
    (buffer : n * g.s < 2 ^ 64) :
    (g.queue .kSynchronizedReadWrite).beginRead σ (.ofNat n) =
      .ok (if n ≤ k then (true, g.transaction (σ.readPtr.toNat / g.s) (.ofNat n), σ)
        else (false, .empty, σ)) := by
  have count : (UInt64.ofNat n).toNat = n :=
    UInt64.toNat_ofNat_of_lt' (Nat.lt_of_le_of_lt (Nat.le_mul_of_pos_right n g.s_pos) buffer)
  unfold Queue.beginRead
  rcases g.beginReadWith_cases .kSynchronizedReadWrite ⟨σ.writePtr, σ.readPtr⟩ (.ofNat n) with
    ⟨misaligned, _⟩ | ⟨_, _, far, _⟩ | ⟨_, _, _, short, eq⟩ | ⟨_, _, _, enough, eq⟩
  · exact absurd ⟨counts.writeAligned, counts.readAligned⟩ misaligned
  · exact absurd far counts.not_overflow
  · rw [count, Nat.mod_eq_of_lt buffer, counts.count] at short
    have less := Nat.lt_of_mul_lt_mul_right short
    rw [eq, if_neg (Nat.not_le.mpr less)]
    rfl
  · rw [count, Nat.mod_eq_of_lt buffer, counts.count] at enough
    rw [eq, if_pos (Nat.le_of_mul_le_mul_right enough g.s_pos)]
    rfl

theorem Callable.legal (callable : Callable op) :
    g.Legal op ∨ ∃ n, op = .read n ∧ g.N < n ∧ n * g.s < 2 ^ 64 := by
  cases op with
  | write xs => exact Or.inl callable
  | read n =>
    by_cases capacity : n ≤ g.N
    · exact Or.inl capacity
    · exact Or.inr ⟨n, rfl, Nat.lt_of_not_le capacity, callable⟩
  | availableToRead => exact Or.inl trivial
  | availableToWrite => exact Or.inl trivial

/-- Nothing happens when more messages are asked for than the ring has. -/
theorem step_large (repr : g.Repr σ items) {n : Nat} (large : g.N < n) :
    step g.N items (.read n) = (items, .read none) ∧ g.next σ items (.read n) = σ := by
  have short : ¬ n ≤ items.length := by
    have bounded := repr.bounded
    omega
  exact ⟨if_neg short, if_neg short⟩

/-- One call in the terms of the bounded FIFO. -/
theorem exec_callable (repr : g.Repr σ items) (callable : Callable op) :
    (g.queue .kSynchronizedReadWrite).exec σ op =
      .ok (g.next σ items op, (step g.N items op).2.map flat) := by
  rcases callable.legal with legal | ⟨n, rfl, large, buffer⟩
  · exact repr.exec op legal
  · obtain ⟨step_eq, next_eq⟩ := step_large repr large
    have begun := repr.toCounts.beginRead_buffer buffer
    rw [if_neg (by have bounded := repr.bounded; omega)] at begun
    rw [step_eq, next_eq]
    simp only [Queue.exec, Queue.read_refused true begun, bind, Except.bind, pure, Except.pure,
      Bool.false_eq_true, if_false]
    rfl

/-! ## The counters over a run -/

/-- Below `2^64` the counters are exact, and with a data size that divides `2^64` they need not
be. -/
def Counting (g : Geometry) (σ : Storage) (items : List (Vector UInt8 g.s)) (total : Nat) : Prop :=
  g.N * g.s ∣ 2 ^ 64 ∨ g.Exact σ items ∧ σ.writePtr.toNat ≤ total * g.s

/-- What a call leaves behind. -/
theorem Counting.call (counting : Counting g σ items total) (repr : g.Repr σ items)
    (callable : Callable op) (bound : g.N * g.s ∣ 2 ^ 64 ∨
      (total + accepted op (step g.N items op).2) * g.s < 2 ^ 64) :
    g.Repr (g.next σ items op) (step g.N items op).1 ∧
      Counting g (g.next σ items op) (step g.N items op).1
        (total + accepted op (step g.N items op).2) := by
  rcases callable.legal with legal | ⟨n, rfl, large, buffer⟩
  · by_cases divides : g.N * g.s ∣ 2 ^ 64
    · -- The positions of all aligned counters are regular.
      have regular : g.RegularFor σ items op := by
        cases op with
        | write xs => exact fun _ => g.regular_of_dvd divides _ _ repr.writeAligned
        | read n => exact fun _ => g.regular_of_dvd divides _ _ repr.readAligned
        | availableToRead => trivial
        | availableToWrite => trivial
      exact ⟨repr.next op legal regular, Or.inl divides⟩
    · obtain ⟨exact_, least⟩ := counting.resolve_left divides
      have small := bound.resolve_left divides
      rw [Nat.add_mul] at small
      obtain ⟨regular, exact_next, moved⟩ := repr.exact_next exact_ op legal (by omega)
      refine ⟨repr.next op legal regular, Or.inr ⟨exact_next, ?_⟩⟩
      rw [moved, Nat.add_mul]
      omega
  · obtain ⟨step_eq, next_eq⟩ := step_large repr large
    rw [step_eq, next_eq]
    exact ⟨repr, counting⟩

end Fmq
