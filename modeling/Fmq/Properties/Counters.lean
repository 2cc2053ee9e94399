import Fmq.Properties.Copies

/-!
# Aligned counters of the synchronized queue

As long as both counters are multiples of the message size and their distance is `n` messages
with `n ≤ N`, the calls succeed exactly when there is space or data. Nothing here depends on
the contents of the ring or on the absolute values of the counters.
-/
namespace Fmq

open Cyclic Memory RecordRing

namespace Geometry

variable (g : Geometry)

/-- The counters are `n` messages apart, modulo `2^64`. -/
structure Apart (σ : Storage) (n : Nat) : Prop where
  count : (σ.writePtr - σ.readPtr).toNat = n * g.s
  bounded : n ≤ g.N

/-- Both counters are aligned and `n` messages apart. -/
structure Counts (σ : Storage) (n : Nat) : Prop extends g.Apart σ n where
  readAligned : g.s ∣ σ.readPtr.toNat
  writeAligned : g.s ∣ σ.writePtr.toNat

theorem toNat_advance (ptr k : UInt64) :
    (ptr + k * .ofNat g.s).toNat = (ptr.toNat + k.toNat * g.s) % 2 ^ 64 := by
  rw [UInt64.toNat_add, UInt64.toNat_mul, UInt64.toNat_ofNat_of_lt' g.s_lt, Nat.add_mod_mod]

theorem toNat_advance_lt (ptr k : UInt64) (small : ptr.toNat + k.toNat * g.s < 2 ^ 64) :
    (ptr + k * .ofNat g.s).toNat = ptr.toNat + k.toNat * g.s := by
  rw [toNat_advance, Nat.mod_eq_of_lt small]

/-- A commit at stream position `w` that does not wrap. -/
theorem toNat_commitWrite (flavor : MQFlavor) (σ : Storage) {w : Nat} (k : UInt64)
    (position : σ.writePtr.toNat = w * g.s) (total : (w + k.toNat) * g.s < 2 ^ 64) :
    ((g.queue flavor).commitWrite σ k).writePtr.toNat = (w + k.toNat) * g.s := by
  have small : σ.writePtr.toNat + k.toNat * g.s < 2 ^ 64 := by rwa [position, ← Nat.add_mul]
  rw [Queue.commitWrite, queue_sizeofT, g.toNat_advance_lt _ _ small, position, Nat.add_mul]

theorem toNat_bytes {k : UInt64} (capacity : k.toNat ≤ g.N) :
    (k * .ofNat g.s).toNat = k.toNat * g.s :=
  g.toNat_mul_sizeofT .kSynchronizedReadWrite k capacity

/-- The storage after `xs` was written at the write counter. -/
def pushed (σ : Storage) (xs : List (Vector UInt8 g.s)) (k : UInt64) : Storage :=
  ⟨put g.s g.N σ.ring (σ.writePtr.toNat / g.s) xs, σ.readPtr, σ.writePtr + k * .ofNat g.s⟩

/-- The storage after `k` messages were read. -/
def popped (σ : Storage) (k : UInt64) : Storage :=
  ⟨σ.ring, σ.readPtr + k * .ofNat g.s, σ.writePtr⟩

variable {g} {σ : Storage} {n : Nat}

theorem Apart.availableToReadBytes (apart : g.Apart σ n) :
    (Queue.availableToReadBytes σ.writePtr σ.readPtr).toNat = n * g.s := apart.count

theorem Apart.availableToWriteBytes (apart : g.Apart σ n) :
    ((g.queue .kSynchronizedReadWrite).availableToWriteBytes σ.writePtr σ.readPtr).toNat =
      (g.N - n) * g.s := by
  -- The subtraction from the data size does not wrap.
  have le : σ.writePtr - σ.readPtr ≤ (g.queue .kSynchronizedReadWrite).getSize := by
    rw [UInt64.le_iff_toNat_le, apart.count, toNat_getSize]
    exact Nat.mul_le_mul_right _ apart.bounded
  unfold Queue.availableToWriteBytes Queue.availableToReadBytes
  rw [UInt64.toNat_sub_of_le _ _ le, apart.count, toNat_getSize, Nat.sub_mul]

theorem toNat_messages {n : Nat} (capacity : n ≤ g.N) : (UInt64.ofNat n).toNat = n :=
  UInt64.toNat_ofNat_of_lt' (Nat.lt_of_le_of_lt capacity g.N_lt)

theorem Apart.availableToRead (apart : g.Apart σ n) :
    (g.queue .kSynchronizedReadWrite).availableToRead σ.writePtr σ.readPtr = .ok (.ofNat n) := by
  rw [Queue.availableToRead, div_sizeofT]
  refine congrArg Except.ok (UInt64.toNat_inj.mp ?_)
  rw [UInt64.toNat_div, apart.availableToReadBytes, toNat_sizeofT, Nat.mul_div_cancel _ g.s_pos,
    toNat_messages apart.bounded]

theorem Apart.availableToWrite (apart : g.Apart σ n) :
    (g.queue .kSynchronizedReadWrite).availableToWrite σ.writePtr σ.readPtr =
      .ok (.ofNat (g.N - n)) := by
  rw [Queue.availableToWrite, div_sizeofT]
  refine congrArg Except.ok (UInt64.toNat_inj.mp ?_)
  rw [UInt64.toNat_div, apart.availableToWriteBytes, toNat_sizeofT, Nat.mul_div_cancel _ g.s_pos,
    toNat_messages (Nat.sub_le _ _)]

theorem Apart.refusesWrite (apart : g.Apart σ n) (k : UInt64) :
    g.RefusesWrite .kSynchronizedReadWrite ⟨σ.writePtr, σ.readPtr, σ.writePtr⟩ k ↔
      g.N - n < k.toNat := by
  unfold RefusesWrite
  simp only [apart.availableToWriteBytes, Nat.mul_div_cancel _ g.s_pos, true_and]
  constructor
  · rintro (less | more)
    · exact less
    · exact Nat.lt_of_le_of_lt (Nat.sub_le _ _) more
  · exact Or.inl

theorem Apart.not_overflow (apart : g.Apart σ n) : ¬ g.Overflow ⟨σ.writePtr, σ.readPtr⟩ := by
  unfold Overflow
  rw [apart.count]
  exact Nat.not_lt.mpr (Nat.mul_le_mul_right _ apart.bounded)

theorem Counts.beginWrite (counts : g.Counts σ n) (k : UInt64) :
    (g.queue .kSynchronizedReadWrite).beginWrite σ k .empty =
      .ok (if k.toNat ≤ g.N - n then
        (true, g.transaction (σ.writePtr.toNat / g.s) k) else (false, .empty)) := by
  unfold Queue.beginWrite
  rcases g.beginWriteWith_cases .kSynchronizedReadWrite ⟨σ.writePtr, σ.readPtr, σ.writePtr⟩ k
    .empty with ⟨refuses, eq⟩ | ⟨_, misaligned, _⟩ | ⟨accepts, _, eq⟩
  · rw [counts.refusesWrite] at refuses
    rw [eq, if_neg (by omega)]
  · exact absurd counts.writeAligned misaligned
  · rw [counts.refusesWrite] at accepts
    rw [eq, if_pos (by omega)]

theorem Counts.beginRead (counts : g.Counts σ n) (k : UInt64) (capacity : k.toNat ≤ g.N) :
    (g.queue .kSynchronizedReadWrite).beginRead σ k =
      .ok (if k.toNat ≤ n then
        (true, g.transaction (σ.readPtr.toNat / g.s) k, σ) else (false, .empty, σ)) := by
  have bytes : k.toNat * g.s % 2 ^ 64 = k.toNat * g.s := Nat.mod_eq_of_lt (g.bytes_lt capacity)
  unfold Queue.beginRead
  rcases g.beginReadWith_cases .kSynchronizedReadWrite ⟨σ.writePtr, σ.readPtr⟩ k with
    ⟨misaligned, _⟩ | ⟨_, _, far, _⟩ | ⟨_, _, _, short, eq⟩ | ⟨_, _, _, enough, eq⟩
  · -- Aligned counters at most a ring apart leave only the comparison with the size.
    exact absurd ⟨counts.writeAligned, counts.readAligned⟩ misaligned
  · exact absurd far counts.not_overflow
  · rw [bytes, counts.count] at short
    have less := Nat.lt_of_mul_lt_mul_right short
    rw [eq, if_neg (by omega)]
    rfl
  · rw [bytes, counts.count] at enough
    have le := Nat.le_of_mul_le_mul_right enough g.s_pos
    rw [eq, if_pos le]
    rfl

/-- `commitRead` never finds an overflow. -/
theorem Apart.commitRead (apart : g.Apart σ n) (k : UInt64) :
    (g.queue .kSynchronizedReadWrite).commitRead σ k = (true, g.popped σ k) := by
  have small : ¬ σ.writePtr - σ.readPtr > (g.queue .kSynchronizedReadWrite).getSize := by
    rw [gt_iff_lt, UInt64.lt_iff_toNat_lt, toNat_getSize]
    exact apart.not_overflow
  unfold Queue.commitRead
  rw [if_neg small]
  rfl

/-- The distance after a commit of `k` messages that fit. -/
theorem Apart.distance_write (apart : g.Apart σ n) (k : UInt64) (room : k.toNat ≤ g.N - n) :
    (σ.writePtr + k * .ofNat g.s - σ.readPtr).toNat = (n + k.toNat) * g.s := by
  have bounded := apart.bounded
  have total := g.bytes_lt (show n + k.toNat ≤ g.N by omega)
  have moved : σ.writePtr + k * .ofNat g.s - σ.readPtr =
      (σ.writePtr - σ.readPtr) + k * .ofNat g.s := by grind
  rw [Nat.add_mul] at total
  -- Only the distance is reduced to exact integers; the counters themselves may wrap.
  rw [moved, toNat_advance, apart.count, Nat.add_mul, Nat.mod_eq_of_lt total]

/-- The distance after a commit of `k` messages that were there. -/
theorem Apart.distance_read (apart : g.Apart σ n) (k : UInt64) (enough : k.toNat ≤ n) :
    (σ.writePtr - (σ.readPtr + k * .ofNat g.s)).toNat = (n - k.toNat) * g.s := by
  have bytes := g.toNat_bytes (Nat.le_trans enough apart.bounded)
  have moved : σ.writePtr - (σ.readPtr + k * .ofNat g.s) =
      (σ.writePtr - σ.readPtr) - k * .ofNat g.s := by grind
  have below : k * .ofNat g.s ≤ σ.writePtr - σ.readPtr := by
    rw [UInt64.le_iff_toNat_le, apart.count, bytes]
    exact Nat.mul_le_mul_right _ enough
  rw [moved, UInt64.toNat_sub_of_le _ _ below, apart.count, bytes, Nat.sub_mul]

theorem Counts.write_accepts (counts : g.Counts σ n) (xs : List (Vector UInt8 g.s)) (k : UInt64)
    (length : k.toNat = xs.length) (room : xs.length ≤ g.N - n) :
    (g.queue .kSynchronizedReadWrite).write σ (some (flat xs)) k =
      .ok (true, g.pushed σ xs k) := by
  have begun := counts.beginWrite k
  rw [if_pos (by omega)] at begun
  have copied := g.copyTo_whole .kSynchronizedReadWrite σ.ring (σ.writePtr.toNat / g.s) length
    (by omega)
  rw [Queue.write_granted begun copied]
  simp only [Queue.commitWrite, queue_sizeofT, pushed]

/-- A write that does not fit changes nothing. -/
theorem Counts.write_refuses (counts : g.Counts σ n) (data : Option (List UInt8)) (k : UInt64)
    (full : g.N - n < k.toNat) :
    (g.queue .kSynchronizedReadWrite).write σ data k = .ok (false, σ) := by
  have begun := counts.beginWrite k
  rw [if_neg (by omega)] at begun
  exact Queue.write_refused data begun

theorem Counts.read_accepts (counts : g.Counts σ n) (k : UInt64) (enough : k.toNat ≤ n) :
    (g.queue .kSynchronizedReadWrite).read σ true k =
      .ok (true, g.popped σ k,
        some (flat (window g.s g.N σ.ring (σ.readPtr.toNat / g.s) k.toNat))) := by
  have capacity : k.toNat ≤ g.N := Nat.le_trans enough counts.bounded
  have begun := counts.beginRead k capacity
  rw [if_pos enough] at begun
  have copied := g.copyFrom_whole .kSynchronizedReadWrite σ.ring (σ.readPtr.toNat / g.s) capacity
  rw [Queue.read_granted begun copied, counts.commitRead]

/-- A read that does not find enough messages changes nothing. -/
theorem Counts.read_refuses (counts : g.Counts σ n) (hasData : Bool) (k : UInt64)
    (capacity : k.toNat ≤ g.N) (short : n < k.toNat) :
    (g.queue .kSynchronizedReadWrite).read σ hasData k = .ok (false, σ, none) := by
  have begun := counts.beginRead k capacity
  rw [if_neg (by omega)] at begun
  exact Queue.read_refused hasData begun

/-- Writing moves the counters apart. -/
theorem Apart.commitWrite (apart : g.Apart σ n) (k : UInt64) (room : k.toNat ≤ g.N - n) :
    g.Apart ((g.queue .kSynchronizedReadWrite).commitWrite σ k) (n + k.toNat) where
  count := apart.distance_write k room
  bounded := by
    have bounded := apart.bounded
    omega

theorem Apart.popped (apart : g.Apart σ n) (k : UInt64) (enough : k.toNat ≤ n) :
    g.Apart (g.popped σ k) (n - k.toNat) where
  count := apart.distance_read k enough
  bounded := Nat.le_trans (Nat.sub_le _ _) apart.bounded

theorem Counts.pushed (counts : g.Counts σ n) (xs : List (Vector UInt8 g.s)) (k : UInt64)
    (room : k.toNat ≤ g.N - n) (aligned : g.s ∣ (σ.writePtr + k * .ofNat g.s).toNat) :
    g.Counts (g.pushed σ xs k) (n + k.toNat) where
  readAligned := counts.readAligned
  writeAligned := aligned
  count := counts.distance_write k room
  bounded := (counts.toApart.commitWrite k room).bounded

theorem Counts.popped (counts : g.Counts σ n) (k : UInt64) (enough : k.toNat ≤ n)
    (aligned : g.s ∣ (σ.readPtr + k * .ofNat g.s).toNat) :
    g.Counts (g.popped σ k) (n - k.toNat) where
  toApart := counts.toApart.popped k enough
  readAligned := aligned
  writeAligned := counts.writeAligned

end Geometry
end Fmq
