import Fmq.Properties.Counters

/-!
# A read counter that may lag behind

The counters of an unsynchronized queue, as exact integers that have not wrapped: the writer
does not wait, so the read counter may be any distance behind the write counter.
-/
namespace Fmq.Geometry

open Memory RecordRing

variable (g : Geometry)

/-- The counters are at the stream positions `p` and `w`. -/
structure Behind (σ : Storage) (p w : Nat) : Prop where
  readPtr : σ.readPtr.toNat = p * g.s
  writePtr : σ.writePtr.toNat = w * g.s
  ordered : p ≤ w

/-- The storage after the reader skipped everything written so far. -/
def skipped (σ : Storage) : Storage := ⟨σ.ring, σ.writePtr, σ.writePtr⟩

variable {g} {σ : Storage} {p w : Nat}

theorem Behind.distance (behind : g.Behind σ p w) :
    (σ.writePtr - σ.readPtr).toNat = (w - p) * g.s := by
  have le : σ.readPtr ≤ σ.writePtr := by
    rw [UInt64.le_iff_toNat_le, behind.readPtr, behind.writePtr]
    exact Nat.mul_le_mul_right _ behind.ordered
  rw [UInt64.toNat_sub_of_le _ _ le, behind.writePtr, behind.readPtr, Nat.sub_mul]

theorem Behind.readAligned (behind : g.Behind σ p w) : g.s ∣ σ.readPtr.toNat := by
  rw [behind.readPtr]
  exact Nat.dvd_mul_left _ _

theorem Behind.writeAligned (behind : g.Behind σ p w) : g.s ∣ σ.writePtr.toNat := by
  rw [behind.writePtr]
  exact Nat.dvd_mul_left _ _

theorem Behind.readPosition (behind : g.Behind σ p w) : σ.readPtr.toNat / g.s = p := by
  rw [behind.readPtr, Nat.mul_div_cancel _ g.s_pos]

theorem Behind.writePosition (behind : g.Behind σ p w) : σ.writePtr.toNat / g.s = w := by
  rw [behind.writePtr, Nat.mul_div_cancel _ g.s_pos]

/-- A reader that has not been lapped sees the counts of a synchronized queue. -/
theorem Behind.counts (behind : g.Behind σ p w) (near : w ≤ p + g.N) : g.Counts σ (w - p) where
  readAligned := behind.readAligned
  writeAligned := behind.writeAligned
  count := behind.distance
  bounded := by omega

theorem Behind.overflow (behind : g.Behind σ p w) :
    g.Overflow ⟨σ.writePtr, σ.readPtr⟩ ↔ g.N < w - p := by
  unfold Overflow
  rw [behind.distance]
  exact Nat.mul_lt_mul_right g.s_pos

/-- The reader takes `k` messages that are there. -/
theorem Behind.popped (behind : g.Behind σ p w) (k : UInt64) (enough : p + k.toNat ≤ w) :
    g.Behind (g.popped σ k) (p + k.toNat) w where
  readPtr := by
    have written := σ.writePtr.toNat_lt
    have below := Nat.mul_le_mul_right g.s enough
    rw [← behind.writePtr, Nat.add_mul] at below
    rw [Geometry.popped, g.toNat_advance_lt _ _ (by rw [behind.readPtr]; omega), behind.readPtr,
      Nat.add_mul]
  writePtr := behind.writePtr
  ordered := enough

theorem Behind.skip (behind : g.Behind σ p w) : g.Behind (skipped σ) w w :=
  ⟨behind.writePtr, behind.writePtr, Nat.le_refl _⟩

theorem Behind.beginRead (behind : g.Behind σ p w) (flavor : MQFlavor) (k : UInt64)
    (fits : k.toNat * g.s < 2 ^ 64) :
    (g.queue flavor).beginRead σ k =
      .ok (if g.N < w - p then (false, .empty, skipped σ)
        else if p + k.toNat ≤ w then (true, g.transaction p k, σ)
        else (false, .empty, σ)) := by
  have bytes : k.toNat * g.s % 2 ^ 64 = k.toNat * g.s := Nat.mod_eq_of_lt fits
  have ordered := behind.ordered
  unfold Queue.beginRead
  rcases g.beginReadWith_cases flavor ⟨σ.writePtr, σ.readPtr⟩ k with
    ⟨misaligned, _⟩ | ⟨_, _, far, eq⟩ | ⟨_, _, small, short, eq⟩ | ⟨_, _, small, enough, eq⟩
  · -- The counters are aligned, so the overflow test and the comparison with the size remain.
    exact absurd ⟨behind.writeAligned, behind.readAligned⟩ misaligned
  · rw [behind.overflow] at far
    rw [eq, if_pos far]
    rfl
  · rw [behind.overflow] at small
    rw [bytes, behind.distance] at short
    have less := Nat.lt_of_mul_lt_mul_right short
    rw [eq, if_neg small, if_neg (by omega)]
    rfl
  · rw [behind.overflow] at small
    rw [bytes, behind.distance] at enough
    have le := Nat.le_of_mul_le_mul_right enough g.s_pos
    rw [eq, if_neg small, if_pos (by omega), behind.readPosition]
    rfl

theorem Behind.commitRead (behind : g.Behind σ p w) (flavor : MQFlavor) (k : UInt64) :
    (g.queue flavor).commitRead σ k =
      if g.N < w - p then (false, skipped σ) else (true, g.popped σ k) := by
  -- The test in bytes is a test of the distance in messages.
  have test : σ.writePtr - σ.readPtr > (g.queue flavor).getSize ↔ g.N < w - p := by
    rw [gt_iff_lt, UInt64.lt_iff_toNat_lt, toNat_getSize]
    exact behind.overflow
  unfold Queue.commitRead
  by_cases far : g.N < w - p
  · rw [if_pos (test.mpr far), if_pos far]
    rfl
  · rw [if_neg (fun large => far (test.mp large)), if_neg far]
    rfl

/-- A whole `read`: it skips after an overflow, and otherwise takes the messages if they are
there. -/
theorem Behind.read (behind : g.Behind σ p w) (flavor : MQFlavor) (k : UInt64)
    (fits : k.toNat * g.s < 2 ^ 64) :
    (g.queue flavor).read σ true k =
      .ok (if g.N < w - p then (false, skipped σ, none)
        else if p + k.toNat ≤ w then
          (true, g.popped σ k, some (flat (window g.s g.N σ.ring p k.toNat)))
        else (false, σ, none)) := by
  have begun := behind.beginRead flavor k fits
  have committed := behind.commitRead flavor k
  -- Nothing happens between the parts of a whole `read`, so its two overflow tests agree.
  by_cases far : g.N < w - p
  · rw [if_pos far] at begun ⊢
    exact Queue.read_refused true begun
  · rw [if_neg far] at begun committed ⊢
    by_cases enough : p + k.toNat ≤ w
    · -- A reader that was not lapped has at most `N` messages before it.
      have capacity : k.toNat ≤ g.N := by omega
      rw [if_pos enough] at begun ⊢
      rw [Queue.read_granted begun (g.copyFrom_whole flavor σ.ring p capacity), committed]
    · rw [if_neg enough] at begun ⊢
      exact Queue.read_refused true begun

variable (g)

theorem refusesWrite_unsynchronized (loads : BeginWriteLoads) (k : UInt64) :
    g.RefusesWrite .kUnsynchronizedWrite loads k ↔ g.N < k.toNat := by
  simp [RefusesWrite]

/-- The writer of an unsynchronized queue does not look at any read counter. -/
theorem beginWrite_unsynchronized (σ : Storage) (k : UInt64)
    (aligned : g.s ∣ σ.writePtr.toNat) :
    (g.queue .kUnsynchronizedWrite).beginWrite σ k .empty =
      .ok (if k.toNat ≤ g.N then
        (true, g.transaction (σ.writePtr.toNat / g.s) k) else (false, .empty)) := by
  unfold Queue.beginWrite
  rcases g.beginWriteWith_cases .kUnsynchronizedWrite ⟨σ.writePtr, σ.readPtr, σ.writePtr⟩ k
    .empty with ⟨refuses, eq⟩ | ⟨_, misaligned, _⟩ | ⟨accepts, _, eq⟩
  · rw [g.refusesWrite_unsynchronized] at refuses
    rw [eq, if_neg (by omega)]
  · exact absurd aligned misaligned
  · rw [g.refusesWrite_unsynchronized] at accepts
    rw [eq, if_pos (by omega)]

theorem write_unsynchronized (σ : Storage) (xs : List (Vector UInt8 g.s)) (k : UInt64)
    (length : k.toNat = xs.length) (aligned : g.s ∣ σ.writePtr.toNat) :
    (g.queue .kUnsynchronizedWrite).write σ (some (flat xs)) k =
      .ok (if xs.length ≤ g.N then (true, g.pushed σ xs k) else (false, σ)) := by
  have begun := g.beginWrite_unsynchronized σ k aligned
  rw [length] at begun
  by_cases fits : xs.length ≤ g.N
  · have copied := g.copyTo_whole .kUnsynchronizedWrite σ.ring (σ.writePtr.toNat / g.s) length fits
    rw [if_pos fits] at begun ⊢
    rw [Queue.write_granted begun copied]
    simp only [Queue.commitWrite, queue_sizeofT, pushed]
  · rw [if_neg fits] at begun ⊢
    exact Queue.write_refused _ begun

end Fmq.Geometry
