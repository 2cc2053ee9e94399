import Fmq.Lib.Cyclic
import Fmq.Model.Geometry

/-!
# Ring geometry and the regions of a transaction

For a ring of `N` messages of `s` bytes, what `beginWrite` and `beginRead` return is written
out once, for arbitrary loads of the counters; everything later cites these equations.
-/
namespace Fmq

open Cyclic

/-- What `beginRead` returns on any queue: a refusal, a new read counter, or a transaction. -/
theorem Queue.beginReadWith_ok {q : Queue} {loads : BeginReadLoads} {n : UInt64} {r : BeginRead}
    (begun : q.beginReadWith loads n = .ok r) :
    r = ⟨false, .empty, none⟩ ∨
    (q.getSize < loads.writePtr - loads.readPtr ∧ r = ⟨false, .empty, some loads.writePtr⟩) ∨
    (loads.writePtr - loads.readPtr ≤ q.getSize ∧
      n * q.sizeofT ≤ loads.writePtr - loads.readPtr ∧ ∃ tx, r = ⟨true, tx, none⟩) := by
  unfold beginReadWith at begun
  obtain ⟨restWrite, -, begun⟩ := bind_eq_ok.mp begun
  split at begun
  · cases begun
    exact Or.inl rfl
  obtain ⟨restRead, -, begun⟩ := bind_eq_ok.mp begun
  split at begun
  · cases begun
    exact Or.inl rfl
  split at begun
  next far =>
    cases begun
    exact Or.inr (Or.inl ⟨far, rfl⟩)
  next near =>
    dsimp only at begun
    split at begun
    · cases begun
      exact Or.inl rfl
    next enough =>
      -- Only this branch builds regions, and it returns `true`.
      obtain ⟨tx, -, granted⟩ := bind_eq_ok.mp begun
      cases granted
      exact Or.inr (Or.inr ⟨UInt64.not_lt.mp near, UInt64.not_lt.mp enough, tx, rfl⟩)

namespace Geometry

variable (g : Geometry)

theorem s_lt : g.s < 2 ^ 64 := Nat.lt_of_le_of_lt (Nat.le_mul_of_pos_left _ g.N_pos) g.fits

theorem N_lt : g.N < 2 ^ 64 := Nat.lt_of_le_of_lt (Nat.le_mul_of_pos_right _ g.s_pos) g.fits

@[simp] theorem toNat_sizeofT (flavor : MQFlavor) : (g.queue flavor).sizeofT.toNat = g.s :=
  UInt64.toNat_ofNat_of_lt' g.s_lt

@[simp] theorem toNat_getQuantum (flavor : MQFlavor) : (g.queue flavor).getQuantum.toNat = g.s :=
  UInt64.toNat_ofNat_of_lt' g.s_lt

@[simp] theorem toNat_getSize (flavor : MQFlavor) : (g.queue flavor).getSize.toNat = g.N * g.s :=
  UInt64.toNat_ofNat_of_lt' g.fits

theorem queue_sizeofT (flavor : MQFlavor) : (g.queue flavor).sizeofT = .ofNat g.s := rfl

@[simp] theorem queue_flavor (flavor : MQFlavor) : (g.queue flavor).flavor = flavor := rfl

theorem sizeofT_ne_zero (flavor : MQFlavor) : (g.queue flavor).sizeofT ≠ 0 := by
  intro zero
  have eq := congrArg UInt64.toNat zero
  have pos := g.s_pos
  rw [toNat_sizeofT, UInt64.toNat_zero] at eq
  omega

theorem getQuantum_ne_zero (flavor : MQFlavor) : (g.queue flavor).getQuantum ≠ 0 :=
  g.sizeofT_ne_zero flavor

theorem getSize_ne_zero (flavor : MQFlavor) : (g.queue flavor).getSize ≠ 0 := by
  intro zero
  have eq := congrArg UInt64.toNat zero
  have pos := Nat.mul_pos g.N_pos g.s_pos
  rw [toNat_getSize, UInt64.toNat_zero] at eq
  omega

theorem div_sizeofT (flavor : MQFlavor) (a : UInt64) :
    div a (g.queue flavor).sizeofT = .ok (a / (g.queue flavor).sizeofT) :=
  div_ok a (g.sizeofT_ne_zero flavor)

theorem mod_sizeofT (flavor : MQFlavor) (a : UInt64) :
    mod a (g.queue flavor).sizeofT = .ok (a % (g.queue flavor).sizeofT) :=
  mod_ok a (g.sizeofT_ne_zero flavor)

theorem mod_sizeofT_ne_zero_iff (flavor : MQFlavor) (ptr : UInt64) :
    ptr % (g.queue flavor).sizeofT ≠ 0 ↔ ¬ g.s ∣ ptr.toNat := by
  rw [ne_eq, ← UInt64.toNat_inj, UInt64.toNat_mod, toNat_sizeofT, UInt64.toNat_zero,
    Nat.dvd_iff_mod_eq_zero]

theorem mod_getSize (flavor : MQFlavor) (a : UInt64) :
    mod a (g.queue flavor).getSize = .ok (a % (g.queue flavor).getSize) :=
  mod_ok a (g.getSize_ne_zero flavor)

theorem getQuantumCount_eq (flavor : MQFlavor) :
    (g.queue flavor).getQuantumCount = .ok (.ofNat g.N) := by
  have count : (g.queue flavor).getSize / (g.queue flavor).getQuantum = .ofNat g.N := by
    rw [← UInt64.toNat_inj, UInt64.toNat_div, toNat_getSize, toNat_getQuantum,
      UInt64.toNat_ofNat_of_lt' g.N_lt, Nat.mul_div_cancel _ g.s_pos]
  unfold Queue.getQuantumCount
  rw [div_ok _ (g.getQuantum_ne_zero flavor), count]

/-- The regions of the `n` slots from stream position `p` on. -/
def transaction (p : Nat) (n : UInt64) : MemTransaction :=
  let contiguous := g.N - p % g.N
  if contiguous < n.toNat then
    ⟨⟨⟨.ring, slot g.s g.N p⟩, .ofNat contiguous⟩, ⟨⟨.ring, 0⟩, n - .ofNat contiguous⟩⟩
  else
    ⟨⟨⟨.ring, slot g.s g.N p⟩, n⟩, .empty⟩

theorem transactionFrom_eq (flavor : MQFlavor) (ptr n : UInt64) (aligned : g.s ∣ ptr.toNat) :
    (g.queue flavor).transactionFrom ptr n = .ok (g.transaction (ptr.toNat / g.s) n) := by
  obtain ⟨p, position⟩ := aligned
  have quotient : ptr.toNat / g.s = p := by rw [position, Nat.mul_div_cancel_left _ g.s_pos]
  have bound := Nat.mod_lt p g.N_pos
  have offset : (ptr % (g.queue flavor).getSize).toNat = p % g.N * g.s := by
    rw [UInt64.toNat_mod, toNat_getSize, position, Nat.mul_comm g.s p, Nat.mul_mod_mul_right]
  -- The rest of the ring behind an aligned offset is a whole number of slots.
  have contiguous : ((g.queue flavor).getSize - ptr % (g.queue flavor).getSize) /
      (g.queue flavor).sizeofT = .ofNat (g.N - p % g.N) := by
    have below : ptr % (g.queue flavor).getSize ≤ (g.queue flavor).getSize := by
      rw [UInt64.le_iff_toNat_le, offset, toNat_getSize]
      exact Nat.mul_le_mul_right _ (Nat.le_of_lt bound)
    have small : g.N - p % g.N < 2 ^ 64 := Nat.lt_of_le_of_lt (Nat.sub_le _ _) g.N_lt
    rw [← UInt64.toNat_inj, UInt64.toNat_div, UInt64.toNat_sub_of_le _ _ below, offset,
      toNat_getSize, toNat_sizeofT, ← Nat.sub_mul, Nat.mul_div_cancel _ g.s_pos,
      UInt64.toNat_ofNat_of_lt' small]
  have contiguous_lt : (.ofNat (g.N - p % g.N) : UInt64) < n ↔ g.N - p % g.N < n.toNat := by
    have small : g.N - p % g.N < 2 ^ 64 := Nat.lt_of_le_of_lt (Nat.sub_le _ _) g.N_lt
    rw [UInt64.lt_iff_toNat_lt, UInt64.toNat_ofNat_of_lt' small]
  unfold Queue.transactionFrom transaction
  rw [mod_getSize, quotient]
  simp only [bind, Except.bind, div_sizeofT, contiguous, contiguous_lt, offset, slot]
  split <;> rfl

/-- The condition under which `beginWrite` refuses, in exact integers. -/
def RefusesWrite (flavor : MQFlavor) (loads : BeginWriteLoads) (n : UInt64) : Prop :=
  (flavor = .kSynchronizedReadWrite ∧
    ((g.queue flavor).availableToWriteBytes loads.availableWritePtr
      loads.availableReadPtr).toNat / g.s < n.toNat) ∨ g.N < n.toNat

theorem refusesWrite_iff (flavor : MQFlavor) (loads : BeginWriteLoads) (n : UInt64) :
    ∃ b, (g.queue flavor).refusesWrite loads n = .ok b ∧
      (b = true ↔ g.RefusesWrite flavor loads n) := by
  have capacity : (UInt64.ofNat g.N).toNat = g.N := UInt64.toNat_ofNat_of_lt' g.N_lt
  unfold Queue.refusesWrite RefusesWrite
  simp only [queue_flavor, Queue.availableToWrite, div_sizeofT, getQuantumCount_eq, bind,
    Except.bind, pure, Except.pure, gt_iff_lt, UInt64.lt_iff_toNat_lt, UInt64.toNat_div,
    toNat_sizeofT, capacity]
  split
  next sync =>
    split
    next less => exact ⟨true, rfl, fun _ => Or.inl ⟨sync, less⟩, fun _ => rfl⟩
    next enough =>
      refine ⟨_, rfl, ?_⟩
      simp only [decide_eq_true_eq, enough, and_false, false_or]
  next unsync =>
    refine ⟨_, rfl, ?_⟩
    simp only [decide_eq_true_eq, unsync, false_and, false_or]

/-- `beginWrite` over arbitrary loads. -/
theorem beginWriteWith_cases (flavor : MQFlavor) (loads : BeginWriteLoads) (n : UInt64)
    (old : MemTransaction) :
    (g.RefusesWrite flavor loads n ∧
      (g.queue flavor).beginWriteWith loads n old = .ok (false, .empty)) ∨
    (¬ g.RefusesWrite flavor loads n ∧ ¬ g.s ∣ loads.writePtr.toNat ∧
      (g.queue flavor).beginWriteWith loads n old = .ok (false, old)) ∨
    (¬ g.RefusesWrite flavor loads n ∧ g.s ∣ loads.writePtr.toNat ∧
      (g.queue flavor).beginWriteWith loads n old =
        .ok (true, g.transaction (loads.writePtr.toNat / g.s) n)) := by
  obtain ⟨b, refuses, meaning⟩ := g.refusesWrite_iff flavor loads n
  unfold Queue.beginWriteWith
  rw [refuses]
  simp only [bind, Except.bind, pure, Except.pure, mod_sizeofT, mod_sizeofT_ne_zero_iff]
  -- Only an accepted size reaches the alignment test.
  cases b with
  | true => exact Or.inl ⟨meaning.mp rfl, rfl⟩
  | false =>
    have accepts : ¬ g.RefusesWrite flavor loads n := fun h => Bool.false_ne_true (meaning.mpr h)
    right
    by_cases aligned : g.s ∣ loads.writePtr.toNat
    · right
      refine ⟨accepts, aligned, ?_⟩
      simp [aligned, g.transactionFrom_eq flavor _ n aligned]
    · left
      exact ⟨accepts, aligned, by simp [aligned]⟩

/-- The overflow test of the reader, in exact integers. -/
def Overflow (loads : BeginReadLoads) : Prop :=
  g.N * g.s < (loads.writePtr - loads.readPtr).toNat

/-- `beginRead` over arbitrary loads. -/
theorem beginReadWith_cases (flavor : MQFlavor) (loads : BeginReadLoads) (n : UInt64) :
    (¬ (g.s ∣ loads.writePtr.toNat ∧ g.s ∣ loads.readPtr.toNat) ∧
      (g.queue flavor).beginReadWith loads n = .ok ⟨false, .empty, none⟩) ∨
    (g.s ∣ loads.writePtr.toNat ∧ g.s ∣ loads.readPtr.toNat ∧ g.Overflow loads ∧
      (g.queue flavor).beginReadWith loads n = .ok ⟨false, .empty, some loads.writePtr⟩) ∨
    (g.s ∣ loads.writePtr.toNat ∧ g.s ∣ loads.readPtr.toNat ∧ ¬ g.Overflow loads ∧
      (loads.writePtr - loads.readPtr).toNat < n.toNat * g.s % 2 ^ 64 ∧
      (g.queue flavor).beginReadWith loads n = .ok ⟨false, .empty, none⟩) ∨
    (g.s ∣ loads.writePtr.toNat ∧ g.s ∣ loads.readPtr.toNat ∧ ¬ g.Overflow loads ∧
      n.toNat * g.s % 2 ^ 64 ≤ (loads.writePtr - loads.readPtr).toNat ∧
      (g.queue flavor).beginReadWith loads n =
        .ok ⟨true, g.transaction (loads.readPtr.toNat / g.s) n, none⟩) := by
  unfold Queue.beginReadWith Overflow
  simp only [bind, Except.bind, pure, Except.pure, mod_sizeofT, mod_sizeofT_ne_zero_iff,
    gt_iff_lt, UInt64.lt_iff_toNat_lt, UInt64.toNat_mul, toNat_getSize, toNat_sizeofT]
  -- The tests in the order of the source: the two alignments, the overflow, the size.
  by_cases alignedWrite : g.s ∣ loads.writePtr.toNat
  swap
  · simp [alignedWrite]
  by_cases alignedRead : g.s ∣ loads.readPtr.toNat
  swap
  · simp [alignedWrite, alignedRead]
  by_cases far : g.N * g.s < (loads.writePtr - loads.readPtr).toNat
  · simp [alignedWrite, alignedRead, far]
  generalize n.toNat * g.s % 2 ^ 64 = bytes
  by_cases short : (loads.writePtr - loads.readPtr).toNat < bytes
  · simp [alignedWrite, alignedRead, far, short]
  · simp [alignedWrite, alignedRead, far, short, Nat.le_of_not_lt short,
      g.transactionFrom_eq flavor _ n alignedRead]

/-! ## Shape of the regions -/

theorem transaction_single (p : Nat) (n : UInt64) (fits : n.toNat ≤ g.N - p % g.N) :
    g.transaction p n = ⟨⟨⟨.ring, slot g.s g.N p⟩, n⟩, .empty⟩ := by
  unfold transaction
  rw [if_neg (by omega)]

theorem transaction_double (p : Nat) (n : UInt64) (wraps : g.N - p % g.N < n.toNat) :
    ∃ a b : UInt64, a.toNat = g.N - p % g.N ∧ b.toNat = n.toNat - (g.N - p % g.N) ∧
      g.transaction p n = ⟨⟨⟨.ring, slot g.s g.N p⟩, a⟩, ⟨⟨.ring, 0⟩, b⟩⟩ := by
  have small : g.N - p % g.N < 2 ^ 64 := Nat.lt_of_le_of_lt (Nat.sub_le _ _) g.N_lt
  have first : (UInt64.ofNat (g.N - p % g.N)).toNat = g.N - p % g.N :=
    UInt64.toNat_ofNat_of_lt' small
  refine ⟨_, _, first, ?_, by unfold transaction; rw [if_pos wraps]⟩
  rw [UInt64.toNat_sub_of_le _ _ (by rw [UInt64.le_iff_toNat_le]; omega), first]

end Geometry

/-- A non-empty region lies inside the first `size` bytes of the ring and starts at a multiple
of the message size. -/
def MemRegion.Inside (r : MemRegion) (s size : Nat) : Prop :=
  r.length ≠ 0 → r.address.block = .ring ∧ s ∣ r.address.offset ∧
    r.address.offset + r.length.toNat * s ≤ size

/-- Two non-empty regions have no byte in common. -/
def MemRegion.Disjoint (r r' : MemRegion) (s : Nat) : Prop :=
  r.length ≠ 0 → r'.length ≠ 0 →
    r.address.offset + r.length.toNat * s ≤ r'.address.offset ∨
    r'.address.offset + r'.length.toNat * s ≤ r.address.offset

namespace Geometry

variable (g : Geometry)

/-- What a granted transaction of `n` messages at the counter value `ptr` may touch. -/
structure RegionSafe (ptr n : UInt64) (tx : MemTransaction) : Prop where
  count : tx.first.length.toNat + tx.second.length.toNat = n.toNat
  capacity : n.toNat ≤ g.N
  firstInside : tx.first.Inside g.s (g.N * g.s)
  secondInside : tx.second.Inside g.s (g.N * g.s)
  disjoint : tx.first.Disjoint tx.second g.s
  cyclic : ∀ i < n.toNat,
    tx.slotOffset g.s i = (ptr.toNat % (g.N * g.s) + i * g.s) % (g.N * g.s)

theorem slotOffset_transaction (p i : Nat) (n : UInt64) (below : i < n.toNat)
    (capacity : n.toNat ≤ g.N) :
    (g.transaction p n).slotOffset g.s i = slot g.s g.N (p + i) := by
  have bound := Nat.mod_lt p g.N_pos
  unfold MemTransaction.slotOffset
  by_cases fits : n.toNat ≤ g.N - p % g.N
  · rw [g.transaction_single p n fits, if_pos below, slot_add_before (by omega)]
  · obtain ⟨a, b, first, second, eq⟩ := g.transaction_double p n (by omega)
    rw [eq]
    dsimp only
    split
    next before => rw [slot_add_before (by omega)]
    next after => rw [slot_add_after (by omega) (by omega), first, Nat.zero_add]

theorem transaction_regionSafe (ptr n : UInt64) (aligned : g.s ∣ ptr.toNat)
    (capacity : n.toNat ≤ g.N) :
    g.RegionSafe ptr n (g.transaction (ptr.toNat / g.s) n) := by
  obtain ⟨p, position⟩ := aligned
  have quotient : ptr.toNat / g.s = p := by rw [position, Nat.mul_div_cancel_left _ g.s_pos]
  rw [quotient]
  have bound := Nat.mod_lt p g.N_pos
  have cyclic : ∀ i < n.toNat, (g.transaction p n).slotOffset g.s i =
      (ptr.toNat % (g.N * g.s) + i * g.s) % (g.N * g.s) := by
    intro i below
    rw [g.slotOffset_transaction p i n below capacity, slot, position, Nat.mul_comm g.s p,
      Nat.mod_add_mod, ← Nat.add_mul, Nat.mul_mod_mul_right]
  by_cases fits : n.toNat ≤ g.N - p % g.N
  · -- One region, and an empty second one.
    have inside : p % g.N * g.s + n.toNat * g.s ≤ g.N * g.s := by
      rw [← Nat.add_mul]
      exact Nat.mul_le_mul_right _ (by omega)
    have eq := g.transaction_single p n fits
    refine ⟨?_, capacity, ?_, ?_, ?_, cyclic⟩ <;> rw [eq]
    · rfl
    · exact fun _ => ⟨rfl, Nat.dvd_mul_left _ _, inside⟩
    · exact fun nonempty => absurd rfl nonempty
    · exact fun _ nonempty => absurd rfl nonempty
  · -- Two regions: one up to the end of the ring, one from its start that stops before the first.
    obtain ⟨a, b, first, second, eq⟩ := g.transaction_double p n (by omega)
    have firstInside : p % g.N * g.s + a.toNat * g.s ≤ g.N * g.s := by
      rw [← Nat.add_mul]
      exact Nat.mul_le_mul_right _ (by omega)
    have secondBelow : b.toNat * g.s ≤ p % g.N * g.s := Nat.mul_le_mul_right _ (by omega)
    have secondInside : b.toNat * g.s ≤ g.N * g.s := Nat.mul_le_mul_right _ (by omega)
    refine ⟨?_, capacity, ?_, ?_, ?_, cyclic⟩ <;> rw [eq]
    · dsimp only
      omega
    · exact fun _ => ⟨rfl, Nat.dvd_mul_left _ _, firstInside⟩
    · exact fun _ => ⟨rfl, Nat.dvd_zero _, by simpa using secondInside⟩
    · exact fun _ _ => Or.inr (by simpa [slot] using secondBelow)

/-- Region safety against an arbitrary peer: whatever values the separate counter loads return,
a granted transaction consists of slots of the ring. -/
theorem begin_regionSafe (flavor : MQFlavor) (n : UInt64) :
    (∀ loads old tx, (g.queue flavor).beginWriteWith loads n old = .ok (true, tx) →
      g.RegionSafe loads.writePtr n tx) ∧
    (∀ loads r, n.toNat ≤ g.N → (g.queue flavor).beginReadWith loads n = .ok r →
      r.returned = true → g.RegionSafe loads.readPtr n r.memTx) := by
  constructor
  · intro loads old tx returned
    -- Only the granting branch returns `true`.
    rcases g.beginWriteWith_cases flavor loads n old with
      ⟨_, refused⟩ | ⟨_, _, refused⟩ | ⟨accepts, aligned, granted⟩
    · simp [refused] at returned
    · simp [refused] at returned
    · -- `beginWrite` itself has compared `n` with the capacity.
      have capacity : n.toNat ≤ g.N := Nat.le_of_not_lt fun more => accepts (Or.inr more)
      rw [granted] at returned
      cases returned
      exact g.transaction_regionSafe _ n aligned capacity
  · intro loads r capacity returned success
    rcases g.beginReadWith_cases flavor loads n with
      ⟨_, refused⟩ | ⟨_, _, _, refused⟩ | ⟨_, _, _, _, refused⟩ | ⟨_, aligned, _, _, granted⟩
    · rw [refused] at returned
      cases returned
      cases success
    · rw [refused] at returned
      cases returned
      cases success
    · rw [refused] at returned
      cases returned
      cases success
    · rw [granted] at returned
      cases returned
      exact g.transaction_regionSafe _ n aligned capacity

/-- Two messages of two bytes at the end of a ring of three, and a peer that moves the write
counter between its two loads. -/
theorem begin_regionSafe_wraps :
    let g : Geometry := ⟨2, 3, by decide, by decide, by decide⟩
    g.RegionSafe 4 2 ⟨⟨⟨.ring, 4⟩, 1⟩, ⟨⟨.ring, 0⟩, 1⟩⟩ ∧
      g.RegionSafe 4 2 ⟨⟨⟨.ring, 4⟩, 1⟩, ⟨⟨.ring, 0⟩, 1⟩⟩ :=
  let g : Geometry := ⟨2, 3, by decide, by decide, by decide⟩
  ⟨(g.begin_regionSafe .kSynchronizedReadWrite 2).1 ⟨2, 0, 4⟩ .empty _ (by decide),
    (g.begin_regionSafe .kUnsynchronizedWrite 2).2 ⟨8, 4⟩
      ⟨true, ⟨⟨⟨.ring, 4⟩, 1⟩, ⟨⟨.ring, 0⟩, 1⟩⟩, none⟩ (by decide) (by decide) rfl⟩

end Geometry
end Fmq
