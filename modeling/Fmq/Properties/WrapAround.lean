import Fmq.Properties.Fifo

/-!
# Counters that wrap past `2^64`

`commitWrite`, `beginRead` and `commitRead` let the counters overflow. The slot of a counter is
its value modulo the data size, so an overflow keeps the slots in order exactly when the data
size divides `2^64`.
-/
namespace Fmq

open Memory RecordRing BoundedFifo

namespace Geometry

variable (g : Geometry)

/-- A state of the queue: aligned counters, and the unread messages in the cyclic slots from
`readPtr` on. -/
structure Stored (σ : Storage) (items : List (Vector UInt8 g.s)) : Prop
    extends g.Counts σ items.length where
  held : window g.s g.N σ.ring (σ.readPtr.toNat / g.s) items.length = items

/-- From every state, every sequence of calls replies as the bounded FIFO does, whether or not
the counters wrap. -/
def WrapHarmless : Prop :=
  ∀ (σ : Storage) (items : List (Vector UInt8 g.s)) (ops : List (Op (Vector UInt8 g.s))),
    g.Stored σ items → (∀ op ∈ ops, g.Legal op) →
    (g.queue .kSynchronizedReadWrite).execAll σ ops =
      .ok ((replies g.N items ops).map (Reply.map flat))

/-! ## Data sizes that divide `2^64` -/

/-- Reducing modulo `2^64` first does not change the slot. -/
theorem slot_mod (divides : g.N * g.s ∣ 2 ^ 64) (x : Nat) :
    x % 2 ^ 64 / g.s % g.N = x / g.s % g.N := by
  rw [← Nat.mod_mul_left_div_self, Nat.mod_mod_of_dvd _ divides, Nat.mod_mul_left_div_self]

theorem regular_of_dvd (divides : g.N * g.s ∣ 2 ^ 64) (ptr k : UInt64)
    (aligned : g.s ∣ ptr.toNat) : g.Regular ptr k := by
  have divides_s : g.s ∣ 2 ^ 64 := Nat.dvd_trans (Nat.dvd_mul_left _ _) divides
  unfold Regular
  rw [toNat_advance, g.slot_mod divides, Nat.add_mul_div_right _ _ g.s_pos]
  exact ⟨(Nat.dvd_mod_iff divides_s).mpr (Nat.dvd_add aligned (Nat.dvd_mul_left _ _)), rfl⟩

variable {g} {σ : Storage} {items : List (Vector UInt8 g.s)}

theorem Stored.repr (stored : g.Stored σ items) (divides : g.N * g.s ∣ 2 ^ 64) :
    g.Repr σ items where
  toCounts := stored.toCounts
  held := stored.held
  cursor := by
    -- The write counter is the read counter plus the unread bytes, reduced modulo `2^64`.
    have apart : σ.writePtr.toNat = (σ.readPtr.toNat + items.length * g.s) % 2 ^ 64 := by
      have sum : σ.writePtr = σ.readPtr + (σ.writePtr - σ.readPtr) := by grind
      rw [← stored.count, ← UInt64.toNat_add, ← sum]
    rw [apart, g.slot_mod divides, Nat.add_mul_div_right _ _ g.s_pos]

theorem Repr.execAll_of_dvd (repr : g.Repr σ items) (divides : g.N * g.s ∣ 2 ^ 64)
    (ops : List (Op (Vector UInt8 g.s))) (legal : ∀ op ∈ ops, g.Legal op) :
    (g.queue .kSynchronizedReadWrite).execAll σ ops =
      .ok ((replies g.N items ops).map (Reply.map flat)) := by
  -- As below `2^64`, except that every counter is regular here.
  induction ops generalizing σ items with
  | nil => rfl
  | cons op ops ih =>
    have legal_op := legal op (by simp)
    have regular : g.RegularFor σ items op := by
      cases op with
      | write xs => exact fun _ => g.regular_of_dvd divides _ _ repr.writeAligned
      | read n => exact fun _ => g.regular_of_dvd divides _ _ repr.readAligned
      | availableToRead => trivial
      | availableToWrite => trivial
    have rest := ih (repr.next op legal_op regular) (fun op member => legal op (by simp [member]))
    exact repr.execAll_cons op legal_op ops rest

/-! ## Data sizes that do not divide `2^64` -/

variable (g)

/-- An empty queue whose counters have the value `ptr`. -/
def emptyAt (ptr : UInt64) : Storage := ⟨fun _ => 0, ptr, ptr⟩

theorem stored_emptyAt (ptr : UInt64) (aligned : g.s ∣ ptr.toNat) :
    g.Stored (emptyAt ptr) [] where
  readAligned := aligned
  writeAligned := aligned
  count := by simp [emptyAt]
  bounded := Nat.zero_le _
  held := rfl

theorem write_emptyAt (ptr : UInt64) (aligned : g.s ∣ ptr.toNat) (x : Vector UInt8 g.s) :
    (g.queue .kSynchronizedReadWrite).write (emptyAt ptr) (some (flat [x])) 1 =
      .ok (true, g.pushed (emptyAt ptr) [x] 1) :=
  (g.stored_emptyAt ptr aligned).write_accepts [x] 1 rfl g.N_pos

/-- A read that finds a misaligned write counter is refused. -/
theorem read_misaligned (σ : Storage) (misaligned : ¬ g.s ∣ σ.writePtr.toNat) (n : UInt64) :
    (g.queue .kSynchronizedReadWrite).read σ true n = .ok (false, σ, none) := by
  rcases g.beginReadWith_cases .kSynchronizedReadWrite ⟨σ.writePtr, σ.readPtr⟩ n with
    ⟨_, eq⟩ | ⟨aligned, _⟩ | ⟨aligned, _⟩ | ⟨aligned, _⟩
  · exact Queue.read_refused true (Queue.beginRead_of_loads eq)
  · exact absurd aligned misaligned
  · exact absurd aligned misaligned
  · exact absurd aligned misaligned

/-- The message size does not divide `2^64`: the first write that wraps misaligns the write
counter, and its message can no longer be read. -/
theorem not_wrapHarmless_of_size (odd : ¬ g.s ∣ 2 ^ 64) : ¬ g.WrapHarmless := by
  intro harmless
  have rest_pos : 0 < 2 ^ 64 % g.s := Nat.pos_of_ne_zero fun zero =>
    odd (Nat.dvd_of_mod_eq_zero zero)
  have rest_lt : 2 ^ 64 % g.s < g.s := Nat.mod_lt _ g.s_pos
  -- The largest multiple of the message size below `2^64`.
  obtain ⟨ptr, value⟩ : ∃ ptr : UInt64, ptr.toNat = 2 ^ 64 - 2 ^ 64 % g.s :=
    ⟨_, UInt64.toNat_ofNat_of_lt' (Nat.sub_lt (Nat.two_pow_pos 64) rest_pos)⟩
  have aligned : g.s ∣ ptr.toNat := by
    rw [value]
    exact Nat.dvd_sub_mod _
  let x : Vector UInt8 g.s := .replicate g.s 0
  -- Writing one message there wraps the counter to a value below one message.
  have wrapped : (g.pushed (emptyAt ptr) [x] 1).writePtr.toNat = g.s - 2 ^ 64 % g.s := by
    have le : 2 ^ 64 % g.s ≤ 2 ^ 64 := Nat.mod_le _ _
    have small := g.s_lt
    have moved := g.toNat_advance ptr 1
    rw [value, UInt64.toNat_one, Nat.one_mul] at moved
    simp only [pushed, emptyAt]
    omega
  have misaligned : ¬ g.s ∣ (g.pushed (emptyAt ptr) [x] 1).writePtr.toNat := by
    rw [wrapped]
    exact Nat.not_dvd_of_pos_of_lt (by omega) (by omega)
  -- The FIFO would deliver the message, the queue refuses the read.
  have replied := harmless (emptyAt ptr) [] [.write [x], .read 1] (g.stored_emptyAt ptr aligned)
    (by
      have pos := g.N_pos
      simp only [List.mem_cons, List.not_mem_nil, or_false, forall_eq_or_imp, forall_eq, Legal,
        List.length_singleton]
      omega)
  have one : UInt64.ofNat 1 = 1 := rfl
  have fits : 1 ≤ g.N := g.N_pos
  simp only [Queue.execAll, Queue.exec, List.length_singleton, one, g.write_emptyAt ptr aligned x,
    g.read_misaligned _ misaligned, bind, Except.bind, pure, Except.pure, replies, step,
    List.map_cons, Reply.map, List.length_nil, Nat.sub_zero, if_pos fits, List.nil_append,
    Nat.le_refl, if_true, Except.ok.injEq, List.cons.injEq, Reply.read.injEq] at replied
  simp at replied

/-- The last position before the wrap does not lie in the last slot of the ring. -/
theorem last_slot_inner {M : Nat} (total : 2 ^ 64 = g.s * M) (odd : ¬ g.N * g.s ∣ 2 ^ 64) :
    (M - 1) % g.N < g.N - 1 := by
  have M_pos : 0 < M := Nat.pos_of_ne_zero fun zero => by simp [zero] at total
  have below := Nat.mod_lt (M - 1) g.N_pos
  have ne_last : (M - 1) % g.N ≠ g.N - 1 := by
    intro last
    have multiple : M % g.N = 0 := by
      have next := Nat.mod_add_mod (M - 1) g.N 1
      rwa [last, Nat.sub_add_cancel g.N_pos, Nat.mod_self, Nat.sub_add_cancel M_pos,
        eq_comm] at next
    obtain ⟨k, rfl⟩ := Nat.dvd_of_mod_eq_zero multiple
    exact odd ⟨k, by rw [total, ← Nat.mul_assoc, Nat.mul_comm g.N]⟩
  omega

/-- One message before the wrap, then `N - 1` messages after it: the second write fits, and
one of its messages takes the slot of the unread first one. -/
theorem overwrites_unread (even : g.s ∣ 2 ^ 64) (odd : ¬ g.N * g.s ∣ 2 ^ 64)
    (a b : Vector UInt8 g.s) :
    ∃ ptr σ₁ σ₂ σ₃, g.s ∣ ptr.toNat ∧
      (g.queue .kSynchronizedReadWrite).write (emptyAt ptr) (some (flat [a])) 1 =
        .ok (true, σ₁) ∧
      (g.queue .kSynchronizedReadWrite).write σ₁ (some (flat (.replicate (g.N - 1) b)))
        (.ofNat (g.N - 1)) = .ok (true, σ₂) ∧
      (g.queue .kSynchronizedReadWrite).read σ₂ true 1 = .ok (true, σ₃, some (flat [b])) := by
  obtain ⟨M, total⟩ := even
  have inner := g.last_slot_inner total odd
  have M_pos : 0 < M := Nat.pos_of_ne_zero fun zero => by simp [zero] at total
  -- The last position before the wrap: one message takes the counter to exactly `2^64`.
  obtain ⟨ptr, value⟩ : ∃ ptr : UInt64, ptr.toNat = g.s * (M - 1) := by
    refine ⟨.ofNat (g.s * (M - 1)), UInt64.toNat_ofNat_of_lt' ?_⟩
    rw [Nat.mul_sub, Nat.mul_one, ← total]
    exact Nat.sub_lt (Nat.two_pow_pos 64) g.s_pos
  have aligned : g.s ∣ ptr.toNat := ⟨_, value⟩
  have k_value : (UInt64.ofNat (g.N - 1)).toNat = g.N - 1 :=
    UInt64.toNat_ofNat_of_lt' (Nat.lt_of_le_of_lt (Nat.sub_le _ _) g.N_lt)
  generalize UInt64.ofNat (g.N - 1) = k at k_value
  let bs := List.replicate (g.N - 1) b
  have length : bs.length = g.N - 1 := List.length_replicate
  let σ₁ := g.pushed (emptyAt ptr) [a] 1
  have wrapped : σ₁.writePtr.toNat = 0 := by
    have moved := g.toNat_advance ptr 1
    rwa [value, UInt64.toNat_one, Nat.one_mul, ← Nat.mul_succ, Nat.succ_eq_add_one,
      Nat.sub_add_cancel M_pos, ← total, Nat.mod_self] at moved
  have counts₁ : g.Counts σ₁ 1 := by
    refine (g.stored_emptyAt ptr aligned).toCounts.pushed [a] 1 g.N_pos ?_
    rw [show (emptyAt ptr).writePtr + 1 * .ofNat g.s = σ₁.writePtr from rfl, wrapped]
    exact Nat.dvd_zero _
  -- The counter is 0 again, so `bs` goes to the slots from 0 on.
  let σ₂ := g.pushed σ₁ bs k
  have moved : σ₂.writePtr.toNat = (g.N - 1) * g.s := by
    have room := g.bytes_lt (Nat.sub_le g.N 1)
    have moved := g.toNat_advance_lt σ₁.writePtr k (by rw [wrapped, k_value]; omega)
    rwa [wrapped, Nat.zero_add, k_value] at moved
  have counts₂ : g.Counts σ₂ (1 + k.toNat) := by
    refine counts₁.pushed bs k (by omega) ?_
    rw [show σ₁.writePtr + k * .ofNat g.s = σ₂.writePtr from rfl, moved]
    exact Nat.dvd_mul_left _ _
  have delivered : window g.s g.N σ₂.ring (σ₂.readPtr.toNat / g.s) (1 : UInt64).toNat = [b] := by
    -- The unread message lies in slot `(M - 1) % N`, which is one of the first `N - 1`.
    have position : σ₂.readPtr.toNat / g.s = M - 1 := by
      rw [show σ₂.readPtr = ptr from rfl, value, Nat.mul_div_cancel_left _ g.s_pos]
    have ring₂ : σ₂.ring = put g.s g.N σ₁.ring 0 bs := by
      simp only [σ₂, pushed, wrapped, Nat.zero_div]
    have overwritten := peek_put_inside (s := g.s) (N := g.N) (p := 0) σ₁.ring bs
      ((M - 1) % g.N) (by omega) (by omega)
    rw [Nat.zero_add, peek_congr _ (Nat.mod_mod (M - 1) g.N)] at overwritten
    rw [position, ring₂, UInt64.toNat_one]
    simp only [window, List.range_one, List.map_cons, Nat.add_zero, List.map_nil, overwritten]
    simp only [bs, List.getElem_replicate]
  have read₃ := counts₂.read_accepts 1 (by simp)
  rw [delivered] at read₃
  exact ⟨ptr, σ₁, σ₂, _, aligned, g.write_emptyAt ptr aligned a,
    counts₁.write_accepts bs k (by omega) (by omega), read₃⟩

/-- The message size divides `2^64` but the data size does not: after the wrap the slots start
over in the middle of a revolution, and a write that fits overwrites an unread message. -/
theorem not_wrapHarmless_of_capacity (even : g.s ∣ 2 ^ 64) (odd : ¬ g.N * g.s ∣ 2 ^ 64) :
    ¬ g.WrapHarmless := by
  intro harmless
  let a : Vector UInt8 g.s := .replicate g.s 0
  let b : Vector UInt8 g.s := .replicate g.s 1
  let bs := List.replicate (g.N - 1) b
  obtain ⟨ptr, σ₁, σ₂, σ₃, aligned, first, second, third⟩ := g.overwrites_unread even odd a b
  have length : bs.length = g.N - 1 := List.length_replicate
  rw [← length, show List.replicate bs.length b = bs by rw [length]] at second
  have small := g.N_lt
  have fits : 1 ≤ g.N := g.N_pos
  have room : bs.length ≤ g.N - 1 := by omega
  have enough : 1 ≤ ([a] ++ bs).length := by simp
  have replied := harmless (emptyAt ptr) [] [.write [a], .write bs, .read 1]
    (g.stored_emptyAt ptr aligned)
    (by
      simp only [List.mem_cons, List.not_mem_nil, or_false, forall_eq_or_imp, forall_eq, Legal,
        List.length_singleton]
      omega)
  have one : UInt64.ofNat 1 = 1 := rfl
  simp only [Queue.execAll, Queue.exec, List.length_singleton, one, first, second, third,
    bind, Except.bind, pure, Except.pure, replies, step, List.map_cons, List.length_nil,
    Nat.sub_zero, if_pos fits, List.nil_append, if_pos room, if_pos enough, Except.ok.injEq,
    List.cons.injEq] at replied
  -- The FIFO would deliver `a`.
  have same : flat [b] = flat [a] := Option.some.inj (Reply.read.inj replied.2.2.1)
  have cell := congrArg (fun cells => cells[0]?) same
  simp [a, b, g.s_pos] at cell

/-- Wrap-around is harmless exactly when the data size divides `2^64`. -/
theorem wrapHarmless_iff : g.WrapHarmless ↔ g.N * g.s ∣ 2 ^ 64 := by
  constructor
  · intro harmless
    by_contra odd
    by_cases even : g.s ∣ 2 ^ 64
    · exact g.not_wrapHarmless_of_capacity even odd harmless
    · exact g.not_wrapHarmless_of_size even harmless
  · intro divides σ items ops stored legal
    exact (stored.repr divides).execAll_of_dvd divides ops legal

/-- Three messages of one byte. -/
theorem not_wrapHarmless_three : ¬ ∀ g : Geometry, g.WrapHarmless := fun all =>
  Geometry.not_wrapHarmless_of_capacity ⟨1, 3, by decide, by decide, by decide⟩ (by decide)
    (by decide) (all _)

end Geometry
end Fmq
