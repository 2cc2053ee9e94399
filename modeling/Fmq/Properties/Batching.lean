import Fmq.Properties.Broadcast
import Fmq.Properties.SyncStream

/-!
# One batch or two

A batch written or read by one call, or by two calls one after the other. The two calls cut the
ring into other regions, but the messages go to and come from the same slots.
-/
namespace Fmq

open Memory RecordRing Transition

namespace Geometry

variable (g : Geometry) (flavor : MQFlavor)

/-- `write(xs)` and `read(n)`, with a buffer. -/
def writeAll (σ : Storage) (xs : List (Vector UInt8 g.s)) : Call (Bool × Storage) :=
  (g.queue flavor).write σ (some (flat xs)) (.ofNat xs.length)

def readAll (σ : Storage) (n : Nat) : Call (Bool × Storage × Option (List UInt8)) :=
  (g.queue flavor).read σ true (.ofNat n)

/-- In this state a batch that succeeds could be cut in two. -/
structure BatchTransparent (σ : Storage) : Prop where
  write : ∀ (xs ys : List (Vector UInt8 g.s)) σ', xs.length + ys.length ≤ g.N →
    σ.writePtr.toNat + (xs.length + ys.length) * g.s < 2 ^ 64 →
    g.writeAll flavor σ (xs ++ ys) = .ok (true, σ') →
    ∃ σ₁, g.writeAll flavor σ xs = .ok (true, σ₁) ∧ g.writeAll flavor σ₁ ys = .ok (true, σ')
  read : ∀ m n σ' data, m + n ≤ g.N → g.readAll flavor σ (m + n) = .ok (true, σ', data) →
    ∃ σ₁ front back, g.readAll flavor σ m = .ok (true, σ₁, some front) ∧
      g.readAll flavor σ₁ n = .ok (true, σ', some back) ∧ data = some (front ++ back)

variable {g flavor} {σ : Storage} {p w n : Nat}

/-! ## Writes -/

theorem pushed_append (xs ys : List (Vector UInt8 g.s)) (position : σ.writePtr.toNat = w * g.s)
    (total : (w + (xs.length + ys.length)) * g.s < 2 ^ 64) :
    g.pushed (g.pushed σ xs (.ofNat xs.length)) ys (.ofNat ys.length) =
      g.pushed σ (xs ++ ys) (.ofNat (xs ++ ys).length) := by
  have small : w * g.s + xs.length * g.s < 2 ^ 64 := by
    rw [← Nat.add_mul]
    exact Nat.lt_of_le_of_lt (Nat.mul_le_mul_right _ (by omega)) total
  have length : (UInt64.ofNat xs.length).toNat = xs.length :=
    UInt64.toNat_ofNat_of_lt' (Nat.lt_of_le_of_lt (Nat.le_mul_of_pos_right _ g.s_pos)
      (Nat.lt_of_le_of_lt (Nat.le_add_left _ _) small))
  -- The second call goes on in the slot behind the last one of the first call.
  have next : (σ.writePtr + .ofNat xs.length * .ofNat g.s).toNat / g.s = w + xs.length := by
    rw [g.toNat_advance_lt _ _ (by rwa [position, length]), position, length, ← Nat.add_mul,
      Nat.mul_div_cancel _ g.s_pos]
  have counter : σ.writePtr + .ofNat xs.length * .ofNat g.s + .ofNat ys.length * .ofNat g.s =
      σ.writePtr + .ofNat (xs ++ ys).length * .ofNat g.s := by
    rw [List.length_append, UInt64.ofNat_add, UInt64.add_mul, UInt64.add_assoc]
  unfold pushed
  rw [next, counter, position, Nat.mul_div_cancel _ g.s_pos, put_append]

theorem Counts.writeAll (counts : g.Counts σ n) (xs : List (Vector UInt8 g.s))
    (capacity : xs.length ≤ g.N) :
    g.writeAll .kSynchronizedReadWrite σ xs =
      .ok (if xs.length ≤ g.N - n then (true, g.pushed σ xs (.ofNat xs.length))
        else (false, σ)) := by
  have length := toNat_messages capacity
  unfold Geometry.writeAll
  split
  next room => exact counts.write_accepts xs _ length room
  next full => exact counts.write_refuses _ _ (by omega)

/-- The write counter after `k` messages, below `2^64` bytes. -/
theorem toNat_pushed (xs : List (Vector UInt8 g.s)) (position : σ.writePtr.toNat = w * g.s)
    (capacity : xs.length ≤ g.N) (total : (w + xs.length) * g.s < 2 ^ 64) :
    (g.pushed σ xs (.ofNat xs.length)).writePtr.toNat = (w + xs.length) * g.s := by
  have length := toNat_messages capacity
  have moved := g.toNat_commitWrite .kSynchronizedReadWrite σ (.ofNat xs.length) position
    (by rwa [length])
  rwa [length] at moved

theorem Behind.write_sync (behind : g.Behind σ p w) (near : w ≤ p + g.N)
    (xs ys : List (Vector UInt8 g.s)) (σ' : Storage) (capacity : xs.length + ys.length ≤ g.N)
    (total : (w + (xs.length + ys.length)) * g.s < 2 ^ 64)
    (written : g.writeAll .kSynchronizedReadWrite σ (xs ++ ys) = .ok (true, σ')) :
    ∃ σ₁, g.writeAll .kSynchronizedReadWrite σ xs = .ok (true, σ₁) ∧
      g.writeAll .kSynchronizedReadWrite σ₁ ys = .ok (true, σ') := by
  have counts := behind.counts near
  have length := toNat_messages (g := g) (show xs.length ≤ g.N by omega)
  rw [counts.writeAll (xs ++ ys) (by rwa [List.length_append])] at written
  split at written
  next room =>
    rw [List.length_append] at room
    cases written
    have first := counts.writeAll xs (by omega)
    rw [if_pos (by omega)] at first
    have small : (w + xs.length) * g.s < 2 ^ 64 :=
      Nat.lt_of_le_of_lt (Nat.mul_le_mul_right _ (by omega)) total
    have aligned : g.s ∣ (σ.writePtr + .ofNat xs.length * .ofNat g.s).toNat := by
      have moved := toNat_pushed xs behind.writePtr (by omega) small
      exact ⟨_, moved.trans (Nat.mul_comm _ _)⟩
    have second := (counts.pushed xs (.ofNat xs.length) (by omega) aligned).writeAll ys (by omega)
    rw [if_pos (by omega), pushed_append xs ys behind.writePtr total] at second
    exact ⟨_, first, second⟩
  next => cases written

theorem writeAll_unsync (σ : Storage) (xs : List (Vector UInt8 g.s)) (capacity : xs.length ≤ g.N)
    (position : σ.writePtr.toNat = w * g.s) :
    g.writeAll .kUnsynchronizedWrite σ xs = .ok (true, g.pushed σ xs (.ofNat xs.length)) := by
  have written := g.write_unsynchronized σ xs (.ofNat xs.length) (toNat_messages capacity)
    ⟨w, by rw [position, Nat.mul_comm]⟩
  rwa [if_pos capacity] at written

theorem write_unsync (xs ys : List (Vector UInt8 g.s)) (σ' : Storage)
    (position : σ.writePtr.toNat = w * g.s) (capacity : xs.length + ys.length ≤ g.N)
    (total : (w + (xs.length + ys.length)) * g.s < 2 ^ 64)
    (written : g.writeAll .kUnsynchronizedWrite σ (xs ++ ys) = .ok (true, σ')) :
    ∃ σ₁, g.writeAll .kUnsynchronizedWrite σ xs = .ok (true, σ₁) ∧
      g.writeAll .kUnsynchronizedWrite σ₁ ys = .ok (true, σ') := by
  have small : (w + xs.length) * g.s < 2 ^ 64 :=
    Nat.lt_of_le_of_lt (Nat.mul_le_mul_right _ (by omega)) total
  have moved := toNat_pushed xs position (by omega) small
  rw [writeAll_unsync σ (xs ++ ys) (by rwa [List.length_append]) position] at written
  cases written
  have second := writeAll_unsync (g.pushed σ xs (.ofNat xs.length)) ys (by omega) moved
  rw [pushed_append xs ys position total] at second
  exact ⟨_, writeAll_unsync σ xs (by omega) position, second⟩

/-! ## Reads -/

theorem popped_popped (σ : Storage) (m n : Nat) :
    g.popped (g.popped σ (.ofNat m)) (.ofNat n) = g.popped σ (.ofNat (m + n)) := by
  unfold popped
  rw [UInt64.ofNat_add, UInt64.add_mul, UInt64.add_assoc]

theorem Behind.readAll (behind : g.Behind σ p w) (flavor : MQFlavor) {n : Nat}
    (capacity : n ≤ g.N) :
    g.readAll flavor σ n =
      .ok (if g.N < w - p then (false, skipped σ, none)
        else if p + n ≤ w then
          (true, g.popped σ (.ofNat n), some (flat (window g.s g.N σ.ring p n)))
        else (false, σ, none)) := by
  have count := toNat_messages capacity
  have read := behind.read flavor (.ofNat n) (by rw [count]; exact g.bytes_lt capacity)
  rwa [count] at read

theorem Behind.read_split (behind : g.Behind σ p w) (flavor : MQFlavor) (m n : Nat) (σ' : Storage)
    (data : Option (List UInt8)) (capacity : m + n ≤ g.N)
    (read : g.readAll flavor σ (m + n) = .ok (true, σ', data)) :
    ∃ σ₁ front back, g.readAll flavor σ m = .ok (true, σ₁, some front) ∧
      g.readAll flavor σ₁ n = .ok (true, σ', some back) ∧ data = some (front ++ back) := by
  rw [behind.readAll flavor capacity] at read
  split at read
  next => cases read
  next near =>
    split at read
    next enough =>
      cases read
      have count := toNat_messages (g := g) (show m ≤ g.N by omega)
      have first := behind.readAll flavor (n := m) (by omega)
      rw [if_neg near, if_pos (by omega)] at first
      have rest := behind.popped (.ofNat m) (by omega)
      rw [count] at rest
      have second := rest.readAll flavor (n := n) (by omega)
      rw [if_neg (by omega), if_pos (by omega), popped_popped] at second
      refine ⟨_, _, _, first, second, ?_⟩
      rw [window_add, flat_append]
      rfl
    next => cases read

end Geometry

/-! ## Reachable states -/

variable {g : Geometry}

theorem Synchronized.Inv.batchTransparent {σ : Synchronized.State g.s}
    (inv : Synchronized.Inv g σ) : g.BatchTransparent .kSynchronizedReadWrite σ.storage where
  write xs ys σ' capacity total written := by
    rw [inv.writePtr, ← Nat.add_mul] at total
    exact inv.behind.write_sync inv.window xs ys σ' capacity total written
  read m n σ' data capacity read := inv.behind.read_split _ m n σ' data capacity read

/-- An endpoint of an unsynchronized queue; its own counter does not matter for writing. -/
theorem Geometry.Behind.batchTransparent {σ : Storage} {p w : Nat} (behind : g.Behind σ p w) :
    g.BatchTransparent .kUnsynchronizedWrite σ where
  write xs ys σ' capacity total written := by
    rw [behind.writePtr, ← Nat.add_mul] at total
    exact Geometry.write_unsync xs ys σ' behind.writePtr capacity total written
  read m n σ' data capacity read := behind.read_split _ m n σ' data capacity read

variable {ι : Type} [DecidableEq ι]

/-- In every reachable state of either flavor, at every endpoint, one batch and the same batch in
two calls end in the same state and deliver the same messages. -/
theorem reachable_batchTransparent (g : Geometry) (ring : Ring) :
    (∀ σ : Synchronized.State g.s,
      Reachable (Synchronized.initial g ring) (Synchronized.Step g) σ →
      σ.written.length * g.s < 2 ^ 64 → g.BatchTransparent .kSynchronizedReadWrite σ.storage) ∧
    (∀ σ : Unsynchronized.State ι g.s,
      Reachable (Unsynchronized.initial g ring) (Unsynchronized.Step g) σ →
      σ.written.length * g.s < 2 ^ 64 →
      g.BatchTransparent .kUnsynchronizedWrite (σ.writerView g) ∧
      ∀ i r, σ.readers i = some r →
        g.BatchTransparent .kUnsynchronizedWrite (σ.readerView g r)) := by
  constructor
  · intro σ reachable total
    exact (Synchronized.reachable_inv reachable total).batchTransparent
  · intro σ reachable total
    have inv := Unsynchronized.reachable_inv reachable total
    have writer : g.Behind (σ.writerView g) 0 σ.written.length :=
      ⟨by simp [Unsynchronized.State.writerView], inv.writePtr, Nat.zero_le _⟩
    exact ⟨writer.batchTransparent, fun i r member => (inv.behind member).batchTransparent⟩

/-- Two messages around the end of a ring of three, in one call and in two; and a ring of three
after two such calls. -/
theorem reachable_batchTransparent_around :
    (∃ σ : Synchronized.State Geometry.three.s, σ.written.length = 2 ∧ σ.delivered.length = 2 ∧
      Geometry.three.BatchTransparent .kSynchronizedReadWrite σ.storage ∧
      ∃ σ₁ σ₂, Geometry.three.writeAll .kSynchronizedReadWrite σ.storage [.replicate _ 7] =
          .ok (true, σ₁) ∧
        Geometry.three.writeAll .kSynchronizedReadWrite σ₁ [.replicate _ 8] = .ok (true, σ₂)) ∧
    ∃ σ : Unsynchronized.State Unit Geometry.three.s, σ.written.length = 4 ∧
      Geometry.three.BatchTransparent .kUnsynchronizedWrite (σ.writerView .three) := by
  have transparent := reachable_batchTransparent (ι := Unit) .three fun _ => 0
  let x : Vector UInt8 Geometry.three.s := .replicate _ 7
  let y : Vector UInt8 Geometry.three.s := .replicate _ 8
  constructor
  · have start : Reachable (Synchronized.initial .three fun _ => 0) (Synchronized.Step .three) _ :=
      .start rfl
    obtain ⟨σ₁, run, -, reader, written₁, delivered₁⟩ :=
      Synchronized.write_run start (by decide) rfl [x, y] (by decide)
    have unread : σ₁.written.length = 2 ∧ σ₁.delivered.length = 0 := by
      simp [written₁, delivered₁]
    obtain ⟨σ, run, -, -, written, delivered⟩ :=
      Synchronized.read_run run (by rw [unread.1]; decide) reader 2
        (by rw [unread.1, unread.2]; decide)
    rw [unread.2] at delivered
    have two : σ.written.length = 2 := by rw [written, unread.1]
    have total : σ.written.length * Geometry.three.s < 2 ^ 64 := by rw [two]; decide
    have inv := Synchronized.reachable_inv run total
    have counts := inv.counts
    rw [two, delivered] at counts
    have sync := transparent.1 σ run total
    have both := counts.write_accepts ([x] ++ [y]) 2 rfl (by decide)
    have bytes : σ.storage.writePtr.toNat + ([x].length + [y].length) * Geometry.three.s <
        2 ^ 64 := by
      rw [inv.writePtr, two]
      decide
    obtain ⟨σ₂, first, second⟩ := sync.write [x] [y] _ (by decide) bytes both
    exact ⟨σ, two, delivered, sync, σ₂, _, first, second⟩
  · have start : Reachable (Unsynchronized.initial (ι := Unit) .three fun _ => 0)
        (Unsynchronized.Step .three) _ := .start rfl
    have first := start.next (a := .write [x, y] true)
      (.write rfl (by decide) (Geometry.three.write_unsynchronized _ _ _ rfl (by decide)))
    have second := first.next (a := .write [y, x] true)
      (.write rfl (by decide) (Geometry.three.write_unsynchronized _ _ _ rfl (by decide)))
    exact ⟨_, rfl, (transparent.2 _ second (by decide)).1⟩

end Fmq
