import Fmq.Lib.Cutting
import Fmq.Properties.Extents
import Fmq.Properties.Ranges

/-!
# Copies in pieces

A granted write transaction may be filled by one `copyTo` or by one for each piece of any cutting
of the data, in any order, and be read back piece by piece, as long as its two regions do not
overlap. They do overlap over some extents that are no multiple of the message size.
-/
namespace Fmq

open Cutting Memory Scatter

namespace MemTransaction

/-- `copyTo(piece, start, length)` for one piece after the other, as long as the calls succeed. -/
def copyPieces {s : Nat} (tx : MemTransaction) (sizeofT : UInt64) (ring : Ring) :
    List (Piece (Vector UInt8 s)) → Call (Bool × Ring)
  | [] => .ok (true, ring)
  | piece :: rest => do
    let (ok, ring) ← tx.copyTo sizeofT ring (some (flat piece.items)) (.ofNat piece.start)
      (.ofNat piece.items.length)
    if !ok then return (false, ring)
    tx.copyPieces sizeofT ring rest

/-- However the data is cut and in whatever order its pieces are copied, the ring ends as after
one copy; only granted slots change; and the data is read back in pieces of any cutting. -/
def Composes (tx : MemTransaction) (sizeofT n : UInt64) : Prop :=
  ∀ (ring : Ring) (data : List (Vector UInt8 sizeofT.toNat)), data.length = n.toNat →
    ∃ ring', tx.copyTo sizeofT ring (some (flat data)) 0 n = .ok (true, ring') ∧
      (∀ cut order, cut.flatten = data → order.Perm (pieces 0 cut) →
        tx.copyPieces sizeofT ring order = .ok (true, ring')) ∧
      (∀ x, ¬ tx.Covers sizeofT.toNat x → ring' x = ring x) ∧
      (∀ cut, cut.flatten = data → ∀ piece ∈ pieces 0 cut,
        tx.copyFrom sizeofT ring' true (.ofNat piece.start) (.ofNat piece.items.length) =
          .ok (some (flat piece.items)))

variable {tx : MemTransaction} {sizeofT n : UInt64}

/-- The ring after one piece was copied. -/
def putPiece {s : Nat} (tx : MemTransaction) (ring : Ring) (piece : Piece (Vector UInt8 s)) :
    Ring :=
  scatter ring (fun i => tx.slotOffset s (piece.start + i)) piece.items

/-- Counts inside a transaction are their own 64-bit values. -/
theorem toNat_inside {k : Nat} (inside : k ≤ n.toNat) : (UInt64.ofNat k).toNat = k :=
  UInt64.toNat_ofNat_of_lt' (Nat.lt_of_le_of_lt inside n.toNat_lt)

theorem Grants.copyPieces (grants : tx.Grants n) (fits : n.toNat * sizeofT.toNat < 2 ^ 64)
    (order : List (Piece (Vector UInt8 sizeofT.toNat)))
    (inside : ∀ piece ∈ order, piece.stop ≤ n.toNat) (ring : Ring) :
    tx.copyPieces sizeofT ring order = .ok (true, order.foldl tx.putPiece ring) := by
  induction order generalizing ring with
  | nil => rfl
  | cons piece rest ih =>
    have within := inside piece List.mem_cons_self
    unfold Piece.stop at within
    have start := toNat_inside (n := n) (k := piece.start) (by omega)
    have length := toNat_inside (n := n) (k := piece.items.length) (by omega)
    have bytes : (UInt64.ofNat piece.items.length).toNat * sizeofT.toNat < 2 ^ 64 :=
      Nat.lt_of_le_of_lt (Nat.mul_le_mul_right _ (by omega)) fits
    have room : (UInt64.ofNat piece.start).toNat + (UInt64.ofNat piece.items.length).toNat ≤
        n.toNat := by omega
    have copied := grants.copyTo_range bytes ring piece.items length room
    rw [start] at copied
    have later := ih fun piece member => inside piece (List.mem_cons_of_mem _ member)
    simp only [MemTransaction.copyPieces, copied, bind, Except.bind, Bool.not_true,
      Bool.false_eq_true, if_false, later, List.foldl_cons, putPiece]

/-- In the order of the list, the pieces are one run of messages. -/
theorem foldl_putPiece {s : Nat} (tx : MemTransaction) (start : Nat)
    (cut : List (List (Vector UInt8 s))) (ring : Ring) :
    (pieces start cut).foldl tx.putPiece ring =
      scatter ring (fun i => tx.slotOffset s (start + i)) cut.flatten := by
  induction cut generalizing start ring with
  | nil => rfl
  | cons items cut ih =>
    rw [pieces, List.foldl_cons, ih, List.flatten_cons, scatter_append, putPiece]
    simp only [Nat.add_assoc]

/-- Pieces apart go to slots of their own, so they may be copied in either order. -/
theorem putPiece_comm {s : Nat} (separate : Separate s (tx.slotOffset s) n.toNat)
    {a b : Piece (Vector UInt8 s)} (inside_a : a.stop ≤ n.toNat) (inside_b : b.stop ≤ n.toNat)
    (apart : a.Apart b) (ring : Ring) :
    tx.putPiece (tx.putPiece ring a) b = tx.putPiece (tx.putPiece ring b) a := by
  unfold Piece.Apart at apart
  unfold Piece.stop at inside_a inside_b apart
  refine scatter_comm _ _ _ _ _ fun i below j below' => ?_
  rcases apart with before | after
  · exact separate _ _ (by omega) (by omega)
  · exact (separate (b.start + j) (a.start + i) (by omega) (by omega)).symm

/-- Slots that do not overlap hold what was copied to them. -/
theorem Grants.composes (grants : tx.Grants n) (fits : n.toNat * sizeofT.toNat < 2 ^ 64)
    (separate : Separate sizeofT.toNat (tx.slotOffset sizeofT.toNat) n.toNat) :
    tx.Composes sizeofT n := by
  intro ring data length
  -- Every piece of a cutting of the data lies inside the transaction.
  have within : ∀ cut : List (List (Vector UInt8 sizeofT.toNat)), cut.flatten = data →
      ∀ piece ∈ pieces 0 cut, piece.stop ≤ n.toNat := by
    intro cut whole piece member
    have inside := (pieces_within member).2
    rwa [whole, length, Nat.zero_add] at inside
  refine ⟨_, grants.copyTo fits ring data length.symm, ?_, ?_, ?_⟩
  · intro cut order whole perm
    have inside := within cut whole
    rw [grants.copyPieces fits order fun piece member => inside piece (perm.mem_iff.mp member),
      foldl_perm perm fun a first b second apart m =>
        putPiece_comm separate (inside a first) (inside b second) apart m,
      foldl_putPiece, whole]
    simp only [Nat.zero_add]
  · intro x uncovered
    refine scatter_outside _ _ _ fun i below => ?_
    by_contra inside
    exact uncovered ⟨i, by unfold slots; rw [grants.count]; omega, by omega, by omega⟩
  · intro cut whole piece member
    have inside := within cut whole piece member
    unfold Piece.stop at inside
    have start := toNat_inside (n := n) (k := piece.start) (by omega)
    have size := toNat_inside (n := n) (k := piece.items.length) (by omega)
    have bytes : (UInt64.ofNat piece.items.length).toNat * sizeofT.toNat < 2 ^ 64 :=
      Nat.lt_of_le_of_lt (Nat.mul_le_mul_right _ (by omega)) fits
    have room : (UInt64.ofNat piece.start).toNat + (UInt64.ofNat piece.items.length).toNat ≤
        n.toNat := by omega
    have read := grants.copyFrom_range bytes (scatter ring (tx.slotOffset sizeofT.toNat) data) room
    have held := gather_scatter ring (tx.slotOffset sizeofT.toNat) data (length ▸ separate)
    have segment := pieces_items member
    rw [Nat.sub_zero, whole] at segment
    rw [start, size, gather_segment _ _ inside, ← length, held, ← segment] at read
    exact read

/-- Slots that overlap do not: the data of one copy is not read back. -/
theorem Grants.separate (grants : tx.Grants n) (fits : n.toNat * sizeofT.toNat < 2 ^ 64)
    (composes : tx.Composes sizeofT n) :
    Separate sizeofT.toNat (tx.slotOffset sizeofT.toNat) n.toNat := by
  by_contra overlap
  obtain ⟨data, length, differ⟩ := gather_scatter_overlap (show (0 : UInt8) ≠ 1 by decide)
    (fun _ => 0) _ overlap
  obtain ⟨ring', copied, -, -, readBack⟩ := composes (fun _ => 0) data length
  rw [grants.copyTo fits _ _ length.symm] at copied
  cases copied
  have read := readBack [data] (by simp) ⟨0, data⟩ List.mem_cons_self
  have whole := grants.copyFrom fits (scatter (fun _ => 0) (tx.slotOffset sizeofT.toNat) data)
  rw [length, UInt64.ofNat_toNat] at read
  have same := whole.symm.trans read
  rw [Except.ok.injEq, Option.some.injEq] at same
  exact differ (flat_injective (by rw [length]; simp [gather]) same)

end MemTransaction

/-! ## Granted transactions -/

namespace Queue

variable {q : Queue} {σ : Storage} {n : UInt64} {old tx : MemTransaction}

/-- The two regions for `n` messages from the counter value `writePtr` on do not overlap. -/
def RegionsApart (q : Queue) (writePtr n : UInt64) : Prop :=
  let offset := writePtr.toNat % q.getSize.toNat
  let contiguousMessages := (q.getSize.toNat - offset) / q.sizeofT.toNat
  n.toNat ≤ contiguousMessages ∨ contiguousMessages = 0 ∨
    (n.toNat - contiguousMessages) * q.sizeofT.toNat ≤ offset

theorem separate_consecutive (s offset n : Nat) : Separate s (fun i => offset + i * s) n := by
  intro i j less _
  have next := Nat.mul_le_mul_right s (Nat.succ_le_of_lt less)
  rw [Nat.succ_mul] at next
  exact Or.inl (by dsimp only; omega)

/-- Slots of two regions, the second one at the start of the ring. -/
theorem separate_iff {s offset c n : Nat} (wraps : c < n) :
    Separate s (fun i => if i < c then offset + i * s else (i - c) * s) n ↔
      c = 0 ∨ (n - c) * s ≤ offset := by
  constructor
  · intro separate
    by_contra overlap
    rw [not_or, Nat.not_le] at overlap
    -- The first slot begins inside a slot of the second region.
    obtain ⟨j, below, lower, upper⟩ := exists_record (s := s) (Nat.zero_le offset)
      (by rw [Nat.zero_add]; exact overlap.2)
    have apart := separate 0 (c + j) (by omega) (by omega)
    unfold Apart at apart
    dsimp only at apart
    rw [if_pos (by omega), if_neg (by omega), Nat.add_sub_cancel_left] at apart
    omega
  · intro apart i j less below
    dsimp only
    have next := Nat.mul_le_mul_right s (Nat.succ_le_of_lt less)
    rw [Nat.succ_mul] at next
    by_cases second : j < c
    · rw [if_pos (by omega), if_pos second]
      exact Or.inl (by omega)
    by_cases first : i < c
    · -- The last slot of the second region ends before the first one.
      have last := Nat.mul_le_mul_right s (show j - c + 1 ≤ n - c by omega)
      rw [Nat.succ_mul] at last
      rw [if_pos first, if_neg second]
      exact Or.inr (by omega)
    · have behind := Nat.mul_le_mul_right s (show i - c + 1 ≤ j - c by omega)
      rw [Nat.succ_mul] at behind
      rw [if_neg first, if_neg second]
      exact Or.inl behind

/-- What `transactionFrom` grants, and when its slots do not overlap. -/
theorem transactionFrom_separate (pos : q.sizeofT ≠ 0) (size : q.getSize ≠ 0) (ptr n : UInt64) :
    ∃ tx, q.transactionFrom ptr n = .ok tx ∧ tx.Grants n ∧
      (Separate q.sizeofT.toNat (tx.slotOffset q.sizeofT.toNat) n.toNat ↔
        q.RegionsApart ptr n) := by
  have extent : 0 < q.getSize.toNat :=
    Nat.pos_of_ne_zero fun zero => size (UInt64.toNat_inj.mp zero)
  have offset : (ptr % q.getSize).toNat = ptr.toNat % q.getSize.toNat := UInt64.toNat_mod _ _
  have below : ptr % q.getSize ≤ q.getSize := by
    rw [UInt64.le_iff_toNat_le, offset]
    exact Nat.le_of_lt (Nat.mod_lt _ extent)
  have contiguous : ((q.getSize - ptr % q.getSize) / q.sizeofT).toNat =
      (q.getSize.toNat - ptr.toNat % q.getSize.toNat) / q.sizeofT.toNat := by
    rw [UInt64.toNat_div, UInt64.toNat_sub_of_le _ _ below, offset]
  unfold transactionFrom RegionsApart
  dsimp only
  rw [← contiguous, ← offset]
  simp only [mod_ok _ size, div_ok _ pos, bind, Except.bind, pure, Except.pure]
  generalize (q.getSize - ptr % q.getSize) / q.sizeofT = c
  split
  next wraps =>
    rw [UInt64.lt_iff_toNat_lt] at wraps
    have rest := UInt64.toNat_sub_of_le n c (UInt64.le_iff_toNat_le.mpr (Nat.le_of_lt wraps))
    refine ⟨_, rfl, ⟨by dsimp only; omega, rfl, fun _ => rfl⟩, ?_⟩
    rw [or_iff_right (Nat.not_le.mpr wraps), ← separate_iff wraps]
    unfold MemTransaction.slotOffset
    simp only [Nat.zero_add]
  next fits =>
    rw [UInt64.lt_iff_toNat_lt, Nat.not_lt] at fits
    refine ⟨_, rfl, ⟨rfl, rfl, fun some_second => absurd rfl some_second⟩,
      iff_of_true ?_ (Or.inl fits)⟩
    intro i j less inside
    unfold MemTransaction.slotOffset
    rw [if_pos (Nat.lt_trans less inside), if_pos inside]
    exact separate_consecutive _ _ _ i j less inside

theorem mod_eq_ok {a b c : UInt64} : mod a b = .ok c ↔ b ≠ 0 ∧ c = a % b := by
  unfold mod
  split
  next zero => simp [zero]
  next pos => simp [pos, eq_comm]

/-- No more messages than the capacity are granted. -/
theorem refusesWrite_capacity {loads : BeginWriteLoads}
    (accepted : q.refusesWrite loads n = .ok false) :
    n.toNat * q.getQuantum.toNat ≤ q.getSize.toNat := by
  have capacity : ∀ {refused}, (do return decide (n > (← q.getQuantumCount)) : Call Bool) =
      .ok refused → refused = false → n.toNat * q.getQuantum.toNat ≤ q.getSize.toNat := by
    intro refused counted free
    obtain ⟨count, divided, decided⟩ := bind_eq_ok.mp counted
    unfold getQuantumCount div at divided
    split at divided
    next => cases divided
    next =>
      cases divided
      cases decided
      have few := of_decide_eq_false free
      rw [gt_iff_lt, UInt64.lt_iff_toNat_lt, UInt64.toNat_div, Nat.not_lt] at few
      exact Nat.le_trans (Nat.mul_le_mul_right _ few) (Nat.div_mul_le_self _ _)
  unfold refusesWrite at accepted
  split at accepted
  next =>
    obtain ⟨available, -, accepted⟩ := bind_eq_ok.mp accepted
    split at accepted
    next => cases accepted
    next => exact capacity accepted rfl
  next => exact capacity accepted rfl

/-- What a granted `beginWrite` has checked, on a queue of this payload type. -/
theorem granted_cases (quantum : q.getQuantum = q.sizeofT)
    (granted : q.beginWrite σ n old = .ok (true, tx)) :
    q.sizeofT ≠ 0 ∧ q.getSize ≠ 0 ∧ n.toNat * q.sizeofT.toNat ≤ q.getSize.toNat ∧
      q.sizeofT.toNat ∣ σ.writePtr.toNat ∧ q.transactionFrom σ.writePtr n = .ok tx := by
  unfold beginWrite beginWriteWith at granted
  obtain ⟨refused, room, granted⟩ := bind_eq_ok.mp granted
  split at granted
  next => cases granted
  next accepted =>
    obtain ⟨rest, aligned, granted⟩ := bind_eq_ok.mp granted
    split at granted
    next => cases granted
    next exact_ =>
      obtain ⟨tx', built, granted⟩ := bind_eq_ok.mp granted
      cases granted
      obtain ⟨pos, rfl⟩ := mod_eq_ok.mp aligned
      obtain ⟨_, offset, -⟩ := bind_eq_ok.mp built
      refine ⟨pos, (mod_eq_ok.mp offset).1, ?_, ?_, built⟩
      · have capacity := refusesWrite_capacity (Bool.eq_false_iff.mpr accepted ▸ room)
        rw [quantum] at capacity
        exact capacity
      · exact Nat.dvd_of_mod_eq_zero (by simpa using congrArg UInt64.toNat (not_not.mp exact_))

/-- A granted transaction is copied to in any pieces, in any order, and read back, if and only if
its regions do not overlap. -/
theorem composes_iff (quantum : q.getQuantum = q.sizeofT)
    (granted : q.beginWrite σ n old = .ok (true, tx)) :
    tx.Composes q.sizeofT n ↔ q.RegionsApart σ.writePtr n := by
  obtain ⟨pos, size, room, -, built⟩ := granted_cases quantum granted
  obtain ⟨tx', built', grants, separate⟩ := transactionFrom_separate pos size σ.writePtr n
  cases built.symm.trans built'
  have fits := Nat.lt_of_le_of_lt room q.getSize.toNat_lt
  rw [← separate]
  exact ⟨grants.separate fits, grants.composes fits⟩

/-- Two messages of three bytes in a ring of seven, the second one first. -/
theorem composes_iff_reversed :
    let tx : MemTransaction := ⟨⟨⟨.ring, 3⟩, 1⟩, ⟨⟨.ring, 0⟩, 1⟩⟩
    let x : Vector UInt8 3 := .replicate 3 1
    let y : Vector UInt8 3 := .replicate 3 2
    ∃ ring', tx.copyTo 3 (fun _ => 0) (some (flat [x, y])) 0 2 = .ok (true, ring') ∧
      tx.copyPieces 3 (fun _ => 0) [⟨1, [y]⟩, ⟨0, [x]⟩] = .ok (true, ring') := by
  intro tx x y
  let q : Queue := ⟨.kSynchronizedReadWrite, 3, 7, 3⟩
  have granted : q.beginWrite ⟨fun _ => 0, 3, 3⟩ 2 .empty = .ok (true, tx) := by decide
  have apart : q.RegionsApart 3 2 := by
    unfold RegionsApart
    decide
  obtain ⟨ring', once, inPieces, -, -⟩ :=
    (composes_iff rfl granted).mpr apart (fun _ => 0) [x, y] rfl
  exact ⟨ring', once, inPieces [[x], [y]] _ rfl (List.Perm.swap _ _ [])⟩

/-- At counter 9 the two messages get the bytes 2 to 4 and 0 to 2 of such a ring. -/
theorem not_composes : ¬ ∀ (q : Queue) (σ : Storage) (n : UInt64) (old tx : MemTransaction),
    q.getQuantum = q.sizeofT → q.beginWrite σ n old = .ok (true, tx) →
    tx.Composes q.sizeofT n := by
  intro all
  let tx : MemTransaction := ⟨⟨⟨.ring, 2⟩, 1⟩, ⟨⟨.ring, 0⟩, 1⟩⟩
  have composes := all ⟨.kSynchronizedReadWrite, 3, 7, 3⟩ ⟨fun _ => 0, 9, 9⟩ 2 .empty tx rfl
    (by decide)
  have separate := MemTransaction.Grants.separate ⟨rfl, rfl, fun _ => rfl⟩ (by decide) composes
  have apart := separate 0 1 (by decide) (by decide)
  unfold Apart at apart
  exact absurd apart (by decide)

/-- Over a whole number of messages the regions never overlap. -/
theorem RegionsApart.of_dvd (quantum : q.getQuantum = q.sizeofT)
    (granted : q.beginWrite σ n old = .ok (true, tx))
    (divides : q.sizeofT.toNat ∣ q.getSize.toNat) : q.RegionsApart σ.writePtr n := by
  obtain ⟨pos, size, room, aligned, -⟩ := granted_cases quantum granted
  have positive : 0 < q.sizeofT.toNat :=
    Nat.pos_of_ne_zero fun zero => pos (UInt64.toNat_inj.mp zero)
  have extent : 0 < q.getSize.toNat :=
    Nat.pos_of_ne_zero fun zero => size (UInt64.toNat_inj.mp zero)
  have below := Nat.mod_lt σ.writePtr.toNat extent
  -- The offset is a whole number of messages too.
  obtain ⟨a, offset⟩ := (Nat.dvd_mod_iff divides).mpr aligned
  obtain ⟨N, capacity⟩ := divides
  unfold RegionsApart
  rw [offset] at below ⊢
  rw [capacity] at below room ⊢
  dsimp only
  rw [← Nat.mul_sub, Nat.mul_div_cancel_left _ positive, Nat.mul_comm _ a]
  have few := Nat.le_of_mul_le_mul_left (Nat.mul_comm _ _ ▸ room) positive
  have inside := Nat.lt_of_mul_lt_mul_left below
  refine Or.inr (Or.inr (Nat.mul_le_mul_right _ (by omega)))

end Queue
end Fmq
