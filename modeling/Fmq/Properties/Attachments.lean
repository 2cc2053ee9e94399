import Fmq.Model.Attachments
import Fmq.Properties.Accepted
import Fmq.Properties.WholeWrites

/-!
# Attaching a reader

With `resetPointers = false` a constructor leaves the shared write counter alone, and its endpoint
is one more reader of the same stream. The default arguments set the write counter to zero. Where
that moves it, the endpoints that are there take what is written next for what they have seen.
-/
namespace Fmq.Attachments

open Fmq.Geometry (single)
open Function Memory Segments Transition

variable {ι : Type} {g : Geometry}

/-- What the constructor does to the memory that it finds. -/
theorem attach_eq {os : Platform} {desc : aidl.MQDescriptor} {resetPointers : Bool}
    {mq : MessageQueueBase} (constructed : (Source.mqDescriptor desc resetPointers).construct os
      .kUnsynchronizedWrite (queue g).sizeofT = .ok mq) (valid : mq.isValid = true) (σ : Storage) :
    mq.attach σ = ⟨σ.ring, 0, if resetPointers then 0 else σ.writePtr⟩ := by
  obtain ⟨_, -, done⟩ := MessageQueueBase.ofDescriptor_done constructed valid
  have completed := MessageQueueBase.initMemory_completed done valid
  unfold MessageQueueBase.attach
  rw [completed.readStored, completed.writeStored, if_pos (Or.inr nofun)]
  cases resetPointers <;> rfl

/-! ## The same calls without the constructors -/

/-- A state of the readers' own system, which counts the stream from the last reset at `base`. -/
structure Shadow (σ : State ι g.s) (base : Nat) (υ : Unsynchronized.State ι g.s) : Prop where
  ring : υ.ring = σ.ring
  writePtr : υ.writePtr = σ.writePtr
  readers : ∀ i, υ.readers i = (σ.readers i).map fun e => ⟨e.readPtr, none, []⟩
  written : υ.written = (σ.written.drop base).map some
  base_le : base ≤ σ.written.length

/-- The position of a reader in the stream. -/
def Endpoint.position (e : Endpoint g.s) : Nat := e.readPtr.toNat / g.s

section
variable [DecidableEq ι]

/-- A run of the readers' own system lies behind the state, and every reader collects from where its
counter is. -/
structure Inv (σ : State ι g.s) (base : Nat) (υ : Unsynchronized.State ι g.s) : Prop extends
    Shadow σ base υ where
  reachable : ∃ ring, Reachable (Unsynchronized.initial g ring)
    (Restrict (fun _ => Unsynchronized.WholeWrites) (Unsynchronized.Step g)) υ
  pieces : ∀ i e, σ.readers i = some e →
    Open σ.written (base + e.position) e.attachedAt e.current e.finished

end

variable {σ : State ι g.s} {base : Nat} {υ : Unsynchronized.State ι g.s}

theorem Shadow.length (shadow : Shadow σ base υ) :
    υ.written.length = σ.written.length - base := by
  rw [shadow.written, List.length_map, List.length_drop]

theorem Shadow.total (shadow : Shadow σ base υ) (total : σ.written.length * g.s < 2 ^ 64) :
    υ.written.length * g.s < 2 ^ 64 := by
  refine Nat.lt_of_le_of_lt (Nat.mul_le_mul_right _ ?_) total
  rw [shadow.length]
  exact Nat.sub_le _ _

theorem Shadow.reader (shadow : Shadow σ base υ) {i : ι} {e : Endpoint g.s}
    (member : σ.readers i = some e) : υ.readers i = some ⟨e.readPtr, none, []⟩ := by
  rw [shadow.readers, member]
  rfl

/-- Consecutive messages from the last reset on are consecutive messages of the stream. -/
theorem Shadow.consecutive (shadow : Shadow σ base υ) {p n : Nat} {xs : List (Vector UInt8 g.s)}
    (consecutive : Unsynchronized.Consecutive υ p n xs) :
    xs <+: σ.written.drop (base + p) := by
  rw [List.prefix_iff_getElem?]
  intro j below
  have message := consecutive.2 j xs[j] (List.getElem?_eq_getElem below)
  rw [shadow.written, List.getElem?_map, List.getElem?_drop, Option.map_eq_some_iff] at message
  obtain ⟨x, known, same⟩ := message
  cases same
  rw [List.getElem?_drop, ← known, Nat.add_assoc]

variable [DecidableEq ι]

/-- The states before any reader has joined, from a reset on. -/
theorem inv_of_no_readers (zero : σ.writePtr = 0) (none_ : ∀ i, σ.readers i = none) :
    Inv σ σ.written.length ⟨σ.ring, 0, none, fun _ => none, [], []⟩ where
  ring := rfl
  writePtr := zero.symm
  readers i := by rw [none_ i]; rfl
  written := by rw [List.drop_length]; rfl
  base_le := Nat.le_refl _
  reachable := ⟨σ.ring, .start rfl⟩
  pieces i e member := by
    rw [none_ i] at member
    cases member

/-- One more reader, where the write counter stays as it is. -/
theorem Inv.attach (inv : Inv σ base υ) {i : ι} (fresh : σ.readers i = none) :
    ∃ υ', Inv { σ with
      readers := update σ.readers i (some ⟨0, σ.written.length, [], []⟩) } base υ' := by
  obtain ⟨ring, reachable⟩ := inv.reachable
  have free : υ.readers i = none := by
    rw [inv.readers, fresh]
    rfl
  refine ⟨υ.afterRead i (υ.readerView g .attached) .attached, ?_⟩
  refine ⟨⟨inv.ring, inv.writePtr, ?_, inv.written, inv.base_le⟩,
    ⟨ring, reachable.next (a := Unsynchronized.Action.attach i) ⟨trivial, .attach free⟩⟩, ?_⟩
  · intro j
    by_cases same : j = i
    · subst same
      simp only [Unsynchronized.State.afterRead, update_self, Option.map_some]
      rfl
    · simp only [Unsynchronized.State.afterRead, update_of_ne same, inv.readers]
  · intro j e member
    dsimp only at member
    by_cases same : j = i
    · subst same
      rw [update_self] at member
      cases member
      refine .nil ?_
      simp only [Endpoint.position, UInt64.toNat_zero, Nat.zero_div, Nat.add_zero]
      exact inv.base_le
    · rw [update_of_ne same] at member
      exact inv.pieces j e member

theorem Inv.write (inv : Inv σ base υ) (total : σ.written.length * g.s < 2 ^ 64)
    {xs : List (Vector UInt8 g.s)} {ok : Bool} {storage : Storage} (small : xs.length < 2 ^ 64)
    (returned : (queue g).write ⟨σ.ring, 0, σ.writePtr⟩ (some (flat xs)) (.ofNat xs.length) =
      .ok (ok, storage)) :
    ∃ υ', Inv { σ with
      ring := storage.ring
      writePtr := storage.writePtr
      written := if ok then σ.written ++ xs else σ.written } base υ' := by
  obtain ⟨ring, reachable⟩ := inv.reachable
  obtain ⟨-, settled⟩ := Unsynchronized.reachable_settled reachable (inv.total total)
  have known : (queue g).write (υ.writerView g) (some (flat xs)) (.ofNat xs.length) =
      .ok (ok, storage) := by
    rw [Unsynchronized.State.writerView, inv.ring, inv.writePtr]
    exact returned
  have reached := reachable.next (a := Unsynchronized.Action.write xs ok)
    ⟨trivial, .write settled.idle small known⟩
  refine ⟨_, ⟨⟨?_, ?_, ?_, ?_, ?_⟩, ⟨ring, reached⟩, ?_⟩⟩
  · rfl
  · rfl
  · exact inv.readers
  · cases ok with
    | true => simp [inv.written, List.drop_append_of_le_length inv.base_le]
    | false => exact inv.written
  · cases ok with
    | true => exact Nat.le_trans inv.base_le (by simp)
    | false => exact inv.base_le
  · intro i e member
    cases ok with
    | true => exact (inv.pieces i e member).append xs
    | false => exact inv.pieces i e member

/-- A read that moves the counter of reader `i` as a step of its own system does. -/
theorem Inv.afterRead (inv : Inv σ base υ) {i : ι} {e : Endpoint g.s} {storage : Storage}
    {a : Unsynchronized.Action ι g.s} {ok : Bool} {xs : List (Vector UInt8 g.s)}
    (whole : Unsynchronized.WholeWrites a)
    (taken : Unsynchronized.Step g υ a (υ.afterRead i storage ⟨e.readPtr, none, []⟩))
    (piece : Open σ.written (base + storage.readPtr.toNat / g.s)
      (e.afterRead storage.readPtr ok xs).attachedAt (e.afterRead storage.readPtr ok xs).current
      (e.afterRead storage.readPtr ok xs).finished) :
    Inv { σ with
      ring := storage.ring
      writePtr := storage.writePtr
      readers := update σ.readers i (some (e.afterRead storage.readPtr ok xs)) } base
      (υ.afterRead i storage ⟨e.readPtr, none, []⟩) := by
  obtain ⟨ring, reachable⟩ := inv.reachable
  have readPtr : (e.afterRead storage.readPtr ok xs).readPtr = storage.readPtr := by
    cases ok <;> rfl
  refine ⟨⟨rfl, rfl, ?_, inv.written, inv.base_le⟩, ⟨ring, reachable.next ⟨whole, taken⟩⟩, ?_⟩
  · intro j
    by_cases same : j = i
    · subst same
      simp only [Unsynchronized.State.afterRead, update_self, Option.map_some, readPtr]
    · simp only [Unsynchronized.State.afterRead, update_of_ne same, inv.readers]
  · intro j e' member
    dsimp only at member
    by_cases same : j = i
    · subst same
      rw [update_self] at member
      cases member
      rw [Endpoint.position, readPtr]
      exact piece
    · rw [update_of_ne same] at member
      exact inv.pieces j e' member

theorem Inv.read (inv : Inv σ base υ) (total : σ.written.length * g.s < 2 ^ 64) {i : ι}
    {e : Endpoint g.s} {n : UInt64} {ok : Bool} {storage : Storage} {data : Option (List UInt8)}
    (member : σ.readers i = some e) (fits : n.toNat * g.s < 2 ^ 64)
    (returned : (queue g).read ⟨σ.ring, e.readPtr, σ.writePtr⟩ true n = .ok (ok, storage, data)) :
    ∃ υ', Inv { σ with
      ring := storage.ring
      writePtr := storage.writePtr
      readers := update σ.readers i (some
        (e.afterRead storage.readPtr ok (records g.s n.toNat (data.getD [])))) } base υ' := by
  obtain ⟨ring, reachable⟩ := inv.reachable
  obtain ⟨counters, settled⟩ := Unsynchronized.reachable_settled reachable (inv.total total)
  have behind := counters.behind (inv.reader member)
  have view : υ.readerView g ⟨e.readPtr, none, []⟩ = ⟨σ.ring, e.readPtr, σ.writePtr⟩ := by
    rw [Unsynchronized.State.readerView, inv.ring, inv.writePtr]
  have piece := inv.pieces i e member
  rw [← view, behind.read _ n fits] at returned
  have ordered := behind.ordered
  split at returned
  next far =>
    -- Lapped: any read would have moved the counter to the write position.
    have known := behind.read .kUnsynchronizedWrite 0 (by simp)
    rw [if_pos far] at known
    cases returned
    refine ⟨_, inv.afterRead (a := Unsynchronized.Action.read i 0 false none) trivial
      (.read (inv.reader member) rfl (Nat.zero_le _) known) (piece.close ?_)⟩
    rw [behind.skip.readPosition]
    exact Nat.add_le_add_left ordered base
  next near =>
    split at returned
    next enough =>
      have known := behind.read .kUnsynchronizedWrite n fits
      rw [if_neg near, if_pos enough] at known
      have consecutive := inv.consecutive (settled.window counters (by omega) enough)
      have next := piece.extend consecutive
      rw [RecordRing.length_window] at next
      cases returned
      refine ⟨_, inv.afterRead (a := Unsynchronized.Action.read i n true _) trivial
        (.read (inv.reader member) rfl (by omega) known) ?_⟩
      rw [(behind.popped n enough).readPosition, Option.getD_some, RecordRing.records_window,
        ← Nat.add_assoc]
      exact next
    next short =>
      cases returned
      refine ⟨_, inv.afterRead (a := Unsynchronized.Action.abandonRead i) trivial
        (.abandonRead (inv.reader member)) (piece.close ?_)⟩
      exact Nat.le_refl _

/-! ## Runs -/

/-- The stream only grows. -/
theorem Step.written_grows {a : Action ι g.s} {τ : State ι g.s} (taken : Step g σ a τ) :
    σ.written <+: τ.written := by
  cases taken with
  | attach => exact List.prefix_refl _
  | @write xs ok =>
    cases ok with
    | true => exact List.prefix_append _ _
    | false => exact List.prefix_refl _
  | read => exact List.prefix_refl _

theorem Inv.step (inv : Inv σ base υ) (total : σ.written.length * g.s < 2 ^ 64)
    {a : Action ι g.s} {τ : State ι g.s} (harmless : Harmless σ a) (taken : Step g σ a τ) :
    ∃ base' υ', Inv τ base' υ' := by
  cases taken with
  | @attach i os desc resetPointers mq uninitialized storage fresh constructed valid _ attached =>
    rw [attach_eq constructed valid] at attached
    subst attached
    by_cases moves : resetPointers = true ∧ σ.writePtr ≠ 0
    · -- The write counter goes back to zero, and there is nobody to notice.
      obtain ⟨rfl, nonzero⟩ := moves
      have none_ := harmless.resolve_left nonzero
      have restarted := inv_of_no_readers (σ := { σ with writePtr := 0 }) rfl none_
      exact ⟨_, restarted.attach fresh⟩
    · have kept : (if resetPointers then 0 else σ.writePtr) = σ.writePtr := by
        cases resetPointers with
        | true => exact (not_not.mp fun nonzero => moves ⟨rfl, nonzero⟩).symm
        | false => rfl
      dsimp only
      rw [kept]
      exact ⟨base, inv.attach fresh⟩
  | write small returned => exact ⟨base, inv.write total small returned⟩
  | read member fits returned => exact ⟨base, inv.read total member fits returned⟩

/-- In every run in which no constructor moves the write counter under a reader, every reader gets
consecutive messages between two failed reads. -/
theorem reachable_undisturbed {ring : Ring}
    (reachable : Reachable (initial g ring) (Restrict Harmless (Step g)) σ)
    (total : σ.written.length * g.s < 2 ^ 64) {i : ι} {e : Endpoint g.s}
    (member : σ.readers i = some e) : Undisturbed σ.written e := by
  have holds : ∃ base υ, Inv σ base υ := by
    refine reachable.invariant_within (fun σ => σ.written.length * g.s < 2 ^ 64)
      (fun σ => ∃ base υ, Inv σ base υ) ?_ ?_ ?_ total
    · intro σ start
      cases start
      exact ⟨_, _, inv_of_no_readers rfl fun _ => rfl⟩
    · intro σ a τ taken bounded
      exact Nat.lt_of_le_of_lt (Nat.mul_le_mul_right _ taken.2.written_grows.length_le) bounded
    · rintro σ a τ ⟨base, υ, inv⟩ bounded ⟨harmless, taken⟩
      have before := Nat.mul_le_mul_right g.s taken.written_grows.length_le
      exact inv.step (by omega) harmless taken
  obtain ⟨base, υ, inv⟩ := holds
  have piece := inv.pieces i e member
  obtain ⟨ring, reached⟩ := inv.reachable
  obtain ⟨counters, -⟩ := Unsynchronized.reachable_settled reached (inv.total total)
  -- No reader is ahead of the writer.
  have ordered : e.position ≤ υ.written.length := (counters.behind (inv.reader member)).ordered
  rw [inv.length] at ordered
  have le := inv.base_le
  refine ⟨piece.inOrder (by omega), fun none_failed => ?_⟩
  obtain ⟨start, -, current, -, early⟩ := piece
  exact ⟨start, early none_failed, current⟩

/-- An importing constructor for the smallest ring. -/
theorem construct_single (resetPointers : Bool) : ∃ mq,
    (Source.mqDescriptor ⟨[⟨0, 0, 8⟩, ⟨0, 8, 8⟩, ⟨0, 16, 1⟩], ⟨[3], []⟩, 1, 2⟩
        resetPointers).construct .generous .kUnsynchronizedWrite (queue single).sizeofT = .ok mq ∧
      mq.isValid = true ∧
      mq.queue .kUnsynchronizedWrite (queue single).sizeofT = some (queue single) := by
  cases resetPointers <;> exact ⟨_, rfl, rfl, rfl⟩

theorem attach_single {σ : State Bool single.s} {i : Bool} (fresh : σ.readers i = none)
    (resetPointers : Bool) : Step single σ (.attach i resetPointers)
      { σ with
        writePtr := if resetPointers then 0 else σ.writePtr
        readers := update σ.readers i (some ⟨0, σ.written.length, [], []⟩) } := by
  obtain ⟨mq, constructed, valid, same⟩ := construct_single resetPointers
  exact .attach fresh constructed valid same (attach_eq constructed valid ⟨σ.ring, 0, σ.writePtr⟩)

theorem write_single {σ : State Bool single.s} (x : Vector UInt8 single.s) :
    Step single σ (.write [x] true)
      { σ with
        ring := RecordRing.put 1 1 σ.ring (σ.writePtr.toNat / 1) [x]
        writePtr := σ.writePtr + 1
        written := σ.written ++ [x] } := by
  have returned := single.write_unsynchronized ⟨σ.ring, 0, σ.writePtr⟩ [x] 1 rfl (Nat.one_dvd _)
  have capacity : [x].length ≤ single.N := Nat.le_refl 1
  rw [if_pos capacity] at returned
  have small : [x].length < 2 ^ 64 := (by decide : 1 < 2 ^ 64)
  exact .write small returned

/-- A read of one message by a reader that is not lapped. -/
theorem read_single {σ : State Bool single.s} {i : Bool} {e : Endpoint single.s} {p w : Nat}
    (member : σ.readers i = some e) (behind : single.Behind ⟨σ.ring, e.readPtr, σ.writePtr⟩ p w)
    (next : w = p + 1) : Step single σ (.read i 1 true)
      { σ with
        readers := update σ.readers i (some
          { e with
            readPtr := e.readPtr + 1
            current := e.current ++ RecordRing.window single.s single.N σ.ring p 1 }) } := by
  have returned := behind.read .kUnsynchronizedWrite 1 (by decide)
  have near : ¬ single.N < w - p := by
    rw [next, Nat.add_sub_cancel_left]
    decide
  have enough : p + (1 : UInt64).toNat ≤ w := Nat.le_of_eq next.symm
  rw [if_neg near, if_pos enough] at returned
  have taken := Step.read member (by decide) returned
  rw [Option.getD_some, RecordRing.records_window] at taken
  exact taken

/-- The default arguments on an empty queue, and `resetPointers = false` between two reads. -/
theorem reachable_undisturbed_single : ∃ (σ : State Bool single.s) (e : Endpoint single.s),
    σ.readers false = some e ∧ e.current = [#v[1], #v[2]] ∧ Undisturbed σ.written e := by
  have start : Reachable (initial (ι := Bool) single fun _ => 0) (Restrict Harmless (Step single))
      ⟨fun _ => 0, 0, fun _ => none, []⟩ := .start rfl
  have joined := start.next (a := Action.attach false true) ⟨Or.inl rfl, attach_single rfl true⟩
  have first := joined.next (a := Action.write [#v[1]] true) ⟨trivial, write_single _⟩
  have read := first.next (a := Action.read false 1 true)
    ⟨trivial, read_single (p := 0) (w := 1) rfl ⟨rfl, rfl, by decide⟩ rfl⟩
  have other := read.next (a := Action.attach true false) ⟨trivial, attach_single rfl false⟩
  have second := other.next (a := Action.write [#v[2]] true) ⟨trivial, write_single _⟩
  have last := second.next (a := Action.read false 1 true)
    ⟨trivial, read_single (p := 1) (w := 2) rfl ⟨rfl, rfl, by decide⟩ rfl⟩
  have undisturbed := reachable_undisturbed (i := false) last (by decide) rfl
  exact ⟨_, _, rfl, rfl, undisturbed⟩

/-- The default arguments between two reads: the second message is left out. -/
theorem not_undisturbed : ¬ ∀ (g : Geometry) (ring : Ring) (σ : State Bool g.s),
    Reachable (initial g ring) (Step g) σ → σ.written.length * g.s < 2 ^ 64 →
    ∀ i e, σ.readers i = some e → Undisturbed σ.written e := by
  intro all
  have start : Reachable (initial (ι := Bool) single fun _ => 0) (Step single)
      ⟨fun _ => 0, 0, fun _ => none, []⟩ := .start rfl
  have joined := start.next (a := Action.attach false true) (attach_single rfl true)
  have first := joined.next (a := Action.write [#v[1]] true) (write_single _)
  have read := first.next (a := Action.read false 1 true)
    (read_single (p := 0) (w := 1) rfl ⟨rfl, rfl, by decide⟩ rfl)
  -- The write counter is zero again, the read counter of the first reader is not.
  have other := read.next (a := Action.attach true true) (attach_single rfl true)
  have second := other.next (a := Action.write [#v[2]] true) (write_single _)
  have third := second.next (a := Action.write [#v[3]] true) (write_single _)
  have last := third.next (a := Action.read false 1 true)
    (read_single (p := 1) (w := 2) rfl ⟨rfl, rfl, by decide⟩ rfl)
  obtain ⟨start, within, piece, -⟩ := (all single _ _ last (by decide) false _ rfl).segments
  have short : start < 2 :=
    Nat.lt_of_succ_lt_succ (Nat.lt_of_succ_lt_succ (Nat.lt_succ_of_le within))
  have nowhere : ∀ start < 2,
      ¬ [#v[(1 : UInt8)], #v[3]] <+: [#v[1], #v[2], #v[3]].drop start := by decide
  exact nowhere start short piece

end Fmq.Attachments
