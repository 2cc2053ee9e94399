import Fmq.Lib.JsonTree
import Fmq.Model.Calls
import Fmq.Model.NamedRegions
import Fmq.Properties.Extents
import Fmq.Properties.Division
import Fmq.Properties.Layout

/-!
# Queues without a name

All queues of the MSVC build that are not given a name have the same region. What one of them
writes moves the counters of every other one.
-/
namespace Fmq

open Memory details Msvc

/-! ## Calls on an empty queue -/

theorem Storage.eq_reset {σ : Storage} (readPtr : σ.readPtr = 0) (writePtr : σ.writePtr = 0) :
    σ = .reset σ.ring := by
  obtain ⟨ring, _, _⟩ := σ
  cases readPtr
  cases writePtr
  rfl

theorem Msvc.QueueCall.Moves.pos {call : QueueCall} {N : Nat} (moves : call.Moves N) : 0 < N := by
  cases call with
  | write data n => exact Nat.lt_of_lt_of_le moves.2.1 moves.2.2
  | read hasData n => exact moves.elim

theorem memcpyTo_total {base : Ptr} {offset : Nat} {n : UInt64} (ring : Ring) (bytes : List UInt8)
    (sizeofT : UInt64) (known : n ≠ 0 → base = ⟨.ring, offset⟩) :
    ∃ ring', memcpyTo ring base bytes sizeofT n = .ok ring' ∧ (n = 0 → ring' = ring) := by
  unfold memcpyTo
  split
  next zero => exact ⟨ring, rfl, fun _ => rfl⟩
  next some_bytes =>
    rw [known some_bytes]
    exact ⟨_, rfl, fun zero => absurd zero some_bytes⟩

theorem memcpyFrom_total {base : Ptr} {offset : Nat} {n : UInt64} (ring : Ring)
    (sizeofT : UInt64) (known : n ≠ 0 → base = ⟨.ring, offset⟩) :
    ∃ bytes, memcpyFrom ring base sizeofT n = .ok bytes := by
  unfold memcpyFrom
  split
  next => exact ⟨[], rfl⟩
  next some_bytes =>
    rw [known some_bytes]
    exact ⟨_, rfl⟩

namespace MemTransaction

variable {tx : MemTransaction} {k : UInt64}

/-- A granted copy into the ring succeeds, whatever the caller's buffer holds. -/
theorem Grants.copyTo_total (grants : tx.Grants k) (sizeofT : UInt64) (ring : Ring)
    (data : List UInt8) :
    ∃ ring', tx.copyTo sizeofT ring (some data) 0 k = .ok (true, ring') ∧
      (k = 0 → ring' = ring) := by
  obtain ⟨info, eq, count, firstBase, -, secondBase, -⟩ :=
    grants.info sizeofT (show (0 : UInt64).toNat + k.toNat ≤ k.toNat by simp)
  obtain ⟨ring₁, front, same₁⟩ := memcpyTo_total ring data sizeofT firstBase
  obtain ⟨ring₂, back, same₂⟩ := memcpyTo_total ring₁
    (data.drop (info.firstCount.toNat * sizeofT.toNat)) sizeofT secondBase
  refine ⟨ring₂, ?_, fun zero => ?_⟩
  · unfold MemTransaction.copyTo
    simp only [eq, front, back, bind, Except.bind, pure, Except.pure]
  · rw [zero, UInt64.toNat_zero] at count
    rw [same₂, same₁]
    · rw [← UInt64.toNat_inj, UInt64.toNat_zero]
      omega
    · rw [← UInt64.toNat_inj, UInt64.toNat_zero]
      omega

/-- So does a granted copy out of the ring into a buffer of the caller. -/
theorem Grants.copyFrom_total (grants : tx.Grants k) (sizeofT : UInt64) (ring : Ring) :
    ∃ data, tx.copyFrom sizeofT ring true 0 k = .ok (some data) := by
  obtain ⟨info, eq, -, firstBase, -, secondBase, -⟩ :=
    grants.info sizeofT (show (0 : UInt64).toNat + k.toNat ≤ k.toNat by simp)
  obtain ⟨front, copiedFront⟩ := memcpyFrom_total ring sizeofT firstBase
  obtain ⟨back, copiedBack⟩ := memcpyFrom_total ring sizeofT secondBase
  refine ⟨front ++ back, ?_⟩
  unfold MemTransaction.copyFrom
  simp only [Bool.not_true, Bool.false_eq_true, if_false, eq, copiedFront, copiedBack, bind,
    Except.bind, pure, Except.pure]

end MemTransaction

namespace Geometry

variable (g : Geometry)

theorem transaction_grants (p : Nat) (n : UInt64) : (g.transaction p n).Grants n := by
  have small : g.N - p % g.N < 2 ^ 64 := Nat.lt_of_le_of_lt (Nat.sub_le _ _) g.N_lt
  unfold transaction
  dsimp only
  split
  next wraps =>
    refine ⟨?_, rfl, fun _ => rfl⟩
    have le : (.ofNat (g.N - p % g.N) : UInt64) ≤ n := by
      rw [UInt64.le_iff_toNat_le, UInt64.toNat_ofNat_of_lt' small]
      exact Nat.le_of_lt wraps
    dsimp only
    rw [UInt64.toNat_sub_of_le _ _ le, UInt64.toNat_ofNat_of_lt' small]
    omega
  next fits => exact ⟨rfl, rfl, fun some_second => absurd rfl some_second⟩

theorem refusesWrite_reset (flavor : MQFlavor) (n : UInt64) :
    g.RefusesWrite flavor ⟨0, 0, 0⟩ n ↔ g.N < n.toNat := by
  have free : ((g.queue flavor).availableToWriteBytes 0 0).toNat / g.s = g.N := by
    have all : (g.queue flavor).availableToWriteBytes 0 0 = (g.queue flavor).getSize := by
      unfold Queue.availableToWriteBytes Queue.availableToReadBytes
      rw [UInt64.sub_self, UInt64.sub_zero]
    rw [all, toNat_getSize, Nat.mul_div_cancel _ g.s_pos]
  unfold RefusesWrite
  rw [free]
  exact or_iff_right_of_imp And.right

theorem write_reset (flavor : MQFlavor) (ring : Ring) (data : Option (List UInt8)) (n : UInt64) :
    (¬ (QueueCall.write data n).Moves g.N ∧ ∃ ok,
      (g.queue flavor).write (.reset ring) data n = .ok (ok, .reset ring)) ∨
    ((QueueCall.write data n).Moves g.N ∧ ∃ ring',
      (g.queue flavor).write (.reset ring) data n = .ok (true, ⟨ring', 0, n * .ofNat g.s⟩)) := by
  rcases g.beginWriteWith_cases flavor ⟨0, 0, 0⟩ n .empty with
    ⟨refuses, refused⟩ | ⟨-, misaligned, -⟩ | ⟨accepts, -, granted⟩
  · rw [refusesWrite_reset] at refuses
    exact .inl ⟨fun moves => Nat.not_lt.mpr moves.2.2 refuses, false,
      Queue.write_refused data refused⟩
  · exact absurd (Nat.dvd_zero _) misaligned
  · rw [refusesWrite_reset, Nat.not_lt] at accepts
    cases data with
    | none =>
      exact .inl ⟨fun moves => Bool.false_ne_true moves.1, false, Queue.write_null granted⟩
    | some data =>
      obtain ⟨ring', copied, same⟩ :=
        (g.transaction_grants ((0 : UInt64).toNat / g.s) n).copyTo_total
          (g.queue flavor).sizeofT ring data
      rw [Queue.write_granted (σ := .reset ring) granted copied]
      simp only [Queue.commitWrite, Storage.reset, queue_sizeofT, UInt64.zero_add]
      by_cases zero : n = 0
      · refine .inl ⟨fun moves => ?_, true, ?_⟩
        · rw [zero] at moves
          exact Nat.lt_irrefl _ moves.2.1
        · rw [same zero, zero, UInt64.zero_mul]
      · have some_messages : 0 < n.toNat :=
          Nat.pos_of_ne_zero fun h => zero (UInt64.toNat_inj.mp h)
        exact .inr ⟨⟨rfl, some_messages, accepts⟩, ring', rfl⟩

/-- A read finds nothing, except for so many messages that their size is zero modulo `2^64`. -/
theorem read_reset (flavor : MQFlavor) (ring : Ring) (hasData : Bool) (n : UInt64) :
    ∃ ok data, (g.queue flavor).read (.reset ring) hasData n = .ok (ok, .reset ring, data) := by
  rcases g.beginReadWith_cases flavor ⟨0, 0⟩ n with
    ⟨misaligned, -⟩ | ⟨-, -, far, -⟩ | ⟨-, -, -, short, refused⟩ | ⟨-, -, -, enough, granted⟩
  · exact absurd ⟨Nat.dvd_zero _, Nat.dvd_zero _⟩ misaligned
  · exact absurd far (Nat.not_lt_zero _)
  · have begun := Queue.beginRead_of_loads (σ := .reset ring) refused
    exact ⟨false, none, Queue.read_refused hasData begun⟩
  · have begun := Queue.beginRead_of_loads (σ := .reset ring) granted
    cases hasData with
    | false => exact ⟨false, none, Queue.read_null begun⟩
    | true =>
      obtain ⟨data, copied⟩ := (g.transaction_grants ((0 : UInt64).toNat / g.s) n).copyFrom_total
        (g.queue flavor).sizeofT ring
      have bytes : n * (g.queue flavor).sizeofT = 0 := by
        rw [← UInt64.toNat_inj, UInt64.toNat_mul, toNat_sizeofT, UInt64.toNat_zero]
        exact Nat.le_zero.mp enough
      have small : ¬ (0 : UInt64) - 0 > (g.queue flavor).getSize := by
        rw [UInt64.sub_self, gt_iff_lt, UInt64.lt_iff_toNat_lt]
        exact Nat.not_lt_zero _
      refine ⟨true, some data, ?_⟩
      rw [Queue.read_granted begun copied]
      unfold Queue.commitRead Storage.reset
      simp only [Option.getD_none]
      rw [if_neg small, bytes, UInt64.add_zero]

/-- A call that moves nothing leaves the storage as it is; any other one the write counter behind
the messages. -/
theorem exec_reset (flavor : MQFlavor) (ring : Ring) (call : QueueCall) :
    (¬ call.Moves g.N ∧ call.exec (g.queue flavor) (.reset ring) = .ok (.reset ring)) ∨
    (call.Moves g.N ∧ ∃ ring' writePtr, writePtr ≠ 0 ∧
      call.exec (g.queue flavor) (.reset ring) = .ok ⟨ring', 0, writePtr⟩) := by
  cases call with
  | write data n =>
    rcases g.write_reset flavor ring data n with ⟨still, ok, done⟩ | ⟨moves, ring', done⟩
    · refine .inl ⟨still, ?_⟩
      simp only [QueueCall.exec, done, bind, Except.bind, pure, Except.pure]
    · simp only [QueueCall.exec, done, bind, Except.bind, pure, Except.pure]
      refine .inr ⟨moves, ring', n * .ofNat g.s, fun zero => ?_, rfl⟩
      have bytes := g.toNat_mul_sizeofT flavor n moves.2.2
      rw [queue_sizeofT, zero, UInt64.toNat_zero] at bytes
      exact (Nat.mul_pos moves.2.1 g.s_pos).ne bytes
  | read hasData n =>
    obtain ⟨ok, data, done⟩ := g.read_reset flavor ring hasData n
    refine .inl ⟨id, ?_⟩
    simp only [QueueCall.exec, done, bind, Except.bind, pure, Except.pure]

end Geometry

namespace Queue

variable {q : Queue}

theorem transactionFrom_empty (empty : q.getSize = 0) (ptr n : UInt64) :
    q.transactionFrom ptr n = .error .divideByZero := by
  -- `ptr % mDesc->getSize()`.
  have offset : mod ptr q.getSize = .error .divideByZero := if_pos empty
  unfold transactionFrom
  rw [offset]
  rfl

theorem refusesWrite_empty (sizeofT : q.sizeofT ≠ 0) (quantum : q.getQuantum ≠ 0)
    (empty : q.getSize = 0) {n : UInt64} (some_messages : 0 < n) :
    q.refusesWrite ⟨0, 0, 0⟩ n = .ok true := by
  unfold refusesWrite availableToWrite getQuantumCount
  rw [div_ok _ sizeofT, div_ok _ quantum, empty, UInt64.zero_div]
  simp [availableToWriteBytes, availableToReadBytes, empty, some_messages, bind, Except.bind, pure,
    Except.pure]

theorem beginReadWith_empty (sizeofT : q.sizeofT ≠ 0) (empty : q.getSize = 0) (n : UInt64) :
    q.beginReadWith ⟨0, 0⟩ n = .ok ⟨false, .empty, none⟩ ∨
      q.beginReadWith ⟨0, 0⟩ n = .error .divideByZero := by
  have aligned : mod 0 q.sizeofT = .ok 0 := by
    rw [mod_ok _ sizeofT, UInt64.zero_mod]
  have near : ¬ (0 : UInt64) - 0 > q.getSize := by
    rw [UInt64.sub_self, empty]
    exact UInt64.lt_irrefl 0
  unfold beginReadWith
  simp only [aligned, near, transactionFrom_empty empty, bind, Except.bind, pure, Except.pure,
    ne_eq, not_true_eq_false, if_false]
  split
  next => exact .inl rfl
  next => exact .inr rfl

/-- A queue without any room divides by zero or refuses. -/
theorem exec_empty (sizeofT : q.sizeofT ≠ 0) (quantum : q.getQuantum ≠ 0) (empty : q.getSize = 0)
    {ring : Ring} {call : QueueCall} {σ : Storage}
    (done : call.exec q (.reset ring) = .ok σ) : σ = .reset ring := by
  cases call with
  | write data n =>
    unfold QueueCall.exec Queue.write Queue.beginWrite Storage.reset at done
    by_cases none_ : n = 0
    · rw [none_] at done
      simp only [beginWriteWith_empty sizeofT quantum empty] at done
      cases done
    · have refuses := refusesWrite_empty sizeofT quantum empty (UInt64.pos_iff_ne_zero.mpr none_)
      simp only [beginWriteWith, refuses, bind, Except.bind, pure, Except.pure, if_true,
        Bool.not_false] at done
      cases done
      rfl
  | read hasData n =>
    unfold QueueCall.exec Queue.read Queue.beginRead Storage.reset at done
    rcases beginReadWith_empty sizeofT empty n with eq | eq
    · simp only [eq, bind, Except.bind, pure, Except.pure, Bool.not_false, if_true,
        Option.getD_none] at done
      cases done
      rfl
    · simp only [eq] at done
      cases done

end Queue

namespace Msvc

/-! ## The memory of a queue -/

namespace NamedQueue

variable (q : NamedQueue) (files : Files)

theorem setRing_view (own : UInt64) : q.setRing files (q.view files own).ring = files := by
  unfold setRing
  rw [Function.update_eq_self_iff]
  funext a
  unfold view
  split
  next behind =>
    dsimp only
    rw [Nat.add_sub_cancel' behind]
  next => rfl

theorem setCounter_word (grantorIdx : Nat) :
    q.setCounter files grantorIdx (word (files (q.file grantorIdx)) (q.offset grantorIdx)) =
      files := by
  unfold setCounter
  rw [setWord_word, Function.update_eq_self]

/-- Nothing is put where it was not. -/
theorem put_view (own : UInt64) : q.put files (q.view files own) = files := by
  unfold put
  simp only [setRing_view]
  cases flavor : q.flavor with
  | kSynchronizedReadWrite =>
    simp only [view, flavor, setCounter_word]
  | kUnsynchronizedWrite => exact q.setCounter_word files WRITEPTRPOS

/-- What the constructor leaves behind: room for `N` messages, both counters at the start of the
region, and both of them reset. -/
structure Created (region : String) (N : Nat) : Prop where
  region : q.region = region
  sizeofT : q.sizeofT ≠ 0
  fits : N * q.sizeofT.toNat < 2 ^ 64
  queue : q.mq.queue q.flavor q.sizeofT =
    some ⟨q.flavor, q.sizeofT, .ofNat (N * q.sizeofT.toNat), q.sizeofT⟩
  readGrantor : q.grantor READPTRPOS = some ⟨0, 0, 0, 8⟩
  writeGrantor : q.grantor WRITEPTRPOS = some ⟨0, 0, 8, 8⟩
  readStored : q.mq.readStored = some 0
  writeStored : q.mq.writeStored = some 0

variable {q} {region : String} {N : Nat}

namespace Created

variable (created : q.Created region N)
include created

theorem file_read : q.file READPTRPOS = .region region := by
  unfold file
  rw [created.readGrantor, created.region]
  rfl

theorem file_write : q.file WRITEPTRPOS = .region region := by
  unfold file
  rw [created.writeGrantor, created.region]
  rfl

theorem offset_read : q.offset READPTRPOS = 0 := by
  unfold offset
  rw [created.readGrantor]
  rfl

theorem offset_write : q.offset WRITEPTRPOS = 8 := by
  unfold offset
  rw [created.writeGrantor]
  rfl

theorem ownCounter : q.ownCounter = 0 := by
  unfold NamedQueue.ownCounter
  rw [created.readStored]
  rfl

theorem view_writePtr (own : UInt64) :
    (q.view files own).writePtr = word (files (.region region)) 8 := by
  unfold view
  rw [created.file_write, created.offset_write]

/-- The write counter is the last thing that is put. -/
theorem word_put (σ : Storage) : word (q.put files σ (.region region)) 8 = σ.writePtr := by
  unfold put setCounter
  rw [created.file_write, created.offset_write, Function.update_self, word_setWord]

/-- Only the synchronized flavor resets the other counter in the region. -/
theorem word_opened : word (q.opened files (.region region)) 0 =
    match q.flavor with
    | .kSynchronizedReadWrite => 0
    | .kUnsynchronizedWrite => word (files (.region region)) 0 := by
  unfold opened put MessageQueueBase.attach
  simp only [setRing_view, created.readStored, Option.getD_some]
  unfold setCounter
  rw [created.file_write, created.offset_write, Function.update_self,
    word_setWord_ne _ _ _ _ (.inr (Nat.le_refl 8))]
  cases q.flavor with
  | kSynchronizedReadWrite =>
    dsimp only
    rw [created.file_read, created.offset_read, Function.update_self, word_setWord]
  | kUnsynchronizedWrite => rfl

/-- Two queues on one region: behind both constructors the first one is empty. -/
theorem view_opened {second : NamedQueue} {M : Nat} (created_second : second.Created region M) :
    let opened := second.opened (q.opened files)
    q.view opened 0 = .reset (q.view opened 0).ring := by
  intro opened
  have writePtr : (q.view opened 0).writePtr = 0 := by
    rw [created.view_writePtr]
    refine (created_second.word_put _ _).trans ?_
    unfold MessageQueueBase.attach
    rw [created_second.writeStored, Option.getD_some]
  have readPtr : (q.view opened 0).readPtr = 0 := by
    cases flavor : q.flavor with
    | kSynchronizedReadWrite =>
      have reset := created.word_opened files
      rw [flavor] at reset
      have still := created_second.word_opened (q.opened files)
      rw [reset] at still
      unfold view
      rw [flavor, created.file_read, created.offset_read]
      refine still.trans ?_
      split <;> rfl
    | kUnsynchronizedWrite =>
      unfold view
      rw [flavor]
  exact Storage.eq_reset readPtr writePtr

/-! ## Runs -/

/-- The data path of the object, over its part of the memory. -/
theorem exec_eq {files : Files} (fresh : q.view files 0 = .reset (q.view files 0).ring)
    (call : QueueCall) : q.exec files 0 call =
      (call.exec ⟨q.flavor, q.sizeofT, .ofNat (N * q.sizeofT.toNat), q.sizeofT⟩
        (.reset (q.view files 0).ring)).map fun σ => (q.put files σ, σ.readPtr) := by
  unfold NamedQueue.exec
  rw [created.queue]
  dsimp only
  rw [fresh]
  rfl

/-- A call on the empty queue: nothing changes, or the call divides by zero, or the write counter
is elsewhere. -/
theorem exec_cases {files : Files} (fresh : q.view files 0 = .reset (q.view files 0).ring)
    (call : QueueCall) :
    (¬ call.Moves N ∧ (q.exec files 0 call = .ok (files, 0) ∨
      N = 0 ∧ ∃ fault, q.exec files 0 call = .error fault)) ∨
    (call.Moves N ∧ ∃ files' own, q.exec files 0 call = .ok (files', own) ∧
      word (files' (.region region)) 8 ≠ 0) := by
  rw [created.exec_eq fresh]
  have same : q.put files (.reset (q.view files 0).ring) = files := by
    rw [← fresh]
    exact q.put_view files 0
  rcases Nat.eq_zero_or_pos N with rfl | room
  · refine .inl ⟨fun moves => Nat.lt_irrefl 0 moves.pos, ?_⟩
    cases result : call.exec ⟨q.flavor, q.sizeofT, .ofNat (0 * q.sizeofT.toNat), q.sizeofT⟩
        (.reset (q.view files 0).ring) with
    | error fault => exact .inr ⟨rfl, fault, rfl⟩
    | ok σ =>
      have empty : UInt64.ofNat (0 * q.sizeofT.toNat) = 0 := by rw [Nat.zero_mul]; rfl
      rw [Queue.exec_empty created.sizeofT created.sizeofT empty result, Except.map, same]
      exact .inl rfl
  · have pos : 0 < q.sizeofT.toNat :=
      Nat.pos_of_ne_zero fun zero => created.sizeofT (UInt64.toNat_inj.mp zero)
    let g : Geometry := ⟨q.sizeofT.toNat, N, pos, room, created.fits⟩
    have queue : (⟨q.flavor, q.sizeofT, .ofNat (N * q.sizeofT.toNat), q.sizeofT⟩ : Queue) =
        g.queue q.flavor := by
      unfold Geometry.queue
      rw [UInt64.ofNat_toNat]
    rw [queue]
    rcases g.exec_reset q.flavor (q.view files 0).ring call with
      ⟨still, done⟩ | ⟨moves, ring', writePtr, moved, done⟩
    · rw [done, Except.map, same]
      exact .inl ⟨still, .inl rfl⟩
    · rw [done, Except.map]
      refine .inr ⟨moves, _, _, rfl, ?_⟩
      rw [created.word_put]
      exact moved

/-- Calls that write nothing leave the memory as it is, as far as they get. -/
theorem run_still {files files' : Files}
    (fresh : q.view files 0 = .reset (q.view files 0).ring) {calls : List QueueCall}
    (still : ∀ call ∈ calls, ¬ call.Moves N) (done : q.run files 0 calls = .ok files') :
    files' = files := by
  induction calls with
  | nil =>
    cases done
    rfl
  | cons call calls ih =>
    obtain ⟨head, rest⟩ := List.forall_mem_cons.mp still
    unfold NamedQueue.run at done
    obtain ⟨next, first, done⟩ := bind_eq_ok.mp done
    rcases created.exec_cases fresh call with
      ⟨-, eq | ⟨-, fault, eq⟩⟩ | ⟨moves, -⟩
    · cases eq.symm.trans first
      exact ih rest done
    · cases eq.symm.trans first
    · exact absurd moves head

/-- The first call that writes something is seen at the write counter. -/
theorem still_of_run {files : Files} (fresh : q.view files 0 = .reset (q.view files 0).ring)
    {calls : List QueueCall}
    (seen : ∀ n files', q.run files 0 (calls.take n) = .ok files' →
      word (files' (.region region)) 8 = 0) :
    ∀ call ∈ calls, ¬ call.Moves N := by
  induction calls with
  | nil => exact List.forall_mem_nil _
  | cons call calls ih =>
    rcases created.exec_cases fresh call with
      ⟨still, eq | ⟨zero, -⟩⟩ | ⟨moves, files', own, eq, moved⟩
    · refine List.forall_mem_cons.mpr ⟨still, ih fun n files' done => seen (n + 1) files' ?_⟩
      rw [List.take_succ_cons, NamedQueue.run, eq]
      exact done
    · -- There is no room for any message.
      exact fun call _ moves => moves.pos.ne' zero
    · refine absurd (seen 1 files' ?_) moved
      rw [List.take_succ_cons, List.take_zero, NamedQueue.run, eq]
      rfl

end Created
end NamedQueue

/-! ## The constructor -/

open MessageQueueBase

variable {os : Platform} {flavor : MQFlavor} {sizeofT : UInt64}

/-- With a buffer and without one the counters are the first two words of the region. -/
theorem ofNumElements_valid {numElementsInQueue : UInt64} {configureEventFlagWord : Bool}
    {bufferFd : Int32} {bufferSize : UInt64} {name : String} {rand : Int32}
    {mq : MessageQueueBase} (pos : sizeofT ≠ 0)
    (done : ofNumElements os flavor sizeofT numElementsInQueue configureEventFlagWord bufferFd
      bufferSize name rand = .ok mq) (valid : mq.isValid = true) :
    numElementsInQueue.toNat * sizeofT.toNat < 2 ^ 64 ∧ ∃ desc, mq.Initialized sizeofT desc true ∧
      desc.getSize = numElementsInQueue * sizeofT ∧
      desc.mGrantors[READPTRPOS]? = some ⟨0, 0, 0, 8⟩ ∧
      desc.mGrantors[WRITEPTRPOS]? = some ⟨0, 0, 8, 8⟩ := by
  unfold ofNumElements at done
  rw [div_ok _ pos] at done
  obtain ⟨most, quotient, done⟩ := bind_eq_ok.mp done
  cases quotient
  obtain ⟨fits, done⟩ := not_refused done valid
  obtain ⟨-, done⟩ := not_refused done valid
  obtain ⟨kAshmemSizePageAligned, -, done⟩ := bind_eq_ok.mp done
  refine ⟨product_lt fits, ?_⟩
  dsimp only at done
  split at done
  next =>
    cases done
    cases valid
  next mqHandle _ =>
    obtain ⟨handle, -, done⟩ := bind_eq_ok.mp done
    split at done
    next =>
      obtain ⟨grantors, laid, done⟩ := bind_eq_ok.mp done
      obtain ⟨-, done⟩ := not_refused done valid
      refine ⟨_, initMemory_valid done valid,
        AidlMQDescriptorShim.getSize_of_extents (suppliedGrantors_extents laid), ?_⟩
      unfold Fmq.AidlMQDescriptorShim.ofGrantors
      rw [suppliedGrantors_eq laid]
      cases configureEventFlagWord <;> exact ⟨rfl, rfl⟩
    next =>
      split at done
      next => cases done
      next =>
        obtain ⟨desc, built, done⟩ := bind_eq_ok.mp done
        have initialized := initMemory_valid done valid
        refine ⟨desc, initialized,
          AidlMQDescriptorShim.ofBufferSize_getSize built initialized.grantors, ?_⟩
        obtain ⟨-, -, evFlagOffset, -, known⟩ :=
          AidlMQDescriptorShim.ofBufferSize_eq built initialized.grantors
        rw [known]
        cases configureEventFlagWord <;> exact ⟨rfl, rfl⟩

theorem Unnamed.created (u : Unnamed) {mq : MessageQueueBase} (done : u.construct = .ok mq)
    (valid : mq.isValid = true) : (u.named mq).Created (regionName "" u.rand)
      u.numElementsInQueue.toNat := by
  obtain ⟨fits, desc, initialized, size, readGrantor, writeGrantor⟩ :=
    ofNumElements_valid u.sizeofT_ne_zero done valid
  have stored := initialized.reset rfl
  exact {
    region := rfl
    sizeofT := u.sizeofT_ne_zero
    fits := fits
    queue := by
      unfold named MessageQueueBase.queue
      rw [initialized.mDesc, Option.map_some, size, initialized.quantum, UInt64.ofNat_mul,
        UInt64.ofNat_toNat, UInt64.ofNat_toNat]
    readGrantor := by
      unfold named NamedQueue.grantor
      rw [initialized.mDesc, Option.bind_some, readGrantor]
    writeGrantor := by
      unfold named NamedQueue.grantor
      rw [initialized.mDesc, Option.bind_some, writeGrantor]
    readStored := stored.1
    writeStored := stored.2 }

theorem NamedQueue.Created.undisturbed_iff_still {first second : NamedQueue} {region : String}
    {N M : Nat} (created : first.Created region N) (created' : second.Created region M)
    (files : Files) (calls : List QueueCall) :
    Undisturbed first second files calls ↔ ∀ call ∈ calls, ¬ call.Moves N := by
  have fresh := created.view_opened files created'
  unfold Undisturbed
  rw [created.ownCounter]
  dsimp only at fresh ⊢
  generalize second.opened (first.opened files) = opened at *
  constructor
  · intro same
    refine created.still_of_run fresh fun n files' done => ?_
    calc word (files' (.region region)) 8
        = (second.contents files').writePtr := (created'.view_writePtr files' 0).symm
      _ = (second.contents opened).writePtr := by rw [same n files' done]
      _ = word (opened (.region region)) 8 := created'.view_writePtr opened 0
      _ = (first.view opened 0).writePtr := (created.view_writePtr opened 0).symm
      _ = 0 := by rw [fresh]; rfl
  · intro still n files' done
    rw [created.run_still fresh (fun call mem => still call (List.mem_of_mem_take mem)) done]

/-- Two queues without a name keep apart for as long as the first one gets no message. The number
that was drawn for either of them makes no difference. -/
theorem undisturbed_iff (first second : Unnamed) (mq mq' : MessageQueueBase)
    (constructed : first.construct = .ok mq) (valid : mq.isValid = true)
    (constructed' : second.construct = .ok mq') (valid' : mq'.isValid = true) (files : Files)
    (calls : List QueueCall) :
    Undisturbed (first.named mq) (second.named mq') files calls ↔
      ∀ call ∈ calls, ¬ call.Moves first.numElementsInQueue.toNat :=
  (first.created constructed valid).undisturbed_iff_still (second.created constructed' valid')
    files calls

/-- A queue of four bytes. -/
def fourBytes (rand : Int32) : Unnamed :=
  ⟨.generous (JsonTree.library []), .kSynchronizedReadWrite, 1, 4, false, -1, 0, rand, by decide⟩

theorem construct_fourBytes (rand : Int32) : ∃ mq,
    (fourBytes rand).construct = .ok mq ∧ mq.isValid = true := by
  have constructed : (fourBytes 0).construct =
      .ok ⟨some ⟨[⟨0, 0, 0, 8⟩, ⟨0, 0, 8, 8⟩, ⟨0, 0, 16, 4⟩], some ⟨[3], []⟩, 1, 1⟩, some 0x10010,
        some 0x10000, some 0x10008, none, some 0, some 0⟩ := by decide
  -- No answer depends on the name of the region.
  have same : (fourBytes rand).construct = (fourBytes 0).construct := rfl
  exact ⟨_, same.trans constructed, rfl⟩

/-- A read, and a write of more than there is room for. -/
theorem undisturbed_iff_two : ∃ mq mq', (fourBytes 17).construct = .ok mq ∧
    (fourBytes 5000).construct = .ok mq' ∧
    Undisturbed ((fourBytes 17).named mq) ((fourBytes 5000).named mq') (fun _ _ => 0)
      [.read true 1, .write (some [1, 2, 3, 4, 5]) 5] := by
  obtain ⟨mq, constructed, valid⟩ := construct_fourBytes 17
  obtain ⟨mq', constructed', valid'⟩ := construct_fourBytes 5000
  refine ⟨mq, mq', constructed, constructed', (undisturbed_iff _ _ _ _ constructed valid
    constructed' valid' _ _).mpr ?_⟩
  simp [QueueCall.Moves, fourBytes]

/-- One message moves the write counter of both queues. -/
theorem not_undisturbed_unnamed : ¬ ∀ (first second : Unnamed) (mq mq' : MessageQueueBase),
    first.construct = .ok mq → mq.isValid = true → second.construct = .ok mq' →
    mq'.isValid = true → ∀ (files : Files) (calls : List QueueCall),
      Undisturbed (first.named mq) (second.named mq') files calls := by
  intro all
  obtain ⟨mq, constructed, valid⟩ := construct_fourBytes 17
  obtain ⟨mq', constructed', valid'⟩ := construct_fourBytes 5000
  have still := (((fourBytes 17).created constructed valid).undisturbed_iff_still
    ((fourBytes 5000).created constructed' valid') _ _).mp
      (all _ _ _ _ constructed valid constructed' valid' (fun _ _ => 0) [.write (some [7]) 1])
  exact still _ (List.mem_singleton_self _) ⟨rfl, by decide, by decide⟩

end Msvc
end Fmq
