import Fmq.Lib.ByteCopies
import Fmq.Model.Concurrent
import Fmq.Properties.Callable

/-!
# Concurrent calls are linearizable

A refused call and a count take effect when the counter of the other side is loaded, a granted
call when it stores its own one. In between the two copies touch different bytes.
-/
namespace Fmq

open BoundedFifo ByteCopies Function Linearizability Memory RecordRing Transition

/-! ## The copies -/

theorem memcpyTo_stores (ring : Ring) (p : Ptr) (bytes : List UInt8) (sizeofT count : UInt64) :
    memcpyTo ring p bytes sizeofT count =
      (memcpyStores p bytes sizeofT count).map (storeAll ring) := by
  unfold memcpyTo memcpyStores
  split
  next => rfl
  next =>
    cases p.block with
    | null => rfl
    | ring => exact congrArg Except.ok (storeAll_zipIdx _ _ _).symm

theorem memcpyFrom_loads (ring : Ring) (p : Ptr) (sizeofT count : UInt64) :
    memcpyFrom ring p sizeofT count = (memcpyLoads p sizeofT count).map (List.map ring) := by
  unfold memcpyFrom memcpyLoads
  split
  next => rfl
  next =>
    cases p.block with
    | null => rfl
    | ring => exact congrArg Except.ok (load_eq_map _ _ _)

namespace MemTransaction

variable (tx : MemTransaction) (sizeofT : UInt64)

/-- `copyTo` is made of its stores. -/
theorem copyTo_stores (ring : Ring) (data : List UInt8) (startIdx nMessages : UInt64) :
    tx.copyTo sizeofT ring (some data) startIdx nMessages =
      (tx.stores sizeofT data startIdx nMessages).map fun stores =>
        (stores.isSome, storeAll ring (stores.getD [])) := by
  unfold copyTo stores
  dsimp only
  cases tx.getMemRegionInfo sizeofT startIdx nMessages with
  | none => rfl
  | some info =>
    dsimp only
    rw [memcpyTo_stores]
    cases memcpyStores info.firstBaseAddress data sizeofT info.firstCount with
    | error => rfl
    | ok front =>
      simp only [bind, Except.bind, Except.map, memcpyTo_stores]
      cases memcpyStores info.secondBaseAddress
        (data.drop (info.firstCount.toNat * sizeofT.toNat)) sizeofT info.secondCount with
      | error => rfl
      | ok back =>
        simp only [pure, Except.pure, Option.isSome_some, Option.getD_some, storeAll_append]

/-- `copyFrom` is made of its loads. -/
theorem copyFrom_loads (ring : Ring) (startIdx nMessages : UInt64) :
    tx.copyFrom sizeofT ring true startIdx nMessages =
      (tx.loads sizeofT startIdx nMessages).map (Option.map (List.map ring)) := by
  unfold copyFrom loads
  simp only [Bool.not_true, Bool.false_eq_true, if_false]
  cases tx.getMemRegionInfo sizeofT startIdx nMessages with
  | none => rfl
  | some info =>
    dsimp only
    rw [memcpyFrom_loads]
    cases memcpyLoads info.firstBaseAddress sizeofT info.firstCount with
    | error => rfl
    | ok front =>
      simp only [bind, Except.bind, Except.map, memcpyFrom_loads]
      cases memcpyLoads info.secondBaseAddress sizeofT info.secondCount with
      | error => rfl
      | ok back =>
        simp only [pure, Except.pure, Option.map_some, List.map_append]

end MemTransaction

namespace Geometry

variable (g : Geometry)

/-- The stores of a granted write, over a ring with any contents. -/
theorem stores_transaction (flavor : MQFlavor) (p : Nat) {k : UInt64}
    {xs : List (Vector UInt8 g.s)} (length : k.toNat = xs.length) (capacity : xs.length ≤ g.N) :
    ∃ todo, (g.transaction p k).stores (g.queue flavor).sizeofT (flat xs) 0 k =
        .ok (some todo) ∧ ∀ ring, storeAll ring todo = put g.s g.N ring p xs := by
  have copied := fun ring => g.copyTo_whole flavor ring p length capacity
  simp only [MemTransaction.copyTo_stores] at copied
  cases found : (g.transaction p k).stores (g.queue flavor).sizeofT (flat xs) 0 k with
  | error => simp [found, Except.map] at copied
  | ok stores =>
    simp only [found, Except.map, Except.ok.injEq, Prod.mk.injEq] at copied
    obtain ⟨todo, rfl⟩ := Option.isSome_iff_exists.mp (copied fun _ => 0).1
    exact ⟨todo, rfl, fun ring => (copied ring).2⟩

/-- The loads of a granted read. -/
theorem loads_transaction (flavor : MQFlavor) (p : Nat) {k : UInt64} (capacity : k.toNat ≤ g.N) :
    ∃ todo, (g.transaction p k).loads (g.queue flavor).sizeofT 0 k = .ok (some todo) ∧
      ∀ ring : Ring, todo.map ring = flat (window g.s g.N ring p k.toNat) := by
  have copied := fun ring => g.copyFrom_whole flavor ring p capacity
  simp only [MemTransaction.copyFrom_loads] at copied
  cases found : (g.transaction p k).loads (g.queue flavor).sizeofT 0 k with
  | error => simp [found, Except.map] at copied
  | ok loads =>
    simp only [found, Except.map, Except.ok.injEq, Option.map_eq_some_iff] at copied
    obtain ⟨todo, rfl, _⟩ := copied fun _ => 0
    refine ⟨todo, rfl, fun ring => ?_⟩
    obtain ⟨_, same, eq⟩ := copied ring
    cases same
    exact eq

end Geometry

namespace Concurrent

open Blocking (Side)

/-! ## Calls without interruption -/

section

variable {q : Queue} {s : Nat}

theorem run_storing (σ : Storage) (xs : List (Vector UInt8 s)) (todo : List (UInt8 × Nat)) :
    ∃ labels, Run (Alone q) (σ, .storing xs todo) labels
      ({ σ with ring := storeAll σ.ring todo }, .storing xs []) := by
  induction todo generalizing σ with
  | nil => exact ⟨[], .done _⟩
  | cons first todo ih =>
    obtain ⟨b, a⟩ := first
    obtain ⟨labels, run⟩ := ih { σ with ring := store σ.ring a [b] }
    exact ⟨() :: labels, .cons ⟨trivial, rfl⟩ run⟩

theorem run_fetching (σ : Storage) (n : Nat) (todo : List Nat) (data : List UInt8) :
    ∃ labels, Run (Alone (s := s) q) (σ, .fetching n todo data) labels
      (σ, .fetching n [] (data ++ todo.map σ.ring)) := by
  induction todo generalizing data with
  | nil =>
    rw [List.map_nil, List.append_nil]
    exact ⟨[], .done _⟩
  | cons a todo ih =>
    obtain ⟨labels, run⟩ := ih (data ++ [σ.ring a])
    rw [List.map_cons, List.append_cons]
    exact ⟨() :: labels, .cons ⟨trivial, rfl⟩ run⟩

/-- The last two parts of `read` are `commitRead`. -/
theorem advance_checking (σ : Storage) (n : Nat) (data : List UInt8) :
    advance (s := s) q σ (.checking n data σ.writePtr) =
      .ok ((q.commitRead σ (.ofNat n)).2,
        .returning (.read (if (q.commitRead σ (.ofNat n)).1 then some data else none))) := by
  simp only [advance, Queue.commitRead]
  split <;> rfl

theorem run_alone_write {σ σ' : Storage} {xs : List (Vector UInt8 s)} {ok : Bool}
    (done : q.write σ (some (flat xs)) (.ofNat xs.length) = .ok (ok, σ')) :
    ∃ labels, Run (Alone q) (σ, .called (.write xs)) labels (σ', .returning (.written ok)) := by
  unfold Queue.write at done
  obtain ⟨⟨begun, tx⟩, begins, done⟩ := bind_eq_ok.mp done
  cases begun with
  | false =>
    cases done
    refine ⟨[()], .cons ⟨trivial, ?_⟩ (.done _)⟩
    simp only [advance, enter, begins, bind, Except.bind]
    rfl
  | true =>
    simp only [Bool.not_true, Bool.false_eq_true, if_false] at done
    obtain ⟨⟨copied, ring⟩, copies, done⟩ := bind_eq_ok.mp done
    rw [MemTransaction.copyTo_stores] at copies
    cases stores : tx.stores q.sizeofT (flat xs) 0 (.ofNat xs.length) with
    | error => simp [stores, Except.map] at copies
    | ok todo =>
      rw [stores] at copies
      cases copies
      cases todo with
      | none =>
        cases done
        refine ⟨[()], .cons ⟨trivial, ?_⟩ (.done _)⟩
        simp only [advance, enter, begins, stores, bind, Except.bind]
        rfl
      | some todo =>
        cases done
        obtain ⟨labels, run⟩ := run_storing (q := q) σ xs todo
        refine ⟨() :: (labels ++ [()]), .cons ⟨trivial, ?_⟩
          (run.append (.cons ⟨trivial, rfl⟩ (.done _)))⟩
        simp only [advance, enter, begins, stores, bind, Except.bind]
        rfl

theorem run_alone_read {σ σ' : Storage} {n : Nat} {ok : Bool} {data : Option (List UInt8)}
    (done : q.read σ true (.ofNat n) = .ok (ok, σ', data)) :
    ∃ labels, Run (Alone (s := s) q) (σ, .called (.read n)) labels
      (σ', .returning (.read (if ok then data else none))) := by
  unfold Queue.read at done
  obtain ⟨⟨begun, tx, σ₁⟩, begins, done⟩ := bind_eq_ok.mp done
  cases begun with
  | false =>
    cases done
    refine ⟨[()], .cons ⟨trivial, ?_⟩ (.done _)⟩
    simp only [advance, enter, begins, bind, Except.bind]
    rfl
  | true =>
    simp only [Bool.not_true, Bool.false_eq_true, if_false] at done
    obtain ⟨copied, copies, done⟩ := bind_eq_ok.mp done
    rw [MemTransaction.copyFrom_loads] at copies
    cases loads : tx.loads q.sizeofT 0 (.ofNat n) with
    | error => simp [loads, Except.map] at copies
    | ok todo =>
      rw [loads] at copies
      cases copies
      cases todo with
      | none =>
        cases done
        refine ⟨[()], .cons ⟨trivial, ?_⟩ (.done _)⟩
        simp only [advance, enter, begins, loads, bind, Except.bind]
        rfl
      | some todo =>
        cases done
        obtain ⟨labels, run⟩ := run_fetching (q := q) (s := s) σ₁ n todo []
        refine ⟨() :: (labels ++ [(), ()]), .cons ⟨trivial, ?_⟩
          (run.append (.cons ⟨trivial, rfl⟩ (.cons ⟨trivial, advance_checking _ _ _⟩ (.done _))))⟩
        simp only [advance, enter, begins, loads, bind, Except.bind]
        rfl

/-- The parts of a call that nobody interrupts are the whole call. -/
theorem run_alone {σ σ' : Storage} {op : Op (Vector UInt8 s)} {reply : Reply (List UInt8)}
    (done : q.exec σ op = .ok (σ', reply)) :
    ∃ labels, Run (Alone q) (σ, .called op) labels (σ', .returning reply) := by
  cases op with
  | write xs =>
    obtain ⟨⟨ok, σ₁⟩, wrote, returned⟩ := bind_eq_ok.mp done
    cases returned
    exact run_alone_write wrote
  | read n =>
    obtain ⟨⟨ok, σ₁, data⟩, read, returned⟩ := bind_eq_ok.mp done
    cases returned
    exact run_alone_read read
  | availableToRead =>
    obtain ⟨count, counts, returned⟩ := bind_eq_ok.mp done
    cases returned
    refine ⟨[()], .cons ⟨trivial, ?_⟩ (.done _)⟩
    simp only [advance, enter, counts, bind, Except.bind]
    rfl
  | availableToWrite =>
    obtain ⟨count, counts, returned⟩ := bind_eq_ok.mp done
    cases returned
    refine ⟨[()], .cons ⟨trivial, ?_⟩ (.done _)⟩
    simp only [advance, enter, counts, bind, Except.bind]
    rfl

end

variable {g : Geometry}

/-! ## What holds in the middle of a call -/

/-- The bytes not yet stored go to free slots, and when they are there the slots hold `xs`. -/
structure Storing (g : Geometry) (σ : Storage) (items xs : List (Vector UInt8 g.s))
    (todo : List (UInt8 × Nat)) : Prop where
  length : xs.length < 2 ^ 64
  room : items.length + xs.length ≤ g.N
  inside : ∀ b ∈ todo, Inside g.s g.N (σ.writePtr.toNat / g.s) xs.length b.2
  stored : window g.s g.N (storeAll σ.ring todo) (σ.writePtr.toNat / g.s) xs.length = xs

/-- The bytes not yet loaded are those of the first messages, and complete what was loaded. -/
structure Fetching (g : Geometry) (σ : Storage) (items : List (Vector UInt8 g.s)) (n : Nat)
    (todo : List Nat) (data : List UInt8) : Prop where
  enough : n ≤ items.length
  loads : ∀ ring : Ring, window g.s g.N ring (σ.readPtr.toNat / g.s) n =
    window g.s g.N σ.ring (σ.readPtr.toNat / g.s) n → todo.map ring = todo.map σ.ring
  loaded : data ++ todo.map σ.ring = flat (items.take n)

/-- The check of `commitRead` will pass. -/
structure Checking (g : Geometry) (σ : Storage) (items : List (Vector UInt8 g.s)) (n : Nat)
    (data : List UInt8) (writePtr : UInt64) : Prop where
  enough : n ≤ items.length
  loaded : data = flat (items.take n)
  near : ¬ writePtr - σ.readPtr > (queue g).getSize

abbrev CallStatus (s : Nat) : Type :=
  Linearizability.Status (Op (Vector UInt8 s)) (Reply (List UInt8))

/-- How far a side is, and whether its call has taken effect. -/
def SideInv (g : Geometry) (σ : Storage) (items : List (Vector UInt8 g.s)) (side : Side) :
    Phase g.s → CallStatus g.s → Prop
  | .idle, status => status = .idle
  | .called op, status => status = .pending op ∧ MayCall side op ∧ Callable op
  | .storing xs todo, status =>
    status = .pending (.write xs) ∧ side = .writer ∧ Storing g σ items xs todo
  | .fetching n todo data, status =>
    status = .pending (.read n) ∧ side = .reader ∧ Fetching g σ items n todo data
  | .checking n data writePtr, status =>
    status = .pending (.read n) ∧ side = .reader ∧ Checking g σ items n data writePtr
  | .returning reply, status => status = .performed reply

/-- The queue holds the messages of the object, and the calls are equally far. -/
structure Matches (g : Geometry) (σ : State g.s)
    (α : Atomic (List (Vector UInt8 g.s)) Side (Op (Vector UInt8 g.s)) (Reply (List UInt8))) :
    Prop where
  repr : g.Repr σ.storage α.item
  counting : Counting g σ.storage α.item σ.written
  sides : ∀ side, SideInv g σ.storage α.item side (σ.phase side) (α.status side)

variable {σ : Storage} {items : List (Vector UInt8 g.s)} {side : Side} {phase : Phase g.s}
  {status : CallStatus g.s} {op : Op (Vector UInt8 g.s)}

/-- The writer is not disturbed when messages are taken out. -/
theorem SideInv.taken (σ' : Storage) {items' : List (Vector UInt8 g.s)}
    (inv : SideInv g σ items .writer phase status) (ring : σ'.ring = σ.ring)
    (writePtr : σ'.writePtr = σ.writePtr) (fewer : items'.length ≤ items.length) :
    SideInv g σ' items' .writer phase status := by
  cases phase with
  | idle => exact inv
  | called op => exact inv
  | storing xs todo =>
    obtain ⟨pending, same, storing⟩ := inv
    refine ⟨pending, same, storing.length, ?_, ?_, ?_⟩
    · exact Nat.le_trans (Nat.add_le_add_right fewer _) storing.room
    · rw [writePtr]
      exact storing.inside
    · rw [ring, writePtr]
      exact storing.stored
  | fetching n todo data => exact absurd inv.2.1 nofun
  | checking n data writePtr => exact absurd inv.2.1 nofun
  | returning reply => exact inv

/-- The reader is not disturbed by stores outside of its messages, and by further messages. -/
theorem SideInv.added (σ' : Storage) (inv : SideInv g σ items .reader phase status)
    (readPtr : σ'.readPtr = σ.readPtr)
    (held : window g.s g.N σ'.ring (σ.readPtr.toNat / g.s) items.length =
      window g.s g.N σ.ring (σ.readPtr.toNat / g.s) items.length)
    (xs : List (Vector UInt8 g.s)) : SideInv g σ' (items ++ xs) .reader phase status := by
  have more : ∀ n ≤ items.length, n ≤ (items ++ xs).length ∧
      (items ++ xs).take n = items.take n := fun n enough =>
    ⟨by rw [List.length_append]; omega, List.take_append_of_le_length enough⟩
  cases phase with
  | idle => exact inv
  | called op => exact inv
  | storing xs todo => exact absurd inv.2.1 nofun
  | fetching n todo data =>
    obtain ⟨pending, same, fetching⟩ := inv
    obtain ⟨enough, taken⟩ := more n fetching.enough
    -- The window of the call is the beginning of the one that is held.
    have call : window g.s g.N σ'.ring (σ.readPtr.toNat / g.s) n =
        window g.s g.N σ.ring (σ.readPtr.toNat / g.s) n := by
      rw [← take_window _ _ _ _ fetching.enough, held, take_window _ _ _ _ fetching.enough]
    have same_loads := fetching.loads σ'.ring call
    refine ⟨pending, same, enough, ?_, ?_⟩
    · intro ring eq
      rw [readPtr, call] at eq
      rw [fetching.loads ring eq, same_loads]
    · rw [same_loads, taken]
      exact fetching.loaded
  | checking n data writePtr =>
    obtain ⟨pending, same, checking⟩ := inv
    obtain ⟨enough, taken⟩ := more n checking.enough
    refine ⟨pending, same, enough, ?_, ?_⟩
    · rw [taken]
      exact checking.loaded
    · rw [readPtr]
      exact checking.near
  | returning reply => exact inv

/-! ## Parts of a call -/

/-- After the loads of the counters a call is refused, a count, or granted. -/
theorem enter_cases (repr : g.Repr σ items) (may : MayCall side op) (callable : Callable op) :
    ∃ phase, enter (queue g) σ op = .ok (σ, phase) ∧
      (phase = .returning (fifo g items op).2 ∧ (fifo g items op).1 = items ∨
        SideInv g σ items side phase (.pending op)) := by
  have bounded := repr.bounded
  cases op with
  | write xs =>
    have length : (UInt64.ofNat xs.length).toNat = xs.length :=
      UInt64.toNat_ofNat_of_lt' callable
    have begun := repr.toCounts.beginWrite (.ofNat xs.length)
    rw [length] at begun
    by_cases fits : xs.length ≤ g.N - items.length
    · obtain ⟨todo, stores, copies⟩ := g.stores_transaction .kSynchronizedReadWrite
        (σ.writePtr.toNat / g.s) length (by omega)
      rw [if_pos fits] at begun
      refine ⟨.storing xs todo, ?_, Or.inr ⟨rfl, ?_, callable, by omega, ?_, ?_⟩⟩
      · simp only [enter, begun, bind, Except.bind, Bool.not_true, Bool.false_eq_true, if_false]
        rw [stores]
        rfl
      · cases side with
        | writer => rfl
        | reader => exact absurd may id
      · exact fun b member => inside_of_storeAll UInt8.zero_ne_one copies member
      · rw [copies]
        exact window_put_same _ _ (by omega)
    · rw [if_neg fits] at begun
      refine ⟨.returning (.written false), ?_, Or.inl ?_⟩
      · simp only [enter, begun, bind, Except.bind, Bool.not_false, if_true]
        rfl
      · simp only [fifo, step, if_neg fits, Reply.map, and_self]
  | read n =>
    have begun := repr.toCounts.beginRead_buffer callable
    by_cases enough : n ≤ items.length
    · have count : (UInt64.ofNat n).toNat = n := Geometry.toNat_messages (g := g) (by omega)
      obtain ⟨todo, loads, copies⟩ := g.loads_transaction .kSynchronizedReadWrite
        (σ.readPtr.toNat / g.s) (k := .ofNat n) (by omega)
      rw [count] at copies
      rw [if_pos enough] at begun
      refine ⟨.fetching n todo [], ?_, Or.inr ⟨rfl, ?_, enough, ?_, ?_⟩⟩
      · simp only [enter, begun, bind, Except.bind, Bool.not_true, Bool.false_eq_true, if_false]
        rw [loads]
        rfl
      · cases side with
        | writer => exact absurd may id
        | reader => rfl
      · intro ring same
        rw [copies, copies, same]
      · rw [List.nil_append, copies, ← take_window _ _ _ _ enough, repr.held]
    · rw [if_neg enough] at begun
      refine ⟨.returning (.read none), ?_, Or.inl ?_⟩
      · simp only [enter, begun, bind, Except.bind, Bool.not_false, if_true]
        rfl
      · simp only [fifo, step, if_neg enough, Reply.map, Option.map_none, and_self]
  | availableToRead =>
    refine ⟨_, ?_, Or.inl ⟨rfl, rfl⟩⟩
    simp only [enter, repr.availableToRead, bind, Except.bind, pure, Except.pure, fifo, step,
      Reply.map, Geometry.toNat_messages bounded]
  | availableToWrite =>
    have free := Geometry.toNat_messages (g := g) (Nat.sub_le g.N items.length)
    refine ⟨_, ?_, Or.inl ⟨rfl, rfl⟩⟩
    simp only [enter, repr.availableToWrite, bind, Except.bind, pure, Except.pure, fifo, step,
      Reply.map, free]

/-- The write counter is stored when the slots hold the messages. -/
theorem Storing.next {xs : List (Vector UInt8 g.s)} (storing : Storing g σ items xs []) :
    step g.N items (.write xs) = (items ++ xs, .written true) ∧
      g.next σ items (.write xs) = (queue g).commitWrite σ (.ofNat xs.length) := by
  have room := storing.room
  have fits : xs.length ≤ g.N - items.length := by omega
  have held : window g.s g.N σ.ring (σ.writePtr.toNat / g.s) xs.length = xs := storing.stored
  refine ⟨if_pos fits, (if_pos fits).trans ?_⟩
  unfold Geometry.pushed Queue.commitWrite
  rw [put_window_self _ _ held, Geometry.queue_sizeofT]

/-- The read counter is stored when all bytes are there. -/
theorem Checking.next {n : Nat} {data : List UInt8} {writePtr : UInt64}
    (checking : Checking g σ items n data writePtr) :
    step g.N items (.read n) = (items.drop n, .read (some (items.take n))) ∧
      advance (s := g.s) (queue g) σ (.checking n data writePtr) =
        .ok (g.next σ items (.read n), .returning (.read (some data))) := by
  refine ⟨if_pos checking.enough, ?_⟩
  simp only [advance, Queue.commitRead]
  rw [if_neg checking.near, Geometry.next, if_pos checking.enough, Geometry.queue_sizeofT]
  rfl

/-- A part of one side that leaves the counters alone. -/
theorem Fetching.advance {n a : Nat} {todo : List Nat} {data : List UInt8}
    (fetching : Fetching g σ items n (a :: todo) data) :
    Fetching g σ items n todo (data ++ [σ.ring a]) := by
  refine ⟨fetching.enough, fun ring same => ?_, ?_⟩
  · exact (List.cons.inj (fetching.loads ring same)).2
  · have loaded := fetching.loaded
    rwa [List.map_cons, List.append_cons] at loaded

theorem Fetching.checking {n : Nat} {data : List UInt8} (fetching : Fetching g σ items n [] data)
    (repr : g.Repr σ items) : Checking g σ items n data σ.writePtr := by
  refine ⟨fetching.enough, ?_, ?_⟩
  · have loaded := fetching.loaded
    rwa [List.map_nil, List.append_nil] at loaded
  · rw [gt_iff_lt, UInt64.lt_iff_toNat_lt, Geometry.toNat_getSize]
    exact repr.toCounts.not_overflow

/-- Nothing but the slots of the messages counts. -/
theorem repr_with_ring (repr : g.Repr σ items) {ring : Ring}
    (held : window g.s g.N ring (σ.readPtr.toNat / g.s) items.length =
      window g.s g.N σ.ring (σ.readPtr.toNat / g.s) items.length) :
    g.Repr { σ with ring } items :=
  ⟨⟨⟨repr.count, repr.bounded⟩, repr.readAligned, repr.writeAligned⟩, repr.cursor,
    held.trans repr.held⟩

/-- A byte stored into a free slot is none of the messages. -/
theorem Storing.store {xs : List (Vector UInt8 g.s)} {b : UInt8} {a : Nat}
    {todo : List (UInt8 × Nat)} (storing : Storing g σ items xs ((b, a) :: todo))
    (repr : g.Repr σ items) :
    Storing g { σ with ring := store σ.ring a [b] } items xs todo ∧
      window g.s g.N (store σ.ring a [b]) (σ.readPtr.toNat / g.s) items.length =
        window g.s g.N σ.ring (σ.readPtr.toNat / g.s) items.length := by
  refine ⟨⟨storing.length, storing.room, ?_, storing.stored⟩, ?_⟩
  · exact fun b member => storing.inside b (List.mem_cons_of_mem _ member)
  · exact window_store _ _ ((storing.inside _ List.mem_cons_self).congr repr.cursor) storing.room

/-! ## Steps -/

section

variable {σ τ : State g.s}
  {α : Atomic (List (Vector UInt8 g.s)) Side (Op (Vector UInt8 g.s)) (Reply (List UInt8))}
  {storage : Storage}

/-- A step of one side. -/
theorem Matches.to (side : Side) {written : Nat} (repr : g.Repr storage items)
    (counting : Counting g storage items written)
    (own : SideInv g storage items side phase status)
    (other : SideInv g storage items side.other (σ.phase side.other) (α.status side.other)) :
    Matches g ⟨storage, update σ.phase side phase, written⟩
      ⟨items, update α.status side status⟩ := by
  refine ⟨repr, counting, fun side' => ?_⟩
  dsimp only
  by_cases same : side' = side
  · subst same
    rw [update_self, update_self]
    exact own
  · obtain rfl : side' = side.other := by
      cases side <;> cases side' <;> first | rfl | exact absurd rfl same
    rw [update_of_ne same, update_of_ne same]
    exact other

/-- A part that has no effect on the object. -/
theorem Matches.stays (side : Side) {written : Nat} (repr : g.Repr storage α.item)
    (counting : Counting g storage α.item written)
    (own : SideInv g storage α.item side phase (α.status side))
    (other : SideInv g storage α.item side.other (σ.phase side.other) (α.status side.other)) :
    ∃ β, Follows (fifo g) α none β ∧
      Matches g ⟨storage, update σ.phase side phase, written⟩ β := by
  have moved := Matches.to side repr counting own other
  rw [update_eq_self] at moved
  exact ⟨α, .stays α, moved⟩

/-- A part at which the call takes effect. -/
theorem Matches.performs (side : Side) {written : Nat} {reply : Reply (List UInt8)}
    (pending : α.status side = .pending op) (effect : fifo g α.item op = (items, reply))
    (repr : g.Repr storage items) (counting : Counting g storage items written)
    (other : SideInv g storage items side.other (σ.phase side.other) (α.status side.other)) :
    ∃ β, Follows (fifo g) α none β ∧
      Matches g ⟨storage, update σ.phase side (.returning reply), written⟩ β := by
  have step : Atomic.Step (fifo g) α none _ := .perform pending
  rw [effect] at step
  exact ⟨_, .single step, Matches.to side repr counting rfl other⟩

/-- The next part of a call, whatever the other side is doing. -/
theorem Matches.part (m : Matches g σ α) (running : (σ.phase side).Running)
    (done : advance (queue g) σ.storage (σ.phase side) = .ok (storage, phase))
    (bound : g.N * g.s ∣ 2 ^ 64 ∨ (σ.written + (σ.phase side).publishes) * g.s < 2 ^ 64) :
    ∃ β, Follows (fifo g) α none β ∧ Matches g
      ⟨storage, update σ.phase side phase, σ.written + (σ.phase side).publishes⟩ β := by
  have repr := m.repr
  have counting := m.counting
  have own := m.sides side
  have other := m.sides side.other
  -- By the place where the call is.
  cases at_ : σ.phase side with
  | idle =>
    rw [at_] at running
    cases running
  | returning reply =>
    rw [at_] at running
    cases running
  | called op =>
    rw [at_] at own done
    obtain ⟨pending, may, callable⟩ := own
    obtain ⟨phase', entered, cases_⟩ := enter_cases repr may callable
    cases entered.symm.trans done
    rcases cases_ with ⟨rfl, same⟩ | granted
    · exact Matches.performs side pending (Prod.ext same rfl) repr counting other
    · rw [← pending] at granted
      exact Matches.stays side repr counting granted other
  | storing xs todo =>
    rw [at_] at own done bound
    obtain ⟨pending, rfl, storing⟩ := own
    cases todo with
    | nil =>
      cases done
      obtain ⟨step_eq, next_eq⟩ := storing.next
      have callable : Callable (.write xs) := storing.length
      obtain ⟨repr', counting'⟩ := counting.call repr callable (by rw [step_eq]; exact bound)
      rw [next_eq, step_eq] at repr' counting'
      have reader := SideInv.added ((queue g).commitWrite σ.storage (.ofNat xs.length)) other rfl
        rfl xs
      exact Matches.performs .writer pending (by rw [fifo, step_eq]; rfl) repr' counting' reader
    | cons first todo =>
      obtain ⟨b, a⟩ := first
      cases done
      obtain ⟨storing', held⟩ := storing.store repr
      have reader := SideInv.added { σ.storage with ring := store σ.storage.ring a [b] } other rfl
        held []
      rw [List.append_nil] at reader
      exact Matches.stays .writer (repr_with_ring repr held) counting ⟨pending, rfl, storing'⟩
        reader
  | fetching n todo data =>
    rw [at_] at own done
    obtain ⟨pending, rfl, fetching⟩ := own
    cases todo with
    | nil =>
      cases done
      exact Matches.stays .reader repr counting ⟨pending, rfl, fetching.checking repr⟩ other
    | cons a todo =>
      cases done
      exact Matches.stays .reader repr counting ⟨pending, rfl, fetching.advance⟩ other
  | checking n data writePtr =>
    rw [at_] at own done bound
    obtain ⟨pending, rfl, checking⟩ := own
    obtain ⟨step_eq, committed⟩ := checking.next
    cases committed.symm.trans done
    have callable : Callable (s := g.s) (.read n) :=
      g.bytes_lt (Nat.le_trans checking.enough repr.bounded)
    obtain ⟨repr', counting'⟩ := counting.call repr callable (by rw [step_eq]; exact bound)
    rw [step_eq] at repr' counting'
    have next_eq : g.next σ.storage α.item (.read n) = g.popped σ.storage (.ofNat n) :=
      if_pos checking.enough
    refine Matches.performs .reader pending ?_ repr' counting' (SideInv.taken _ other ?_ ?_ ?_)
    · rw [fifo, step_eq, checking.loaded]
      rfl
    · rw [next_eq]
      rfl
    · rw [next_eq]
      rfl
    · rw [List.length_drop]
      exact Nat.sub_le _ _

/-- No call has published more than the counters can tell. -/
def Bounded (g : Geometry) (σ : State g.s) : Prop :=
  g.N * g.s ∣ 2 ^ 64 ∨ σ.written * g.s < 2 ^ 64

theorem Step.bounded {a : Option (CallEvent g.s)} (taken : Step g σ a τ) (bounded : Bounded g τ) :
    Bounded g σ := by
  cases taken with
  | invoke => exact bounded
  | respond => exact bounded
  | crash => exact bounded
  | part =>
    exact bounded.imp_right fun small =>
      Nat.lt_of_le_of_lt (Nat.mul_le_mul_right _ (Nat.le_add_right _ _)) small

/-- Every step is a step of the object, or none. -/
theorem Matches.step (m : Matches g σ α) {a : Option (CallEvent g.s)} (bounded : Bounded g τ)
    (taken : Step g σ a τ) : ∃ β, Follows (fifo g) α a β ∧ Matches g τ β := by
  cases taken with
  | @invoke side op idle may callable =>
    have own := m.sides side
    rw [idle] at own
    exact ⟨_, .single (.invoke own),
      Matches.to side m.repr m.counting ⟨rfl, may, callable⟩ (m.sides side.other)⟩
  | part running done => exact m.part running done bounded
  | @respond side reply returning =>
    have own := m.sides side
    rw [returning] at own
    exact ⟨_, .single (.respond own), Matches.to side m.repr m.counting rfl (m.sides side.other)⟩
  | @crash side =>
    -- Bytes that were stored already lie in slots that hold no message.
    exact ⟨_, .single .crash, Matches.to side m.repr m.counting rfl (m.sides side.other)⟩

theorem initial_matches (ring : Ring) : Matches g (State.initial g ring) (.initial []) where
  repr := g.repr_reset ring
  counting := Or.inr ⟨by simp [Geometry.Exact, State.initial, Atomic.initial, Storage.reset],
    Nat.zero_le _⟩
  sides _ := rfl

/-- A call in progress can always go on. -/
theorem Matches.advances (m : Matches g σ α) (side : Side) :
    ∃ storage phase, advance (queue g) σ.storage (σ.phase side) = .ok (storage, phase) := by
  have own := m.sides side
  cases at_ : σ.phase side with
  | called op =>
    rw [at_] at own
    obtain ⟨phase, entered, _⟩ := enter_cases m.repr own.2.1 own.2.2
    exact ⟨_, phase, entered⟩
  | storing xs todo => cases todo <;> exact ⟨_, _, rfl⟩
  | fetching n todo data => cases todo <;> exact ⟨_, _, rfl⟩
  | _ => exact ⟨_, _, rfl⟩

/-- However the parts of the calls of a writer and a reader interleave, and wherever one of them
ends, the history of the calls is one of a bounded FIFO whose calls take effect at once, and no call
gets stuck. -/
theorem run_linearizable {ring : Ring} {labels : List (Option (CallEvent g.s))}
    (run : Run (Step g) (State.initial g ring) labels σ) (bounded : Bounded g σ) :
    Linearizable (fifo g) [] (history labels) ∧
      ∀ side, ∃ storage phase, advance (queue g) σ.storage (σ.phase side) =
        .ok (storage, phase) := by
  obtain ⟨linearizable, α, m⟩ := linearizable_of_simulation (Bounded g) (Matches g)
    (fun _ _ _ taken => taken.bounded) (fun _ _ _ _ m bounded taken => m.step bounded taken) run
    bounded (initial_matches ring)
  exact ⟨linearizable, m.advances⟩

/-- After a writer that ended before its message was published, a read that begins and ends in the
middle of the next write finds the queue empty. -/
def readDuringWrite : List (CallEvent Geometry.single.s) :=
  [.invoke .writer (.write [#v[6]]), .crash .writer, .invoke .writer (.write [#v[7]]),
    .invoke .reader (.read 1), .respond .reader (.read none), .respond .writer (.written true)]

theorem run_linearizable_single : Linearizable (fifo .single) [] readDuringWrite := by
  have writes (v : Vector UInt8 Geometry.single.s) :
      Callable (s := Geometry.single.s) (.write [v]) := show 1 < 2 ^ 64 by decide
  have reads : Callable (s := Geometry.single.s) (.read 1) := show 1 * 1 < 2 ^ 64 by decide
  obtain ⟨σ, run, written⟩ : ∃ σ, Run (Step .single) (State.initial .single fun _ => 0)
      [some (.invoke .writer (.write [#v[6]])), none, none, some (.crash .writer),
        some (.invoke .writer (.write [#v[7]])), none, some (.invoke .reader (.read 1)), none,
        some (.respond .reader (.read none)), none, none,
        some (.respond .writer (.written true))] σ ∧ σ.written = 1 := by
    refine Run.exists_cons (@Step.invoke _ _ .writer _ rfl trivial (writes _)) ?_
    refine Run.exists_cons (@Step.part _ _ .writer _ _ trivial rfl) ?_
    -- The byte is stored, and never published.
    refine Run.exists_cons (@Step.part _ _ .writer _ _ trivial rfl) ?_
    refine Run.exists_cons .crash ?_
    refine Run.exists_cons (@Step.invoke _ _ .writer _ rfl trivial (writes _)) ?_
    refine Run.exists_cons (@Step.part _ _ .writer _ _ trivial rfl) ?_
    refine Run.exists_cons (@Step.invoke _ _ .reader _ rfl trivial reads) ?_
    refine Run.exists_cons (@Step.part _ _ .reader _ _ trivial rfl) ?_
    refine Run.exists_cons (.respond rfl) ?_
    -- The byte, and the write counter.
    refine Run.exists_cons (@Step.part _ _ .writer _ _ trivial rfl) ?_
    refine Run.exists_cons (@Step.part _ _ .writer _ _ trivial rfl) ?_
    refine Run.exists_cons (.respond rfl) ?_
    exact ⟨_, .done _, rfl⟩
  have bounded : Bounded .single σ := Or.inr (by rw [written]; decide)
  exact (run_linearizable run bounded).1

end

end Concurrent
end Fmq
