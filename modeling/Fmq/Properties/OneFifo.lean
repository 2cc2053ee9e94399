import Fmq.Properties.Callable
import Fmq.Properties.SharedMemory

/-!
# One queue for all processes

The objects that are constructed from a queue's descriptor, over any number of processes, find
the counters and the ring where the first object has put them.
-/
namespace Fmq

open BoundedFifo Fmq.Geometry Memory SharedFiles Transition details MessageQueueBase
  AidlMQDescriptorShim World

variable {F : Type} {g : Geometry}

/-! ## Objects over one file -/

/-- The grantors of a queue in a file of its own. -/
def ownGrantors (bytes : UInt64) (evFlagOffset : UInt32) (configureEventFlagWord : Bool) :
    List GrantorDescriptor :=
  [⟨0, 0, 0, 8⟩, ⟨0, 0, 8, 8⟩, ⟨0, 0, 16, bytes⟩, ⟨0, 0, evFlagOffset, 4⟩].take
    (grantorCount configureEventFlagWord)

/-- Where the counters and the ring are in that file. -/
def ownPlacement (g : Geometry) (f : F) : Placement F where
  readPtr := ⟨f, 0, 8⟩
  writePtr := ⟨f, 8, 8⟩
  ring := ⟨f, 16, g.N * g.s⟩
  readLength := rfl
  writeLength := rfl
  readWrite := Or.inr (Or.inl (Nat.le_refl 8))
  readRing := Or.inr (Or.inl (Nat.le_add_left 8 8))
  writeRing := Or.inr (Or.inl (Nat.le_refl 16))

/-- The grantors of a queue of this geometry. -/
structure Fitting (g : Geometry) (bytes : UInt64) (evFlagOffset : UInt32)
    (configureEventFlagWord : Bool) : Prop where
  size : bytes.toNat = g.N * g.s
  bound : Rounding.up 8 (16 + bytes.toNat) < 2 ^ 31
  last : configureEventFlagWord = true →
    evFlagOffset.toNat = Rounding.up 8 (16 + bytes.toNat)

/-- An object over the file `f`, with this list of grantors. -/
structure Endpoint.Backed (g : Geometry) (f : F) (grantors : List GrantorDescriptor)
    (e : Endpoint F) : Prop where
  desc : ∃ desc handle, e.mq.mDesc = some desc ∧ desc.mHandle = some handle ∧ Portable desc ∧
    desc.mGrantors = grantors ∧ handle.fds.map e.process.file = [f]
  shows_ : e.Shows (ownPlacement g f)
  queue : e.queue = some (g.queue .kSynchronizedReadWrite)

@[simp] theorem MessageQueueBase.attach_ring (mq : MessageQueueBase) (σ : Storage) :
    (mq.attach σ).ring = σ.ring := rfl

/-- The constructor of a synchronized queue resets both pointers or none. -/
theorem MessageQueueBase.attach_stored {os : Platform} {sizeofT : UInt64}
    {desc : AidlMQDescriptorShim} {resetPointers : Bool} {mq : MessageQueueBase}
    (done : initMemory os .kSynchronizedReadWrite sizeofT desc resetPointers = .ok mq)
    (valid : mq.isValid = true) (σ : Storage) :
    mq.attach σ = if resetPointers = true then .reset σ.ring else σ := by
  have completed := initMemory_completed done valid
  unfold MessageQueueBase.attach
  rw [completed.readStored, completed.writeStored]
  cases resetPointers <;> rfl

theorem data_zero {handle : NativeHandle} {fd : Int32} (only : handle.fds = [fd]) :
    handle.data 0 = .ok fd := by
  unfold NativeHandle.data
  rw [only]
  rfl

variable {bytes : UInt64} {evFlagOffset : UInt32} {configureEventFlagWord : Bool}

/-- `initMemory` on such a descriptor, in any process whose handle is for this file. -/
theorem Fitting.backed (fitting : Fitting g bytes evFlagOffset configureEventFlagWord)
    (p : Process F) {os : Platform} {desc : AidlMQDescriptorShim} {handle : NativeHandle}
    {mq : MessageQueueBase} {resetPointers : Bool} {fd : Int32}
    (done : initMemory os .kSynchronizedReadWrite (sizeofT g) desc resetPointers = .ok mq)
    (valid : mq.isValid = true) (present : desc.mHandle = some handle) (only : handle.fds = [fd])
    (mapsFile : MapsFile os p.space fd (p.file fd))
    (layout : desc.mGrantors = ownGrantors bytes evFlagOffset configureEventFlagWord)
    (portable : Portable desc) :
    Endpoint.Backed g (p.file fd) (ownGrantors bytes evFlagOffset configureEventFlagWord)
      ⟨p, sizeofT g, mq⟩ := by
  have initialized := initMemory_valid done valid
  obtain ⟨mappedRead, mappedWrite, mappedRing⟩ := initMemory_pointers done valid
  have size : desc.getSize = bytes := by
    unfold getSize
    rw [layout]
    cases configureEventFlagWord <;> rfl
  unfold MessageQueueBase.isValid at valid
  rw [Bool.and_eq_true, Bool.and_eq_true] at valid
  obtain ⟨⟨ring, readPtr⟩, writePtr⟩ := valid
  obtain ⟨ring, knownRing⟩ := Option.isSome_iff_exists.mp ring
  obtain ⟨readPtr, knownRead⟩ := Option.isSome_iff_exists.mp readPtr
  obtain ⟨writePtr, knownWrite⟩ := Option.isSome_iff_exists.mp writePtr
  -- Each of the three grantors is where it is in the list.
  have maps {i address : Nat} {grantor : GrantorDescriptor}
      (known : desc.mGrantors[i]? = some grantor) (fdIndex : grantor.fdIndex = 0)
      (small : grantor.offset.toNat < 2 ^ 31) (short : span grantor < 2 ^ 31)
      (mapped : mapGrantorDescr os desc i = .ok (some address)) :
      Maps p.space address ⟨p.file fd, grantor.offset.toNat, grantor.extent.toNat⟩ := by
    refine mapsFile.grantor present known ?_ small short mapped
    rw [fdIndex]
    exact data_zero only
  have first : desc.mGrantors[READPTRPOS]? = some ⟨0, 0, 0, 8⟩ := by
    rw [layout]
    cases configureEventFlagWord <;> rfl
  have second : desc.mGrantors[WRITEPTRPOS]? = some ⟨0, 0, 8, 8⟩ := by
    rw [layout]
    cases configureEventFlagWord <;> rfl
  have third : desc.mGrantors[DATAPTRPOS]? = some ⟨0, 0, 16, bytes⟩ := by
    rw [layout]
    cases configureEventFlagWord <;> rfl
  have sixteen : (16 : UInt32).toNat < 2 ^ 31 := by decide
  have ring_short : span ⟨0, 0, 16, bytes⟩ < 2 ^ 31 := by
    have within := Rounding.le_up (by decide : 0 < 8) (16 + bytes.toNat)
    have bound := fitting.bound
    have value : span ⟨0, 0, 16, bytes⟩ = 16 + bytes.toNat := rfl
    omega
  refine ⟨⟨desc, handle, initialized.mDesc, present, portable, layout,
    by rw [only]; rfl⟩, ?_, ?_⟩
  · refine ⟨⟨ring, knownRing, ?_⟩, ⟨readPtr, knownRead, ?_⟩, ⟨writePtr, knownWrite, ?_⟩, ?_⟩
    · have mapsRing := maps third rfl (by exact sixteen) ring_short (by rw [mappedRing, knownRing])
      rw [fitting.size] at mapsRing
      exact mapsRing
    · exact maps first rfl (by decide) (by decide) (by rw [mappedRead, knownRead])
    · exact maps second rfl (by decide) (by decide) (by rw [mappedWrite, knownWrite])
    · unfold Endpoint.ringSize
      rw [initialized.mDesc, Option.elim_some, size, fitting.size]
      rfl
  · unfold Endpoint.queue MessageQueueBase.queue
    rw [initialized.mDesc, Option.map_some, size, initialized.quantum]
    have same : bytes = .ofNat (g.N * g.s) := by
      rw [← UInt64.toNat_inj, fitting.size, UInt64.toNat_ofNat_of_lt' g.fits]
    rw [same]
    rfl

/-- The first object. -/
theorem backed_created {p : Process F} {mq : MessageQueueBase}
    (constructed : (Source.numElements (.ofNat g.N) configureEventFlagWord (-1) 0).construct p.os
      .kSynchronizedReadWrite (sizeofT g) = .ok mq) (valid : mq.isValid = true) :
    ∃ bytes evFlagOffset f, Fitting g bytes evFlagOffset configureEventFlagWord ∧
      Endpoint.Backed g f (ownGrantors bytes evFlagOffset configureEventFlagWord)
        ⟨p, sizeofT g, mq⟩ ∧ ∀ σ, mq.attach σ = .reset σ.ring := by
  have pos : sizeofT g ≠ 0 := g.sizeofT_ne_zero .kSynchronizedReadWrite
  obtain ⟨-, desc, initialized, -⟩ := ofNumElements_valid pos constructed valid
  obtain ⟨product, done, ashmem, -, built⟩ :=
    ofNumElements_built pos constructed initialized.mDesc initialized.grantors
  cases built with
  | supplied buffer _ => exact absurd rfl buffer
  | own noBuffer bound message evFlagOffset last =>
    have size : (.ofNat g.N * sizeofT g : UInt64).toNat = g.N * g.s := by
      rw [product, UInt64.toNat_ofNat_of_lt' g.N_lt, UInt64.toNat_ofNat_of_lt' g.s_lt]
    have fitting : Fitting g (.ofNat g.N * sizeofT g) evFlagOffset configureEventFlagWord :=
      ⟨size, bound, last⟩
    refine ⟨_, evFlagOffset, p.file (p.os.ashmemCreateRegion ashmem), fitting, ?_,
      attach_stored done valid⟩
    refine fitting.backed p done valid rfl rfl (fun length offset => p.mmap_maps length _ offset)
      rfl ⟨?_, toNat_flavor _, portable_own bound last⟩
    rw [UInt64.toNat_toUInt32]
    omega

/-- An object from the exported descriptor of another one. -/
theorem Fitting.backed_attached
    (fitting : Fitting g bytes evFlagOffset configureEventFlagWord) {f : F} {e : Endpoint F}
    (backed : e.Backed g f (ownGrantors bytes evFlagOffset configureEventFlagWord)) {p : Process F}
    {desc : aidl.MQDescriptor} {fds : List Int32} {mq : MessageQueueBase} {resetPointers : Bool}
    (exported : e.mq.dupeDesc e.process.os = .ok desc)
    (received : Received e.process p desc.handle.fds fds)
    (constructed : (Source.mqDescriptor { desc with handle := ⟨fds, desc.handle.ints⟩ }
      resetPointers).construct p.os .kSynchronizedReadWrite (sizeofT g) = .ok mq)
    (valid : mq.isValid = true) :
    Endpoint.Backed g f (ownGrantors bytes evFlagOffset configureEventFlagWord)
        ⟨p, sizeofT g, mq⟩ ∧
      ∀ σ, mq.attach σ = if resetPointers = true then .reset σ.ring else σ := by
  obtain ⟨shim, handle, mDesc, present, portable, layout, file⟩ := backed.desc
  unfold MessageQueueBase.dupeDesc at exported
  rw [mDesc] at exported
  cases (dupeDesc_eq present e.process.os).symm.trans exported
  obtain ⟨shim', copied, done⟩ := ofDescriptor_done constructed valid
  have initialized := initMemory_valid done valid
  obtain ⟨accepted, rfl⟩ := aidl.MQDescriptor.copied_eq copied initialized.handle
  -- The importer has the values of the exporter back.
  have nonnegative := (ofMQDescriptor_valid.mp accepted).2.2.1
  have grantors : (shim.mGrantors.map exportGrantor).map converted = shim.mGrantors := by
    rw [List.map_map]
    refine (List.map_congr_left fun grantor member => ?_).trans (List.map_id _)
    exact (portable.grantors grantor member).converted_export
  have layout' : (aidl.MQDescriptor.shim p.os
      { parcelable shim ⟨handle.fds.map e.process.os.dup, handle.ints⟩ with
        handle := ⟨fds, handle.ints⟩ }).mGrantors = shim.mGrantors := grantors
  -- Duplicates on both sides, and the descriptors on the way, denote one file.
  have sent : (handle.fds.map e.process.os.dup).map e.process.file = [f] := by
    rw [List.map_map, ← file]
    exact List.map_congr_left fun fd _ => e.process.dup_file fd
  obtain ⟨fd, rfl, known⟩ := List.map_eq_singleton_iff.mp (received.trans sent)
  obtain rfl : p.file (p.os.dup (p.os.dup fd)) = f :=
    ((p.dup_file _).trans (p.dup_file fd)).trans known
  refine ⟨fitting.backed p done valid rfl rfl (fun length offset => p.mmap_maps length _ offset)
    (layout'.trans layout) ⟨?_, ?_, ?_⟩, attach_stored done valid⟩
  · exact portable.quantum
  · exact portable.flags
  · intro grantor member
    exact portable.grantors grantor (by rwa [← layout'])

/-! ## Steps -/

variable {σ : Storage} {items : List (Vector UInt8 g.s)} {total : Nat}
  {op : Op (Vector UInt8 g.s)}

/-- The pointers are reset at most to zero. -/
theorem Counting.attach (counting : Counting g σ items total) (resetPointers : Bool) :
    Counting g (if resetPointers = true then .reset σ.ring else σ)
      (if resetPointers = true then [] else items) total := by
  cases resetPointers with
  | false => exact counting
  | true =>
    by_cases divides : g.N * g.s ∣ 2 ^ 64
    · exact Or.inl divides
    · refine Or.inr ⟨?_, Nat.zero_le _⟩
      simp [Geometry.Exact, Storage.reset]

theorem repr_attach (repr : g.Repr σ items) (resetPointers : Bool) :
    g.Repr (if resetPointers = true then .reset σ.ring else σ)
      (if resetPointers = true then [] else items) := by
  cases resetPointers with
  | false => exact repr
  | true => exact g.repr_reset σ.ring

/-- A call leaves the cells behind the ring alone. -/
theorem within_next {f : F} (within : (ownPlacement g f).Within σ)
    (op : Op (Vector UInt8 g.s)) : (ownPlacement g f).Within (g.next σ items op) := by
  cases op with
  | write xs =>
    simp only [Geometry.next]
    split
    · intro i beyond
      refine (RecordRing.put_frame _ _ _ fun j _ => Or.inr ?_).trans (within i beyond)
      -- The slot of every position ends inside of the ring.
      have slot_lt := Nat.mod_lt (σ.writePtr.toNat / g.s + j) g.N_pos
      have last := Nat.mul_le_mul_right g.s slot_lt
      rw [Nat.succ_mul] at last
      exact Nat.le_trans last beyond
    · exact within
  | read n =>
    simp only [Geometry.next]
    split
    · exact within
    · exact within
  | availableToRead => exact within
  | availableToWrite => exact within

theorem accepted_map (reply : Reply (List (Vector UInt8 g.s))) :
    accepted op (reply.map flat) = accepted op reply := by
  cases reply with
  | written ok => cases op <;> cases ok <;> rfl
  | read _ => cases op <;> rfl
  | count _ => cases op <;> rfl

/-! ## Runs -/

/-- Nothing but the counters and the ring has changed. -/
def Untouched (g : Geometry) (f : F) (files files' : Files F UInt8) : Prop :=
  ∀ f' x, f' ≠ f ∨ 16 + g.N * g.s ≤ x → files' f' x = files f' x

theorem Untouched.trans {f : F} {files files' files'' : Files F UInt8}
    (first : Untouched g f files files') (second : Untouched g f files' files'') :
    Untouched g f files files'' :=
  fun f' x other => (second f' x other).trans (first f' x other)

variable [DecidableEq F]

/-- The world holds `items`, and at most `total` messages have been written. -/
structure World.Inv (g : Geometry) (f : F) (grantors : List GrantorDescriptor) (w : World F)
    (items : List (Vector UInt8 g.s)) (total : Nat) : Prop where
  backed : ∀ e ∈ w.endpoints, e.Backed g f grantors
  repr : g.Repr ((ownPlacement g f).storage w.files) items
  counting : Counting g ((ownPlacement g f).storage w.files) items total

variable {f : F} {grantors : List GrantorDescriptor} {w : World F}

theorem untouched_update (files : Files F UInt8) (σ : Storage) :
    Untouched g f files ((ownPlacement g f).update files σ) := by
  intro f' x other
  have outside {o n : Nat} (before : o + n ≤ 16 + g.N * g.s) :
      ¬ (⟨f, o, n⟩ : Region F).Has f' x := by
    rintro ⟨same, -, upper⟩
    dsimp only at same upper
    rcases other with differ | beyond
    · exact differ same
    · omega
  refine Placement.update_outside ?_ ?_ ?_
  · exact outside (Nat.le_refl _)
  · exact outside (by omega)
  · exact outside (by omega)

/-- A whole call on any of the objects. -/
theorem World.Inv.call (inv : w.Inv g f grantors items total) {e : Endpoint F}
    (member : e ∈ w.endpoints) (callable : Callable op)
    {files : Files F UInt8} {reply : Reply (List UInt8)}
    (done : e.exec w.files op = .ok (files, reply))
    (bound : g.N * g.s ∣ 2 ^ 64 ∨ (total + accepted op reply) * g.s < 2 ^ 64) :
    reply = (step g.N items op).2.map flat ∧
      World.Inv g f grantors ⟨files, w.endpoints⟩ (step g.N items op).1
        (total + accepted op reply) ∧ Untouched g f w.files files := by
  have backed := inv.backed e member
  unfold Endpoint.exec at done
  rw [backed.queue, backed.shows_.view] at done
  dsimp only at done
  rw [exec_callable inv.repr callable] at done
  cases done
  rw [accepted_map] at bound ⊢
  obtain ⟨repr, counting⟩ := inv.counting.call inv.repr callable bound
  have within : (ownPlacement g f).Within
      (g.next ((ownPlacement g f).storage w.files) items op) :=
    within_next Placement.within_storage op
  have same : (ownPlacement g f).storage ((ownPlacement g f).update w.files
      (g.next ((ownPlacement g f).storage w.files) items op)) =
      g.next ((ownPlacement g f).storage w.files) items op := Placement.storage_update within
  rw [backed.shows_.put]
  refine ⟨rfl, ⟨inv.backed, ?_, ?_⟩, untouched_update _ _⟩
  · dsimp only
    rw [same]
    exact repr
  · dsimp only
    rw [same]
    exact counting

/-- What the constructor of such an object leaves in the files. -/
theorem Endpoint.Backed.opened {e : Endpoint F} (backed : e.Backed g f grantors)
    {resetPointers : Bool}
    (stored : ∀ σ, e.mq.attach σ = if resetPointers = true then .reset σ.ring else σ)
    (files : Files F UInt8) :
    (ownPlacement g f).storage (e.opened files) =
        (if resetPointers = true then .reset ((ownPlacement g f).storage files).ring
          else (ownPlacement g f).storage files) ∧
      Untouched g f files (e.opened files) := by
  have within : (ownPlacement g f).Within (e.mq.attach ((ownPlacement g f).storage files)) := by
    intro i beyond
    rw [MessageQueueBase.attach_ring]
    exact Placement.within_storage i beyond
  unfold Endpoint.opened
  rw [backed.shows_.view]
  dsimp only
  rw [backed.shows_.put, Placement.storage_update within, stored]
  exact ⟨rfl, untouched_update _ _⟩

/-- The constructor from the descriptor of any of the objects. -/
theorem World.Inv.attach (inv : w.Inv g f grantors items total) {e : Endpoint F}
    (backed : e.Backed g f grantors) {resetPointers : Bool}
    (stored : ∀ σ, e.mq.attach σ = if resetPointers = true then .reset σ.ring else σ) :
    World.Inv g f grantors ⟨e.opened w.files, w.endpoints ++ [e]⟩
        (if resetPointers = true then [] else items) total ∧
      Untouched g f w.files (e.opened w.files) := by
  obtain ⟨same, untouched⟩ := backed.opened stored w.files
  refine ⟨⟨?_, ?_, ?_⟩, untouched⟩
  · intro e' member
    rcases List.mem_append.mp member with old | new
    · exact inv.backed e' old
    · rw [List.mem_singleton.mp new]
      exact backed
  · dsimp only
    rw [same]
    exact repr_attach inv.repr resetPointers
  · dsimp only
    rw [same]
    exact inv.counting.attach resetPointers

/-- The steps of objects that share a queue, wherever they come from. -/
inductive World.Shared (g : Geometry) (f : F) (grantors : List GrantorDescriptor) :
    World F → WorldEvent g.s → World F → Prop
  | call {w e op files reply} : e ∈ w.endpoints → e.exec w.files op = .ok (files, reply) →
      Shared g f grantors w (.call op reply) ⟨files, w.endpoints⟩
  | attach {w e resetPointers} : e.Backed g f grantors →
      (∀ σ, e.mq.attach σ = if resetPointers = true then .reset σ.ring else σ) →
      Shared g f grantors w (.attach resetPointers) ⟨e.opened w.files, w.endpoints ++ [e]⟩

/-- What a run does to a world that holds `items`. -/
theorem World.Inv.run {w w' : World F} {events : List (WorldEvent g.s)}
    (run : Run (World.Shared g f grantors) w events w')
    (callable : ∀ op reply, .call op reply ∈ events → Callable op)
    (inv : w.Inv g f grantors items total)
    (bound : g.N * g.s ∣ 2 ^ 64 ∨ (total + writtenBy events) * g.s < 2 ^ 64) :
    ∃ items' total', oneFifo g.N items events = some items' ∧
      w'.Inv g f grantors items' total' ∧ Untouched g f w.files w'.files := by
  -- Induction on the run; `total` takes what the calls have written.
  induction run generalizing items total with
  | done w => exact ⟨items, total, rfl, inv, fun _ _ _ => rfl⟩
  | @cons w event w' events w'' taken _ ih =>
    have callable_rest : ∀ op reply, .call op reply ∈ events → Callable op :=
      fun op reply member => callable op reply (List.mem_cons_of_mem _ member)
    cases taken with
    | @call e op files reply member done =>
      simp only [writtenBy, ← Nat.add_assoc] at bound
      have small : g.N * g.s ∣ 2 ^ 64 ∨ (total + accepted op reply) * g.s < 2 ^ 64 :=
        bound.imp_right fun small =>
          Nat.lt_of_le_of_lt (Nat.mul_le_mul_right _ (Nat.le_add_right _ _)) small
      obtain ⟨replied, inv', untouched⟩ :=
        inv.call member (callable op reply List.mem_cons_self) done small
      obtain ⟨items', total', fifo, inv'', untouched'⟩ := ih callable_rest inv' bound
      refine ⟨items', total', ?_, inv'', untouched.trans untouched'⟩
      rw [oneFifo, if_pos replied]
      exact fifo
    | attach backed stored =>
      obtain ⟨inv', untouched⟩ := inv.attach backed stored
      obtain ⟨items', total', fifo, inv'', untouched'⟩ := ih callable_rest inv' bound
      exact ⟨items', total', fifo, inv'', untouched.trans untouched'⟩

/-- Nothing has been written when the first object resets the pointers. -/
theorem Endpoint.Backed.inv {e : Endpoint F} (backed : e.Backed g f grantors)
    (stored : ∀ σ, e.mq.attach σ = .reset σ.ring) (files : Files F UInt8) :
    World.Inv g f grantors ⟨e.opened files, [e]⟩ [] 0 := by
  have reset : ∀ σ, e.mq.attach σ = if true = true then .reset σ.ring else σ := stored
  obtain ⟨same, -⟩ := backed.opened reset files
  refine ⟨?_, ?_, ?_⟩
  · intro e' member
    rw [List.mem_singleton.mp member]
    exact backed
  · dsimp only
    rw [same]
    exact g.repr_reset _
  · dsimp only
    rw [same]
    exact Or.inr ⟨by simp [Geometry.Exact, Storage.reset], Nat.zero_le _⟩

theorem World.Created.inv (created : Created g w) :
    ∃ bytes evFlagOffset configureEventFlagWord f,
      Fitting g bytes evFlagOffset configureEventFlagWord ∧
      w.Inv g f (ownGrantors bytes evFlagOffset configureEventFlagWord) [] 0 := by
  cases created with
  | @created p configureEventFlagWord mq files constructed valid =>
    obtain ⟨bytes, evFlagOffset, f, fitting, backed, stored⟩ := backed_created constructed valid
    exact ⟨bytes, evFlagOffset, configureEventFlagWord, f, fitting, backed.inv stored files⟩

theorem World.Step.shared {bytes : UInt64} {evFlagOffset : UInt32} {configureEventFlagWord : Bool}
    (fitting : Fitting g bytes evFlagOffset configureEventFlagWord) {w w' : World F}
    {event : WorldEvent g.s} (backed : ∀ e ∈ w.endpoints,
      e.Backed g f (ownGrantors bytes evFlagOffset configureEventFlagWord))
    (taken : World.Step g w event w') :
    World.Shared g f (ownGrantors bytes evFlagOffset configureEventFlagWord) w event w' ∧
      ∀ e ∈ w'.endpoints, e.Backed g f (ownGrantors bytes evFlagOffset configureEventFlagWord) := by
  cases taken with
  | call member done => exact ⟨.call member done, backed⟩
  | attach member exported received constructed valid =>
    obtain ⟨new, stored⟩ :=
      fitting.backed_attached (backed _ member) exported received constructed valid
    exact ⟨.attach new stored,
      List.forall_mem_append.mpr ⟨backed, List.forall_mem_singleton.mpr new⟩⟩

/-- Any of the objects can be called next, and replies as the queue does. -/
theorem World.Inv.replies (inv : w.Inv g f grantors items total) {e : Endpoint F}
    (member : e ∈ w.endpoints) (callable : Callable op) :
    ∃ files, e.exec w.files op = .ok (files, (step g.N items op).2.map flat) := by
  have backed := inv.backed e member
  unfold Endpoint.exec
  rw [backed.queue, backed.shows_.view]
  dsimp only
  rw [exec_callable inv.repr callable]
  exact ⟨_, rfl⟩

/-- The objects of a world have one queue in the file `f`: all of them show the same storage, which
holds these messages, and can be called next. -/
structure World.Common (g : Geometry) (w : World F) (f : F) (items : List (Vector UInt8 g.s))
    (σ : Storage) : Prop where
  repr : g.Repr σ items
  shows_ : ∀ e ∈ w.endpoints, e.Shows (ownPlacement g f)
  view : ∀ e ∈ w.endpoints, e.view w.files = some σ
  replies : ∀ e ∈ w.endpoints, ∀ op, Callable op →
    ∃ files, e.exec w.files op = .ok (files, (step g.N items op).2.map flat)

theorem World.Inv.common (inv : w.Inv g f grantors items total) :
    w.Common g f items ((ownPlacement g f).storage w.files) where
  repr := inv.repr
  shows_ e member := (inv.backed e member).shows_
  view e member := (inv.backed e member).shows_.view w.files
  replies _ member _ callable := inv.replies member callable

theorem World.Created.run {w w' : World F} {events : List (WorldEvent g.s)} (created : Created g w)
    (run : Run (World.Step g) w events w')
    (callable : ∀ op reply, .call op reply ∈ events → Callable op)
    (bound : g.N * g.s ∣ 2 ^ 64 ∨ writtenBy events * g.s < 2 ^ 64) :
    ∃ f grantors items total, oneFifo g.N [] events = some items ∧
      w'.Inv g f grantors items total ∧ Untouched g f w.files w'.files := by
  obtain ⟨_, _, _, f, fitting, inv⟩ := created.inv
  obtain ⟨run', -⟩ := run.image id (fun _ _ _ backed taken => taken.shared fitting backed)
    inv.backed
  obtain ⟨items, total, fifo, inv', untouched⟩ := inv.run run' callable (by rwa [Nat.zero_add])
  exact ⟨f, _, items, total, fifo, inv', untouched⟩

/-- Whole calls in all processes that share a queue, and the constructors in between, act on one
bounded FIFO. All objects see the same counters and messages, which are in one file, and no other
byte of any file changes. -/
theorem run_oneFifo {w w' : World F} {events : List (WorldEvent g.s)} (created : Created g w)
    (run : Run (World.Step g) w events w')
    (callable : ∀ op reply, .call op reply ∈ events → Callable op)
    (bound : g.N * g.s ∣ 2 ^ 64 ∨ writtenBy events * g.s < 2 ^ 64) :
    ∃ f items σ, oneFifo g.N [] events = some items ∧ w'.Common g f items σ ∧
      Untouched g f w.files w'.files := by
  obtain ⟨f, _, items, _, fifo, inv', untouched⟩ := created.run run callable bound
  exact ⟨f, items, _, fifo, inv'.common, untouched⟩

/-- A process that maps the beginning of its only file. -/
def singleProcess : Process Unit where
  os := { Platform.generous with
    mmap := fun _ _ offset => if offset = 0 then some 0x10000 else none }
  file _ := ()
  space a := ((), a - 0x10000)
  dup_file _ := rfl
  mmap_maps length fd offset address mapped := by
    intro i _
    dsimp only at mapped
    split at mapped
    next zero =>
      cases mapped
      subst zero
      exact congrArg (Prod.mk ()) ((Nat.add_sub_cancel_left _ _).trans (Nat.zero_add i).symm)
    next => cases mapped

/-- A second process attaches itself and reads what the first one has written. -/
def writtenThenRead : List (WorldEvent three.s) :=
  [.attach false, .call (.write [.replicate _ 7, .replicate _ 8]) (.written true),
    .call (.read 1) (.read (some [7]))]

theorem callable_writtenThenRead (op : Op (Vector UInt8 three.s)) (reply : Reply (List UInt8))
    (member : .call op reply ∈ writtenThenRead) : Callable op := by
  simp only [writtenThenRead, List.mem_cons, List.not_mem_nil, or_false, reduceCtorEq, false_or,
    WorldEvent.call.injEq] at member
  rcases member with ⟨rfl, -⟩ | ⟨rfl, -⟩
  · exact show 2 < 2 ^ 64 by decide
  · exact show 1 * 1 < 2 ^ 64 by decide

/-- Two of the objects can make these calls. -/
theorem World.Inv.writtenThenRead {w : World F} {f : F} {grantors : List GrantorDescriptor}
    (inv : w.Inv three f grantors [] 0) {e e' : Endpoint F} (member : e ∈ w.endpoints)
    (member' : e' ∈ w.endpoints) : ∃ files files',
      e.exec w.files (.write [.replicate three.s 7, .replicate three.s 8]) =
        .ok (files, .written true) ∧
      e'.exec files (.read 1 : Op (Vector UInt8 three.s)) =
        .ok (files', .read (some [7])) := by
  have writes := callable_writtenThenRead (.write [.replicate _ 7, .replicate _ 8]) _
    (List.mem_cons_of_mem _ List.mem_cons_self)
  have reads := callable_writtenThenRead (.read 1) _
    (List.mem_cons_of_mem _ (List.mem_cons_of_mem _ List.mem_cons_self))
  obtain ⟨files, written⟩ := inv.replies member writes
  have inv' := (inv.call member writes written (Or.inr (by decide))).2.1
  obtain ⟨files', read⟩ := inv'.replies member' reads
  exact ⟨files, files', written, read⟩

theorem run_oneFifo_three : ∃ w w' : World Unit, Created three w ∧
    Run (World.Step three) w writtenThenRead w' ∧
    ∃ f items σ, oneFifo three.N [] writtenThenRead = some items ∧ w'.Common three f items σ ∧
      Untouched three f w.files w'.files := by
  obtain ⟨mq, constructed, valid, mq', desc, exported, attached, valid'⟩ :
      ∃ mq, (Source.numElements (.ofNat three.N) true (-1) 0).construct singleProcess.os
          .kSynchronizedReadWrite (sizeofT three) = .ok mq ∧ mq.isValid = true ∧
        ∃ mq' desc, mq.dupeDesc singleProcess.os = .ok desc ∧
          (Source.mqDescriptor { desc with handle := ⟨desc.handle.fds, desc.handle.ints⟩ }
            false).construct singleProcess.os .kSynchronizedReadWrite (sizeofT three) =
              .ok mq' ∧
          mq'.isValid = true :=
    ⟨_, rfl, rfl, _, _, rfl, rfl, rfl⟩
  have created : Created three
      ⟨(⟨singleProcess, sizeofT three, mq⟩ : Endpoint Unit).opened fun _ _ => 0, [_]⟩ :=
    .created constructed valid
  obtain ⟨_, _, _, f, fitting, inv⟩ := created.inv
  obtain ⟨backed, stored⟩ :=
    fitting.backed_attached (inv.backed _ List.mem_cons_self) exported rfl attached valid'
  obtain ⟨_, _, written, read⟩ := (inv.attach backed stored).1.writtenThenRead
    List.mem_cons_self (List.mem_cons_of_mem _ List.mem_cons_self)
  have run : Run (World.Step three) _ writtenThenRead _ :=
    Run.cons (World.Step.attach List.mem_cons_self exported rfl attached valid')
      (Run.cons (World.Step.call List.mem_cons_self written) (Run.cons
        (World.Step.call (List.mem_cons_of_mem _ List.mem_cons_self) read) (.done _)))
  exact ⟨_, _, created, run,
    run_oneFifo created run callable_writtenThenRead (Or.inr (by decide))⟩

end Fmq
