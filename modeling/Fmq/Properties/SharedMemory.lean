import Fmq.Model.SharedMemory
import Fmq.Properties.Export
import Fmq.Properties.Fifo
import Fmq.Properties.WrapAround

/-!
# All objects of a queue are one bounded FIFO

Wherever a queue object was constructed, its three pointers show the same bytes of the same file.
So whole calls in any of the processes act on one storage, and reply as one bounded FIFO does.
-/
namespace Fmq

open BoundedFifo Memory RecordRing SharedFiles Transition details MessageQueueBase

variable {F : Type} {g : Geometry}

/-! ## Pointers and files -/

namespace MessageQueueBase

variable {os : Platform} {sizeofT : UInt64} {desc : AidlMQDescriptorShim} {resetPointers : Bool}
  {mq : MessageQueueBase}

/-- The pointers of a valid synchronized queue are those that were mapped. -/
theorem initMemory_pointers
    (done : initMemory os .kSynchronizedReadWrite sizeofT desc resetPointers = .ok mq)
    (valid : mq.isValid = true) :
    mapGrantorDescr os desc READPTRPOS = .ok mq.mReadPtr ∧
      mapGrantorDescr os desc WRITEPTRPOS = .ok mq.mWritePtr ∧
      mapGrantorDescr os desc DATAPTRPOS = .ok mq.mRing := by
  unfold initMemory at done
  obtain ⟨-, done⟩ := not_refused done valid
  obtain ⟨-, done⟩ := not_refused done valid
  obtain ⟨_, -, done⟩ := bind_eq_ok.mp done
  obtain ⟨readPtr, mappedRead, done⟩ := mapped_of_ok done
  obtain ⟨writePtr, mappedWrite, done⟩ := mapped_of_ok done
  obtain ⟨ring, mappedRing, done⟩ := mapped_of_ok done
  split at done
  next =>
    obtain ⟨_, -, done⟩ := mapped_of_ok done
    cases done
    exact ⟨mappedRead, mappedWrite, mappedRing⟩
  next =>
    cases done
    exact ⟨mappedRead, mappedWrite, mappedRing⟩

theorem page_add (grantor : GrantorDescriptor) (small : grantor.offset.toNat < 2 ^ 31) :
    (mapRange grantor).1.toInt.toNat +
      (grantor.offset - (mapRange grantor).1.toUInt32).toNat = grantor.offset.toNat := by
  have offset := mapOffset_exact small
  have parts := Nat.div_add_mod' grantor.offset.toNat PAGE_SIZE.toNat
  have below : grantor.offset / PAGE_SIZE * PAGE_SIZE ≤ grantor.offset := by
    rw [UInt32.le_iff_toNat_le, toNat_page]
    exact Nat.div_mul_le_self _ _
  have within : (grantor.offset - grantor.offset / PAGE_SIZE * PAGE_SIZE).toNat =
      grantor.offset.toNat % PAGE_SIZE.toNat := by
    rw [UInt32.toNat_sub_of_le _ _ below, toNat_page]
    omega
  have same : (mapRange grantor).1.toUInt32 = grantor.offset / PAGE_SIZE * PAGE_SIZE :=
    UInt32.toUInt32_toInt32 _
  rw [offset, same, within]
  omega

end MessageQueueBase

theorem mapGrantorDescr_mapped {os : Platform} {desc : AidlMQDescriptorShim}
    {handle : NativeHandle} {grantorIdx address : Nat} {grantor : GrantorDescriptor} {fd : Int32}
    (present : desc.mHandle = some handle) (known : desc.mGrantors[grantorIdx]? = some grantor)
    (at_index : handle.data grantor.fdIndex.toInt32 = .ok fd)
    (mapped : mapGrantorDescr os desc grantorIdx = .ok (some address)) :
    ∃ start, os.mmap (mapRange grantor).2 fd (mapRange grantor).1 = some start ∧
      start + (grantor.offset - (mapRange grantor).1.toUInt32).toNat = address := by
  unfold mapGrantorDescr at mapped
  rw [present, known] at mapped
  obtain ⟨fd', at_index', mapped⟩ := bind_eq_ok.mp mapped
  cases at_index.symm.trans at_index'
  simp only [pure, Except.pure, Except.ok.injEq, Option.map_eq_some_iff] at mapped
  exact mapped

/-- What `mmap` does with this descriptor, which denotes `f`. -/
def MapsFile (os : Platform) (space : Space F) (fd : Int32) (f : F) : Prop :=
  ∀ length offset address, os.mmap length fd offset = some address →
    Maps space address ⟨f, offset.toInt.toNat, (sizeOfInt length).toNat⟩

/-- A grantor whose length is not cut off is mapped as the region of its file. -/
theorem MapsFile.grantor {os : Platform} {space : Space F} {f : F} {desc : AidlMQDescriptorShim}
    {handle : NativeHandle} {grantorIdx address : Nat} {grantor : GrantorDescriptor} {fd : Int32}
    (maps : MapsFile os space fd f) (present : desc.mHandle = some handle)
    (known : desc.mGrantors[grantorIdx]? = some grantor)
    (at_index : handle.data grantor.fdIndex.toInt32 = .ok fd)
    (small : grantor.offset.toNat < 2 ^ 31) (short : span grantor < 2 ^ 31)
    (mapped : mapGrantorDescr os desc grantorIdx = .ok (some address)) :
    Maps space address ⟨f, grantor.offset.toNat, grantor.extent.toNat⟩ := by
  obtain ⟨start, succeeded, rfl⟩ := mapGrantorDescr_mapped present known at_index mapped
  have exact_ := page_add grantor small
  have offset := mapOffset_exact small
  have length := mapLength_exact (Nat.lt_trans short (by decide))
  rw [Nat.mod_eq_of_lt (Nat.lt_trans short (by decide)), if_neg (Nat.not_le.mpr short)] at length
  unfold span at length
  have parts := Nat.div_add_mod' grantor.offset.toNat PAGE_SIZE.toNat
  intro i below
  dsimp only at below
  -- The mapping starts at the page of the grantor and ends with it.
  have shown := maps _ _ _ succeeded
    ((grantor.offset - (mapRange grantor).1.toUInt32).toNat + i) (by dsimp only; omega)
  show space (start + (grantor.offset - (mapRange grantor).1.toUInt32).toNat + i) = _
  rw [Nat.add_assoc, shown]
  dsimp only
  rw [← Nat.add_assoc, exact_]

/-! ## The storage in the files -/

/-- Where the counters and the ring are. None of them shares a byte with another one. -/
structure Placement (F : Type) where
  readPtr : Region F
  writePtr : Region F
  ring : Region F
  readLength : readPtr.length = 8
  writeLength : writePtr.length = 8
  readWrite : readPtr.Apart writePtr
  readRing : readPtr.Apart ring
  writeRing : writePtr.Apart ring

namespace Placement

variable (P : Placement F) (files : Files F UInt8)

def storage : Storage where
  ring i := if i < P.ring.length then files P.ring.file (P.ring.offset + i) else 0
  readPtr := word (files P.readPtr.file) P.readPtr.offset
  writePtr := word (files P.writePtr.file) P.writePtr.offset

/-- Nothing behind the end of the ring. -/
def Within (σ : Storage) : Prop := ∀ i, P.ring.length ≤ i → σ.ring i = 0

variable {P} {files}

theorem within_storage : P.Within (P.storage files) :=
  fun _ beyond => if_neg (Nat.not_lt.mpr beyond)

/-- A region is a word of its file. -/
theorem word_eq_of_bytes {r : Region F} {files' : Files F UInt8} (length : r.length = 8)
    (same : bytesOf files' r = bytesOf files r) :
    word (files' r.file) r.offset = word (files r.file) r.offset := by
  unfold bytesOf at same
  rw [length] at same
  unfold word
  rw [same]

variable [DecidableEq F] (P) (files)

def update (σ : Storage) : Files F UInt8 :=
  let files := withBytes files P.ring (load σ.ring 0 P.ring.length)
  let files := withBytes files P.readPtr (wordBytes σ.readPtr)
  withBytes files P.writePtr (wordBytes σ.writePtr)

variable {P} {files} {σ : Storage}

theorem word_withBytes {r : Region F} (length : r.length = 8) (x : UInt64) :
    word (withBytes files r (wordBytes x) r.file) r.offset = x := by
  have whole : (wordBytes x).take r.length = wordBytes x :=
    List.take_of_length_le (by rw [length_wordBytes, length])
  unfold withBytes
  rw [Function.update_self, whole]
  exact word_setWord _ _ _

theorem storage_update (within : P.Within σ) : P.storage (P.update files σ) = σ := by
  have ring : bytesOf (P.update files σ) P.ring = load σ.ring 0 P.ring.length := by
    unfold update
    rw [bytesOf_withBytes_apart _ P.writeRing, bytesOf_withBytes_apart _ P.readRing,
      bytesOf_withBytes _ (length_load _ _ _)]
  have bytes : (P.storage (P.update files σ)).ring = σ.ring := by
    funext i
    unfold storage
    dsimp only
    split
    next below =>
      have at_i := congrArg (·[i]?) ring
      simpa only [getElem?_bytesOf _ below, getElem?_load _ _ _ _ below, Nat.zero_add,
        Option.some.injEq] using at_i
    next beyond => exact (within i (Nat.le_of_not_lt beyond)).symm
  -- The write counter is stored behind the read counter and leaves it alone.
  have readPtr : (P.storage (P.update files σ)).readPtr = σ.readPtr :=
    (word_eq_of_bytes P.readLength (bytesOf_withBytes_apart _ P.readWrite.symm)).trans
      (word_withBytes P.readLength σ.readPtr)
  have writePtr : (P.storage (P.update files σ)).writePtr = σ.writePtr :=
    word_withBytes P.writeLength σ.writePtr
  calc P.storage (P.update files σ)
    _ = ⟨σ.ring, σ.readPtr, σ.writePtr⟩ := by rw [← bytes, ← readPtr, ← writePtr]
    _ = σ := rfl

/-- Frame: all other bytes of all files. -/
theorem update_outside {f : F} {x : Nat} (ring : ¬ P.ring.Has f x)
    (readPtr : ¬ P.readPtr.Has f x) (writePtr : ¬ P.writePtr.Has f x) :
    P.update files σ f x = files f x := by
  unfold update
  rw [withBytes_outside _ writePtr, withBytes_outside _ readPtr, withBytes_outside _ ring]

end Placement

/-! ## Objects -/

/-- The pointers of the object show this placement. -/
structure Endpoint.Shows (e : Endpoint F) (P : Placement F) : Prop where
  ring : ∃ address, e.mq.mRing = some address ∧ Maps e.process.space address P.ring
  readPtr : ∃ address, e.mq.mReadPtr = some address ∧ Maps e.process.space address P.readPtr
  writePtr : ∃ address, e.mq.mWritePtr = some address ∧ Maps e.process.space address P.writePtr
  size : e.ringSize = P.ring.length

variable {e : Endpoint F} {P : Placement F}

/-- A word behind a pointer. -/
theorem word_shown {space : Space F} {address : Nat} {r : Region F}
    (maps : Maps space address r) (length : r.length = 8) (files : Files F UInt8) :
    word (shown space files) address = word (files r.file) r.offset := by
  have bytes := maps.load files
  unfold bytesOf at bytes
  rw [length] at bytes
  unfold word
  rw [bytes]

theorem Endpoint.Shows.view (shows_ : e.Shows P) (files : Files F UInt8) :
    e.view files = some (P.storage files) := by
  obtain ⟨ring, knownRing, mapsRing⟩ := shows_.ring
  obtain ⟨readPtr, knownRead, mapsRead⟩ := shows_.readPtr
  obtain ⟨writePtr, knownWrite, mapsWrite⟩ := shows_.writePtr
  unfold Endpoint.view
  rw [knownRing, knownRead, knownWrite]
  dsimp only
  unfold Endpoint.memory
  rw [word_shown mapsRead P.readLength, word_shown mapsWrite P.writeLength, shows_.size]
  unfold Placement.storage
  congr 2
  funext i
  split
  next below => rw [shown, mapsRing i below]
  next => rfl

theorem Endpoint.Shows.put [DecidableEq F] (shows_ : e.Shows P) (files : Files F UInt8)
    (σ : Storage) : e.put files σ = P.update files σ := by
  obtain ⟨ring, knownRing, mapsRing⟩ := shows_.ring
  obtain ⟨readPtr, knownRead, mapsRead⟩ := shows_.readPtr
  obtain ⟨writePtr, knownWrite, mapsWrite⟩ := shows_.writePtr
  have eight : ∀ x, (wordBytes x).length = 8 := length_wordBytes
  unfold Endpoint.put
  rw [knownRing, knownRead, knownWrite]
  dsimp only
  rw [shows_.size, mapsRing.store (length_load _ _ _),
    mapsRead.store ((eight _).trans P.readLength.symm),
    mapsWrite.store ((eight _).trans P.writeLength.symm)]
  rfl

end Fmq
