import Fmq.Model.MappedCalls
import Fmq.Properties.Extents
import Fmq.Properties.SharedMemory

/-!
# Calls on memory that does not overlap

Where the ring and the counters share no byte, the calls on the mapped bytes are those on a storage
with a ring and two counters of its own.
-/
namespace Fmq

open Memory Scatter SharedFiles details

variable {F : Type}

/-! ## Stores -/

theorem Storage.eq_of_parts {σ τ : Storage} (ring : σ.ring = τ.ring)
    (readPtr : σ.readPtr = τ.readPtr) (writePtr : σ.writePtr = τ.writePtr) : σ = τ := by
  cases σ
  cases τ
  cases ring
  cases readPtr
  cases writePtr
  rfl

namespace Placement

variable {P : Placement F} {files files' : Files F UInt8}

theorem ring_eq_of_bytes (same : bytesOf files' P.ring = bytesOf files P.ring) :
    (P.storage files').ring = (P.storage files).ring := by
  funext i
  unfold storage
  dsimp only
  split
  next below =>
    have at_i := congrArg (·[i]?) same
    simpa only [getElem?_bytesOf _ below, Option.some.injEq] using at_i
  next => rfl

variable [DecidableEq F]

theorem storage_withRead (x : UInt64) :
    P.storage (withBytes files P.readPtr (wordBytes x)) =
      { P.storage files with readPtr := x } := by
  have ring : (P.storage (withBytes files P.readPtr (wordBytes x))).ring =
      (P.storage files).ring :=
    ring_eq_of_bytes (bytesOf_withBytes_apart files P.readRing)
  have readPtr : (P.storage (withBytes files P.readPtr (wordBytes x))).readPtr = x :=
    word_withBytes P.readLength x
  have writePtr : (P.storage (withBytes files P.readPtr (wordBytes x))).writePtr =
      (P.storage files).writePtr :=
    word_eq_of_bytes P.writeLength (bytesOf_withBytes_apart files P.readWrite)
  exact Storage.eq_of_parts ring readPtr writePtr

theorem storage_withWrite (x : UInt64) :
    P.storage (withBytes files P.writePtr (wordBytes x)) =
      { P.storage files with writePtr := x } := by
  have ring : (P.storage (withBytes files P.writePtr (wordBytes x))).ring =
      (P.storage files).ring :=
    ring_eq_of_bytes (bytesOf_withBytes_apart files P.writeRing)
  have writePtr : (P.storage (withBytes files P.writePtr (wordBytes x))).writePtr = x :=
    word_withBytes P.writeLength x
  have readPtr : (P.storage (withBytes files P.writePtr (wordBytes x))).readPtr =
      (P.storage files).readPtr :=
    word_eq_of_bytes P.readLength (bytesOf_withBytes_apart files P.readWrite.symm)
  exact Storage.eq_of_parts ring readPtr writePtr

/-- The bytes of the ring from `offset` on. -/
def part (P : Placement F) (offset length : Nat) : Region F :=
  ⟨P.ring.file, P.ring.offset + offset, length⟩

omit [DecidableEq F] in
theorem part_apart {r : Region F} (apart : r.Apart P.ring) {offset length : Nat}
    (room : offset + length ≤ P.ring.length) : (P.part offset length).Apart r := by
  unfold part Region.Apart
  rcases apart with files | before | after
  · exact Or.inl (Ne.symm files)
  · exact Or.inr (Or.inr (by dsimp only; omega))
  · exact Or.inr (Or.inl (by dsimp only; omega))

theorem storage_withPart {offset : Nat} {bs : List UInt8}
    (room : offset + bs.length ≤ P.ring.length) :
    P.storage (withBytes files (P.part offset bs.length) bs) =
      { P.storage files with ring := store (P.storage files).ring offset bs } := by
  have readPtr : (P.storage (withBytes files (P.part offset bs.length) bs)).readPtr =
      (P.storage files).readPtr :=
    word_eq_of_bytes P.readLength (bytesOf_withBytes_apart files (part_apart P.readRing room))
  have writePtr : (P.storage (withBytes files (P.part offset bs.length) bs)).writePtr =
      (P.storage files).writePtr :=
    word_eq_of_bytes P.writeLength (bytesOf_withBytes_apart files (part_apart P.writeRing room))
  have ring : (P.storage (withBytes files (P.part offset bs.length) bs)).ring =
      store (P.storage files).ring offset bs := by
    funext i
    rcases store_cases (P.storage files).ring offset i bs with ⟨j, inside, rfl, eq⟩ | ⟨apart, eq⟩
    · rw [eq]
      have stored := withBytes_has files (r := P.part offset bs.length) rfl j inside
      unfold part at stored
      unfold storage part
      dsimp only at stored ⊢
      rw [if_pos (by omega), ← Nat.add_assoc, stored]
    · rw [eq]
      unfold storage
      dsimp only
      split
      next below =>
        refine withBytes_outside files ?_ bs
        rintro ⟨-, lower, upper⟩
        unfold part at lower upper
        dsimp only at lower upper
        omega
      next => rfl
  exact Storage.eq_of_parts ring readPtr writePtr

end Placement

/-- A part of a region is mapped as well. -/
theorem maps_part {space : Space F} {address offset length : Nat} {P : Placement F}
    (maps : Maps space address P.ring) (room : offset + length ≤ P.ring.length) :
    Maps space (address + offset) (P.part offset length) := by
  intro i below
  unfold Placement.part at below ⊢
  dsimp only at below ⊢
  rw [Nat.add_assoc, maps (offset + i) (by omega), Nat.add_assoc]

/-- A granted transaction whose slots lie in the ring is copied inside of it. -/
theorem MemTransaction.Grants.room {tx : MemTransaction} {sizeofT k : UInt64} {size : Nat}
    (grants : tx.Grants k)
    (inside : ∀ i < k.toNat, tx.slotOffset sizeofT.toNat i + sizeofT.toNat ≤ size) :
    ∃ info, tx.getMemRegionInfo sizeofT 0 k = some info ∧
      (info.firstCount ≠ 0 → info.firstBaseAddress.block = .ring ∧
        info.firstBaseAddress.offset + (info.firstCount * sizeofT).toNat ≤ size) ∧
      (info.secondCount ≠ 0 → info.secondBaseAddress.block = .ring ∧
        info.secondBaseAddress.offset + (info.secondCount * sizeofT).toNat ≤ size) := by
  obtain ⟨info, eq, count, firstBase, firstPlace, secondBase, secondPlace⟩ :=
    grants.info sizeofT (show (0 : UInt64).toNat + k.toNat ≤ k.toNat by simp)
  -- The last slot of each part ends inside.
  have bytes : ∀ c : UInt64, c ≠ 0 →
      (c * sizeofT).toNat ≤ (c.toNat - 1) * sizeofT.toNat + sizeofT.toNat := by
    intro c some_count
    have positive : c.toNat ≠ 0 := fun zero => some_count (UInt64.toNat_inj.mp zero)
    rw [← Nat.succ_mul, Nat.succ_eq_add_one, Nat.sub_add_cancel (by omega), UInt64.toNat_mul]
    exact Nat.mod_le _ _
  have nonzero : ∀ c : UInt64, c ≠ 0 → c.toNat ≠ 0 := fun c some_count zero =>
    some_count (UInt64.toNat_inj.mp zero)
  refine ⟨info, eq, fun some_first => ?_, fun some_second => ?_⟩
  · have positive := nonzero _ some_first
    have last := inside (info.firstCount.toNat - 1) (by omega)
    have place := firstPlace (info.firstCount.toNat - 1) (by omega)
    rw [UInt64.toNat_zero, Nat.zero_add] at place
    have few := bytes _ some_first
    rw [firstBase some_first]
    exact ⟨rfl, by dsimp only; rw [UInt64.toNat_zero]; omega⟩
  · have positive := nonzero _ some_second
    have last := inside (info.firstCount.toNat + (info.secondCount.toNat - 1)) (by omega)
    have place := secondPlace (info.secondCount.toNat - 1) (by omega)
    rw [UInt64.toNat_zero, Nat.zero_add] at place
    have few := bytes _ some_second
    rw [secondBase some_second]
    exact ⟨rfl, by dsimp only; rw [UInt64.toNat_zero]; omega⟩

/-- The slots of the transaction lie in the ring. -/
def Placement.InRing (P : Placement F) (tx : MemTransaction) (sizeofT k : UInt64) : Prop :=
  tx.Grants k ∧ ∀ i < k.toNat, tx.slotOffset sizeofT.toNat i + sizeofT.toNat ≤ P.ring.length

/-! ## The calls of an object -/

namespace Endpoint.Shows

variable {e : Endpoint F} {P : Placement F} {files : Files F UInt8}

theorem loadRead (shows_ : e.Shows P) (files : Files F UInt8) :
    e.loadWord files e.mq.mReadPtr = .ok (P.storage files).readPtr := by
  obtain ⟨address, known, maps⟩ := shows_.readPtr
  rw [known]
  exact congrArg Except.ok (word_shown maps P.readLength files)

theorem loadWrite (shows_ : e.Shows P) (files : Files F UInt8) :
    e.loadWord files e.mq.mWritePtr = .ok (P.storage files).writePtr := by
  obtain ⟨address, known, maps⟩ := shows_.writePtr
  rw [known]
  exact congrArg Except.ok (word_shown maps P.writeLength files)

/-- A copy out of the ring. -/
theorem memcpyFrom (shows_ : e.Shows P) (files : Files F UInt8) {p : Ptr} {count : UInt64}
    (room : count ≠ 0 → p.block = .ring ∧ p.offset + (count * e.sizeofT).toNat ≤ P.ring.length) :
    e.memcpyFrom files p count = Fmq.memcpyFrom (P.storage files).ring p e.sizeofT count := by
  unfold Endpoint.memcpyFrom Fmq.memcpyFrom
  split
  next => rfl
  next some_count =>
    obtain ⟨address, known, maps⟩ := shows_.ring
    obtain ⟨block, inside⟩ := room some_count
    rw [known, block]
    refine congrArg Except.ok ?_
    apply List.map_congr_left
    intro i member
    have below := List.mem_range.mp member
    unfold Endpoint.memory shown Placement.storage
    dsimp only
    rw [if_pos (by omega), Nat.add_assoc, maps (p.offset + i) (by omega)]

variable [DecidableEq F]

theorem storeRead (shows_ : e.Shows P) (files : Files F UInt8) (x : UInt64) :
    ∃ files', e.storeWord files e.mq.mReadPtr x = .ok files' ∧
      P.storage files' = { P.storage files with readPtr := x } := by
  obtain ⟨address, known, maps⟩ := shows_.readPtr
  refine ⟨_, ?_, Placement.storage_withRead x⟩
  rw [known]
  exact congrArg Except.ok (maps.store ((length_wordBytes x).trans P.readLength.symm) files)

theorem storeWrite (shows_ : e.Shows P) (files : Files F UInt8) (x : UInt64) :
    ∃ files', e.storeWord files e.mq.mWritePtr x = .ok files' ∧
      P.storage files' = { P.storage files with writePtr := x } := by
  obtain ⟨address, known, maps⟩ := shows_.writePtr
  refine ⟨_, ?_, Placement.storage_withWrite x⟩
  rw [known]
  exact congrArg Except.ok (maps.store ((length_wordBytes x).trans P.writeLength.symm) files)

theorem storeSomeRead (shows_ : e.Shows P) (files : Files F UInt8) (x : Option UInt64) :
    ∃ files', e.storeSome files e.mq.mReadPtr x = .ok files' ∧
      P.storage files' =
        { P.storage files with readPtr := x.getD (P.storage files).readPtr } := by
  cases x with
  | none => exact ⟨files, rfl, rfl⟩
  | some x => exact shows_.storeRead files x

theorem storeSomeWrite (shows_ : e.Shows P) (files : Files F UInt8) (x : Option UInt64) :
    ∃ files', e.storeSome files e.mq.mWritePtr x = .ok files' ∧
      P.storage files' =
        { P.storage files with writePtr := x.getD (P.storage files).writePtr } := by
  cases x with
  | none => exact ⟨files, rfl, rfl⟩
  | some x => exact shows_.storeWrite files x

/-- A copy into the ring. -/
theorem memcpyTo (shows_ : e.Shows P) (files : Files F UInt8) {p : Ptr} {count : UInt64}
    (bytes : List UInt8)
    (room : count ≠ 0 → p.block = .ring ∧ p.offset + (count * e.sizeofT).toNat ≤ P.ring.length) :
    ∃ files' ring, e.memcpyTo files p bytes count = .ok files' ∧
      Fmq.memcpyTo (P.storage files).ring p bytes e.sizeofT count = .ok ring ∧
      P.storage files' = { P.storage files with ring } := by
  unfold Endpoint.memcpyTo Fmq.memcpyTo
  split
  next => exact ⟨_, _, rfl, rfl, rfl⟩
  next some_count =>
    obtain ⟨address, known, maps⟩ := shows_.ring
    obtain ⟨block, inside⟩ := room some_count
    have length := List.length_take_le (count * e.sizeofT).toNat bytes
    rw [known, block]
    have within : p.offset + (bytes.take (count * e.sizeofT).toNat).length ≤ P.ring.length := by
      omega
    refine ⟨_, _, ?_, rfl, Placement.storage_withPart within⟩
    exact congrArg Except.ok ((maps_part maps within).store rfl files)

variable {q : Queue} {k : UInt64} {tx : MemTransaction} {σ : Storage} {ok : Bool}

omit [DecidableEq F] in
theorem sizeofT_of_queue (known : e.queue = some q) : q.sizeofT = e.sizeofT := by
  unfold Endpoint.queue MessageQueueBase.queue at known
  obtain ⟨desc, -, rfl⟩ := Option.map_eq_some_iff.mp known
  rfl

omit [DecidableEq F] in
theorem size_of_queue (shows_ : e.Shows P) (known : e.queue = some q) :
    P.ring.length = q.getSize.toNat := by
  rw [← shows_.size]
  unfold Endpoint.queue MessageQueueBase.queue at known
  obtain ⟨desc, present, rfl⟩ := Option.map_eq_some_iff.mp known
  unfold Endpoint.ringSize
  rw [present]
  rfl

theorem copyTo (shows_ : e.Shows P) (files : Files F UInt8) (inRing : P.InRing tx e.sizeofT k)
    (data : List UInt8) : ∃ files' ring, e.copyTo files tx (some data) 0 k = .ok (true, files') ∧
      tx.copyTo e.sizeofT (P.storage files).ring (some data) 0 k = .ok (true, ring) ∧
      P.storage files' = { P.storage files with ring } := by
  obtain ⟨info, eq, first, second⟩ := inRing.1.room inRing.2
  -- The second copy starts from the ring that the first one has left.
  obtain ⟨files₁, ring₁, stored₁, stored₁', same₁⟩ := shows_.memcpyTo files data first
  obtain ⟨files₂, ring₂, stored₂, stored₂', same₂⟩ := shows_.memcpyTo files₁
    (data.drop (info.firstCount.toNat * e.sizeofT.toNat)) second
  rw [same₁] at stored₂' same₂
  refine ⟨files₂, ring₂, ?_, ?_, same₂⟩
  · unfold Endpoint.copyTo
    simp only [eq, stored₁, stored₂, bind, Except.bind, pure, Except.pure]
  · unfold MemTransaction.copyTo
    simp only [eq, stored₁', stored₂', bind, Except.bind, pure, Except.pure]

omit [DecidableEq F] in
theorem copyFrom (shows_ : e.Shows P) (files : Files F UInt8)
    (inRing : P.InRing tx e.sizeofT k) :
    e.copyFrom files tx true 0 k = tx.copyFrom e.sizeofT (P.storage files).ring true 0 k := by
  obtain ⟨info, eq, first, second⟩ := inRing.1.room inRing.2
  unfold Endpoint.copyFrom MemTransaction.copyFrom
  simp only [eq, shows_.memcpyFrom files first, shows_.memcpyFrom files second]
  rfl

omit [DecidableEq F] in
theorem beginWrite (shows_ : e.Shows P) (known : e.queue = some q) (files : Files F UInt8)
    (n : UInt64) (old : MemTransaction) :
    e.beginWrite files n old = q.beginWrite (P.storage files) n old := by
  unfold Endpoint.beginWrite
  rw [known, shows_.loadRead, shows_.loadWrite]
  rfl

theorem write_refused (shows_ : e.Shows P) (known : e.queue = some q)
    (begun : q.beginWrite (P.storage files) k .empty = .ok (false, tx))
    (data : Option (List UInt8)) : e.write files data k = .ok (false, files) := by
  unfold Endpoint.write
  rw [shows_.beginWrite known, begun]
  rfl

theorem write_granted (shows_ : e.Shows P) (known : e.queue = some q)
    (begun : q.beginWrite (P.storage files) k .empty = .ok (true, tx))
    (inRing : P.InRing tx e.sizeofT k) (data : List UInt8) :
    ∃ files', e.write files (some data) k = .ok (true, files') ∧
      q.write (P.storage files) (some data) k = .ok (true, P.storage files') := by
  obtain ⟨files₁, ring, copied, copied', same₁⟩ := shows_.copyTo files inRing data
  -- The counter that is loaded behind the copy is still the one of `beginWrite`.
  obtain ⟨files₂, stored, same₂⟩ := shows_.storeWrite files₁
    ((P.storage files₁).writePtr + k * e.sizeofT)
  have committed : e.commitWrite files₁ k = .ok files₂ := by
    unfold Endpoint.commitWrite
    rw [shows_.loadWrite]
    exact stored
  refine ⟨files₂, ?_, ?_⟩
  · unfold Endpoint.write
    rw [shows_.beginWrite known, begun]
    simp [copied, committed, bind, Except.bind, pure, Except.pure]
  · rw [← sizeofT_of_queue known] at copied'
    rw [Queue.write_granted begun copied', same₂, same₁, ← sizeofT_of_queue known]
    rfl

theorem beginRead (shows_ : e.Shows P) (known : e.queue = some q)
    (begun : q.beginRead (P.storage files) k = .ok (ok, tx, σ)) :
    ∃ files', e.beginRead files k = .ok (ok, tx, files') ∧ P.storage files' = σ := by
  obtain ⟨r, loads, begun⟩ := bind_eq_ok.mp begun
  cases begun
  -- The read counter is stored only when the reader was lapped.
  obtain ⟨files', stored, same⟩ := shows_.storeSomeRead files r.stored
  refine ⟨files', ?_, same⟩
  unfold Endpoint.beginRead
  rw [known, shows_.loadRead, shows_.loadWrite]
  simp [loads, stored, bind, Except.bind, pure, Except.pure]

theorem commitRead (shows_ : e.Shows P) (known : e.queue = some q) (files : Files F UInt8)
    (k : UInt64) : ∃ files',
      e.commitRead files k = .ok ((q.commitRead (P.storage files) k).1, files') ∧
      P.storage files' = (q.commitRead (P.storage files) k).2 := by
  unfold Endpoint.commitRead Queue.commitRead
  rw [known, shows_.loadRead, shows_.loadWrite, sizeofT_of_queue known]
  simp only [bind, Except.bind, pure, Except.pure]
  split
  · obtain ⟨files', stored, same⟩ := shows_.storeRead files (P.storage files).writePtr
    exact ⟨files', by rw [stored], same⟩
  · obtain ⟨files', stored, same⟩ := shows_.storeRead files
      ((P.storage files).readPtr + k * e.sizeofT)
    exact ⟨files', by rw [stored], same⟩

theorem read_refused (shows_ : e.Shows P) (known : e.queue = some q)
    (begun : q.beginRead (P.storage files) k = .ok (false, tx, σ)) (hasData : Bool) :
    ∃ files', e.read files hasData k = .ok (false, files', none) ∧ P.storage files' = σ := by
  obtain ⟨files', begun', same⟩ := shows_.beginRead known begun
  refine ⟨files', ?_, same⟩
  unfold Endpoint.read
  rw [begun']
  rfl

theorem read_granted (shows_ : e.Shows P) (known : e.queue = some q) {data : List UInt8}
    (begun : q.beginRead (P.storage files) k = .ok (true, tx, σ))
    (inRing : P.InRing tx e.sizeofT k)
    (copied : tx.copyFrom q.sizeofT σ.ring true 0 k = .ok (some data)) :
    ∃ files', e.read files true k = .ok ((q.commitRead σ k).1, files', some data) ∧
      P.storage files' = (q.commitRead σ k).2 := by
  obtain ⟨files₁, begun', rfl⟩ := shows_.beginRead known begun
  obtain ⟨files₂, committed, same⟩ := shows_.commitRead known files₁ k
  rw [sizeofT_of_queue known, ← shows_.copyFrom files₁ inRing] at copied
  refine ⟨files₂, ?_, same⟩
  unfold Endpoint.read
  simp [begun', copied, committed, bind, Except.bind, pure, Except.pure]

/-- The stores of `initMemory`. -/
theorem initStores (shows_ : e.Shows P) (files : Files F UInt8) :
    ∃ files', e.initStores files = .ok files' ∧
      P.storage files' = e.mq.attach (P.storage files) := by
  obtain ⟨files₁, stored₁, same₁⟩ := shows_.storeSomeRead files e.mq.readStored
  obtain ⟨files₂, stored₂, same₂⟩ := shows_.storeSomeWrite files₁ e.mq.writeStored
  refine ⟨files₂, ?_, by rw [same₂, same₁]; rfl⟩
  unfold Endpoint.initStores
  rw [stored₁]
  exact stored₂

end Endpoint.Shows

/-! ## Grantors -/

/-- The grantor at this index is for a region of a file, and its mapping is not cut off. -/
structure AidlMQDescriptorShim.Denotes (desc : AidlMQDescriptorShim) (p : Process F)
    (grantorIdx : Nat) (r : Region F) (handle : NativeHandle) (grantor : GrantorDescriptor)
    (fd : Int32) : Prop where
  present : desc.mHandle = some handle
  known : desc.mGrantors[grantorIdx]? = some grantor
  nonneg : ¬ grantor.fdIndex.toInt32 < 0
  at_index : handle.fds[grantor.fdIndex.toInt32.toNatClampNeg]? = some fd
  file : p.file fd = r.file
  offset : grantor.offset.toNat = r.offset
  extent : r.length ≤ grantor.extent.toNat
  small : grantor.offset.toNat < 2 ^ 31
  short : MessageQueueBase.span grantor < 2 ^ 31

namespace AidlMQDescriptorShim.Denotes

variable {p : Process F} {desc desc' : AidlMQDescriptorShim} {grantorIdx : Nat} {r : Region F}
  {handle : NativeHandle} {grantor : GrantorDescriptor} {fd : Int32}

theorem copy (denotes : desc.Denotes p grantorIdx r handle grantor fd)
    (copied : desc.copy p.os = .ok desc') :
    desc'.Denotes p grantorIdx r ⟨handle.fds.map p.os.dup, handle.ints⟩ grantor (p.os.dup fd) := by
  have grantors := (copy_eq_ok copied).1
  unfold AidlMQDescriptorShim.copy at copied
  rw [denotes.present] at copied
  dsimp only at copied
  split at copied
  next =>
    cases copied
    refine { denotes with present := rfl, known := denotes.known, at_index := ?_, file := ?_ }
    · rw [List.getElem?_map, denotes.at_index]
      rfl
    · rw [p.dup_file, denotes.file]
  next => cases copied

theorem maps (denotes : desc.Denotes p grantorIdx r handle grantor fd) {address : Nat}
    (mapped : MessageQueueBase.mapGrantorDescr p.os desc grantorIdx = .ok (some address)) :
    Maps p.space address r := by
  have inside : (handle.fds ++ handle.ints)[grantor.fdIndex.toInt32.toNatClampNeg]? =
      handle.fds[grantor.fdIndex.toInt32.toNatClampNeg]? :=
    List.getElem?_append_left (List.getElem?_eq_some_iff.mp denotes.at_index).1
  have at_index : handle.data grantor.fdIndex.toInt32 = .ok fd := by
    unfold NativeHandle.data
    rw [if_neg denotes.nonneg, inside, denotes.at_index]
  have mapsFile : MapsFile p.os p.space fd (p.file fd) :=
    fun length offset => p.mmap_maps length fd offset
  -- The mapping shows the whole grantor, and the region is not longer.
  have whole := mapsFile.grantor denotes.present denotes.known at_index denotes.small
    denotes.short mapped
  intro i below
  rw [whole i (Nat.lt_of_lt_of_le below denotes.extent), denotes.file, denotes.offset]

end AidlMQDescriptorShim.Denotes

/-- The counters and the ring are where the grantors of the descriptor say. -/
theorem Endpoint.shows_of_grantors {p : Process F} {sizeofT : UInt64}
    {desc : AidlMQDescriptorShim} {mq : MessageQueueBase} {P : Placement F} {resetPointers : Bool}
    {handle₀ handle₁ handle₂ : NativeHandle} {grantor₀ grantor₁ grantor₂ : GrantorDescriptor}
    {fd₀ fd₁ fd₂ : Int32}
    (constructed : MessageQueueBase.ofDescriptor p.os .kSynchronizedReadWrite sizeofT desc
      resetPointers = .ok mq) (valid : mq.isValid = true)
    (readPtr : desc.Denotes p READPTRPOS P.readPtr handle₀ grantor₀ fd₀)
    (writePtr : desc.Denotes p WRITEPTRPOS P.writePtr handle₁ grantor₁ fd₁)
    (ring : desc.Denotes p DATAPTRPOS P.ring handle₂ grantor₂ fd₂)
    (size : grantor₂.extent.toNat = P.ring.length) :
    (⟨p, sizeofT, mq⟩ : Endpoint F).Shows P := by
  obtain ⟨desc', copied, done⟩ := MessageQueueBase.ofDescriptor_done constructed valid
  have initialized := MessageQueueBase.initMemory_valid done valid
  obtain ⟨mappedRead, mappedWrite, mappedRing⟩ := MessageQueueBase.initMemory_pointers done valid
  unfold MessageQueueBase.isValid at valid
  rw [Bool.and_eq_true, Bool.and_eq_true] at valid
  obtain ⟨⟨knownRing, knownRead⟩, knownWrite⟩ := valid
  obtain ⟨ringAt, knownRing⟩ := Option.isSome_iff_exists.mp knownRing
  obtain ⟨readAt, knownRead⟩ := Option.isSome_iff_exists.mp knownRead
  obtain ⟨writeAt, knownWrite⟩ := Option.isSome_iff_exists.mp knownWrite
  rw [knownRing] at mappedRing
  rw [knownRead] at mappedRead
  rw [knownWrite] at mappedWrite
  refine ⟨⟨ringAt, knownRing, (ring.copy copied).maps mappedRing⟩,
    ⟨readAt, knownRead, (readPtr.copy copied).maps mappedRead⟩,
    ⟨writeAt, knownWrite, (writePtr.copy copied).maps mappedWrite⟩, ?_⟩
  unfold Endpoint.ringSize
  rw [initialized.mDesc, Option.elim_some, AidlMQDescriptorShim.copy_getSize copied,
    AidlMQDescriptorShim.getSize, ring.known]
  exact size

end Fmq
