import Mathlib.Algebra.BigOperators.Group.List.Basic
import Mathlib.Tactic.Abel
import Fmq.Model.Ownership
import Fmq.Properties.Accepted

/-!
# Every descriptor and mapping has one owner

Each queue object, and each descriptor that is passed on, owns what it asked for and nothing else:
the process has exactly what its objects own, none of it twice, and a destructor gives back what
its object owns. Nothing is closed, unmapped or deleted that is not there.
-/
namespace Fmq.Tracked

open Ownership details MessageQueueBase

/-! ## What each value owns -/

def ownedFds (fds : List Int32) : Multiset Resource := (fds.map ownedFd).sum

def ownedHandle : Option NativeHandle → Multiset Resource
  | none => 0
  | some handle => ownedFds handle.fds + {.nativeHandle}

/-- The mapping of a grantor, which starts before the address that is used. -/
def ownedMapping (desc : AidlMQDescriptorShim) (grantorIdx : Nat) (address : Option Nat) :
    Multiset Resource :=
  match address, desc.mGrantors[grantorIdx]? with
  | none, _ | _, none => 0
  | some address, some grantor =>
    if address - mapDistance grantor ≠ 0 then
      {.mapping (address - mapDistance grantor) (mapRange grantor).2}
    else 0

def ownedReadPtr (flavor : MQFlavor) (desc : AidlMQDescriptorShim) :
    Option Nat → Multiset Resource
  | none => 0
  | some mReadPtr =>
    match flavor with
    | .kUnsynchronizedWrite => {.counter mReadPtr}
    | .kSynchronizedReadWrite => ownedMapping desc READPTRPOS mReadPtr

def ownedWord (flag : EventFlagObject) : Multiset Resource :=
  match flag.mEfWordNeedsUnmapping, flag.mEfWordPtr with
  | true, some address => {.mapping address 4}
  | _, _ => 0

def ownedFlag : Option EventFlagObject → Multiset Resource
  | none => 0
  | some flag => ownedWord flag + {.eventFlag}

/-- The event flag belongs to the mapping of its word. -/
def ownedEvFlag (desc : AidlMQDescriptorShim) (mEvFlagWord : Option Nat)
    (mEventFlag : Option EventFlagObject) : Multiset Resource :=
  if mEvFlagWord.isSome then ownedMapping desc EVFLAGWORDPOS mEvFlagWord + ownedFlag mEventFlag
  else 0

def QueueObject.owned (object : QueueObject) : Multiset Resource :=
  match object.mq.mDesc with
  | none => 0
  | some desc =>
    ownedReadPtr object.flavor desc object.mq.mReadPtr +
      ownedMapping desc WRITEPTRPOS object.mq.mWritePtr +
      ownedMapping desc DATAPTRPOS object.mq.mRing +
      ownedEvFlag desc object.mq.mEvFlagWord object.mEventFlag + ownedHandle desc.mHandle

def ownedDesc (desc : aidl.MQDescriptor) : Multiset Resource := ownedFds desc.handle.fds

def World.owned (w : World) : Multiset Resource :=
  (w.objects.map QueueObject.owned).sum + (w.descs.map ownedDesc).sum + ownedFds w.buffers

@[simp] theorem ownedFds_nil : ownedFds [] = 0 := rfl

@[simp] theorem ownedFds_cons (fd : Int32) (fds : List Int32) :
    ownedFds (fd :: fds) = ownedFd fd + ownedFds fds := by
  simp [ownedFds]

theorem sum_eraseIdx {α : Type} (owned : α → Multiset Resource) {values : List α} {i : Nat}
    {value : α} (held : values[i]? = some value) :
    (values.map owned).sum = owned value + ((values.eraseIdx i).map owned).sum := by
  obtain ⟨inside, rfl⟩ := List.getElem?_eq_some_iff.mp held
  have total := List.CommMonoid.add_sum_eraseIdx (l := values.map owned) (i := i)
    (by simpa using inside)
  rw [List.getElem_map, List.eraseIdx_map] at total
  exact total.symm

theorem ownedFds_eraseIdx {fds : List Int32} {i : Nat} {fd : Int32} (held : fds[i]? = some fd) :
    ownedFds fds = ownedFd fd + ownedFds (fds.eraseIdx i) := sum_eraseIdx ownedFd held

/-- Without a buffer the call gets the error value. -/
theorem ownedFds_taken (fds : List Int32) (buffer : Option Nat) :
    ownedFds fds = ownedFd ((buffer.bind (fds[·]?)).getD (-1)) +
      ownedFds (buffer.elim fds fds.eraseIdx) := by
  cases buffer with
  | none => simp [ownedFd]
  | some i =>
    cases held : fds[i]? with
    | none =>
      have beyond := List.getElem?_eq_none_iff.mp held
      simp [held, ownedFd, List.eraseIdx_of_length_le beyond]
    | some fd => simpa [held] using ownedFds_eraseIdx held

/-! ## System calls -/

theorem distinct_add {r : Resource} {live : Multiset Resource} {place : Place}
    (kind : r.place = some place) (free : place ∉ live.filterMap Resource.place)
    (kept : Distinct live) : Distinct ({r} + live) := by
  unfold Distinct at kept ⊢
  rw [Multiset.singleton_add, Multiset.filterMap_cons_some _ _ _ kind]
  exact Multiset.nodup_cons.mpr ⟨free, kept⟩

theorem distinct_other {r : Resource} {live : Multiset Resource} (kind : r.place = none)
    (kept : Distinct live) : Distinct ({r} + live) := by
  unfold Distinct at kept ⊢
  rwa [Multiset.singleton_add, Multiset.filterMap_cons_none _ _ kind]

theorem distinct_of_cons (r : Resource) (live : Multiset Resource) (kept : Distinct (r ::ₘ live)) :
    Distinct live := by
  unfold Distinct at kept ⊢
  exact Multiset.nodup_of_le (Multiset.filterMap_le_filterMap _ (Multiset.le_cons_self live r)) kept

theorem distinct_ownedFd {fd : Int32} {live : Multiset Resource}
    (answer : fd = -1 ∨ .fd fd ∉ live.filterMap Resource.place) (kept : Distinct live) :
    Distinct (ownedFd fd + live) := by
  unfold ownedFd
  split
  · rwa [zero_add]
  · rename_i known
    exact distinct_add rfl (answer.resolve_left known) kept

theorem release_owns (r : Resource) :
    Owns (ε := Fault) Distinct {r} (release r) fun _ => 0 :=
  Owns.release distinct_of_cons r

theorem close_owns (fd : Int32) : Owns Distinct (ownedFd fd) (close fd) fun _ => 0 := by
  unfold close ownedFd
  split
  · exact Owns.pure () fun _ => 0
  · exact release_owns _

theorem closeAll_owns (fds : List Int32) :
    Owns Distinct (ownedFds fds) (closeAll fds) fun _ => 0 := by
  induction fds with
  | nil => exact Owns.pure () fun _ => 0
  | cons fd fds ih =>
    rw [ownedFds_cons]
    exact (close_owns fd).dispose fun _ => ih

theorem closeHandle_owns (handle : Option NativeHandle) :
    Owns Distinct (ownedHandle handle) (closeHandle handle) fun _ => 0 := by
  cases handle with
  | none => exact Owns.pure () fun _ => 0
  | some handle =>
    exact (closeAll_owns handle.fds).dispose fun _ => release_owns _

theorem unmapEventFlagWord_owns (flag : EventFlagObject) :
    Owns Distinct (ownedWord flag) (unmapEventFlagWord flag) fun _ => 0 := by
  unfold unmapEventFlagWord ownedWord
  cases flag.mEfWordNeedsUnmapping with
  | false => exact Owns.pure () fun _ => 0
  | true =>
    cases flag.mEfWordPtr with
    | none => exact Owns.pure () fun _ => 0
    | some address => exact release_owns _

/-- The second attempt, in the destructor, finds nothing to unmap. -/
theorem deleteEventFlag_owns (flag : Option EventFlagObject) :
    Owns Distinct (ownedFlag flag) (deleteEventFlag flag) fun _ => 0 := by
  cases flag with
  | none => exact Owns.pure BAD_VALUE fun _ => 0
  | some flag =>
    refine (unmapEventFlagWord_owns flag).dispose fun _ => ?_
    have again := unmapEventFlagWord_owns { flag with mEfWordNeedsUnmapping := false }
    refine again.acquire fun _ => ?_
    rw [zero_add]
    exact (release_owns .eventFlag).bind fun _ => Owns.pure NO_ERROR fun _ => 0

theorem unmapGrantorDescr_owns (desc : AidlMQDescriptorShim) (address : Option Nat)
    (grantorIdx : Nat) :
    Owns Distinct (ownedMapping desc grantorIdx address)
      (unmapGrantorDescr desc address grantorIdx) fun _ => 0 := by
  unfold unmapGrantorDescr ownedMapping
  cases address with
  | none => exact Owns.pure () fun _ => 0
  | some address =>
    cases desc.mGrantors[grantorIdx]? with
    | none => exact Owns.pure () fun _ => 0
    | some grantor =>
      dsimp only
      split
      · exact release_owns _
      · exact Owns.pure () fun _ => 0

theorem unmapReadPtr_owns (flavor : MQFlavor) (desc : AidlMQDescriptorShim)
    (mReadPtr : Option Nat) :
    Owns Distinct (ownedReadPtr flavor desc mReadPtr) (unmapReadPtr flavor desc mReadPtr)
      fun _ => 0 := by
  cases mReadPtr with
  | none => exact Owns.pure () fun _ => 0
  | some mReadPtr =>
    cases flavor with
    | kSynchronizedReadWrite => exact unmapGrantorDescr_owns desc mReadPtr READPTRPOS
    | kUnsynchronizedWrite => exact release_owns _

theorem destroy_owns (object : QueueObject) :
    Owns Distinct object.owned (destroy object) fun _ => 0 := by
  unfold destroy QueueObject.owned
  cases object.mq.mDesc with
  | none => exact Owns.pure () fun _ => 0
  | some desc =>
    simp only [add_assoc]
    refine (unmapReadPtr_owns object.flavor desc object.mq.mReadPtr).dispose fun _ => ?_
    refine (unmapGrantorDescr_owns desc object.mq.mWritePtr WRITEPTRPOS).dispose fun _ => ?_
    refine (unmapGrantorDescr_owns desc object.mq.mRing DATAPTRPOS).dispose fun _ => ?_
    unfold ownedEvFlag
    split
    · rw [add_assoc]
      refine (unmapGrantorDescr_owns desc object.mq.mEvFlagWord EVFLAGWORDPOS).dispose fun _ => ?_
      refine (deleteEventFlag_owns object.mEventFlag).dispose fun _ => ?_
      exact closeHandle_owns desc.mHandle
    · rw [zero_add]
      exact closeHandle_owns desc.mHandle

theorem mHandle_ofBufferSize {flavor : MQFlavor} {bufferSize messageSize : UInt64}
    {nHandle : Option NativeHandle} {configureEventFlag : Bool} {desc : AidlMQDescriptorShim}
    (built : AidlMQDescriptorShim.ofBufferSize flavor bufferSize nHandle messageSize
      configureEventFlag = .ok desc) : desc.mHandle = nHandle := by
  unfold AidlMQDescriptorShim.ofBufferSize at built
  obtain ⟨largestOffset, -, built⟩ := bind_eq_ok.mp built
  split at built
  · cases built
    rfl
  · obtain ⟨mGrantors, -, built⟩ := bind_eq_ok.mp built
    cases built
    rfl

section

variable {k : Kernel}

theorem newDescriptor_owns : Owns Distinct 0 (newDescriptor k) fun _ => 0 :=
  Owns.request fun _ live kept => ⟨rfl, by rwa [zero_add]⟩

theorem newEventFlag_owns :
    Owns Distinct 0 (newEventFlag k) fun ok => if ok then {.eventFlag} else 0 := by
  refine Owns.request fun n live kept => ⟨rfl, ?_⟩
  split
  · exact distinct_other rfl kept
  · rwa [zero_add]

theorem nativeHandleCreate_owns (numFds numInts : Nat) :
    Owns Distinct 0 (nativeHandleCreate k numFds numInts) fun ok =>
      if ok then {.nativeHandle} else 0 := by
  refine Owns.request fun n live kept => ⟨rfl, ?_⟩
  split
  · exact distinct_other rfl kept
  · rwa [zero_add]

theorem createEventFlag_owns (fwAddr : Option Nat) :
    Owns Distinct 0 (createEventFlag k fwAddr) fun result => ownedFlag result.2 := by
  refine newEventFlag_owns.bind fun ok => ?_
  cases ok with
  | false => exact Owns.pure (NO_MEMORY, none) fun result => ownedFlag result.2
  | true =>
    cases fwAddr with
    | none =>
      exact (release_owns .eventFlag).bind fun _ =>
        Owns.pure (BAD_VALUE, none) fun result => ownedFlag result.2
    | some address =>
      refine Owns.congr (Owns.pure (NO_ERROR, some ⟨some address, false⟩)
        fun result => ownedFlag result.2) ?_ fun _ => rfl
      simp [ownedFlag, ownedWord]

variable (lawful : k.Lawful)
include lawful

theorem dup_owns (fd : Int32) : Owns Distinct 0 (dup k fd) ownedFd :=
  Owns.request fun n live kept => ⟨rfl, distinct_ownedFd (lawful.dup n live fd) kept⟩

theorem ashmemCreateRegion_owns (size : UInt64) :
    Owns Distinct 0 (ashmemCreateRegion k size) ownedFd :=
  Owns.request fun n live kept =>
    ⟨rfl, distinct_ownedFd (lawful.ashmemCreateRegion n live size) kept⟩

theorem newCounter_owns :
    Owns Distinct 0 (newCounter k) fun address =>
      address.elim 0 fun address => {.counter address} := by
  refine Owns.request fun n live kept => ⟨rfl, ?_⟩
  cases answered : (k.os n live).newCounter with
  | none => rwa [Option.elim_none, zero_add]
  | some address => exact distinct_add rfl (lawful.newCounter n live address answered) kept

theorem dupAll_owns (fds : List Int32) : Owns Distinct 0 (dupAll k fds) ownedFds := by
  induction fds with
  | nil => exact Owns.pure [] ownedFds
  | cons fd fds ih =>
    refine (dup_owns lawful fd).bind fun fd => ?_
    refine ih.acquire fun fds => ?_
    rw [add_comm, ← ownedFds_cons]
    exact Owns.pure (fd :: fds) ownedFds

/-! ## Descriptors -/

theorem ofMQDescriptor_owns (desc : aidl.MQDescriptor) :
    Owns Distinct 0 (ofMQDescriptor k desc) fun shim => ownedHandle shim.mHandle := by
  unfold ofMQDescriptor
  dsimp only
  split
  · exact Owns.pure (⟨_, none, _, _⟩ : AidlMQDescriptorShim) fun shim => ownedHandle shim.mHandle
  split
  · exact Owns.pure (⟨_, none, _, _⟩ : AidlMQDescriptorShim) fun shim => ownedHandle shim.mHandle
  refine (nativeHandleCreate_owns _ _).bind fun ok => ?_
  cases ok with
  | false =>
    exact Owns.pure (⟨_, none, _, _⟩ : AidlMQDescriptorShim) fun shim => ownedHandle shim.mHandle
  | true =>
    rw [if_pos rfl, if_pos rfl]
    refine (dupAll_owns lawful desc.handle.fds).acquire fun fds => ?_
    exact Owns.pure (⟨_, some ⟨fds, desc.handle.ints⟩, _, _⟩ : AidlMQDescriptorShim)
      fun shim => ownedHandle shim.mHandle

theorem assign_owns (self other : AidlMQDescriptorShim) :
    Owns Distinct (ownedHandle self.mHandle) (assign k self other)
      fun shim => ownedHandle shim.mHandle := by
  refine (closeHandle_owns self.mHandle).bind fun _ => ?_
  cases other.mHandle with
  | none =>
    exact Owns.pure { other with mHandle := none } fun shim => ownedHandle shim.mHandle
  | some handle =>
    refine (nativeHandleCreate_owns _ _).bind fun ok => ?_
    cases ok with
    | false => exact Owns.fail _
    | true =>
      rw [if_pos rfl, if_pos rfl]
      refine (dupAll_owns lawful handle.fds).acquire fun fds => ?_
      exact Owns.pure { other with mHandle := some ⟨fds, handle.ints⟩ }
        fun shim => ownedHandle shim.mHandle

theorem copy_owns (other : AidlMQDescriptorShim) :
    Owns Distinct 0 (copy k other) fun shim => ownedHandle shim.mHandle :=
  assign_owns lawful { other with mHandle := none } other

/-! ## Mappings -/

/-- No mapping starts at the null pointer, for which `unmapGrantorDescr` would do nothing. -/
theorem mmap_owns (length fd offset : Int32) :
    Owns Distinct 0 (mmap k length fd offset) fun address =>
      address.elim 0 fun address => if address ≠ 0 then {.mapping address length} else 0 := by
  refine Owns.request fun n live kept => ?_
  cases answered : (k.os n live).mmap length fd offset with
  | none => exact ⟨rfl, by rwa [Option.elim_none, zero_add]⟩
  | some address =>
    obtain ⟨nonzero, free⟩ := lawful.mmap n live length fd offset address answered
    simp only [Option.elim_some, if_pos nonzero]
    exact ⟨trivial, distinct_add rfl free kept⟩

theorem mapGrantorDescr_owns (desc : AidlMQDescriptorShim) (grantorIdx : Nat) :
    Owns Distinct 0 (mapGrantorDescr k desc grantorIdx) (ownedMapping desc grantorIdx) := by
  unfold mapGrantorDescr
  split
  · exact Owns.pure none (ownedMapping desc grantorIdx)
  · exact Owns.pure none (ownedMapping desc grantorIdx)
  · rename_i handle grantor _ known
    refine (Owns.lift _).bind fun fd => ?_
    refine (mmap_owns lawful _ fd _).bind fun address => ?_
    refine Owns.congr (Owns.pure _ (ownedMapping desc grantorIdx)) ?_ fun _ => rfl
    cases address with
    | none => rfl
    | some address =>
      simp [ownedMapping, known]

theorem mapReadPtr_owns (flavor : MQFlavor) (desc : AidlMQDescriptorShim) :
    Owns Distinct 0 (mapReadPtr k flavor desc) (ownedReadPtr flavor desc) := by
  cases flavor with
  | kSynchronizedReadWrite =>
    refine (mapGrantorDescr_owns lawful desc READPTRPOS).congr rfl fun address => ?_
    cases address <;> rfl
  | kUnsynchronizedWrite =>
    refine (newCounter_owns lawful).congr rfl fun address => ?_
    cases address <;> rfl

/-! ## Queue objects -/

theorem initMemory_owns (flavor : MQFlavor) (sizeofT : UInt64) (desc : AidlMQDescriptorShim)
    (resetPointers : Bool) :
    Owns Distinct (ownedHandle desc.mHandle) (initMemory k flavor sizeofT desc resetPointers)
      QueueObject.owned := by
  have unmapped : Owns (ε := Fault) Distinct (ownedHandle desc.mHandle)
      (pure (⟨flavor, withDesc desc, none⟩ : QueueObject)) QueueObject.owned := by
    refine Owns.congr (Owns.pure _ QueueObject.owned) ?_ fun _ => rfl
    simp [QueueObject.owned, withDesc, ownedReadPtr, ownedMapping, ownedEvFlag]
  unfold initMemory
  split
  · exact unmapped
  split
  · exact unmapped
  refine (Owns.lift _).bind fun _ => ?_
  refine (mapReadPtr_owns lawful flavor desc).acquire fun mReadPtr => ?_
  refine (Owns.lift _).bind fun _ => ?_
  refine (mapGrantorDescr_owns lawful desc WRITEPTRPOS).acquire fun mWritePtr => ?_
  refine (Owns.lift _).bind fun _ => ?_
  refine (mapGrantorDescr_owns lawful desc DATAPTRPOS).acquire fun mRing => ?_
  refine (Owns.lift _).bind fun _ => ?_
  split
  · refine (mapGrantorDescr_owns lawful desc EVFLAGWORDPOS).acquire fun mEvFlagWord => ?_
    refine Owns.checked fun _ passed => ?_
    have mapped : mEvFlagWord.isSome := check_eq_ok.mp passed
    refine (createEventFlag_owns mEvFlagWord).acquire fun created => ?_
    refine Owns.congr (Owns.pure _ QueueObject.owned) ?_ fun _ => rfl
    simp [QueueObject.owned, ownedEvFlag, mapped]
    abel
  · refine Owns.congr (Owns.pure _ QueueObject.owned) ?_ fun _ => rfl
    simp [QueueObject.owned, ownedEvFlag]
    abel

theorem ofDescriptor_owns (flavor : MQFlavor) (sizeofT : UInt64) (desc : AidlMQDescriptorShim)
    (resetPointers : Bool) :
    Owns Distinct 0 (ofDescriptor k flavor sizeofT desc resetPointers) QueueObject.owned := by
  refine newDescriptor_owns.bind fun allocated => ?_
  cases allocated with
  | false => exact Owns.pure (⟨flavor, withDesc none, none⟩ : QueueObject) QueueObject.owned
  | true =>
    exact (copy_owns lawful desc).bind fun desc =>
      initMemory_owns lawful flavor sizeofT desc resetPointers

/-- The temporary shim is gone afterwards. -/
theorem ofAidlDescriptor_owns (flavor : MQFlavor) (sizeofT : UInt64) (desc : aidl.MQDescriptor)
    (resetPointers : Bool) :
    Owns Distinct 0 (ofAidlDescriptor k flavor sizeofT desc resetPointers)
      QueueObject.owned := by
  refine (ofMQDescriptor_owns lawful desc).bind fun temporary => ?_
  refine (ofDescriptor_owns lawful flavor sizeofT temporary resetPointers).acquire fun object => ?_
  rw [add_comm]
  exact (closeHandle_owns temporary.mHandle).dispose fun _ => Owns.pure object QueueObject.owned

/-- The buffer goes into the handle of the queue, or it is closed. -/
theorem ofNumElements_owns (flavor : MQFlavor) (sizeofT numElementsInQueue : UInt64)
    (configureEventFlagWord : Bool) (bufferFd : Int32) (bufferSize : UInt64) :
    Owns Distinct (ownedFd bufferFd)
      (ofNumElements k flavor sizeofT numElementsInQueue configureEventFlagWord bufferFd
        bufferSize) QueueObject.owned := by
  have refused : Owns (ε := Fault) Distinct 0
      (pure (⟨flavor, withDesc none, none⟩ : QueueObject)) QueueObject.owned :=
    Owns.pure (⟨flavor, withDesc none, none⟩ : QueueObject) QueueObject.owned
  have closed : Owns Distinct (ownedFd bufferFd)
      (close bufferFd >>= fun _ => pure (⟨flavor, withDesc none, none⟩ : QueueObject))
      QueueObject.owned := (close_owns bufferFd).bind fun _ => refused
  unfold ofNumElements
  dsimp only
  refine (Owns.lift _).bind fun _ => ?_
  split
  · exact closed
  split
  · exact closed
  refine (Owns.lift _).bind fun size => ?_
  refine (nativeHandleCreate_owns _ _).acquire fun ok => ?_
  cases ok with
  | false =>
    rw [if_neg Bool.false_ne_true, zero_add]
    exact closed
  | true =>
    rw [if_pos rfl]
    refine (ashmemCreateRegion_owns lawful size).acquire fun ashmemFd => ?_
    split
    · refine (Owns.lift _).bind fun grantors => ?_
      have owned : ownedFd ashmemFd + (({.nativeHandle} : Multiset Resource) + ownedFd bufferFd) =
          ownedHandle (some ⟨[ashmemFd, bufferFd], []⟩) := by
        simp only [ownedHandle, ownedFds_cons, ownedFds_nil]
        abel
      rw [owned]
      refine newDescriptor_owns.acquire fun allocated => ?_
      rw [zero_add]
      cases allocated with
      | false => exact (closeHandle_owns _).bind fun _ => refused
      | true =>
        exact initMemory_owns lawful flavor sizeofT (.ofGrantors flavor grantors
          (some ⟨[ashmemFd, bufferFd], []⟩) sizeofT) true
    · rename_i unsupplied
      have none_supplied : bufferFd = -1 := not_not.mp unsupplied
      have owned : ownedFd ashmemFd + (({.nativeHandle} : Multiset Resource) + ownedFd bufferFd) =
          ownedHandle (some ⟨[ashmemFd], []⟩) := by
        simp [ownedHandle, ownedFd, none_supplied]
      rw [owned]
      refine newDescriptor_owns.acquire fun allocated => ?_
      rw [zero_add]
      cases allocated with
      | false => exact (closeHandle_owns _).bind fun _ => refused
      | true =>
        refine Owns.checked fun desc built => ?_
        rw [← mHandle_ofBufferSize built]
        exact initMemory_owns lawful flavor sizeofT desc true

theorem dupeDesc_owns (mq : MessageQueueBase) :
    Owns Distinct 0 (dupeDesc k mq) ownedDesc := by
  unfold dupeDesc
  split
  · exact Owns.pure (⟨[], ⟨[], []⟩, 0, 0⟩ : aidl.MQDescriptor) ownedDesc
  split
  · exact Owns.fail _
  · rename_i handle _
    exact (dupAll_owns lawful handle.fds).bind fun fds =>
      Owns.pure (⟨_, ⟨fds, handle.ints⟩, _, _⟩ : aidl.MQDescriptor) ownedDesc

theorem receive_owns (desc : aidl.MQDescriptor) : Owns Distinct 0 (receive k desc) ownedDesc :=
  (dupAll_owns lawful desc.handle.fds).bind fun fds =>
    Owns.pure { desc with handle := ⟨fds, desc.handle.ints⟩ } ownedDesc

/-! ## A process -/

theorem step_owns (w : World) (event : Event) :
    Owns Distinct w.owned (w.step k event) World.owned := by
  unfold World.step
  cases event with
  | createBuffer size =>
    refine (ashmemCreateRegion_owns lawful size).acquire fun fd => ?_
    refine Owns.congr (Owns.pure _ World.owned) ?_ fun _ => rfl
    simp only [World.owned, ownedFds_cons]
    abel
  | create flavor sizeofT numElementsInQueue configureEventFlagWord buffer bufferSize =>
    have taken : w.owned = ownedFd ((buffer.bind (w.buffers[·]?)).getD (-1)) +
        ((w.objects.map QueueObject.owned).sum + (w.descs.map ownedDesc).sum +
          ownedFds (buffer.elim w.buffers w.buffers.eraseIdx)) := by
      unfold World.owned
      rw [ownedFds_taken w.buffers buffer]
      abel
    rw [taken]
    refine (ofNumElements_owns lawful flavor sizeofT numElementsInQueue configureEventFlagWord _
      bufferSize).seq fun object => ?_
    refine Owns.congr (Owns.pure _ World.owned) ?_ fun _ => rfl
    simp only [World.owned, List.map_cons, List.sum_cons]
    abel
  | receive desc =>
    refine (receive_owns lawful desc).acquire fun desc => ?_
    refine Owns.congr (Owns.pure _ World.owned) ?_ fun _ => rfl
    simp only [World.owned, List.map_cons, List.sum_cons]
    abel
  | attach flavor sizeofT desc resetPointers =>
    dsimp only
    split
    · exact Owns.pure w World.owned
    · refine (ofAidlDescriptor_owns lawful flavor sizeofT _ resetPointers).acquire fun object => ?_
      refine Owns.congr (Owns.pure _ World.owned) ?_ fun _ => rfl
      simp only [World.owned, List.map_cons, List.sum_cons]
      abel
  | dupeDesc object =>
    dsimp only
    split
    · exact Owns.pure w World.owned
    · refine (dupeDesc_owns lawful _).acquire fun desc => ?_
      refine Owns.congr (Owns.pure _ World.owned) ?_ fun _ => rfl
      simp only [World.owned, List.map_cons, List.sum_cons]
      abel
  | destroyDesc i =>
    dsimp only
    split
    · exact Owns.pure w World.owned
    · rename_i desc held
      have kept : w.owned =
          ownedDesc desc + World.owned { w with descs := w.descs.eraseIdx i } := by
        unfold World.owned
        rw [sum_eraseIdx ownedDesc held]
        abel
      rw [kept]
      exact (closeAll_owns desc.handle.fds).dispose fun _ => Owns.pure _ World.owned
  | destroy i =>
    dsimp only
    split
    · exact Owns.pure w World.owned
    · rename_i object held
      have kept : w.owned =
          object.owned + World.owned { w with objects := w.objects.eraseIdx i } := by
        unfold World.owned
        rw [sum_eraseIdx QueueObject.owned held]
        abel
      rw [kept]
      exact (destroy_owns object).dispose fun _ => Owns.pure _ World.owned

theorem run_owns (w : World) (events : List Event) :
    Owns Distinct w.owned (w.run k events) World.owned := by
  induction events generalizing w with
  | nil => exact Owns.pure w World.owned
  | cons event events ih => exact (step_owns lawful w event).bind fun w => ih w

/-- In every run of a process, beside whatever else it has: it has what its objects own, no place
is taken twice, and nothing is released that is not there. With the objects gone, only the rest
is left. -/
theorem run_owned (events : List Event) (others : Multiset Resource) (calls : Nat)
    (apart : Distinct others) :
    (∀ w l, World.run k ⟨[], [], []⟩ events ⟨others, calls⟩ = .ok (w, l) →
      l.live = w.owned + others ∧ Distinct l.live ∧
        (w.objects = [] → w.descs = [] → w.buffers = [] → l.live = others)) ∧
      ∀ r, World.run k ⟨[], [], []⟩ events ⟨others, calls⟩ ≠ .error (.notLive r) := by
  have owns := run_owns lawful ⟨[], [], []⟩ events others calls
  have empty : World.owned ⟨[], [], []⟩ = 0 := rfl
  rw [empty, zero_add] at owns
  have ended := owns apart
  constructor
  · intro w l ran
    rw [ran] at ended
    obtain ⟨live, distinct⟩ := ended
    refine ⟨live, distinct, fun objects descs buffers => ?_⟩
    simp [live, World.owned, objects, descs, buffers]
  · intro r ran
    rw [ran] at ended
    exact ended

end

/-! ## A kernel that counts its requests -/

/-- The next number of its kind, unless it is in use. -/
def counting : Kernel where
  os n live := {
    nativeHandleCreate := fun _ _ => true
    dup := fun _ => if .fd (.ofNat n) ∈ live.filterMap Resource.place then -1 else .ofNat n
    ashmemCreateRegion := fun _ =>
      if .fd (.ofNat n) ∈ live.filterMap Resource.place then -1 else .ofNat n
    mmap := fun _ _ _ =>
      if .mapping ((n + 1) * 0x10000) ∈ live.filterMap Resource.place then none
      else some ((n + 1) * 0x10000)
    newDescriptor := true
    newCounter := if .counter n ∈ live.filterMap Resource.place then none else some n }
  newEventFlag _ _ := true

theorem counting_lawful : counting.Lawful where
  dup n live _ := by
    dsimp only [counting]
    split
    · exact .inl rfl
    · exact .inr ‹_›
  ashmemCreateRegion n live _ := by
    dsimp only [counting]
    split
    · exact .inl rfl
    · exact .inr ‹_›
  mmap n live _ _ _ address := by
    dsimp only [counting]
    split
    · intro answered
      cases answered
    · intro answered
      cases answered
      exact ⟨by omega, ‹_›⟩
  newCounter n live address := by
    dsimp only [counting]
    split
    · intro answered
      cases answered
    · intro answered
      cases answered
      assumption

/-- A queue with an event flag, a second one made from its descriptor, and both destroyed. -/
def lifetime : List Event :=
  [.create .kSynchronizedReadWrite 4 3 true none 0, .dupeDesc 0,
    .attach .kSynchronizedReadWrite 4 0 false, .destroyDesc 0, .destroy 1, .destroy 0]

theorem lifetime_ends :
    ((World.run counting ⟨[], [], []⟩ lifetime ⟨0, 0⟩).toOption.map fun (w, _) =>
      (w.objects.length, w.descs.length, w.buffers.length)) = some (0, 0, 0) := by
  decide +kernel

theorem run_owned_lifetime :
    ∃ w l, World.run counting ⟨[], [], []⟩ lifetime ⟨0, 0⟩ = .ok (w, l) ∧ l.live = 0 := by
  obtain ⟨owned, -⟩ := run_owned counting_lawful lifetime 0 0 Multiset.nodup_zero
  have ends := lifetime_ends
  generalize World.run counting ⟨[], [], []⟩ lifetime ⟨0, 0⟩ = ran at owned ends ⊢
  cases ran with
  | error stop => cases ends
  | ok result =>
    simp only [Except.toOption, Option.map_some, Option.some.injEq, Prod.mk.injEq,
      List.length_eq_zero_iff] at ends
    obtain ⟨objects, descs, buffers⟩ := ends
    obtain ⟨-, -, gone⟩ := owned result.1 result.2 rfl
    exact ⟨result.1, result.2, rfl, gone objects descs buffers⟩

end Fmq.Tracked
