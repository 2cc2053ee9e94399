import Mathlib.Algebra.GroupWithZero.Nat
import Fmq.Lib.Rounding
import Fmq.Properties.Accepted

/-!
# The layout of the shared memory

The size of the region is computed in one place and the offsets of the grantors in two others.
Wherever the constructor leaves three grantors, these sums are exact: nothing wraps and no offset
loses bits, so the grantors of one file lie one behind the other inside of it.
-/
namespace Fmq

open details Rounding

variable {os : Platform} {flavor : MQFlavor} {sizeofT : UInt64}

theorem toNat_alignToWordBoundary {length aligned : UInt64}
    (done : alignToWordBoundary length = .ok aligned) : aligned.toNat = up 8 length.toNat := by
  unfold alignToWordBoundary at done
  obtain ⟨_, fits, done⟩ := bind_eq_ok.mp done
  cases done
  rw [check_eq_ok, decide_eq_true_iff, UInt64.le_iff_toNat_le] at fits
  -- At most `SIZE_MAX - 7`.
  have room : length.toNat + (8 : UInt64).toNat ≤ 2 ^ 64 := Nat.add_le_add_right fits 8
  exact toNat_round length (k := 3) rfl room

/-! ## The two loops over the grantors -/

namespace AidlMQDescriptorShim

theorem contiguousGrantors_cons {offset size : UInt64} {sizes : List UInt64}
    {grantors : List GrantorDescriptor}
    (built : contiguousGrantors offset (size :: sizes) = .ok grantors) :
    ∃ aligned rest, alignToWordBoundary offset = .ok aligned ∧
      contiguousGrantors (offset + size) sizes = .ok rest ∧
      grantors = ⟨0, 0, aligned.toUInt32, size⟩ :: rest := by
  obtain ⟨aligned, first, built⟩ := bind_eq_ok.mp built
  obtain ⟨rest, laid, built⟩ := bind_eq_ok.mp built
  cases built
  exact ⟨aligned, rest, first, laid, rfl⟩

/-- One file for everything. -/
theorem contiguousGrantors_eq {bufferSize : UInt64} {configureEventFlag : Bool}
    {grantors : List GrantorDescriptor}
    (built : contiguousGrantors 0 ((memSize bufferSize).take (grantorCount configureEventFlag)) =
      .ok grantors) :
    ∃ evFlagOffset : UInt64,
      (configureEventFlag = true → alignToWordBoundary (16 + bufferSize) = .ok evFlagOffset) ∧
      grantors = [⟨0, 0, 0, 8⟩, ⟨0, 0, 8, 8⟩, ⟨0, 0, 16, bufferSize⟩,
        ⟨0, 0, evFlagOffset.toUInt32, 4⟩].take (grantorCount configureEventFlag) := by
  cases configureEventFlag with
  | false =>
    cases built
    exact ⟨0, nofun, rfl⟩
  | true =>
    obtain ⟨_, rest, first, built, known⟩ := contiguousGrantors_cons built
    obtain ⟨_, rest₂, second, built, known₂⟩ := contiguousGrantors_cons built
    obtain ⟨_, rest₃, third, built, known₃⟩ := contiguousGrantors_cons built
    -- Only the last offset depends on the size of the ring.
    obtain ⟨evFlagOffset, rest₄, fourth, done, known₄⟩ := contiguousGrantors_cons built
    cases first
    cases second
    cases third
    cases done
    rw [known, known₂, known₃, known₄]
    exact ⟨evFlagOffset, fun _ => fourth, rfl⟩

end AidlMQDescriptorShim

namespace MessageQueueBase

/-- One file for the ring and one for the rest. -/
theorem suppliedGrantors_eq {bufferSize : UInt64} {configureEventFlagWord : Bool}
    {grantors : List GrantorDescriptor}
    (built : suppliedGrantors READPTRPOS 0
      ((memSize bufferSize).take (grantorCount configureEventFlagWord)) = .ok grantors) :
    grantors = [⟨0, 0, 0, 8⟩, ⟨0, 0, 8, 8⟩, ⟨0, 1, 0, bufferSize⟩, ⟨0, 0, 16, 4⟩].take
      (grantorCount configureEventFlagWord) := by
  cases configureEventFlagWord <;> cases built <;> rfl

end MessageQueueBase

/-! ## Where the grantors lie -/

/-- The bytes that the grantors before position `i` have in the file `fdIndex`. -/
def occupied (grantors : List GrantorDescriptor) (fdIndex : UInt32) (i : Nat) : Nat :=
  (((grantors.take i).filter (·.fdIndex = fdIndex)).map (·.extent.toNat)).sum

/-- Grantors for the two counters, `bytes` bytes of messages and maybe the event flag word, each
behind the others of its file. All numbers are exact. -/
structure Placed (grantors : List GrantorDescriptor) (bytes : Nat) : Prop where
  extents : grantors.map (·.extent.toNat) = [8, 8, bytes, 4].take grantors.length
  offsets : ∀ (i : Nat) (grantor : GrantorDescriptor), grantors[i]? = some grantor →
    grantor.offset.toNat = up 8 (occupied grantors grantor.fdIndex i)
  aligned : ∀ grantor ∈ grantors, 8 ∣ grantor.offset.toNat
  disjoint : ∀ (i j : Nat) (first second : GrantorDescriptor), i < j →
    grantors[i]? = some first → grantors[j]? = some second → first.fdIndex = second.fdIndex →
    first.offset.toNat + first.extent.toNat ≤ second.offset.toNat

theorem occupied_add_le {grantors : List GrantorDescriptor} {i j : Nat}
    {grantor : GrantorDescriptor} (before : i < j) (at_i : grantors[i]? = some grantor) :
    occupied grantors grantor.fdIndex i + grantor.extent.toNat ≤
      occupied grantors grantor.fdIndex j := by
  obtain ⟨k, rfl⟩ := Nat.exists_eq_add_of_lt before
  obtain ⟨inside, rfl⟩ := List.getElem?_eq_some_iff.mp at_i
  -- The grantor itself is among those before `j`.
  have split : grantors.take (i + k + 1) =
      grantors.take i ++ grantors[i] :: (grantors.drop (i + 1)).take k := by
    rw [Nat.add_assoc, List.take_add, List.drop_eq_getElem_cons inside, List.take_succ_cons]
  unfold occupied
  rw [split]
  simp

/-- It is enough that every grantor but the last one starts where the ones before it end. -/
theorem placed_of_offsets {grantors : List GrantorDescriptor} {bytes : Nat}
    (extents : grantors.map (·.extent.toNat) = [8, 8, bytes, 4].take grantors.length)
    (offsets : ∀ (i : Nat) (grantor : GrantorDescriptor), grantors[i]? = some grantor →
      grantor.offset.toNat = up 8 (occupied grantors grantor.fdIndex i))
    (whole : ∀ (i : Nat) (grantor : GrantorDescriptor), i < EVFLAGWORDPOS →
      grantors[i]? = some grantor → 8 ∣ occupied grantors grantor.fdIndex i) :
    Placed grantors bytes := by
  refine ⟨extents, offsets, ?_, ?_⟩
  · intro grantor member
    obtain ⟨i, inside, rfl⟩ := List.getElem_of_mem member
    rw [offsets i _ (List.getElem?_eq_getElem inside)]
    exact dvd_up 8 _
  · intro i j first second before at_i at_j same
    -- There are at most four grantors, so the first one of the two is not the last of all.
    have count : grantors.length ≤ 4 := by
      have lengths := congrArg List.length extents
      rw [List.length_map, List.length_take] at lengths
      simp only [List.length_cons, List.length_nil] at lengths
      omega
    have inside := (List.getElem?_eq_some_iff.mp at_j).1
    have start := whole i first (by simp only [EVFLAGWORDPOS]; omega) at_i
    have behind := occupied_add_le before at_i
    have rounded := le_up (by decide : 0 < 8) (occupied grantors first.fdIndex j)
    rw [offsets i first at_i, up_of_dvd (by decide) start, offsets j second at_j, ← same]
    omega

theorem grantorCount_false : grantorCount false = 3 := rfl

theorem grantorCount_true : grantorCount true = 4 := rfl

/-- What holds of the four grantors, the last one of them only if there is an event flag word. -/
theorem forall_mem_grantors {P : GrantorDescriptor → Prop} {readPtr writePtr data evFlag :
    GrantorDescriptor} {configureEventFlag : Bool} (counters : P readPtr ∧ P writePtr)
    (ring : P data) (word : configureEventFlag = true → P evFlag) :
    ∀ grantor ∈ [readPtr, writePtr, data, evFlag].take (grantorCount configureEventFlag),
      P grantor := by
  cases configureEventFlag with
  | false =>
    rw [grantorCount_false]
    exact List.forall_mem_cons.mpr ⟨counters.1, List.forall_mem_cons.mpr ⟨counters.2,
      List.forall_mem_singleton.mpr ring⟩⟩
  | true =>
    rw [grantorCount_true]
    exact List.forall_mem_cons.mpr ⟨counters.1, List.forall_mem_cons.mpr ⟨counters.2,
      List.forall_mem_cons.mpr ⟨ring, List.forall_mem_singleton.mpr (word rfl)⟩⟩⟩

/-- All in one file: the event flag word comes behind the ring. -/
theorem placed_contiguous {bufferSize : UInt64} {evFlagOffset : UInt32}
    {configureEventFlag : Bool} (last : configureEventFlag = true →
      evFlagOffset.toNat = up 8 (16 + bufferSize.toNat)) :
    Placed ([⟨0, 0, 0, 8⟩, ⟨0, 0, 8, 8⟩, ⟨0, 0, 16, bufferSize⟩, ⟨0, 0, evFlagOffset, 4⟩].take
      (grantorCount configureEventFlag)) bufferSize.toNat := by
  apply placed_of_offsets
  · cases configureEventFlag <;> rfl
  · cases configureEventFlag with
    | false =>
      rintro (_ | _ | _ | i) grantor at_i <;> cases at_i <;>
        simp [occupied, grantorCount_false, up]
    | true =>
      rintro (_ | _ | _ | _ | i) grantor at_i <;> cases at_i
      · simp [occupied, grantorCount_true, up]
      · simp [occupied, grantorCount_true, up]
      · simp [occupied, grantorCount_true, up]
      · rw [last rfl]
        simp [occupied, grantorCount_true, ← Nat.add_assoc]
  · rintro (_ | _ | _ | i) grantor before at_i
    · exact Nat.dvd_zero 8
    · cases configureEventFlag <;> cases at_i <;>
        simp [occupied, grantorCount_false, grantorCount_true]
    · cases configureEventFlag <;> cases at_i <;>
        simp [occupied, grantorCount_false, grantorCount_true]
    · simp only [EVFLAGWORDPOS] at before
      omega

/-- The ring in a file of its own. -/
theorem placed_supplied (bufferSize : UInt64) (configureEventFlagWord : Bool) :
    Placed ([⟨0, 0, 0, 8⟩, ⟨0, 0, 8, 8⟩, ⟨0, 1, 0, bufferSize⟩, ⟨0, 0, 16, 4⟩].take
      (grantorCount configureEventFlagWord)) bufferSize.toNat := by
  apply placed_of_offsets
  · cases configureEventFlagWord <;> rfl
  · cases configureEventFlagWord with
    | false =>
      rintro (_ | _ | _ | i) grantor at_i <;> cases at_i <;>
        simp [occupied, grantorCount_false, up]
    | true =>
      rintro (_ | _ | _ | _ | i) grantor at_i <;> cases at_i <;>
        simp [occupied, grantorCount_true, up]
  · rintro (_ | _ | _ | i) grantor before at_i
    · exact Nat.dvd_zero 8
    · cases configureEventFlagWord <;> cases at_i <;>
        simp [occupied, grantorCount_false, grantorCount_true]
    · cases configureEventFlagWord <;> cases at_i <;>
        simp [occupied, grantorCount_false, grantorCount_true]
    · simp only [EVFLAGWORDPOS] at before
      omega

/-! ## The region -/

namespace MessageQueueBase

/-- What the constructor stores beside the messages. -/
def metaDataSize (configureEventFlagWord : Bool) : Nat :=
  16 + if configureEventFlagWord then 4 else 0

/-- `kAshmemSizePageAligned`, without any wrap. -/
def regionSize (bufferSupplied configureEventFlagWord : Bool) (bytes : Nat) : Nat :=
  up PAGE_SIZE.toNat ((if bufferSupplied then 0 else up 8 bytes) +
    metaDataSize configureEventFlagWord)

theorem toNat_roundPage {bytes : UInt64} (room : bytes.toNat + PAGE_SIZE.toNat ≤ 2 ^ 64) :
    ((bytes + PAGE_SIZE.toUInt64 - 1) &&& ~~~(PAGE_SIZE.toUInt64 - 1)).toNat =
      up PAGE_SIZE.toNat bytes.toNat :=
  toNat_round bytes (k := 16) rfl room

theorem toNat_metaDataSize (configureEventFlagWord : Bool) :
    (2 * sizeofRingBufferPosition + if configureEventFlagWord then sizeofEvFlagWord else 0).toNat =
      metaDataSize configureEventFlagWord := by
  cases configureEventFlagWord <;> rfl

theorem metaDataSize_le (configureEventFlagWord : Bool) :
    metaDataSize configureEventFlagWord ≤ 20 := by
  cases configureEventFlagWord <;> decide

theorem le_metaDataSize (configureEventFlagWord : Bool) :
    16 ≤ metaDataSize configureEventFlagWord := by
  cases configureEventFlagWord <;> decide

theorem ashmemSize_supplied {configureEventFlagWord : Bool} {bytes ashmem : UInt64}
    (done : ashmemSize true configureEventFlagWord bytes = .ok ashmem) :
    ashmem.toNat = regionSize true configureEventFlagWord bytes.toNat := by
  cases done
  have small := metaDataSize_le configureEventFlagWord
  have room : PAGE_SIZE.toNat = 65536 := rfl
  rw [toNat_roundPage (by rw [toNat_metaDataSize]; omega), toNat_metaDataSize, regionSize,
    if_pos rfl, Nat.zero_add]

/-- For a ring below the limit of the descriptor no sum wraps. -/
theorem ashmemSize_own {configureEventFlagWord : Bool} {bytes ashmem : UInt64}
    (limit : bytes.toNat < 2 ^ 32)
    (done : ashmemSize false configureEventFlagWord bytes = .ok ashmem) :
    ashmem.toNat = regionSize false configureEventFlagWord bytes.toNat := by
  obtain ⟨aligned, rounded, done⟩ := bind_eq_ok.mp done
  cases done
  have exact_aligned := toNat_alignToWordBoundary rounded
  have bound := up_lt (by decide : 0 < 8) bytes.toNat
  have small := metaDataSize_le configureEventFlagWord
  have room : PAGE_SIZE.toNat = 65536 := rfl
  have sum : (aligned + (2 * sizeofRingBufferPosition +
      if configureEventFlagWord then sizeofEvFlagWord else 0)).toNat =
        up 8 bytes.toNat + metaDataSize configureEventFlagWord := by
    rw [UInt64.toNat_add, toNat_metaDataSize, exact_aligned, Nat.mod_eq_of_lt (by omega)]
  rw [toNat_roundPage (by rw [sum]; omega), sum, regionSize, if_neg Bool.false_ne_true]

end MessageQueueBase

/-! ## Every accepted request -/

/-- Where the shim does not refuse the size, all its sums are below 2^31. -/
theorem AidlMQDescriptorShim.ofBufferSize_eq {bufferSize messageSize : UInt64}
    {nHandle : Option NativeHandle} {configureEventFlag : Bool} {desc : AidlMQDescriptorShim}
    (built : ofBufferSize flavor bufferSize nHandle messageSize configureEventFlag = .ok desc)
    (grantors : kMinGrantorCount ≤ desc.countGrantors) :
    up 8 (16 + bufferSize.toNat) < 2 ^ 31 ∧ messageSize.toNat < 2 ^ 31 ∧
    ∃ evFlagOffset : UInt32,
      (configureEventFlag = true → evFlagOffset.toNat = up 8 (16 + bufferSize.toNat)) ∧
      desc = ⟨[⟨0, 0, 0, 8⟩, ⟨0, 0, 8, 8⟩, ⟨0, 0, 16, bufferSize⟩, ⟨0, 0, evFlagOffset, 4⟩].take
        (grantorCount configureEventFlag), nHandle, messageSize.toUInt32, flavor.value⟩ := by
  unfold ofBufferSize at built
  obtain ⟨largestOffset, rounded, built⟩ := bind_eq_ok.mp built
  split at built
  next =>
    cases built
    -- The refused size leaves the list of grantors empty.
    exact absurd grantors (Nat.not_succ_le_zero 2)
  next accepted =>
    obtain ⟨mGrantors, laid, built⟩ := bind_eq_ok.mp built
    cases built
    rw [not_or, not_or, decide_eq_true_iff] at accepted
    obtain ⟨noOverflow, offset, message⟩ := accepted
    rw [gt_iff_lt, UInt64.lt_iff_toNat_lt, Nat.not_lt] at noOverflow offset message
    -- The sum in the source does not wrap, so the rounded value is exact.
    have sum : (sizeofRingBufferPosition + sizeofRingBufferPosition + bufferSize).toNat =
        16 + bufferSize.toNat := by
      have most : bufferSize.toNat ≤ 2 ^ 64 - 17 := noOverflow
      exact (UInt64.toNat_add _ _).trans (Nat.mod_eq_of_lt (by
        have sixteen : (sizeofRingBufferPosition + sizeofRingBufferPosition).toNat = 16 := rfl
        omega))
    have largest := toNat_alignToWordBoundary rounded
    rw [sum] at largest
    have bound : up 8 (16 + bufferSize.toNat) < 2 ^ 31 := by
      rw [← largest]
      exact Nat.lt_succ_of_le offset
    obtain ⟨evFlagOffset, last, known⟩ := contiguousGrantors_eq laid
    refine ⟨bound, Nat.lt_succ_of_le message, evFlagOffset.toUInt32, ?_, by rw [known]⟩
    intro configured
    have same := (last configured).symm.trans rounded
    cases same
    rw [UInt64.toNat_toUInt32, largest, Nat.mod_eq_of_lt (by omega)]

namespace MessageQueueBase

/-- The layout of a queue with `bytes` bytes of messages, over a region of `ashmem` bytes and, with
`bufferFd`, a buffer of the user of `bufferSize` bytes. -/
structure Layout (os : Platform) (desc : AidlMQDescriptorShim) (bytes : Nat)
    (configureEventFlagWord : Bool) (bufferFd : Int32) (bufferSize ashmem : UInt64) : Prop where
  placed : Placed desc.mGrantors bytes
  count : desc.countGrantors = grantorCount configureEventFlagWord
  region : ashmem.toNat = regionSize (bufferFd ≠ -1) configureEventFlagWord bytes
  handle : desc.mHandle =
    some ⟨os.ashmemCreateRegion ashmem :: if bufferFd ≠ -1 then [bufferFd] else [], []⟩
  inside : ∀ grantor ∈ desc.mGrantors,
    grantor.fdIndex = 0 ∧ grantor.offset.toNat + grantor.extent.toNat ≤ ashmem.toNat ∨
      grantor.fdIndex = 1 ∧ bufferFd ≠ -1 ∧
        grantor.offset.toNat + grantor.extent.toNat ≤ bufferSize.toNat

/-- All grantors of one file end inside the region. -/
theorem inside_contiguous {bytes : UInt64} {evFlagOffset : UInt32} {configureEventFlagWord : Bool}
    (last : configureEventFlagWord = true → evFlagOffset.toNat = up 8 (16 + bytes.toNat)) :
    ∀ grantor ∈ ([⟨0, 0, 0, 8⟩, ⟨0, 0, 8, 8⟩, ⟨0, 0, 16, bytes⟩, ⟨0, 0, evFlagOffset, 4⟩] :
        List GrantorDescriptor).take (grantorCount configureEventFlagWord),
      grantor.fdIndex = 0 ∧ grantor.offset.toNat + grantor.extent.toNat ≤
        regionSize false configureEventFlagWord bytes.toNat := by
  have room : up 8 bytes.toNat + metaDataSize configureEventFlagWord ≤
      regionSize false configureEventFlagWord bytes.toNat := le_up (by decide) _
  have counters := le_metaDataSize configureEventFlagWord
  have ring := le_up (by decide : 0 < 8) bytes.toNat
  have behind := up_add_of_dvd (by decide : 0 < 8) (by decide : 8 ∣ 16) bytes.toNat
  refine forall_mem_grantors ⟨⟨rfl, ?_⟩, rfl, ?_⟩ ⟨rfl, ?_⟩ fun configured => ⟨rfl, ?_⟩
  · simp; omega
  · simp; omega
  · simp; omega
  · have offset := last configured
    rw [configured] at room ⊢
    have size : metaDataSize true = 20 := rfl
    simp; omega

/-- Beside a buffer of the user only the counters and the event flag word are in the region. -/
theorem inside_supplied {bytes : UInt64} {configureEventFlagWord : Bool} :
    ∀ grantor ∈ ([⟨0, 0, 0, 8⟩, ⟨0, 0, 8, 8⟩, ⟨0, 1, 0, bytes⟩, ⟨0, 0, 16, 4⟩] :
        List GrantorDescriptor).take (grantorCount configureEventFlagWord),
      grantor.fdIndex = 0 ∧ grantor.offset.toNat + grantor.extent.toNat ≤
          regionSize true configureEventFlagWord bytes.toNat ∨
        grantor.fdIndex = 1 ∧ grantor.offset.toNat + grantor.extent.toNat = bytes.toNat := by
  have room : 0 + metaDataSize configureEventFlagWord ≤
      regionSize true configureEventFlagWord bytes.toNat := le_up (by decide) _
  have counters := le_metaDataSize configureEventFlagWord
  refine forall_mem_grantors ⟨.inl ⟨rfl, ?_⟩, .inl ⟨rfl, ?_⟩⟩ (.inr ⟨rfl, Nat.zero_add _⟩)
    fun configured => .inl ⟨rfl, ?_⟩
  · simp; omega
  · simp; omega
  · rw [configured] at room ⊢
    have size : metaDataSize true = 20 := rfl
    simp; omega

variable {numElementsInQueue bufferSize : UInt64} {configureEventFlagWord : Bool}
  {bufferFd : Int32} {mq : MessageQueueBase} {desc : AidlMQDescriptorShim}

/-- The descriptor of a queue with a buffer of the user, and of a queue without one. -/
inductive Built (os : Platform) (flavor : MQFlavor) (sizeofT bytes ashmem : UInt64)
    (configureEventFlagWord : Bool) (bufferFd : Int32) (bufferSize : UInt64) :
    AidlMQDescriptorShim → Prop
  | supplied (buffer : bufferFd ≠ -1) (fits : bytes.toNat ≤ bufferSize.toNat) :
    Built os flavor sizeofT bytes ashmem configureEventFlagWord bufferFd bufferSize
      ⟨[⟨0, 0, 0, 8⟩, ⟨0, 0, 8, 8⟩, ⟨0, 1, 0, bytes⟩, ⟨0, 0, 16, 4⟩].take
          (grantorCount configureEventFlagWord),
        some ⟨[os.ashmemCreateRegion ashmem, bufferFd], []⟩, sizeofT.toUInt32, flavor.value⟩
  | own (noBuffer : bufferFd = -1) (bound : up 8 (16 + bytes.toNat) < 2 ^ 31)
    (message : sizeofT.toNat < 2 ^ 31) (evFlagOffset : UInt32)
    (last : configureEventFlagWord = true → evFlagOffset.toNat = up 8 (16 + bytes.toNat)) :
    Built os flavor sizeofT bytes ashmem configureEventFlagWord bufferFd bufferSize
      ⟨[⟨0, 0, 0, 8⟩, ⟨0, 0, 8, 8⟩, ⟨0, 0, 16, bytes⟩, ⟨0, 0, evFlagOffset, 4⟩].take
          (grantorCount configureEventFlagWord),
        some ⟨[os.ashmemCreateRegion ashmem], []⟩, sizeofT.toUInt32, flavor.value⟩

theorem ofNumElements_built (pos : sizeofT ≠ 0)
    (done : ofNumElements os flavor sizeofT numElementsInQueue configureEventFlagWord bufferFd
      bufferSize = .ok mq) (mDesc : mq.mDesc = some desc)
    (grantors : kMinGrantorCount ≤ desc.countGrantors) :
    (numElementsInQueue * sizeofT).toNat = numElementsInQueue.toNat * sizeofT.toNat ∧
    initMemory os flavor sizeofT desc true = .ok mq ∧
    ∃ ashmem, ashmemSize (bufferFd ≠ -1) configureEventFlagWord (numElementsInQueue * sizeofT) =
        .ok ashmem ∧
      Built os flavor sizeofT (numElementsInQueue * sizeofT) ashmem configureEventFlagWord bufferFd
        bufferSize desc := by
  unfold ofNumElements at done
  rw [div_ok _ pos] at done
  obtain ⟨most, quotient, done⟩ := bind_eq_ok.mp done
  cases quotient
  obtain ⟨fits, done⟩ := not_returned done mDesc
  obtain ⟨large, done⟩ := not_returned done mDesc
  obtain ⟨ashmem, size, done⟩ := bind_eq_ok.mp done
  obtain ⟨-, done⟩ := not_returned done mDesc
  refine ⟨by rw [UInt64.toNat_mul, Nat.mod_eq_of_lt (product_lt fits)], ?_⟩
  by_cases supplied : bufferFd ≠ -1
  · rw [if_pos supplied] at done
    obtain ⟨laidOut, laid, done⟩ := bind_eq_ok.mp done
    obtain ⟨-, done⟩ := not_returned done mDesc
    cases (initMemory_mDesc done).symm.trans mDesc
    cases suppliedGrantors_eq laid
    have fits_buffer : (numElementsInQueue * sizeofT).toNat ≤ bufferSize.toNat :=
      Nat.le_of_not_lt fun larger => large ⟨supplied, UInt64.lt_iff_toNat_lt.mpr larger⟩
    exact ⟨done, ashmem, size, .supplied supplied fits_buffer⟩
  · rw [if_neg supplied] at done
    obtain ⟨-, done⟩ := not_returned done mDesc
    obtain ⟨built, shim, done⟩ := bind_eq_ok.mp done
    cases (initMemory_mDesc done).symm.trans mDesc
    obtain ⟨bound, message, evFlagOffset, last, rfl⟩ :=
      AidlMQDescriptorShim.ofBufferSize_eq shim grantors
    exact ⟨done, ashmem, size, .own (not_not.mp supplied) bound message evFlagOffset last⟩

/-- Every request that leaves three grantors is laid out as it should be. -/
theorem ofNumElements_layout (pos : sizeofT ≠ 0)
    (done : ofNumElements os flavor sizeofT numElementsInQueue configureEventFlagWord bufferFd
      bufferSize = .ok mq) (mDesc : mq.mDesc = some desc)
    (grantors : kMinGrantorCount ≤ desc.countGrantors) :
    ∃ ashmem, ashmemSize (bufferFd ≠ -1) configureEventFlagWord (numElementsInQueue * sizeofT) =
        .ok ashmem ∧
      Layout os desc (numElementsInQueue.toNat * sizeofT.toNat) configureEventFlagWord bufferFd
        bufferSize ashmem := by
  obtain ⟨bytes, -, ashmem, size, built⟩ := ofNumElements_built pos done mDesc grantors
  rw [← bytes]
  refine ⟨ashmem, size, ?_⟩
  cases built with
  | supplied buffer fits =>
    have flag : decide (bufferFd ≠ -1) = true := decide_eq_true buffer
    rw [flag] at size
    have region := ashmemSize_supplied size
    refine ⟨placed_supplied _ _, ?_, flag ▸ region, ?_, ?_⟩
    · cases configureEventFlagWord <;> rfl
    · rw [if_pos buffer]
    · intro grantor member
      rw [region]
      refine (inside_supplied grantor member).imp_right ?_
      rintro ⟨file, fills⟩
      exact ⟨file, buffer, by omega⟩
  | own noBuffer bound message evFlagOffset last =>
    have behind := le_up (by decide : 0 < 8) (16 + (numElementsInQueue * sizeofT).toNat)
    have flag : decide (bufferFd ≠ -1) = false := decide_eq_false (not_not.mpr noBuffer)
    rw [flag] at size
    have region := ashmemSize_own (by omega) size
    refine ⟨placed_contiguous last, ?_, flag ▸ region, ?_, ?_⟩
    · cases configureEventFlagWord <;> rfl
    · rw [if_neg (not_not.mpr noBuffer)]
    · intro grantor member
      rw [region]
      exact Or.inl (inside_contiguous last grantor member)

/-- Ten elements of four bytes and an event flag word, in one file. -/
theorem ofNumElements_layout_ten : ∃ ashmem : UInt64, ashmem.toNat = 65536 ∧
    Layout .generous ⟨[⟨0, 0, 0, 8⟩, ⟨0, 0, 8, 8⟩, ⟨0, 0, 16, 40⟩, ⟨0, 0, 56, 4⟩],
      some ⟨[3], []⟩, 4, 1⟩ 40 true (-1) 0 ashmem := by
  have done : ofNumElements .generous .kSynchronizedReadWrite 4 10 true (-1) 0 = .ok
      ⟨some ⟨[⟨0, 0, 0, 8⟩, ⟨0, 0, 8, 8⟩, ⟨0, 0, 16, 40⟩, ⟨0, 0, 56, 4⟩], some ⟨[3], []⟩, 4, 1⟩,
        some 0x10010, some 0x10000, some 0x10008, some 0x10038, some 0, some 0⟩ := by decide
  obtain ⟨ashmem, size, layout⟩ := ofNumElements_layout (by decide) done rfl (by decide)
  exact ⟨ashmem, layout.region.trans (by decide), layout⟩

end MessageQueueBase
end Fmq
