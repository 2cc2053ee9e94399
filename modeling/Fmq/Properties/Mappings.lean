import Fmq.Lib.Casts
import Fmq.Model.Mappings
import Fmq.Properties.Layout

/-!
# What the mappings cover

`mapLength` is an `int`. A grantor of four gigabytes or more can come out of the conversion with
a short mapping, which is long enough for the page that it lies in and not for the grantor.
-/
namespace Fmq

open details

variable {os : Platform} {flavor : MQFlavor} {sizeofT : UInt64}

namespace MessageQueueBase

/-! ## The calls of `mapGrantorDescr` -/

/-- A mapping that is checked for a null pointer, and faults or is followed by a fault. -/
theorem mapped_fault {α : Type} {x : Call (Option Nat)} {message : String}
    {rest : Option Nat → Call α} :
    (x >>= fun p => check p.isSome message >>= fun _ => rest p) = .error .fdOutOfRange ↔
      x = .error .fdOutOfRange ∨
        ∃ address, x = .ok (some address) ∧ rest (some address) = .error .fdOutOfRange := by
  cases x with
  | error fault => simp [bind, Except.bind]
  | ok p => cases p <;> simp [bind, Except.bind, check]

theorem mapCallsFrom_of_mapped {desc : AidlMQDescriptorShim} {grantors : List Nat}
    (mapped : ∀ grantorIdx ∈ grantors, ∃ address,
      mapGrantorDescr os desc grantorIdx = .ok (some address)) :
    mapCallsFrom os desc grantors = grantors := by
  induction grantors with
  | nil => rfl
  | cons grantorIdx rest ih =>
    obtain ⟨first, rest⟩ := List.forall_mem_cons.mp mapped
    obtain ⟨address, eq⟩ := first
    rw [mapCallsFrom, eq]
    exact congrArg _ (ih rest)

theorem exists_mapCallsFrom_cons {desc : AidlMQDescriptorShim} {grantorIdx : Nat}
    {rest : List Nat} {P : Nat → Prop} :
    (∃ i ∈ mapCallsFrom os desc (grantorIdx :: rest), P i) ↔
      P grantorIdx ∨ ∃ address, mapGrantorDescr os desc grantorIdx = .ok (some address) ∧
        ∃ i ∈ mapCallsFrom os desc rest, P i := by
  rw [mapCallsFrom]
  rcases mapGrantorDescr os desc grantorIdx with fault | _ | address <;> simp

/-- The descriptor passes the checks that come before the mappings. -/
structure Ready (os : Platform) (flavor : MQFlavor) (sizeofT : UInt64)
    (desc : AidlMQDescriptorShim) : Prop where
  handle : desc.isHandleValid = true
  grantors : kMinGrantorCount ≤ desc.countGrantors
  quantum : desc.getQuantum = sizeofT
  aligned : desc.mGrantors.all
    (fun grantor => isAlignedToWordBoundary grantor.offset.toUInt64) = true
  counter : flavor = .kUnsynchronizedWrite → os.newCounter ≠ none

variable {desc : AidlMQDescriptorShim} {resetPointers : Bool} {mq : MessageQueueBase}

theorem mapCalls_of_ready (ready : Ready os flavor sizeofT desc) :
    mapCalls os flavor sizeofT desc =
      mapCallsFrom os desc (mappedGrantors flavor desc.countGrantors) := by
  obtain ⟨handle, grantors, quantum, aligned, counter⟩ := ready
  unfold mapCalls
  have complete : ¬ (desc.isHandleValid = false ∨ desc.countGrantors < kMinGrantorCount) :=
    not_or.mpr ⟨by rw [handle]; decide, Nat.not_lt.mpr grantors⟩
  rw [if_neg complete, if_neg (not_not.mpr quantum), if_neg (by rw [aligned]; decide),
    if_neg (not_and.mpr counter)]

theorem mapCalls_of_not_ready (refused : ¬ Ready os flavor sizeofT desc) :
    mapCalls os flavor sizeofT desc = [] := by
  unfold mapCalls
  split
  next => rfl
  next complete =>
    split
    next => rfl
    next quantum =>
      split
      next => rfl
      next aligned =>
        split
        next => rfl
        next counter =>
          rw [not_or, Bool.not_eq_false, Nat.not_lt] at complete
          rw [ne_eq, not_not] at quantum
          rw [Bool.not_eq_true', Bool.not_eq_false] at aligned
          exact absurd ⟨complete.1, complete.2, quantum, aligned, not_and.mp counter⟩ refused

/-- A valid queue has mapped everything. -/
theorem initMemory_mapped (done : initMemory os flavor sizeofT desc resetPointers = .ok mq)
    (valid : mq.isValid = true) :
    mapCalls os flavor sizeofT desc = mappedGrantors flavor desc.countGrantors ∧
      ∀ grantorIdx ∈ mappedGrantors flavor desc.countGrantors, ∃ address,
        mapGrantorDescr os desc grantorIdx = .ok (some address) := by
  have completed := initMemory_completed done valid
  have initialized := completed.initialized
  have evFlagWord : ∀ grantorIdx ∈
      if desc.countGrantors > EVFLAGWORDPOS then [EVFLAGWORDPOS] else [], ∃ address,
      mapGrantorDescr os desc grantorIdx = .ok (some address) := by
    split
    next present => exact List.forall_mem_singleton.mpr (completed.evFlagWord present)
    next => exact nofun
  have mapped : ∀ grantorIdx ∈ mappedGrantors flavor desc.countGrantors, ∃ address,
      mapGrantorDescr os desc grantorIdx = .ok (some address) := by
    unfold mappedGrantors
    cases flavor with
    | kSynchronizedReadWrite =>
      simp only [List.cons_append, List.nil_append, List.forall_mem_cons]
      exact ⟨completed.readPtr, completed.writePtr, completed.ring, evFlagWord⟩
    | kUnsynchronizedWrite =>
      simp only [List.cons_append, List.nil_append, List.forall_mem_cons]
      exact ⟨completed.writePtr, completed.ring, evFlagWord⟩
  have counter : flavor = .kUnsynchronizedWrite → os.newCounter ≠ none := by
    rintro rfl missing
    obtain ⟨readPtr, mappedRead⟩ := completed.readPtr
    cases (Except.ok.inj mappedRead).symm.trans missing
  refine ⟨?_, mapped⟩
  rw [mapCalls_of_ready ⟨initialized.handle, initialized.grantors, initialized.quantum,
    List.all_eq_true.mpr initialized.aligned, counter⟩, mapCallsFrom_of_mapped mapped]

/-- The last mapping is the one of the event flag word, if there is one. -/
theorem mapped_evFlagWord {message : String} {withWord : Option Nat → MessageQueueBase}
    {without : MessageQueueBase} :
    (if desc.countGrantors > EVFLAGWORDPOS then
      mapGrantorDescr os desc EVFLAGWORDPOS >>= fun p => check p.isSome message >>= fun _ =>
        return withWord p
      else return without) = .error .fdOutOfRange ↔
    ∃ grantorIdx ∈ mapCallsFrom os desc
        (if desc.countGrantors > EVFLAGWORDPOS then [EVFLAGWORDPOS] else []),
      mapGrantorDescr os desc grantorIdx = .error .fdOutOfRange := by
  split
  next =>
    rw [mapped_fault, exists_mapCallsFrom_cons]
    refine or_congr_right (exists_congr fun address => and_congr_right fun _ => ?_)
    exact iff_of_false nofun nofun
  next => exact iff_of_false nofun nofun

/-- The calls are those of the constructor: it leaves the array of the handle in one of them. -/
theorem initMemory_fault : initMemory os flavor sizeofT desc resetPointers = .error .fdOutOfRange ↔
    ∃ grantorIdx ∈ mapCalls os flavor sizeofT desc,
      mapGrantorDescr os desc grantorIdx = .error .fdOutOfRange := by
  unfold initMemory mapCalls
  split
  next => exact iff_of_false nofun nofun
  next =>
    split
    next => exact iff_of_false nofun nofun
    next =>
      cases aligned : desc.mGrantors.all fun grantor =>
          isAlignedToWordBoundary grantor.offset.toUInt64 with
      | false => exact iff_of_false nofun nofun
      | true =>
        have passed : ∀ rest : Unit → Call MessageQueueBase,
            (check true "Grantor offsets need to be aligned" >>= rest) = rest () := fun _ => rfl
        rw [passed]
        cases flavor with
        | kSynchronizedReadWrite =>
          simp only [mapReadPtr, mappedGrantors, mapped_fault, mapped_evFlagWord, List.cons_append,
            List.nil_append, exists_mapCallsFrom_cons, Bool.not_true, Bool.false_eq_true, if_false,
            reduceCtorEq, false_and]
        | kUnsynchronizedWrite =>
          simp only [mapReadPtr, mappedGrantors, mapped_fault, mapped_evFlagWord, List.cons_append,
            List.nil_append, Bool.not_true, Bool.false_eq_true, if_false, true_and]
          cases os.newCounter with
          | none =>
            refine iff_of_false ?_ ?_
            · rintro (fault | ⟨_, fault, _⟩) <;> cases fault
            · rintro ⟨_, no_call, _⟩
              cases no_call
          | some counter =>
            simp [exists_mapCallsFrom_cons, pure, Except.pure]

/-! ## Ranges -/

/-- The bytes from the start of the page of a grantor to its end. -/
def span (grantor : GrantorDescriptor) : Nat :=
  grantor.offset.toNat % PAGE_SIZE.toNat + grantor.extent.toNat

variable {grantor : GrantorDescriptor}

theorem toNat_page (grantor : GrantorDescriptor) :
    (grantor.offset / PAGE_SIZE * PAGE_SIZE).toNat =
      grantor.offset.toNat / PAGE_SIZE.toNat * PAGE_SIZE.toNat := by
  rw [UInt32.toNat_mul, UInt32.toNat_div]
  exact Nat.mod_eq_of_lt (Nat.lt_of_le_of_lt (Nat.div_mul_le_self _ _) grantor.offset.toNat_lt)

theorem mapOffset_exact (small : grantor.offset.toNat < 2 ^ 31) :
    (mapRange grantor).1.toInt =
      (grantor.offset.toNat / PAGE_SIZE.toNat * PAGE_SIZE.toNat : Nat) := by
  unfold mapRange
  dsimp only
  rw [Casts.toInt_toInt32, toNat_page]
  exact Nat.lt_of_le_of_lt (toNat_page grantor ▸ Nat.div_mul_le_self _ _) small

theorem mapLength_exact (bound : span grantor < 2 ^ 64) :
    (sizeOfInt (mapRange grantor).2).toNat = span grantor % 2 ^ 32 +
      if 2 ^ 31 ≤ span grantor % 2 ^ 32 then 2 ^ 64 - 2 ^ 32 else 0 := by
  have parts := Nat.div_add_mod' grantor.offset.toNat PAGE_SIZE.toNat
  have below : grantor.offset / PAGE_SIZE * PAGE_SIZE ≤ grantor.offset := by
    rw [UInt32.le_iff_toNat_le, toNat_page]
    exact Nat.div_mul_le_self _ _
  have within : (grantor.offset - grantor.offset / PAGE_SIZE * PAGE_SIZE).toNat =
      grantor.offset.toNat % PAGE_SIZE.toNat := by
    rw [UInt32.toNat_sub_of_le _ _ below, toNat_page]
    omega
  have sum : ((grantor.offset - grantor.offset / PAGE_SIZE * PAGE_SIZE).toUInt64 +
      grantor.extent).toNat = span grantor := by
    rw [UInt64.toNat_add, UInt32.toNat_toUInt64, within]
    exact Nat.mod_eq_of_lt bound
  unfold mapRange sizeOfInt
  dsimp only
  rw [Casts.toNat_signExtend, UInt32.toUInt32_toInt32, UInt64.toNat_toUInt32, sum]

/-- The length is a positive `int`, or a negative one, which makes a huge `size_t`. -/
theorem covers_iff (small : grantor.offset.toNat < 2 ^ 31) (bound : span grantor < 2 ^ 64) :
    Covers grantor ↔ span grantor < 2 ^ 31 ∨ 2 ^ 31 ≤ span grantor % 2 ^ 32 := by
  have offset := mapOffset_exact small
  have length := mapLength_exact bound
  have parts := Nat.div_add_mod' grantor.offset.toNat PAGE_SIZE.toNat
  have needed : (grantor.offset.toNat : Int) - (mapRange grantor).1.toInt + grantor.extent.toNat =
      span grantor := by
    rw [offset]
    unfold span
    omega
  constructor
  · rintro ⟨-, bytes⟩
    rw [needed, length] at bytes
    by_contra uncovered
    rw [not_or, Nat.not_lt, Nat.not_le] at uncovered
    obtain ⟨large, short⟩ := uncovered
    -- The mapping ends at the first page boundary behind a length below 2^31.
    have page := Rounding.up_mono PAGE_SIZE.toNat (Nat.le_of_lt short)
    rw [Rounding.up_of_dvd (by decide) (by decide : PAGE_SIZE.toNat ∣ 2 ^ 31)] at page
    rw [if_neg (by omega), Nat.add_zero] at bytes
    omega
  · intro fits
    refine ⟨offset ▸ Int.natCast_dvd_natCast.mpr (Nat.dvd_mul_left _ _), ?_⟩
    rw [needed, length, Int.ofNat_le]
    refine Nat.le_trans ?_ (Rounding.le_up (by decide) _)
    split <;> omega

/-! ## Every accepted queue -/

/-- Where the mapping succeeded, it covers the grantor or not once and for all. -/
theorem mappingsCover_iff (done : initMemory os flavor sizeofT desc resetPointers = .ok mq)
    (valid : mq.isValid = true) : MappingsCover os flavor sizeofT desc ↔
      ∀ grantorIdx ∈ mappedGrantors flavor desc.countGrantors, ∀ grantor,
        desc.mGrantors[grantorIdx]? = some grantor → Covers grantor := by
  obtain ⟨calls, mapped⟩ := initMemory_mapped done valid
  unfold MappingsCover
  rw [calls]
  refine forall₂_congr fun grantorIdx member => ?_
  obtain ⟨address, eq⟩ := mapped grantorIdx member
  constructor
  · intro covered grantor known
    obtain ⟨grantor', known', covers⟩ := covered address eq
    cases known.symm.trans known'
    exact covers
  · intro covered _ _
    -- A mapped grantor exists.
    unfold mapGrantorDescr at eq
    split at eq
    next => cases eq
    next => cases eq
    next handle grantor _ known => exact ⟨grantor, known, covered grantor known⟩

theorem mem_mappedGrantors {countGrantors grantorIdx : Nat}
    (complete : kMinGrantorCount ≤ countGrantors)
    (member : grantorIdx ∈ mappedGrantors flavor countGrantors) :
    grantorIdx < countGrantors ∧ grantorIdx ≤ EVFLAGWORDPOS := by
  simp only [kMinGrantorCount, DATAPTRPOS] at complete
  unfold mappedGrantors READPTRPOS WRITEPTRPOS DATAPTRPOS at member
  unfold EVFLAGWORDPOS at member ⊢
  cases flavor <;> split at member <;> simp at member <;> omega

theorem dataPtrPos_mem (flavor : MQFlavor) (countGrantors : Nat) :
    DATAPTRPOS ∈ mappedGrantors flavor countGrantors := by
  unfold mappedGrantors
  cases flavor <;> simp

end MessageQueueBase

/-- The lengths that come out of the conversions to `int` and to `size_t` at least as large. -/
def Representable (bytes : Nat) : Prop := bytes < 2 ^ 31 ∨ 2 ^ 31 ≤ bytes % 2 ^ 32

/-- The lengths of the mappings are representable. Only a ring in a buffer of the user and the
grantors of a foreign descriptor can be too large. -/
def Source.LengthsFit (flavor : MQFlavor) (sizeofT : UInt64) : Source → Prop
  | .numElements numElementsInQueue _ bufferFd _ =>
    bufferFd = -1 ∨ Representable (numElementsInQueue.toNat * sizeofT.toNat)
  | .mqDescriptor desc _ =>
    ∀ grantorIdx ∈ MessageQueueBase.mappedGrantors flavor desc.grantors.length,
      ∀ grantor, desc.grantors[grantorIdx]? = some grantor →
        Representable (grantor.offset.toInt.toNat % MessageQueueBase.PAGE_SIZE.toNat +
          grantor.extent.toInt.toNat)
  | .descriptor .. => True

namespace MessageQueueBase

theorem covers_small {grantor : GrantorDescriptor} (offset : grantor.offset.toNat < 2 ^ 31)
    (bytes : span grantor < 2 ^ 31) : Covers grantor :=
  (covers_iff offset (by omega)).mpr (Or.inl bytes)

/-- A ring in a file of its own. -/
theorem covers_ring (bytes : UInt64) : Covers ⟨0, 1, 0, bytes⟩ ↔ Representable bytes.toNat := by
  have ring : span ⟨0, 1, 0, bytes⟩ = bytes.toNat := Nat.zero_add _
  have start : (0 : UInt32).toNat < 2 ^ 31 := by decide
  rw [covers_iff start (by rw [ring]; exact bytes.toNat_lt), ring, Representable]

theorem covers_counters : Covers ⟨0, 0, 0, 8⟩ ∧ Covers ⟨0, 0, 8, 8⟩ :=
  ⟨covers_small (by decide) (by decide), covers_small (by decide) (by decide)⟩

/-- Beside a buffer of the user only the ring can be large. -/
theorem covers_supplied {bytes : UInt64} {configureEventFlagWord : Bool}
    (fits : Representable bytes.toNat) :
    ∀ grantor ∈ ([⟨0, 0, 0, 8⟩, ⟨0, 0, 8, 8⟩, ⟨0, 1, 0, bytes⟩, ⟨0, 0, 16, 4⟩] :
      List GrantorDescriptor).take (grantorCount configureEventFlagWord), Covers grantor :=
  forall_mem_grantors covers_counters ((covers_ring bytes).mpr fits)
    fun _ => covers_small (by decide) (by decide)

/-- In one file the limit of the offsets is one of the ring as well. -/
theorem covers_own {bytes : UInt64} {evFlagOffset : UInt32} {configureEventFlagWord : Bool}
    (bound : Rounding.up 8 (16 + bytes.toNat) < 2 ^ 31)
    (last : configureEventFlagWord = true →
      evFlagOffset.toNat = Rounding.up 8 (16 + bytes.toNat)) :
    ∀ grantor ∈ ([⟨0, 0, 0, 8⟩, ⟨0, 0, 8, 8⟩, ⟨0, 0, 16, bytes⟩, ⟨0, 0, evFlagOffset, 4⟩] :
      List GrantorDescriptor).take (grantorCount configureEventFlagWord), Covers grantor := by
  refine forall_mem_grantors covers_counters ?_ fun configured => ?_
  · have within := Rounding.le_up (by decide : 0 < 8) (16 + bytes.toNat)
    have start : (16 : UInt32).toNat < 2 ^ 31 := by decide
    have value : span ⟨0, 0, 16, bytes⟩ = 16 + bytes.toNat := rfl
    exact covers_small start (by omega)
  · have small : evFlagOffset.toNat < 2 ^ 31 := by rw [last configured]; exact bound
    refine covers_small small ?_
    have page := Nat.mod_lt evFlagOffset.toNat (by decide : 0 < PAGE_SIZE.toNat)
    have value : span ⟨0, 0, evFlagOffset, 4⟩ = evFlagOffset.toNat % PAGE_SIZE.toNat + 4 := rfl
    have size : PAGE_SIZE.toNat = 65536 := rfl
    omega

end MessageQueueBase

open MessageQueueBase

/-- A conversion of the shim keeps the offset and the extent. -/
theorem covers_converted {grantor : aidl.GrantorDescriptor}
    (nonnegative : AidlMQDescriptorShim.Nonnegative grantor) :
    Covers (AidlMQDescriptorShim.converted grantor) ↔
      Representable
        (grantor.offset.toInt.toNat % PAGE_SIZE.toNat + grantor.extent.toInt.toNat) := by
  have offset := Casts.toNat_toUInt32 nonnegative.offset
  have extent := Casts.toNat_toUInt64 nonnegative.extent
  have offset_lt := grantor.offset.toInt_lt
  have extent_lt := grantor.extent.toInt_lt
  have value : span (AidlMQDescriptorShim.converted grantor) =
      grantor.offset.toInt.toNat % PAGE_SIZE.toNat + grantor.extent.toInt.toNat := by
    rw [← offset, ← extent]
    rfl
  have page := Nat.mod_lt grantor.offset.toInt.toNat (by decide : 0 < PAGE_SIZE.toNat)
  have size : PAGE_SIZE.toNat = 65536 := rfl
  rw [covers_iff (by simp only [AidlMQDescriptorShim.converted]; omega) (by omega), value,
    Representable]

/-- The mappings of an accepted queue cover their grantors exactly when the lengths fit. -/
theorem mappingsCover_iff_lengthsFit (source : Source) (aidl : source.Aidl) (pos : sizeofT ≠ 0)
    (mq : MessageQueueBase) (constructed : source.construct os flavor sizeofT = .ok mq)
    (valid : mq.isValid = true) :
    ∃ desc, mq.mDesc = some desc ∧
      (MappingsCover os flavor sizeofT desc ↔ source.LengthsFit flavor sizeofT) := by
  cases source with
  | descriptor desc resetPointers => cases aidl
  | numElements numElementsInQueue configureEventFlagWord bufferFd bufferSize =>
    obtain ⟨-, desc, initialized, -⟩ := ofNumElements_valid pos constructed valid
    obtain ⟨bytes, done, ashmem, -, built⟩ :=
      ofNumElements_built pos constructed initialized.mDesc initialized.grantors
    refine ⟨desc, initialized.mDesc, (mappingsCover_iff done valid).trans ?_⟩
    unfold Source.LengthsFit
    dsimp only
    rw [← bytes]
    cases built with
    | supplied buffer _ =>
      rw [or_iff_right buffer]
      constructor
      · intro covered
        have ring := covered DATAPTRPOS (dataPtrPos_mem _ _)
          ⟨0, 1, 0, numElementsInQueue * sizeofT⟩ (by cases configureEventFlagWord <;> rfl)
        exact (covers_ring _).mp ring
      · intro fits grantorIdx _ grantor known
        exact covers_supplied fits grantor (List.mem_of_getElem? known)
    | own noBuffer bound message evFlagOffset last =>
      refine iff_of_true ?_ (Or.inl noBuffer)
      intro grantorIdx _ grantor known
      exact covers_own bound last grantor (List.mem_of_getElem? known)
  | mqDescriptor foreign resetPointers =>
    obtain ⟨desc, copied, done⟩ := ofDescriptor_done constructed valid
    have initialized := initMemory_valid done valid
    obtain ⟨grantors, handle⟩ := AidlMQDescriptorShim.copy_eq_ok copied
    have shim := handle.symm.trans initialized.handle
    obtain ⟨-, -, nonnegative, -⟩ := AidlMQDescriptorShim.ofMQDescriptor_valid.mp shim
    rw [AidlMQDescriptorShim.ofMQDescriptor_eq shim] at grantors
    refine ⟨desc, initialized.mDesc, (mappingsCover_iff done valid).trans ?_⟩
    have count : desc.countGrantors = foreign.grantors.length := by
      rw [AidlMQDescriptorShim.countGrantors, grantors, List.length_map]
    rw [count, grantors]
    refine forall₂_congr fun grantorIdx _ => ?_
    rw [List.getElem?_map]
    cases known : foreign.grantors[grantorIdx]? with
    | none => simp
    | some grantor =>
      have fits := covers_converted (nonnegative grantor (List.mem_of_getElem? known))
      simp [fits]

/-- Ten elements of four bytes and an event flag word. -/
theorem mappingsCover_iff_lengthsFit_ten : ∃ mq desc,
    (Source.numElements 10 true (-1) 0).construct .generous .kSynchronizedReadWrite 4 = .ok mq ∧
      mq.isValid = true ∧ mq.mDesc = some desc ∧
      MappingsCover .generous .kSynchronizedReadWrite 4 desc := by
  let shim : AidlMQDescriptorShim :=
    ⟨[⟨0, 0, 0, 8⟩, ⟨0, 0, 8, 8⟩, ⟨0, 0, 16, 40⟩, ⟨0, 0, 56, 4⟩], some ⟨[3], []⟩, 4, 1⟩
  let mq : MessageQueueBase :=
    ⟨shim, some 0x10010, some 0x10000, some 0x10008, some 0x10038, some 0, some 0⟩
  have constructed : (Source.numElements 10 true (-1) 0).construct .generous
      .kSynchronizedReadWrite 4 = .ok mq := by decide
  obtain ⟨desc, mDesc, iff⟩ :=
    mappingsCover_iff_lengthsFit (.numElements 10 true (-1) 0) trivial (by decide) mq constructed
      rfl
  exact ⟨mq, desc, constructed, rfl, mDesc, iff.mpr (Or.inl rfl)⟩

/-- A ring of 2^32 + 8 bytes in a buffer of the user is mapped with eight bytes. -/
theorem not_mappingsCover : ¬ ∀ (os : Platform) (flavor : MQFlavor) (sizeofT : UInt64)
    (source : Source) (mq : MessageQueueBase) (desc : AidlMQDescriptorShim), source.Aidl →
    sizeofT ≠ 0 → source.construct os flavor sizeofT = .ok mq → mq.isValid = true →
    mq.mDesc = some desc → MappingsCover os flavor sizeofT desc := by
  intro all
  let shim : AidlMQDescriptorShim :=
    ⟨[⟨0, 0, 0, 8⟩, ⟨0, 0, 8, 8⟩, ⟨0, 1, 0, 0x100000008⟩], some ⟨[3, 5], []⟩, 8, 1⟩
  let mq : MessageQueueBase :=
    ⟨shim, some 0x10000, some 0x10000, some 0x10008, none, some 0, some 0⟩
  have constructed : (Source.numElements 0x20000001 false 5 0x100000008).construct .generous
      .kSynchronizedReadWrite 8 = .ok mq := by decide
  have ring : mapGrantorDescr .generous shim DATAPTRPOS = .ok (some 0x10000) := by decide
  have called : DATAPTRPOS ∈ mapCalls .generous .kSynchronizedReadWrite 8 shim := by decide
  obtain ⟨grantor, known, covers⟩ :=
    all _ _ _ (.numElements 0x20000001 false 5 0x100000008) mq shim trivial (by decide) constructed
      rfl rfl DATAPTRPOS called _ ring
  cases known
  have long := (covers_ring 0x100000008).mp covers
  revert long
  unfold Representable
  decide

end Fmq
