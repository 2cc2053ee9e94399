import Fmq.Model.Conversion
import Fmq.Properties.Export

/-!
# From HIDL to AIDL

Where the conversion succeeds, every value is to be kept. The index of a file descriptor is the one
that is not: it is tested at the width of the extent, at which nothing is ever negative. Where the
conversion fails, what the loop has stored by then is left in the destination.
-/
namespace Fmq

open AidlMQDescriptorShim

variable {flavor : MQFlavor} {grantor : GrantorDescriptor} {hidlDesc : hidl.MQDescriptor}

/-- The offset and the extent have values of the signed types. -/
structure Fits (grantor : GrantorDescriptor) : Prop where
  offset : grantor.offset.toNat < 2 ^ 31
  extent : grantor.extent.toNat < 2 ^ 63

/-- No check of the conversion refuses the descriptor. -/
structure hidl.MQDescriptor.Accepted (flavor : MQFlavor) (hidlDesc : hidl.MQDescriptor) : Prop where
  grantors : ∀ grantor ∈ hidlDesc.mGrantors, Fits grantor
  quantum : hidlDesc.mQuantum.toNat < 2 ^ 31
  flags : hidlDesc.mFlags = flavor.value

/-- The shim of this descriptor. The parcelable has no flags of grantors. -/
def hidl.MQDescriptor.shim (hidlDesc : hidl.MQDescriptor) : AidlMQDescriptorShim :=
  ⟨hidlDesc.mGrantors.map fun grantor => { grantor with flags := 0 }, some hidlDesc.mHandle,
    hidlDesc.mQuantum, hidlDesc.mFlags⟩

/-! ## The loop over the grantors -/

theorem convertGrantor_eq (fits : Fits grantor) :
    convertGrantor grantor = some (exportGrantor grantor) := by
  refine if_neg ?_
  rintro (offset | extent | fdIndex)
  · exact Nat.not_lt.mpr (Casts.toInt32_neg_iff.mp offset) fits.offset
  · exact Nat.not_lt.mpr (Casts.toInt64_neg_iff.mp extent) fits.extent
  · exact Int64.not_lt.mpr (Casts.nonneg_widen grantor.fdIndex) fdIndex

theorem convertGrantor_eq_none_iff : convertGrantor grantor = none ↔ ¬ Fits grantor := by
  constructor
  · intro refused fits
    cases refused.symm.trans (convertGrantor_eq fits)
  · intro unfit
    refine if_pos ?_
    by_contra signs
    rw [not_or, not_or, Casts.toInt32_neg_iff, Casts.toInt64_neg_iff, Nat.not_le, Nat.not_le]
      at signs
    exact unfit ⟨signs.1, signs.2.1⟩

theorem convertGrantor_isSome_iff : (convertGrantor grantor).isSome = true ↔ Fits grantor := by
  rw [Option.isSome_iff_ne_none, ne_eq, convertGrantor_eq_none_iff, not_not]

theorem fill_convertGrantor {grantors : List GrantorDescriptor}
    (fit : ∀ grantor ∈ grantors, Fits grantor) :
    Filling.fill convertGrantor [] grantors = (grantors.map exportGrantor, true) :=
  Filling.fill_eq_map fun grantor member => convertGrantor_eq (fit grantor member)

theorem fill_convertGrantor_stops {grantors : List GrantorDescriptor}
    (unfit : ¬ ∀ grantor ∈ grantors, Fits grantor) :
    (Filling.fill convertGrantor [] grantors).2 = false := by
  rw [Bool.eq_false_iff, ne_eq, Filling.fill_ends_iff]
  simpa only [convertGrantor_isSome_iff] using unfit

/-! ## The conversion -/

/-- The two checks behind the loop. The flags of a flavor are not negative. -/
theorem accepted_iff (fit : ∀ grantor ∈ hidlDesc.mGrantors, Fits grantor) :
    hidlDesc.Accepted flavor ↔
      ¬ (hidlDesc.getQuantum.toUInt32.toInt32 < 0 ∨ hidlDesc.mFlags.toInt32 < 0) ∧
        hidlDesc.mFlags = flavor.value := by
  rw [hidl.MQDescriptor.getQuantum, UInt32.toUInt32_toUInt64, not_or, Casts.toInt32_neg_iff,
    Casts.toInt32_neg_iff, Nat.not_le, Nat.not_le]
  constructor
  · intro accepted
    refine ⟨⟨accepted.quantum, ?_⟩, accepted.flags⟩
    rw [accepted.flags]
    exact toNat_flavor flavor
  · rintro ⟨⟨quantum, -⟩, flags⟩
    exact ⟨fit, quantum, flags⟩

/-- The four ways through the function: the destination is in use, a grantor is refused, the
quantum or the flags are, or all of it is converted. -/
theorem unsafeHidlToAidlMQDescriptor_cases (os : Platform) (flavor : MQFlavor)
    (hidlDesc : hidl.MQDescriptor) (aidlDesc : aidl.MQDescriptor) :
    (aidlDesc.grantors ≠ [] ∧
      unsafeHidlToAidlMQDescriptor os flavor hidlDesc aidlDesc = (false, aidlDesc)) ∨
    (aidlDesc.grantors = [] ∧ (¬ ∀ grantor ∈ hidlDesc.mGrantors, Fits grantor) ∧
      unsafeHidlToAidlMQDescriptor os flavor hidlDesc aidlDesc =
        (false, { aidlDesc with
          grantors := (Filling.fill convertGrantor [] hidlDesc.mGrantors).1 })) ∨
    (aidlDesc.grantors = [] ∧ (∀ grantor ∈ hidlDesc.mGrantors, Fits grantor) ∧
      ¬ hidlDesc.Accepted flavor ∧
      unsafeHidlToAidlMQDescriptor os flavor hidlDesc aidlDesc =
        (false, { aidlDesc with
          grantors := hidlDesc.mGrantors.map exportGrantor
          handle := ⟨hidlDesc.mHandle.fds.map os.dup, hidlDesc.mHandle.ints⟩ })) ∨
    (aidlDesc.grantors = [] ∧ hidlDesc.Accepted flavor ∧
      unsafeHidlToAidlMQDescriptor os flavor hidlDesc aidlDesc =
        (true, parcelable hidlDesc.shim
          ⟨hidlDesc.mHandle.fds.map os.dup, hidlDesc.mHandle.ints⟩)) := by
  obtain ⟨grantors, handle, quantum, flags⟩ := aidlDesc
  unfold unsafeHidlToAidlMQDescriptor
  cases grantors with
  | cons => exact Or.inl ⟨nofun, rfl⟩
  | nil =>
    refine Or.inr ?_
    simp only [List.isEmpty_nil, Bool.not_true, Bool.false_eq_true, if_false, true_and]
    by_cases fit : ∀ grantor ∈ hidlDesc.mGrantors, Fits grantor
    · refine Or.inr ?_
      simp only [fill_convertGrantor fit, Bool.not_true, Bool.false_eq_true, if_false]
      split
      next signs =>
        exact Or.inl ⟨fit, fun accepted => ((accepted_iff fit).mp accepted).1 signs, rfl⟩
      next signs =>
        split
        next differs =>
          exact Or.inl ⟨fit, fun accepted => differs ((accepted_iff fit).mp accepted).2, rfl⟩
        next same =>
          refine Or.inr ⟨(accepted_iff fit).mpr ⟨signs, not_not.mp same⟩, ?_⟩
          rw [parcelable, hidl.MQDescriptor.shim, List.map_map, hidl.MQDescriptor.getQuantum,
            UInt32.toUInt32_toUInt64]
          rfl
    · refine Or.inl ⟨fit, ?_⟩
      rw [fill_convertGrantor_stops fit]
      rfl

/-! ## A conversion that succeeds -/

/-- The converted descriptor has the values of the original, and so has the shim that `importer`
makes of it. -/
structure hidl.MQDescriptor.Carried (importer : Platform) (hidlDesc : hidl.MQDescriptor)
    (converted : aidl.MQDescriptor) : Prop where
  exact : Exact hidlDesc.shim converted
  fds : converted.handle.fds.length = hidlDesc.mHandle.fds.length
  ints : converted.handle.ints = hidlDesc.mHandle.ints
  rebuilt : Same hidlDesc.shim (ofMQDescriptor importer converted)

/-- A conversion that returns true has carried everything over. -/
def hidl.MQDescriptor.Preserved (os importer : Platform) (flavor : MQFlavor)
    (hidlDesc : hidl.MQDescriptor) (aidlDesc : aidl.MQDescriptor) : Prop :=
  (unsafeHidlToAidlMQDescriptor os flavor hidlDesc aidlDesc).1 = true →
    hidlDesc.Carried importer (unsafeHidlToAidlMQDescriptor os flavor hidlDesc aidlDesc).2

theorem portable_shim (accepted : hidlDesc.Accepted flavor)
    (small : ∀ grantor ∈ hidlDesc.mGrantors, grantor.fdIndex.toNat < 2 ^ 31) :
    Portable hidlDesc.shim where
  quantum := accepted.quantum
  flags := by
    rw [hidl.MQDescriptor.shim, accepted.flags]
    exact toNat_flavor flavor
  grantors := List.forall_mem_map.mpr fun grantor member =>
    have fits := accepted.grantors grantor member
    ⟨rfl, small grantor member, fits.offset, fits.extent⟩

/-- An index that was kept is not negative as an `int32_t`. -/
theorem fdIndex_of_exact {handle : NativeHandle}
    (exact_ : Exact hidlDesc.shim (parcelable hidlDesc.shim handle)) :
    ∀ grantor ∈ hidlDesc.mGrantors, grantor.fdIndex.toNat < 2 ^ 31 := by
  intro grantor member
  have same := exact_.grantors
  rw [parcelable, hidl.MQDescriptor.shim, List.map_map, List.map_map, List.map_map,
    List.map_inj_left] at same
  have triple := same grantor member
  simp only [Function.comp, exportGrantor, Prod.mk.injEq] at triple
  exact Casts.toInt_toInt32_iff.mp triple.1

theorem carried_iff (os : Platform) {importer : Platform} (accepted : hidlDesc.Accepted flavor)
    (creates : importer.nativeHandleCreate hidlDesc.mHandle.fds.length
      hidlDesc.mHandle.ints.length = true) :
    hidlDesc.Carried importer (parcelable hidlDesc.shim
        ⟨hidlDesc.mHandle.fds.map os.dup, hidlDesc.mHandle.ints⟩) ↔
      ∀ grantor ∈ hidlDesc.mGrantors, grantor.fdIndex.toNat < 2 ^ 31 := by
  constructor
  · exact fun carried => fdIndex_of_exact carried.exact
  · intro small
    have portable := portable_shim accepted small
    have known : hidlDesc.shim.mHandle = some hidlDesc.mHandle := rfl
    refine ⟨portable.exact _, List.length_map _, rfl, ?_⟩
    rw [portable.imported (by rwa [List.length_map])]
    exact .withFds known (by rw [List.length_map, List.length_map])

/-- Every value is kept if and only if a check refuses the descriptor, or no index of a file
descriptor has its sign bit set. -/
theorem preserved_iff (os importer : Platform) (flavor : MQFlavor) (hidlDesc : hidl.MQDescriptor)
    (aidlDesc : aidl.MQDescriptor) (empty : aidlDesc.grantors = [])
    (creates : importer.nativeHandleCreate hidlDesc.mHandle.fds.length
      hidlDesc.mHandle.ints.length = true) :
    hidlDesc.Preserved os importer flavor aidlDesc ↔
      ¬ hidlDesc.Accepted flavor ∨
        ∀ grantor ∈ hidlDesc.mGrantors, grantor.fdIndex.toNat < 2 ^ 31 := by
  unfold hidl.MQDescriptor.Preserved
  rcases unsafeHidlToAidlMQDescriptor_cases os flavor hidlDesc aidlDesc with
    ⟨used, -⟩ | ⟨-, unfit, eq⟩ | ⟨-, -, refused, eq⟩ | ⟨-, accepted, eq⟩
  · exact absurd empty used
  · rw [eq]
    exact iff_of_true nofun (Or.inl fun accepted => unfit accepted.grantors)
  · rw [eq]
    exact iff_of_true nofun (Or.inl refused)
  · rw [eq, or_iff_right (not_not.mpr accepted), ← carried_iff os accepted creates]
    exact ⟨fun kept => kept rfl, fun carried _ => carried⟩

/-- A handle with two file descriptors, the second of which has the memory. -/
theorem preserved_iff_second :
    (⟨[⟨0, 1, 16, 16⟩, ⟨0, 1, 16, 16⟩, ⟨0, 1, 16, 16⟩], ⟨[12, 5], []⟩, 10, 2⟩ :
        hidl.MQDescriptor).Preserved .generous .generous .kUnsynchronizedWrite
      ⟨[], ⟨[], []⟩, 0, 0⟩ := by
  refine (preserved_iff .generous .generous .kUnsynchronizedWrite _ _ rfl rfl).mpr (Or.inr ?_)
  decide

/-- The index `0x80000000` passes the checks, and becomes a negative one. -/
theorem not_preserved : ¬ ∀ (os importer : Platform) (flavor : MQFlavor)
    (hidlDesc : hidl.MQDescriptor) (aidlDesc : aidl.MQDescriptor), aidlDesc.grantors = [] →
    importer.nativeHandleCreate hidlDesc.mHandle.fds.length hidlDesc.mHandle.ints.length = true →
    hidlDesc.Preserved os importer flavor aidlDesc := by
  intro all
  have carried := all .generous .generous .kSynchronizedReadWrite
    ⟨[⟨0, 0x80000000, 0, 8⟩], ⟨[3], []⟩, 4, 1⟩ ⟨[], ⟨[], []⟩, 0, 0⟩ rfl rfl (by decide)
  exact absurd carried.exact.grantors (by decide)

/-! ## A conversion that fails -/

/-- A conversion that returns false has changed nothing, so that the next one finds the destination
as this one did. -/
def hidl.MQDescriptor.LeavesUntouched (os : Platform) (flavor : MQFlavor)
    (hidlDesc : hidl.MQDescriptor) (aidlDesc : aidl.MQDescriptor) : Prop :=
  (unsafeHidlToAidlMQDescriptor os flavor hidlDesc aidlDesc).1 = false →
    (unsafeHidlToAidlMQDescriptor os flavor hidlDesc aidlDesc).2 = aidlDesc ∧
    ∀ next : hidl.MQDescriptor, unsafeHidlToAidlMQDescriptor os flavor next
        (unsafeHidlToAidlMQDescriptor os flavor hidlDesc aidlDesc).2 =
      unsafeHidlToAidlMQDescriptor os flavor next aidlDesc

theorem leavesUntouched_of_true {os : Platform} {aidlDesc converted : aidl.MQDescriptor}
    (eq : unsafeHidlToAidlMQDescriptor os flavor hidlDesc aidlDesc = (true, converted)) :
    hidlDesc.LeavesUntouched os flavor aidlDesc := by
  unfold hidl.MQDescriptor.LeavesUntouched
  rw [eq]
  exact nofun

theorem leavesUntouched_of_false {os : Platform} {aidlDesc left : aidl.MQDescriptor}
    (eq : unsafeHidlToAidlMQDescriptor os flavor hidlDesc aidlDesc = (false, left)) :
    hidlDesc.LeavesUntouched os flavor aidlDesc ↔ left = aidlDesc := by
  unfold hidl.MQDescriptor.LeavesUntouched
  rw [eq]
  constructor
  · exact fun untouched => (untouched rfl).1
  · rintro rfl -
    exact ⟨rfl, fun _ => rfl⟩

/-- The loop stores nothing if and only if it stops at the first grantor. -/
theorem fill_convertGrantor_eq_nil_iff {grantors : List GrantorDescriptor}
    (unfit : ¬ ∀ grantor ∈ grantors, Fits grantor) :
    (Filling.fill convertGrantor [] grantors).1 = [] ↔
      ∃ grantor rest, grantors = grantor :: rest ∧ ¬ Fits grantor := by
  cases grantors with
  | nil => exact absurd nofun unfit
  | cons grantor rest =>
    rw [Filling.fill_unchanged_iff, List.head?_cons]
    constructor
    · intro refused
      exact ⟨grantor, rest, rfl, convertGrantor_eq_none_iff.mp (refused grantor rfl)⟩
    · rintro ⟨_, _, ⟨⟩, first⟩ _ ⟨⟩
      exact convertGrantor_eq_none_iff.mpr first

/-- A failed conversion leaves nothing behind if and only if the destination is in use, or the very
first grantor is refused, or there is no grantor and the handle was the same before. -/
theorem leavesUntouched_iff (os : Platform) (flavor : MQFlavor) (hidlDesc : hidl.MQDescriptor)
    (aidlDesc : aidl.MQDescriptor) :
    hidlDesc.LeavesUntouched os flavor aidlDesc ↔
      aidlDesc.grantors ≠ [] ∨ hidlDesc.Accepted flavor ∨
      (∃ grantor rest, hidlDesc.mGrantors = grantor :: rest ∧ ¬ Fits grantor) ∨
      (hidlDesc.mGrantors = [] ∧
        aidlDesc.handle = ⟨hidlDesc.mHandle.fds.map os.dup, hidlDesc.mHandle.ints⟩) := by
  rcases unsafeHidlToAidlMQDescriptor_cases os flavor hidlDesc aidlDesc with
    ⟨used, eq⟩ | ⟨empty, unfit, eq⟩ | ⟨empty, fit, refused, eq⟩ | ⟨-, accepted, eq⟩
  · exact iff_of_true ((leavesUntouched_of_false eq).mpr rfl) (Or.inl used)
  · -- The loop stops: only the destination's grantors can have changed.
    rw [leavesUntouched_of_false eq, or_iff_right (not_not.mpr empty),
      or_iff_right fun accepted => unfit accepted.grantors,
      ← fill_convertGrantor_eq_nil_iff unfit, or_iff_left]
    · obtain ⟨grantors, handle, quantum, flags⟩ := aidlDesc
      cases empty
      simp only [aidl.MQDescriptor.mk.injEq, and_true]
    · rintro ⟨none_left, -⟩
      rw [none_left] at unfit
      exact unfit nofun
  · -- The loop is over: the grantors and the handle have been stored.
    rw [leavesUntouched_of_false eq, or_iff_right (not_not.mpr empty), or_iff_right refused,
      or_iff_right]
    · obtain ⟨grantors, handle, quantum, flags⟩ := aidlDesc
      cases empty
      simp only [aidl.MQDescriptor.mk.injEq, and_true, List.map_eq_nil_iff, eq_comm]
    · rintro ⟨grantor, rest, known, unfit⟩
      rw [known] at fit
      exact unfit (fit grantor List.mem_cons_self)
  · exact iff_of_true (leavesUntouched_of_true eq) (Or.inr (Or.inl accepted))

/-- A queue of two gigabytes: its event flag word is too far away, and the three grantors before
that one stay behind. -/
theorem not_leavesUntouched : ¬ ∀ (os : Platform) (flavor : MQFlavor)
    (hidlDesc : hidl.MQDescriptor) (aidlDesc : aidl.MQDescriptor),
    hidlDesc.LeavesUntouched os flavor aidlDesc := by
  intro all
  have untouched := all .generous .kSynchronizedReadWrite
    ⟨[⟨0, 0, 0, 8⟩, ⟨0, 0, 8, 8⟩, ⟨0, 0, 16, 0x80000000⟩, ⟨0, 0, 0x80000010, 4⟩], ⟨[3], []⟩, 4, 1⟩
    ⟨[], ⟨[], []⟩, 0, 0⟩
  exact absurd (untouched (by decide)).1 (by decide)

end Fmq
