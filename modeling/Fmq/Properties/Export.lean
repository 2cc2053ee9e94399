import Fmq.Model.Export
import Fmq.Properties.HandleIndices

/-!
# Exporting and importing

The fields of a shim are unsigned and those of the parcelable are signed. Every shim that can be
exported has values that both types have, so a round trip changes nothing.
-/
namespace Fmq

open AidlMQDescriptorShim MessageQueueBase

/-- The integers of the parcelable are those of the shim. -/
structure Exact (shim : AidlMQDescriptorShim) (desc : aidl.MQDescriptor) : Prop where
  quantum : desc.quantum.toInt = shim.mQuantum.toNat
  flags : desc.flags.toInt = shim.mFlags.toNat
  grantors : desc.grantors.map (fun g => (g.fdIndex.toInt, g.offset.toInt, g.extent.toInt)) =
    shim.mGrantors.map fun g =>
      ((g.fdIndex.toNat : Int), (g.offset.toNat : Int), (g.extent.toNat : Int))

/-- The same grantors, quantum and flags, and handles of one shape. -/
structure Same (shim shim' : AidlMQDescriptorShim) : Prop where
  grantors : shim'.mGrantors = shim.mGrantors
  quantum : shim'.mQuantum = shim.mQuantum
  flags : shim'.mFlags = shim.mFlags
  handle : ∃ handle handle', shim.mHandle = some handle ∧ shim'.mHandle = some handle' ∧
    handle'.fds.length = handle.fds.length ∧ handle'.ints = handle.ints

theorem Same.trans {shim shim' shim'' : AidlMQDescriptorShim} (first : Same shim shim')
    (second : Same shim' shim'') : Same shim shim'' := by
  obtain ⟨handle, handle', known, known', fds, ints⟩ := first.handle
  obtain ⟨handle₁, handle'', known₁, known'', fds', ints'⟩ := second.handle
  cases known'.symm.trans known₁
  exact ⟨second.grantors.trans first.grantors, second.quantum.trans first.quantum,
    second.flags.trans first.flags, handle, handle'', known, known'', fds'.trans fds,
    ints'.trans ints⟩

/-! ## Values that both types have -/

/-- A grantor whose values the signed types have, and whose flags are those of an import. -/
structure PortableGrantor (grantor : GrantorDescriptor) : Prop where
  flags : grantor.flags = 0
  fdIndex : grantor.fdIndex.toNat < 2 ^ 31
  offset : grantor.offset.toNat < 2 ^ 31
  extent : grantor.extent.toNat < 2 ^ 63

structure Portable (shim : AidlMQDescriptorShim) : Prop where
  quantum : shim.mQuantum.toNat < 2 ^ 31
  flags : shim.mFlags.toNat < 2 ^ 31
  grantors : ∀ grantor ∈ shim.mGrantors, PortableGrantor grantor

variable {os : Platform} {flavor : MQFlavor} {sizeofT : UInt64} {shim : AidlMQDescriptorShim}

theorem PortableGrantor.nonnegative {grantor : GrantorDescriptor}
    (portable : PortableGrantor grantor) : Nonnegative (exportGrantor grantor) where
  offset := Casts.nonneg_toInt32 portable.offset
  extent := Casts.nonneg_toInt64 portable.extent
  fdIndex := Casts.nonneg_toInt32 portable.fdIndex

theorem PortableGrantor.converted_export {grantor : GrantorDescriptor}
    (portable : PortableGrantor grantor) : converted (exportGrantor grantor) = grantor := by
  obtain ⟨flags, fdIndex, offset, extent⟩ := grantor
  cases portable.flags
  rfl

/-- What was converted from nonnegative values is portable. -/
theorem portable_converted {grantor : aidl.GrantorDescriptor} (nonnegative : Nonnegative grantor) :
    PortableGrantor (converted grantor) where
  flags := rfl
  fdIndex := by
    have value := Casts.toNat_toUInt32 nonnegative.fdIndex
    have bound := grantor.fdIndex.toInt_lt
    simp only [converted]
    omega
  offset := by
    have value := Casts.toNat_toUInt32 nonnegative.offset
    have bound := grantor.offset.toInt_lt
    simp only [converted]
    omega
  extent := by
    have value := Casts.toNat_toUInt64 nonnegative.extent
    have bound := grantor.extent.toInt_lt
    simp only [converted]
    omega

/-! ## One hop -/

/-- The parcelable of a shim, with this handle. -/
def parcelable (shim : AidlMQDescriptorShim) (handle : NativeHandle) : aidl.MQDescriptor :=
  ⟨shim.mGrantors.map exportGrantor, handle, shim.mQuantum.toInt32, shim.mFlags.toInt32⟩

theorem dupeDesc_eq {handle : NativeHandle} (known : shim.mHandle = some handle) (os : Platform) :
    shim.dupeDesc os = .ok (parcelable shim ⟨handle.fds.map os.dup, handle.ints⟩) := by
  unfold AidlMQDescriptorShim.dupeDesc
  rw [known, UInt32.toUInt32_toUInt64]
  rfl

/-- An export gives exactly the values of the shim. -/
theorem Portable.exact (portable : Portable shim) (handle : NativeHandle) :
    Exact shim (parcelable shim handle) where
  quantum := Casts.toInt_toInt32 portable.quantum
  flags := Casts.toInt_toInt32 portable.flags
  grantors := by
    rw [parcelable, List.map_map]
    refine List.map_congr_left fun grantor member => ?_
    obtain ⟨-, fdIndex, offset, extent⟩ := portable.grantors grantor member
    simp only [Function.comp, exportGrantor, Casts.toInt_toInt32 fdIndex,
      Casts.toInt_toInt32 offset, Casts.toInt_toInt64 extent]

/-- No check refuses the export, and the import has the values back. -/
theorem Portable.imported (portable : Portable shim) {handle : NativeHandle}
    (creates : os.nativeHandleCreate handle.fds.length handle.ints.length = true) :
    ofMQDescriptor os (parcelable shim handle) =
      ⟨shim.mGrantors, some ⟨handle.fds.map os.dup, handle.ints⟩, shim.mQuantum, shim.mFlags⟩ := by
  have nonnegative : ∀ grantor ∈ (parcelable shim handle).grantors, Nonnegative grantor :=
    List.forall_mem_map.mpr fun grantor member => (portable.grantors grantor member).nonnegative
  have valid : (ofMQDescriptor os (parcelable shim handle)).isHandleValid = true :=
    ofMQDescriptor_valid.mpr ⟨Casts.nonneg_toInt32 portable.quantum,
      Casts.nonneg_toInt32 portable.flags, nonnegative, creates⟩
  have grantors : (shim.mGrantors.map exportGrantor).map converted = shim.mGrantors := by
    rw [List.map_map]
    refine (List.map_congr_left fun grantor member => ?_).trans (List.map_id _)
    exact (portable.grantors grantor member).converted_export
  rw [ofMQDescriptor_eq valid, parcelable, grantors]
  rfl

/-- A shim with these file descriptors instead. -/
theorem Same.withFds {handle : NativeHandle} (known : shim.mHandle = some handle)
    {fds : List Int32} (length : fds.length = handle.fds.length) :
    Same shim ⟨shim.mGrantors, some ⟨fds, handle.ints⟩, shim.mQuantum, shim.mFlags⟩ :=
  ⟨rfl, rfl, rfl, handle, _, known, rfl, length, rfl⟩

theorem Same.portable {shim' : AidlMQDescriptorShim} (same : Same shim shim')
    (portable : Portable shim) : Portable shim' where
  quantum := same.quantum ▸ portable.quantum
  flags := same.flags ▸ portable.flags
  grantors := same.grantors ▸ portable.grantors

/-- What the next process gets. -/
theorem Portable.hop (portable : Portable shim) {handle : NativeHandle}
    (known : shim.mHandle = some handle) (exporter importer : Platform)
    (creates : importer.nativeHandleCreate handle.fds.length handle.ints.length = true) :
    ∃ desc, shim.dupeDesc exporter = .ok desc ∧ Exact shim desc ∧
      Same shim (ofMQDescriptor importer desc) := by
  refine ⟨_, dupeDesc_eq known exporter, portable.exact _, ?_⟩
  rw [portable.imported (by rwa [List.length_map])]
  exact .withFds known (by rw [List.length_map, List.length_map])

/-- The queue made from a shim keeps a copy. -/
theorem copy_same {handle : NativeHandle} (known : shim.mHandle = some handle)
    (creates : os.nativeHandleCreate handle.fds.length handle.ints.length = true) :
    ∃ shim', shim.copy os = .ok shim' ∧ Same shim shim' := by
  unfold copy
  rw [known]
  dsimp only
  rw [if_pos creates]
  exact ⟨_, rfl, .withFds known (List.length_map _)⟩

theorem Same.exact {shim' : AidlMQDescriptorShim} {desc : aidl.MQDescriptor}
    (same : Same shim shim') (exact_ : Exact shim' desc) : Exact shim desc where
  quantum := same.quantum ▸ exact_.quantum
  flags := same.flags ▸ exact_.flags
  grantors := same.grantors ▸ exact_.grantors

/-! ## Any number of hops -/

theorem Portable.hops (portable : Portable shim) {handle : NativeHandle}
    (known : shim.mHandle = some handle) {path : List Hop}
    (creates : ∀ hop ∈ path,
      hop.importer.nativeHandleCreate handle.fds.length handle.ints.length = true) :
    ∃ shim', Fmq.hops path shim = .ok shim' ∧ Same shim shim' := by
  induction path generalizing shim handle with
  | nil => exact ⟨shim, rfl, rfl, rfl, rfl, handle, handle, known, known, rfl, rfl⟩
  | cons hop path ih =>
    obtain ⟨first, creates⟩ := List.forall_mem_cons.mp creates
    obtain ⟨desc, exported, -, same⟩ := portable.hop known hop.exporter hop.importer first
    obtain ⟨handle₀, handle₁, known₀, known₁, fds, ints⟩ := same.handle
    cases known.symm.trans known₀
    obtain ⟨shim₂, copied, same₂⟩ := copy_same known₁ (by rwa [fds, ints])
    have both := same.trans same₂
    obtain ⟨handle₂, handle₃, known₂, known₃, fds', ints'⟩ := both.handle
    cases known.symm.trans known₂
    rw [← fds', ← ints'] at creates
    obtain ⟨shim₄, rest, same₄⟩ := ih (both.portable portable) known₃ creates
    refine ⟨shim₄, ?_, both.trans same₄⟩
    unfold Fmq.hops
    rw [exported]
    simp only [copied, rest, bind, Except.bind]

/-! ## Every queue -/

theorem toNat_flavor (flavor : MQFlavor) : flavor.value.toNat < 2 ^ 31 := by
  cases flavor <;> decide

/-- The limit of the buffer-size constructor is one of all its values. -/
theorem portable_own {bytes : UInt64} {evFlagOffset : UInt32} {configureEventFlagWord : Bool}
    (bound : Rounding.up 8 (16 + bytes.toNat) < 2 ^ 31)
    (last : configureEventFlagWord = true →
      evFlagOffset.toNat = Rounding.up 8 (16 + bytes.toNat)) :
    ∀ grantor ∈ ([⟨0, 0, 0, 8⟩, ⟨0, 0, 8, 8⟩, ⟨0, 0, 16, bytes⟩, ⟨0, 0, evFlagOffset, 4⟩] :
        List GrantorDescriptor).take (details.grantorCount configureEventFlagWord),
      PortableGrantor grantor := by
  have within := Rounding.le_up (by decide : 0 < 8) (16 + bytes.toNat)
  have zero : (0 : UInt32).toNat < 2 ^ 31 := by decide
  refine forall_mem_grantors ⟨?_, ?_⟩ ?_ fun configured => ?_
  · exact ⟨rfl, by decide, by decide, by decide⟩
  · exact ⟨rfl, by decide, by decide, by decide⟩
  · exact ⟨rfl, zero, (by decide : (16 : UInt32).toNat < 2 ^ 31), by dsimp only; omega⟩
  · have offset : evFlagOffset.toNat < 2 ^ 31 := by rw [last configured]; exact bound
    exact ⟨rfl, zero, offset, (by decide : (4 : UInt64).toNat < 2 ^ 63)⟩

theorem construct_portable {source : Source} {mq : MessageQueueBase}
    (exportable : source.Exportable) (pos : sizeofT ≠ 0)
    (constructed : source.construct os flavor sizeofT = .ok mq) (valid : mq.isValid = true) :
    ∃ shim handle, mq.mDesc = some shim ∧ shim.mHandle = some handle ∧ Portable shim := by
  cases source with
  | descriptor desc resetPointers => cases exportable
  | numElements numElementsInQueue configureEventFlagWord bufferFd bufferSize =>
    obtain ⟨-, shim, initialized, -⟩ := ofNumElements_valid pos constructed valid
    obtain ⟨-, -, ashmem, -, built⟩ :=
      ofNumElements_built pos constructed initialized.mDesc initialized.grantors
    cases built with
    | supplied buffer _ => exact absurd exportable buffer
    | own noBuffer bound message evFlagOffset last =>
      refine ⟨_, _, initialized.mDesc, rfl, ?_, toNat_flavor flavor, ?_⟩
      · rw [UInt64.toNat_toUInt32]
        omega
      · exact portable_own bound last
  | mqDescriptor desc resetPointers =>
    obtain ⟨shim, copied, initialized⟩ := ofDescriptor_valid constructed valid
    obtain ⟨accepted, rfl⟩ := aidl.MQDescriptor.copied_eq copied initialized.handle
    obtain ⟨quantum, flags, nonnegative, -⟩ := ofMQDescriptor_valid.mp accepted
    refine ⟨_, _, initialized.mDesc, rfl, ?_, ?_, List.forall_mem_map.mpr fun grantor member =>
      portable_converted (nonnegative grantor member)⟩
    · have value := Casts.toNat_toUInt32 quantum
      have limit := desc.quantum.toInt_lt
      simp only [aidl.MQDescriptor.shim]
      omega
    · have value := Casts.toNat_toUInt32 flags
      have limit := desc.flags.toInt_lt
      simp only [aidl.MQDescriptor.shim]
      omega

/-- Exported from any queue of a chain, the descriptor of a valid queue arrives as it was. -/
theorem hops_same (source : Source) (mq : MessageQueueBase) (exportable : source.Exportable)
    (pos : sizeofT ≠ 0) (constructed : source.construct os flavor sizeofT = .ok mq)
    (valid : mq.isValid = true) :
    ∃ shim handle, mq.mDesc = some shim ∧ shim.mHandle = some handle ∧
      ∀ (path : List Hop) (last : Hop), (∀ hop ∈ path ++ [last],
        hop.importer.nativeHandleCreate handle.fds.length handle.ints.length = true) →
      ∃ mq' desc, (hops path shim).map (fun shim' => withDesc (some shim')) = .ok mq' ∧
        mq'.dupeDesc last.exporter = .ok desc ∧ Exact shim desc ∧
        Same shim (ofMQDescriptor last.importer desc) := by
  obtain ⟨shim, handle, mDesc, known, portable⟩ :=
    construct_portable exportable pos constructed valid
  refine ⟨shim, handle, mDesc, known, ?_⟩
  intro path last creates
  rw [List.forall_mem_append] at creates
  obtain ⟨shim', reached, same⟩ := portable.hops known creates.1
  obtain ⟨handle₀, handle', known₀, known', fds, ints⟩ := same.handle
  cases known.symm.trans known₀
  have final := List.forall_mem_singleton.mp creates.2
  rw [← fds, ← ints] at final
  obtain ⟨desc, exported, exact_, same'⟩ :=
    (same.portable portable).hop known' last.exporter last.importer final
  exact ⟨withDesc (some shim'), desc, by rw [reached]; rfl, exported, same.exact exact_,
    same.trans same'⟩

/-- Two hops of a queue of ten elements with an event flag word. -/
theorem hops_same_ten : ∃ shim mq' desc,
    shim.mGrantors = [⟨0, 0, 0, 8⟩, ⟨0, 0, 8, 8⟩, ⟨0, 0, 16, 40⟩, ⟨0, 0, 56, 4⟩] ∧
      (hops [⟨.generous, .generous⟩] shim).map (fun shim' => withDesc (some shim')) = .ok mq' ∧
      mq'.dupeDesc .generous = .ok desc ∧ Same shim (ofMQDescriptor .generous desc) := by
  let shim : AidlMQDescriptorShim :=
    ⟨[⟨0, 0, 0, 8⟩, ⟨0, 0, 8, 8⟩, ⟨0, 0, 16, 40⟩, ⟨0, 0, 56, 4⟩], some ⟨[3], []⟩, 4, 1⟩
  let mq : MessageQueueBase :=
    ⟨shim, some 0x10010, some 0x10000, some 0x10008, some 0x10038, some 0, some 0⟩
  have constructed : (Source.numElements 10 true (-1) 0).construct .generous
      .kSynchronizedReadWrite 4 = .ok mq := by decide
  obtain ⟨_, _, mDesc, _, arrives⟩ :=
    hops_same (.numElements 10 true (-1) 0) mq rfl (by decide) constructed rfl
  cases mDesc
  obtain ⟨mq', desc, reached, exported, -, same⟩ :=
    arrives [⟨.generous, .generous⟩] ⟨.generous, .generous⟩ (fun _ member => by
      simp only [List.cons_append, List.nil_append, List.mem_cons, List.not_mem_nil, or_false,
        or_self] at member
      rw [member]
      rfl)
  exact ⟨shim, mq', desc, rfl, reached, exported, same⟩

end Fmq
