import Fmq.Model.NamedSharing
import Fmq.Properties.OneFifo
import Fmq.Properties.Rebuilding

/-!
# All objects of a named queue are one bounded FIFO

The text of a descriptor has the layout of the queue and the name of its region, and nothing else
of it is used. So an object that is made from the text, in any process, opens the same region and
finds the counters and the ring in the same places.
-/
namespace Fmq.Msvc

open BoundedFifo Memory SharedFiles Transition details MessageQueueBase World

variable {F : Type} {region : String → F} {json : JsonLibrary} {g : Geometry}

/-- The descriptor of a queue of this geometry. -/
def queueDesc (g : Geometry) (grantors : List GrantorDescriptor) (handle : NativeHandle) :
    Fmq.AidlMQDescriptorShim :=
  ⟨grantors, some handle, (sizeofT g).toUInt32, MQFlavor.kSynchronizedReadWrite.value⟩

/-- An object over the region of this name. -/
structure NamedEndpoint.Backed (json : JsonLibrary) (g : Geometry) (name : String)
    (grantors : List GrantorDescriptor) (e : NamedEndpoint F region) : Prop where
  backed : (e.toEndpoint json).Backed g (region name) grantors
  mDesc : ∃ h, e.mq.mDesc = some (queueDesc g grantors ⟨[h], []⟩)
  mName : e.mq.mName = name

variable {bytes : UInt64} {evFlagOffset : UInt32} {configureEventFlagWord resetPointers : Bool}
  {name : String}

theorem setData_single {handle : NativeHandle} (fds : handle.fds.length = 1)
    (ints : handle.ints.length = 0) (value : Int32) :
    setData value handle = .ok ⟨[value], []⟩ := by
  obtain ⟨fds', ints'⟩ := handle
  obtain ⟨h, rfl⟩ := List.length_eq_one_iff.mp fds
  obtain rfl := List.length_eq_zero_iff.mp ints
  rfl

/-- `initMemory` on such a descriptor, with a handle that is null or denotes the region. -/
theorem named_backed (fitting : Fitting g bytes evFlagOffset configureEventFlagWord)
    (p : NamedProcess F region) {h : Int32} {mq : MessageQueueBase}
    (opened : h = 0 ∨ h ≠ INVALID_HANDLE_VALUE ∧ p.file h = region name)
    (message : (sizeofT g).toNat < 2 ^ 31)
    (done : initMemory (p.windows.platform json).base .kSynchronizedReadWrite (sizeofT g)
      (queueDesc g (ownGrantors bytes evFlagOffset configureEventFlagWord) ⟨[h], []⟩)
      resetPointers = .ok mq) (valid : mq.isValid = true) :
    NamedEndpoint.Backed json g name (ownGrantors bytes evFlagOffset configureEventFlagWord)
      ⟨p, sizeofT g, ⟨mq, name⟩⟩ ∧
      ∀ σ, mq.attach σ = if resetPointers = true then .reset σ.ring else σ := by
  have file : h ≠ INVALID_HANDLE_VALUE := by
    rcases opened with rfl | ⟨known, -⟩
    · decide
    · exact known
  have mapsFile : MapsFile (p.windows.platform json).base p.space h (p.file h) :=
    fun _ _ _ mapped => (p.maps json file mapped).2
  -- The counters are mapped, so the handle is not null.
  have denotes : p.file h = region name := by
    obtain ⟨mappedRead, -, -⟩ := initMemory_pointers done valid
    unfold MessageQueueBase.isValid at valid
    rw [Bool.and_eq_true, Bool.and_eq_true] at valid
    obtain ⟨readPtr, knownRead⟩ := Option.isSome_iff_exists.mp valid.1.2
    rw [knownRead] at mappedRead
    have first : (queueDesc g (ownGrantors bytes evFlagOffset configureEventFlagWord)
        ⟨[h], []⟩).mGrantors[READPTRPOS]? = some ⟨0, 0, 0, 8⟩ := by
      cases configureEventFlagWord <;> rfl
    obtain ⟨start, mapped, -⟩ :=
      mapGrantorDescr_mapped rfl first (data_zero rfl) mappedRead
    have open_ := (p.maps json file mapped).1
    exact (opened.resolve_left open_).2
  have portable : Portable (queueDesc g (ownGrantors bytes evFlagOffset configureEventFlagWord)
      ⟨[h], []⟩) := by
    refine ⟨?_, toNat_flavor _, portable_own fitting.bound fitting.last⟩
    show (sizeofT g).toUInt32.toNat < 2 ^ 31
    rw [UInt64.toNat_toUInt32]
    omega
  have backed := fitting.backed (p.toProcess json) done valid rfl rfl mapsFile rfl portable
  have same : (p.toProcess json).file h = region name := denotes
  rw [same] at backed
  refine ⟨⟨backed, ⟨h, ?_⟩, rfl⟩, attach_stored done valid⟩
  exact (initMemory_valid done valid).mDesc

theorem regionName_ne (name : String) (rand : Int32) : regionName name rand ≠ "" := by
  unfold regionName
  split
  · exact of_decide_eq_true (by rfl)
  · assumption

/-- The first object. -/
theorem named_created {p : NamedProcess F region} {rand : Int32} {mq : AidlMessageQueue}
    (constructed :
      (Origin.numElements (.ofNat g.N) configureEventFlagWord (-1) 0 name rand).construct
        (p.windows.platform json) .kSynchronizedReadWrite (sizeofT g) = .ok mq)
    (valid : mq.isValid = true) :
    (sizeofT g).toNat < 2 ^ 31 ∧ ∃ bytes evFlagOffset,
      Fitting g bytes evFlagOffset configureEventFlagWord ∧
      NamedEndpoint.Backed json g (regionName name rand)
        (ownGrantors bytes evFlagOffset configureEventFlagWord) ⟨p, sizeofT g, mq⟩ ∧
      ∀ σ, mq.attach σ = .reset σ.ring := by
  have pos : sizeofT g ≠ 0 := g.sizeofT_ne_zero .kSynchronizedReadWrite
  obtain ⟨mq, done, constructed⟩ := bind_eq_ok.mp constructed
  cases constructed
  unfold ofNumElements at done
  rw [div_ok _ pos] at done
  obtain ⟨most, quotient, done⟩ := bind_eq_ok.mp done
  obtain ⟨-, done⟩ := not_refused done valid
  obtain ⟨-, done⟩ := not_refused done valid
  obtain ⟨kAshmemSizePageAligned, -, done⟩ := bind_eq_ok.mp done
  dsimp only at done
  split at done
  next =>
    cases done
    cases valid
  next mqHandle allocated =>
    obtain ⟨fds, ints⟩ := p.handle_counts _ _ _ allocated
    rw [setData_single fds ints] at done
    obtain ⟨handle, set_, done⟩ := bind_eq_ok.mp done
    cases set_
    rw [if_neg (by decide)] at done
    split at done
    next => cases done
    next =>
      obtain ⟨desc, built, done⟩ := bind_eq_ok.mp done
      have initialized := initMemory_valid done valid
      obtain ⟨bound, message, evFlagOffset, last, rfl⟩ :=
        AidlMQDescriptorShim.ofBufferSize_eq built initialized.grantors
      have size : (.ofNat g.N * sizeofT g : UInt64).toNat = g.N * g.s := by
        rw [UInt64.toNat_mul, UInt64.toNat_ofNat_of_lt' g.N_lt, UInt64.toNat_ofNat_of_lt' g.s_lt]
        exact Nat.mod_eq_of_lt g.fits
      have fitting : Fitting g (.ofNat g.N * sizeofT g) evFlagOffset configureEventFlagWord :=
        ⟨size, bound, last⟩
      obtain ⟨backed, stored⟩ :=
        named_backed fitting p (p.region_created (regionName name rand) _) message done valid
      exact ⟨message, _, evFlagOffset, fitting, backed, stored⟩

/-- The text gives back the layout and the name, with a handle of the same shape. -/
theorem ofMQDescriptor_text (w : Windows) (lawful : json.Lawful) {shim : AidlMQDescriptorShim}
    {handle : NativeHandle} (present : shim.mHandle = some handle) (carried : shim.Carried json)
    {received : aidl.MQDescriptor} (text : received.json_decriptor = shim.toString json) :
    AidlMQDescriptorShim.ofMQDescriptor (w.platform json) received =
      { shim with mHandle := w.nativeHandleCreate handle.numFds handle.numInts } := by
  unfold AidlMQDescriptorShim.Carried at carried
  rw [present] at carried
  obtain ⟨raw, parsed, holds⟩ := SystemPorting.parse_generateString lawful carried
  have read := holds.fromStringHidl lawful parsed w.nativeHandleCreate
    ⟨[], none, received.quantum.toUInt32, received.flags.toUInt32, ""⟩
  simp only [SystemPorting.countsOf, Int32.toInt32_toUInt32] at read
  unfold AidlMQDescriptorShim.toString at text
  rw [present] at text
  have decoded : AidlMQDescriptorShim.ofMQDescriptor (w.platform json) received =
      (fun out : SystemPorting.Outputs =>
        (⟨⟨out.grantors, out.handle, out.quantum, out.flags⟩, out.name⟩ : AidlMQDescriptorShim))
        (SystemPorting.fromStringHidl json w.nativeHandleCreate received.json_decriptor
          ⟨[], none, received.quantum.toUInt32, received.flags.toUInt32, ""⟩) := rfl
  rw [decoded, text, read]

/-- A copy of a handle with one element has one element. -/
theorem copy_single (p : NamedProcess F region) {desc copied : AidlMQDescriptorShim}
    {handle : NativeHandle} (present : desc.mHandle = some handle)
    (fds : handle.fds.length = 1) (ints : handle.ints.length = 0)
    (copy : desc.copy (p.windows.platform json) = .ok copied) :
    ∃ h, copied = { desc with mHandle := some ⟨[h], []⟩ } := by
  obtain ⟨fds', ints'⟩ := handle
  obtain ⟨h, rfl⟩ := List.length_eq_one_iff.mp fds
  obtain rfl := List.length_eq_zero_iff.mp ints
  unfold AidlMQDescriptorShim.copy at copy
  rw [present] at copy
  dsimp only at copy
  split at copy
  next => cases copy
  next created allocated =>
    obtain ⟨-, none_⟩ := p.handle_counts _ _ _ allocated
    have empty : created.ints = [] := List.length_eq_zero_iff.mp none_
    cases copy
    rw [empty]
    exact ⟨h, rfl⟩

/-- An object from the exported text of another one. -/
theorem named_attached
    (fitting : Fitting g bytes evFlagOffset configureEventFlagWord) (lawful : json.Lawful)
    (carried : ∀ h, AidlMQDescriptorShim.Carried json
      ⟨queueDesc g (ownGrantors bytes evFlagOffset configureEventFlagWord) ⟨[h], []⟩, name⟩)
    (named : name ≠ "") (message : (sizeofT g).toNat < 2 ^ 31) {e : NamedEndpoint F region}
    (backed : e.Backed json g name (ownGrantors bytes evFlagOffset configureEventFlagWord))
    {p : NamedProcess F region} {sent : aidl.NamedMQDescriptor} {received : aidl.MQDescriptor}
    {mq : AidlMessageQueue}
    (exported : e.mq.dupeDesc (e.process.windows.platform json) = .ok sent)
    (text : received.json_decriptor = sent.json_decriptor)
    (constructed : (Origin.mqDescriptor received resetPointers).construct
      (p.windows.platform json) .kSynchronizedReadWrite (sizeofT g) = .ok mq)
    (valid : mq.isValid = true) :
    NamedEndpoint.Backed json g name (ownGrantors bytes evFlagOffset configureEventFlagWord)
        ⟨p, sizeofT g, mq⟩ ∧
      ∀ σ, mq.attach σ = if resetPointers = true then .reset σ.ring else σ := by
  obtain ⟨h, mDesc⟩ := backed.mDesc
  have shim : e.mq.getDesc = some
      ⟨queueDesc g (ownGrantors bytes evFlagOffset configureEventFlagWord) ⟨[h], []⟩, name⟩ := by
    unfold AidlMessageQueue.getDesc
    rw [mDesc, backed.mName]
    rfl
  unfold AidlMessageQueue.dupeDesc at exported
  rw [shim] at exported
  cases exported
  have arrived := ofMQDescriptor_text p.windows lawful rfl (carried h) text
  obtain ⟨mq, done, constructed⟩ := bind_eq_ok.mp constructed
  cases constructed
  unfold ofMQDescriptor at done
  rw [arrived] at done ⊢
  unfold ofDescriptor at done
  obtain ⟨-, done⟩ := not_refused done valid
  obtain ⟨copied, copy, done⟩ := bind_eq_ok.mp done
  cases allocated : p.windows.nativeHandleCreate (NativeHandle.numFds ⟨[h], []⟩)
      (NativeHandle.numInts ⟨[h], []⟩) with
  | none =>
    -- Without memory for the handle the access to its first element would fail.
    rw [allocated] at copy
    cases copy
    cases done
  | some created =>
    rw [allocated] at copy
    obtain ⟨fds, ints⟩ := p.handle_counts _ _ _ allocated
    obtain ⟨h', rfl⟩ := copy_single p rfl fds ints copy
    have opened := p.region_opened name
    have region_name : p.windows.systemPortingOpenShmem name =
        p.windows.openFileMapping (some name) := by
      unfold Windows.systemPortingOpenShmem
      rw [if_neg named]
    rw [← region_name] at opened
    exact named_backed fitting p opened message done valid

/-- The document does not depend on the value of the handle. -/
theorem NamedEndpoint.Backed.carried {e : NamedEndpoint F region}
    {grantors : List GrantorDescriptor} (backed : e.Backed json g name grantors)
    (carried : ∀ shim, e.mq.getDesc = some shim → shim.Carried json) (h : Int32) :
    AidlMQDescriptorShim.Carried json ⟨queueDesc g grantors ⟨[h], []⟩, name⟩ := by
  obtain ⟨h', mDesc⟩ := backed.mDesc
  refine carried ⟨queueDesc g grantors ⟨[h'], []⟩, name⟩ ?_
  unfold AidlMessageQueue.getDesc
  rw [mDesc, backed.mName]
  rfl

/-! ## Runs -/

variable [DecidableEq F]

def NamedWorld.toWorld (json : JsonLibrary) (w : NamedWorld F region) : World F :=
  ⟨w.files, w.endpoints.map (·.toEndpoint json)⟩

theorem NamedWorld.Step.shared
    (fitting : Fitting g bytes evFlagOffset configureEventFlagWord) (lawful : json.Lawful)
    (carried : ∀ h, AidlMQDescriptorShim.Carried json
      ⟨queueDesc g (ownGrantors bytes evFlagOffset configureEventFlagWord) ⟨[h], []⟩, name⟩)
    (named : name ≠ "") (message : (sizeofT g).toNat < 2 ^ 31) {w w' : NamedWorld F region}
    {event : WorldEvent g.s} (backed : ∀ e ∈ w.endpoints,
      e.Backed json g name (ownGrantors bytes evFlagOffset configureEventFlagWord))
    (taken : NamedWorld.Step json g w event w') :
    World.Shared g (region name) (ownGrantors bytes evFlagOffset configureEventFlagWord)
        (w.toWorld json) event (w'.toWorld json) ∧
      ∀ e ∈ w'.endpoints,
        e.Backed json g name (ownGrantors bytes evFlagOffset configureEventFlagWord) := by
  cases taken with
  | call member done => exact ⟨.call (List.mem_map_of_mem member) done, backed⟩
  | attach member exported text constructed valid =>
    obtain ⟨new, stored⟩ := named_attached fitting lawful carried named message
      (backed _ member) exported text constructed valid
    refine ⟨?_, List.forall_mem_append.mpr ⟨backed, List.forall_mem_singleton.mpr new⟩⟩
    unfold NamedWorld.toWorld
    rw [List.map_append]
    exact .attach new.backed stored

theorem NamedWorld.Created.run (lawful : json.Lawful) {w w' : NamedWorld F region}
    {events : List (WorldEvent g.s)} (created : NamedWorld.Created json g w)
    (carried : ∀ e ∈ w.endpoints, ∀ shim, e.mq.getDesc = some shim → shim.Carried json)
    (run : Run (NamedWorld.Step json g) w events w')
    (callable : ∀ op reply, .call op reply ∈ events → Callable op)
    (bound : g.N * g.s ∣ 2 ^ 64 ∨ writtenBy events * g.s < 2 ^ 64) :
    ∃ name grantors items total, oneFifo g.N [] events = some items ∧
      (w'.toWorld json).Inv g (region name) grantors items total ∧
      Untouched g (region name) w.files w'.files := by
  cases created with
  | @created p configureEventFlagWord name rand mq files constructed valid =>
    obtain ⟨message, bytes, evFlagOffset, fitting, backed, stored⟩ :=
      named_created constructed valid
    have carried_ := backed.carried (carried _ List.mem_cons_self)
    have inv := backed.backed.inv stored files
    obtain ⟨run', -⟩ := run.image (NamedWorld.toWorld json)
      (fun _ _ _ backed taken => taken.shared fitting lawful carried_ (regionName_ne name rand)
        message backed) (List.forall_mem_singleton.mpr backed)
    obtain ⟨items, total, fifo, inv', untouched⟩ := World.Inv.run run' callable inv
      (by rwa [Nat.zero_add])
    exact ⟨_, _, items, total, fifo, inv', untouched⟩

/-- Whole calls in all processes that share a named queue, and the constructors from its text in
between, act on one bounded FIFO. All objects see the same counters and messages, which are in one
region, and no other byte of any region changes. -/
theorem run_oneNamedFifo (lawful : json.Lawful) {w w' : NamedWorld F region}
    {events : List (WorldEvent g.s)} (created : NamedWorld.Created json g w)
    (carried : ∀ e ∈ w.endpoints, ∀ shim, e.mq.getDesc = some shim → shim.Carried json)
    (run : Run (NamedWorld.Step json g) w events w')
    (callable : ∀ op reply, .call op reply ∈ events → Callable op)
    (bound : g.N * g.s ∣ 2 ^ 64 ∨ writtenBy events * g.s < 2 ^ 64) :
    ∃ name items σ, oneFifo g.N [] events = some items ∧
      (w'.toWorld json).Common g (region name) items σ ∧
      Untouched g (region name) w.files w'.files := by
  obtain ⟨name, _, items, _, fifo, inv, untouched⟩ :=
    created.run lawful carried run callable bound
  exact ⟨name, items, _, fifo, inv.common, untouched⟩

/-! ## A queue of three bytes -/

/-- The document of the queue. -/
def threeBytes : JsonTree :=
  .member SystemPorting.GrantorDescriptor_size_key (.uint 3) <|
  .member SystemPorting.GrantorDescriptor_key
    (.element (grantorTree 0 8) <| .element (grantorTree 8 8) <|
      .element (grantorTree 16 3) .nil) <|
  .member SystemPorting.quantum_key (.uint 1) <|
  .member SystemPorting.flags_key (.uint 1) <|
  .member SystemPorting.native_handle_t_numFds_key (.uint 1) <|
  .member SystemPorting.native_handle_t_numInts_key (.uint 0) <|
  .member SystemPorting.name_key (.string "q") .empty

def threeBytesText : String :=
  "\x7b\n \"GrantorDescriptor_key\" : \n [" ++ grantorText "0" "8" ++ "," ++
  grantorText "8" "8" ++ "," ++ grantorText "16" "3" ++
  "\n ],\n \"GrantorDescriptor_size_key\" : 3,\n \"flags_key\" : 1,\n \"name_key\" : \"q\"," ++
  "\n \"numFds_key\" : 1,\n \"numInts_key\" : 0,\n \"quantum_key\" : 1\n\x7d"

def threeBytesLibrary : JsonLibrary := JsonTree.library [(threeBytesText, threeBytes)]

/-- A process with one region, whose beginning it maps. -/
def singleNamedProcess : NamedProcess Unit fun _ => () where
  windows := {
    nativeHandleCreate := NativeHandle.create
    ashmemCreateRegion := fun _ _ => 3
    openFileMapping := fun _ => 3
    createFileMapping := fun _ _ => 0
    duplicateHandle := id
    mapViewOfFileEx := fun _ _ offset _ => if offset = 0 then some 0x10000 else none
    newDescriptor := true
    newCounter := none }
  file _ := ()
  space a := ((), a - 0x10000)
  handle_counts numFds numInts created allocated := by
    have allocated : NativeHandle.create numFds numInts = some created := allocated
    unfold NativeHandle.create at allocated
    split at allocated
    · cases allocated
    · cases allocated
      simp only [List.length_replicate]
      exact ⟨rfl, rfl⟩
  region_created _ _ := .inr ⟨show (3 : Int32) ≠ -1 by decide, rfl⟩
  region_opened _ := .inr ⟨show (3 : Int32) ≠ -1 by decide, rfl⟩
  handle_duplicated _ := .inr rfl
  view_maps _ _ offset _ address mapped := by
    intro i _
    dsimp only at mapped
    split at mapped
    next zero =>
      cases mapped
      subst zero
      exact congrArg (Prod.mk ()) ((Nat.add_sub_cancel_left _ _).trans (Nat.zero_add i).symm)
    next => cases mapped

def threeBytesParcelable : aidl.MQDescriptor :=
  ⟨⟨[⟨0, 0, 8⟩, ⟨0, 8, 8⟩, ⟨0, 16, 3⟩], ⟨[3], []⟩, 1, 1⟩, threeBytesText⟩

set_option maxRecDepth 20000 in
/-- The first object, and one from its text. -/
theorem exists_attached : ∃ mq,
    (Origin.numElements (.ofNat Geometry.three.N) false (-1) 0 "q" 0).construct
      (singleNamedProcess.windows.platform threeBytesLibrary) .kSynchronizedReadWrite
      (sizeofT .three) = .ok mq ∧ mq.isValid = true ∧
    (∀ shim, mq.getDesc = some shim → shim.Carried threeBytesLibrary) ∧
    ∃ mq' sent, mq.dupeDesc (singleNamedProcess.windows.platform threeBytesLibrary) = .ok sent ∧
      sent.toParcelable = threeBytesParcelable ∧
      (Origin.mqDescriptor threeBytesParcelable false).construct
        (singleNamedProcess.windows.platform threeBytesLibrary) .kSynchronizedReadWrite
        (sizeofT .three) = .ok mq' ∧ mq'.isValid = true := by
  refine ⟨_, rfl, rfl, ?_, _, _, rfl, rfl, rfl, rfl⟩
  intro shim known v document
  cases known
  have written : some threeBytes = some v := document
  cases written
  exact JsonTree.roundTrips_singleton _ _

theorem run_oneNamedFifo_three : ∃ w w' : NamedWorld Unit fun _ => (),
    NamedWorld.Created threeBytesLibrary .three w ∧
    Run (NamedWorld.Step threeBytesLibrary .three) w writtenThenRead w' ∧
    ∃ (name : String) (items : List _) (σ : Storage),
      oneFifo Geometry.three.N [] writtenThenRead = some items ∧
      (w'.toWorld threeBytesLibrary).Common .three ((fun _ => ()) name) items σ ∧
      Untouched .three ((fun _ => ()) name) w.files w'.files := by
  obtain ⟨mq, constructed, valid, carried, mq', sent, exported, same, attached, valid'⟩ :=
    exists_attached
  rw [← same] at attached
  have lawful : threeBytesLibrary.Lawful := JsonTree.lawful _
  have created : NamedWorld.Created threeBytesLibrary .three
      ⟨((⟨singleNamedProcess, sizeofT .three, mq⟩ : NamedEndpoint Unit _).toEndpoint
        threeBytesLibrary).opened fun _ _ => 0, [_]⟩ := .created constructed valid
  obtain ⟨message, bytes, evFlagOffset, fitting, backed, stored⟩ :=
    named_created constructed valid
  obtain ⟨backed', stored'⟩ := named_attached fitting lawful (backed.carried carried)
    (regionName_ne "q" 0) message backed exported rfl attached valid'
  obtain ⟨_, _, written, read⟩ := (World.Inv.attach (backed.backed.inv stored fun _ _ => 0)
    backed'.backed stored').1.writtenThenRead List.mem_cons_self
      (List.mem_cons_of_mem _ List.mem_cons_self)
  have run : Run (NamedWorld.Step threeBytesLibrary .three)
      ⟨_, [⟨singleNamedProcess, sizeofT .three, mq⟩]⟩ writtenThenRead _ :=
    Run.cons (NamedWorld.Step.attach List.mem_cons_self exported rfl attached valid')
      (Run.cons (NamedWorld.Step.call List.mem_cons_self written) (Run.cons
        (NamedWorld.Step.call (List.mem_cons_of_mem _ List.mem_cons_self) read) (.done _)))
  exact ⟨_, _, created, run, run_oneNamedFifo lawful created
    (List.forall_mem_singleton.mpr carried) run callable_writtenThenRead (Or.inr (by decide))⟩

end Fmq.Msvc
