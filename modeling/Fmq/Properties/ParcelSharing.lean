import Fmq.Model.ParcelSharing
import Fmq.Properties.NamedSharing
import Fmq.Properties.Parcel

/-!
# One queue whose descriptors go through parcels

Wherever a descriptor has come from and however often it has been passed on, the objects constructed
from it are objects of the same queue.
-/
namespace Fmq

open BoundedFifo Memory SharedFiles SizedRecords Transition details MessageQueueBase World

variable {F C : Type} {g : Geometry}

/-! ## Descriptors and their objects -/

/-- Every descriptor that a process has comes from one of the objects. -/
def HeldFrom {E P D : Type} (Comes : E → P → D → Prop) (endpoints : List E)
    (descriptors : List (P × D)) : Prop :=
  ∀ p desc, (p, desc) ∈ descriptors → ∃ e ∈ endpoints, Comes e p desc

section

variable {E P D : Type} {Comes : E → P → D → Prop} {endpoints : List E}
variable {descriptors : List (P × D)}

theorem HeldFrom.nil : HeldFrom Comes endpoints [] :=
  fun _ _ member => absurd member List.not_mem_nil

theorem HeldFrom.grow (held : HeldFrom Comes endpoints descriptors) (new : List E) :
    HeldFrom Comes (endpoints ++ new) descriptors := by
  intro p desc member
  obtain ⟨e, present, comes⟩ := held p desc member
  exact ⟨e, List.mem_append_left _ present, comes⟩

theorem HeldFrom.append (held : HeldFrom Comes endpoints descriptors) {p : P} {desc : D} {e : E}
    (present : e ∈ endpoints) (comes : Comes e p desc) :
    HeldFrom Comes endpoints (descriptors ++ [(p, desc)]) := by
  intro p' desc' member
  rcases List.mem_append.mp member with old | last
  · exact held p' desc' old
  · cases List.mem_singleton.mp last
    exact ⟨e, present, comes⟩

end

/-- The `dupeDesc()` of an object, with file descriptors of the same files. -/
def Endpoint.Origin (e : Endpoint F) (p : Process F) (desc : aidl.MQDescriptor) : Prop :=
  ∃ sent fds, e.mq.dupeDesc e.process.os = .ok sent ∧ Received e.process p sent.handle.fds fds ∧
    desc = { sent with handle := ⟨fds, sent.handle.ints⟩ }

variable {ndk : Process F → Process F → Ndk C}

/-- A parcel carries a descriptor of an object to a descriptor of the same object. -/
theorem Endpoint.Origin.send {e : Endpoint F} {sender receiver : Process F}
    {sent this received : aidl.MQDescriptor} (origin : e.Origin sender sent)
    (lawful : (ndk sender receiver).Lawful (Received sender receiver)) {b b' : Buffer C}
    {data : Mem C} {position : Nat}
    (written : aidl.MQDescriptor.writeToParcel (ndk sender receiver) sent b = (0, b'))
    (agrees : Agrees b'.data data b.position b'.position)
    (read : aidl.MQDescriptor.readFromParcel (ndk sender receiver) this ⟨data, b.position⟩ =
      (0, received, position)) : e.Origin receiver received := by
  obtain ⟨desc, fds, exported, there, rfl⟩ := origin
  obtain ⟨_, again, carried⟩ :=
    (aidl.MQDescriptor.matching lawful).holds written data agrees this
  cases read.symm.trans again
  exact ⟨desc, received.handle.fds, exported, carried.handle.fds.trans there,
    carried.eq_with_fds⟩

theorem ParcelWorld.Step.project [DecidableEq F] {w w' : ParcelWorld F} {event : ParcelEvent g.s}
    (lawful : ∀ sender receiver, (ndk sender receiver).Lawful (Received sender receiver))
    (held : HeldFrom Endpoint.Origin w.endpoints w.descriptors)
    (taken : ParcelWorld.Step ndk g w event w') :
    (∀ event', event.onQueue = some event' → World.Step g w.toWorld event' w'.toWorld) ∧
      (event.onQueue = none → w'.toWorld = w.toWorld) ∧
      HeldFrom Endpoint.Origin w'.endpoints w'.descriptors := by
  cases taken with
  | call member done =>
    refine ⟨?_, nofun, held⟩
    rintro _ ⟨rfl⟩
    exact .call member done
  | @dupeDesc e desc member exported =>
    exact ⟨nofun, fun _ => rfl,
      held.append member ⟨desc, desc.handle.fds, exported, rfl, rfl⟩⟩
  | send member written agrees read =>
    obtain ⟨e, present, origin⟩ := held _ _ member
    exact ⟨nofun, fun _ => rfl,
      held.append present (origin.send (lawful _ _) written agrees read)⟩
  | attach member constructed valid =>
    refine ⟨?_, nofun, held.grow _⟩
    rintro _ ⟨rfl⟩
    obtain ⟨e, present, sent, fds, exported, received, rfl⟩ := held _ _ member
    exact .attach present exported received constructed valid

theorem callable_onQueue {events : List (ParcelEvent g.s)}
    (callable : ∀ op reply, .queue (.call op reply) ∈ events → Callable op)
    (op : Op (Vector UInt8 g.s)) (reply : Reply (List UInt8))
    (member : .call op reply ∈ events.filterMap ParcelEvent.onQueue) : Callable op := by
  obtain ⟨event, present, same⟩ := List.mem_filterMap.mp member
  cases event with
  | queue event =>
    cases same
    exact callable op reply present
  | dupeDesc => cases same
  | send => cases same

/-- Whole calls in all processes that have got descriptors of a queue, the ways of the descriptors
in parcels and the constructors from them act on one bounded FIFO. -/
theorem run_oneParcelFifo [DecidableEq F] {w w' : ParcelWorld F} {events : List (ParcelEvent g.s)}
    (lawful : ∀ sender receiver, (ndk sender receiver).Lawful (Received sender receiver))
    (created : Created g w.toWorld) (none : w.descriptors = [])
    (run : Run (ParcelWorld.Step ndk g) w events w')
    (callable : ∀ op reply, .queue (.call op reply) ∈ events → Callable op)
    (bound : g.N * g.s ∣ 2 ^ 64 ∨
      writtenBy (events.filterMap ParcelEvent.onQueue) * g.s < 2 ^ 64) :
    ∃ f items σ, oneFifo g.N [] (events.filterMap ParcelEvent.onQueue) = some items ∧
      w'.toWorld.Common g f items σ ∧ Untouched g f w.files w'.files := by
  have held : HeldFrom Endpoint.Origin w.endpoints w.descriptors := none ▸ .nil
  obtain ⟨run', -⟩ := run.project ParcelWorld.toWorld ParcelEvent.onQueue
    (fun _ _ _ held taken => taken.project lawful held) held
  obtain ⟨f, _, items, _, fifo, inv, untouched⟩ :=
    created.run run' (callable_onQueue callable) bound
  exact ⟨f, items, _, fifo, inv.common, untouched⟩

/-- The descriptor of the first object is sent before an object is constructed from it. -/
def sentThenRead : List (ParcelEvent Geometry.three.s) :=
  .dupeDesc :: .send :: writtenThenRead.map .queue

theorem callable_sentThenRead (op : Op (Vector UInt8 Geometry.three.s)) (reply : Reply (List UInt8))
    (member : .queue (.call op reply) ∈ sentThenRead) : Callable op := by
  rcases List.mem_cons.mp member with event | member
  · cases event
  rcases List.mem_cons.mp member with event | member
  · cases event
  obtain ⟨event, present, same⟩ := List.mem_map.mp member
  cases same
  exact callable_writtenThenRead op reply present

/-- All descriptors of the only file denote the same. -/
theorem Ndk.bytes_received (sender receiver : Process Unit) :
    Ndk.bytes.Lawful (Received sender receiver) :=
  { Ndk.bytes_lawful with
    fileDescriptorVector := Ndk.bytes_lawful.fileDescriptorVector.mono fun fds _ fds' same => by
      subst same
      exact List.map_congr_left fun _ _ => rfl }

theorem run_oneParcelFifo_three : ∃ w w' : ParcelWorld Unit,
    Created .three w.toWorld ∧ w.descriptors = [] ∧
    Run (ParcelWorld.Step (fun _ _ => Ndk.bytes) .three) w sentThenRead w' ∧
    ∃ f items σ,
      oneFifo Geometry.three.N [] (sentThenRead.filterMap ParcelEvent.onQueue) = some items ∧
      w'.toWorld.Common .three f items σ ∧ Untouched .three f w.files w'.files := by
  obtain ⟨mq, constructed, valid, mq', desc, exported, attached, valid', sendable⟩ :
      ∃ mq, (Source.numElements (.ofNat Geometry.three.N) true (-1) 0).construct
          singleProcess.os .kSynchronizedReadWrite (sizeofT .three) = .ok mq ∧
        mq.isValid = true ∧
        ∃ mq' desc, mq.dupeDesc singleProcess.os = .ok desc ∧
          (Source.mqDescriptor desc false).construct singleProcess.os .kSynchronizedReadWrite
            (sizeofT .three) = .ok mq' ∧
          mq'.isValid = true ∧
          (aidl.MQDescriptor.writeToParcel .bytes desc ⟨fun _ => 0, 0⟩).1 = 0 :=
    ⟨_, rfl, rfl, _, _, rfl, rfl, rfl, by decide +kernel⟩
  have created : Created .three
      ⟨(⟨singleProcess, sizeofT .three, mq⟩ : Endpoint Unit).opened fun _ _ => 0, [_]⟩ :=
    .created constructed valid
  obtain ⟨_, written⟩ := exists_written sendable
  obtain ⟨received, read, carried⟩ := (aidl.MQDescriptor.matching Ndk.bytes_lawful).holds written
    _ (fun _ _ _ => rfl) Ndk.emptyDesc
  have same : received = desc := by
    rw [carried.eq_with_fds, carried.handle.fds]
  subst same
  obtain ⟨_, _, _, _, fitting, inv⟩ := created.inv
  obtain ⟨backed, stored⟩ :=
    fitting.backed_attached (inv.backed _ List.mem_cons_self) exported rfl attached valid'
  obtain ⟨_, _, wrote, took⟩ := (inv.attach backed stored).1.writtenThenRead
    List.mem_cons_self (List.mem_cons_of_mem _ List.mem_cons_self)
  have member : (⟨singleProcess, sizeofT .three, mq⟩ : Endpoint Unit) ∈
      [(⟨singleProcess, sizeofT .three, mq⟩ : Endpoint Unit)] := List.mem_cons_self
  have send : ∀ w : World Unit, ParcelWorld.Step (fun _ _ => Ndk.bytes) .three
      ⟨w, [(singleProcess, received)]⟩ .send
      ⟨w, [(singleProcess, received), (singleProcess, received)]⟩ :=
    fun w => .send List.mem_cons_self written (fun _ _ _ => rfl) read
  have run : Run (ParcelWorld.Step (fun _ _ => Ndk.bytes) .three)
      ⟨⟨_, [⟨singleProcess, sizeofT .three, mq⟩]⟩, []⟩ sentThenRead _ :=
    Run.cons (.dupeDesc member exported) <| Run.cons (send _) <|
      Run.cons (.attach (List.mem_cons_of_mem _ List.mem_cons_self) attached valid') <|
      Run.cons (.call List.mem_cons_self wrote) <|
      Run.cons (.call (List.mem_cons_of_mem _ List.mem_cons_self) took) (.done _)
  exact ⟨_, _, created, rfl, run, run_oneParcelFifo Ndk.bytes_received created rfl run
    callable_sentThenRead (Or.inr (by decide))⟩

/-! ## The MSVC build -/

namespace Msvc

variable {region : String → F} {json : JsonLibrary}
variable {ndk : NamedProcess F region → NamedProcess F region → Ndk C}
variable {SameFiles : List Int32 → List Int32 → Prop}

/-- A descriptor with the text of the `dupeDesc()` of an object. -/
def NamedEndpoint.Origin (json : JsonLibrary) (e : NamedEndpoint F region)
    (_ : NamedProcess F region) (desc : aidl.MQDescriptor) : Prop :=
  ∃ sent, e.mq.dupeDesc (e.process.windows.platform json) = .ok sent ∧
    desc.json_decriptor = sent.json_decriptor

theorem NamedParcelWorld.Step.project [DecidableEq F] {w w' : NamedParcelWorld F region}
    {event : ParcelEvent g.s} (lawful : ∀ sender receiver, (ndk sender receiver).Lawful SameFiles)
    (held : HeldFrom (NamedEndpoint.Origin json) w.endpoints w.descriptors)
    (taken : NamedParcelWorld.Step json ndk g w event w') :
    (∀ event', event.onQueue = some event' →
        NamedWorld.Step json g w.toNamedWorld event' w'.toNamedWorld) ∧
      (event.onQueue = none → w'.toNamedWorld = w.toNamedWorld) ∧
      HeldFrom (NamedEndpoint.Origin json) w'.endpoints w'.descriptors := by
  cases taken with
  | call member done =>
    refine ⟨?_, nofun, held⟩
    rintro _ ⟨rfl⟩
    exact .call member done
  | dupeDesc member exported =>
    exact ⟨nofun, fun _ => rfl, held.append member ⟨_, exported, rfl⟩⟩
  | send member written text agrees read =>
    obtain ⟨e, present, sent, exported, same⟩ := held _ _ member
    obtain ⟨_, again, -, carried⟩ :=
      aidl.MQDescriptor.read_own (lawful _ _) written text agrees _
    cases read.symm.trans again
    exact ⟨nofun, fun _ => rfl, held.append present ⟨sent, exported, carried.trans same⟩⟩
  | attach member constructed valid =>
    refine ⟨?_, nofun, held.grow _⟩
    rintro _ ⟨rfl⟩
    obtain ⟨e, present, sent, exported, same⟩ := held _ _ member
    exact .attach present exported same constructed valid

/-- The same for a named queue, of whose descriptors only the text counts. -/
theorem run_oneNamedParcelFifo [DecidableEq F] (library : json.Lawful)
    (lawful : ∀ sender receiver, (ndk sender receiver).Lawful SameFiles)
    {w w' : NamedParcelWorld F region} {events : List (ParcelEvent g.s)}
    (created : NamedWorld.Created json g w.toNamedWorld) (none : w.descriptors = [])
    (carried : ∀ e ∈ w.endpoints, ∀ shim, e.mq.getDesc = some shim → shim.Carried json)
    (run : Run (NamedParcelWorld.Step json ndk g) w events w')
    (callable : ∀ op reply, .queue (.call op reply) ∈ events → Callable op)
    (bound : g.N * g.s ∣ 2 ^ 64 ∨
      writtenBy (events.filterMap ParcelEvent.onQueue) * g.s < 2 ^ 64) :
    ∃ name items σ, oneFifo g.N [] (events.filterMap ParcelEvent.onQueue) = some items ∧
      (w'.toNamedWorld.toWorld json).Common g (region name) items σ ∧
      Untouched g (region name) w.files w'.files := by
  have held : HeldFrom (NamedEndpoint.Origin json) w.endpoints w.descriptors := none ▸ .nil
  obtain ⟨run', -⟩ := run.project NamedParcelWorld.toNamedWorld ParcelEvent.onQueue
    (fun _ _ _ held taken => taken.project lawful held) held
  obtain ⟨name, _, items, _, fifo, inv, untouched⟩ :=
    created.run library carried run' (callable_onQueue callable) bound
  exact ⟨name, items, _, fifo, inv.common, untouched⟩

theorem string_written {text : String} {b : Buffer UInt8} (short : text.length ≤ 1000)
    (position : b.position ≤ 1000) : (Ndk.bytes.string.write text b).1 = 0 := by
  have length : text.toList.length ≤ 1000 := String.length_toList.trans_le short
  show ((counted Ndk.int32Bytes ' ' Ndk.charBytes).write text.toList b).1 = 0
  unfold Ndk.int32Bytes Ndk.charBytes
  refine counted_words_written ' ' (by omega) ?_
  unfold maxPosition
  omega

theorem length_threeBytesText : threeBytesText.length ≤ 1000 := by
  unfold threeBytesText grantorText
  simp only [String.length_append]
  decide +kernel

set_option maxRecDepth 20000 in
/-- The descriptor of the queue fits into a parcel, with its text. -/
theorem threeBytesParcelable_written :
    (∃ b', aidl.MQDescriptor.writeToParcel .bytes threeBytesParcelable ⟨fun _ => 0, 0⟩ =
      (0, b')) ∧ aidl.MQDescriptor.TextWritten .bytes threeBytesParcelable ⟨fun _ => 0, 0⟩ := by
  -- The kernel evaluates the fields only; the text is long and only its length counts.
  have body : (writeBody Ndk.bytes.int32.write ((aidl.MQDescriptor.fields .bytes).map (·.write))
      threeBytesParcelable ⟨fun _ => 0, 0⟩).2.position ≤ 1000 := by decide +kernel
  exact ⟨exists_written (by decide +kernel), string_written length_threeBytesText body⟩

theorem run_oneNamedParcelFifo_three : ∃ w w' : NamedParcelWorld Unit fun _ => (),
    NamedWorld.Created threeBytesLibrary .three w.toNamedWorld ∧ w.descriptors = [] ∧
    Run (NamedParcelWorld.Step threeBytesLibrary (fun _ _ => Ndk.bytes) .three) w sentThenRead
      w' ∧
    ∃ (name : String) (items : List _) (σ : Storage),
      oneFifo Geometry.three.N [] (sentThenRead.filterMap ParcelEvent.onQueue) = some items ∧
      (w'.toNamedWorld.toWorld threeBytesLibrary).Common .three ((fun _ => ()) name) items σ ∧
      Untouched .three ((fun _ => ()) name) w.files w'.files := by
  obtain ⟨mq, constructed, valid, carried, mq', sent, exported, same, attached, valid'⟩ :=
    exists_attached
  have library : threeBytesLibrary.Lawful := JsonTree.lawful _
  have created : NamedWorld.Created threeBytesLibrary .three
      ⟨((⟨singleNamedProcess, sizeofT .three, mq⟩ : NamedEndpoint Unit _).toEndpoint
        threeBytesLibrary).opened fun _ _ => 0, [_]⟩ := .created constructed valid
  obtain ⟨⟨_, written⟩, text⟩ := threeBytesParcelable_written
  obtain ⟨received, read, fields, json⟩ := aidl.MQDescriptor.read_own Ndk.bytes_lawful written
    text (fun _ _ _ => rfl) ⟨Ndk.emptyDesc, ""⟩
  obtain ⟨message, bytes, evFlagOffset, fitting, backed, stored⟩ :=
    named_created constructed valid
  obtain ⟨backed', stored'⟩ := named_attached fitting library (backed.carried carried)
    (regionName_ne "q" 0) message backed exported rfl (same ▸ attached) valid'
  obtain ⟨_, _, wrote, took⟩ := (World.Inv.attach (backed.backed.inv stored fun _ _ => 0)
    backed'.backed stored').1.writtenThenRead List.mem_cons_self
      (List.mem_cons_of_mem _ List.mem_cons_self)
  have arrived : received = sent.toParcelable := same ▸ aidl.MQDescriptor.ext_fields
    (fields.eq_with_fds.trans (by rw [fields.handle.fds])) json
  rw [← same] at attached written text
  subst arrived
  have member : (⟨singleNamedProcess, sizeofT .three, mq⟩ : NamedEndpoint Unit fun _ => ()) ∈
      [(⟨singleNamedProcess, sizeofT .three, mq⟩ : NamedEndpoint Unit fun _ => ())] :=
    List.mem_cons_self
  have send : ∀ w : NamedWorld Unit fun _ => (),
      NamedParcelWorld.Step threeBytesLibrary (fun _ _ => Ndk.bytes) .three
        ⟨w, [(singleNamedProcess, sent.toParcelable)]⟩ .send
        ⟨w, [(singleNamedProcess, sent.toParcelable), (singleNamedProcess, sent.toParcelable)]⟩ :=
    fun w => .send List.mem_cons_self written text (fun _ _ _ => rfl) read
  have run : Run (NamedParcelWorld.Step threeBytesLibrary (fun _ _ => Ndk.bytes) .three)
      ⟨⟨_, [⟨singleNamedProcess, sizeofT .three, mq⟩]⟩, []⟩ sentThenRead _ :=
    Run.cons (.dupeDesc member exported) <| Run.cons (send _) <|
      Run.cons (.attach (List.mem_cons_of_mem _ List.mem_cons_self) attached valid') <|
      Run.cons (.call List.mem_cons_self wrote) <|
      Run.cons (.call (List.mem_cons_of_mem _ List.mem_cons_self) took) (.done _)
  exact ⟨_, _, created, rfl, run, run_oneNamedParcelFifo library
    (fun _ _ => Ndk.bytes_lawful) created rfl (List.forall_mem_singleton.mpr carried) run
    callable_sentThenRead (Or.inr (by decide))⟩

end Msvc

end Fmq
