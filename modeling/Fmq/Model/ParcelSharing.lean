import Fmq.Model.NamedSharing
import Fmq.Model.Parcel

/-!
# Descriptors on their way

One queue in several processes, whose descriptors go from process to process in parcels. Any process
can make a descriptor of a queue object that it has, pass on a descriptor that it has received, and
construct queue objects from it.
-/
namespace Fmq

open BoundedFifo SharedFiles SizedRecords MessageQueueBase World

variable {F C : Type}

inductive ParcelEvent (s : Nat) where
  | queue (event : WorldEvent s)
  | dupeDesc
  | send

/-- What the queue sees of it. -/
def ParcelEvent.onQueue {s : Nat} : ParcelEvent s → Option (WorldEvent s)
  | queue event => some event
  | dupeDesc | send => none

structure ParcelWorld (F : Type) extends World F where
  /-- The descriptors, with the processes that have them. -/
  descriptors : List (Process F × aidl.MQDescriptor)

/-- The steps, where `ndk sender receiver` takes parcels from the one process to the other. -/
inductive ParcelWorld.Step [DecidableEq F] (ndk : Process F → Process F → Ndk C) (g : Geometry) :
    ParcelWorld F → ParcelEvent g.s → ParcelWorld F → Prop
  /-- A whole call on any of the objects. -/
  | call {w e op files reply} : e ∈ w.endpoints → e.exec w.files op = .ok (files, reply) →
      Step ndk g w (.queue (.call op reply)) ⟨⟨files, w.endpoints⟩, w.descriptors⟩
  /-- `dupeDesc()` of any of the objects. -/
  | dupeDesc {w e desc} : e ∈ w.endpoints → e.mq.dupeDesc e.process.os = .ok desc →
      Step ndk g w .dupeDesc ⟨w.toWorld, w.descriptors ++ [(e.process, desc)]⟩
  /-- A descriptor is written into a parcel, and read from there over any old one. -/
  | send {w sender receiver sent this received b b' data position} :
      (sender, sent) ∈ w.descriptors →
      aidl.MQDescriptor.writeToParcel (ndk sender receiver) sent b = (0, b') →
      Agrees b'.data data b.position b'.position →
      aidl.MQDescriptor.readFromParcel (ndk sender receiver) this ⟨data, b.position⟩ =
        (0, received, position) →
      Step ndk g w .send ⟨w.toWorld, w.descriptors ++ [(receiver, received)]⟩
  /-- `AidlMessageQueue(desc, resetPointers)` in the process that has the descriptor. -/
  | attach {w p desc mq resetPointers} : (p, desc) ∈ w.descriptors →
      (Source.mqDescriptor desc resetPointers).construct p.os .kSynchronizedReadWrite
        (sizeofT g) = .ok mq → mq.isValid = true →
      Step ndk g w (.queue (.attach resetPointers))
        ⟨⟨(⟨p, sizeofT g, mq⟩ : Endpoint F).opened w.files,
          w.endpoints ++ [⟨p, sizeofT g, mq⟩]⟩, w.descriptors⟩

/-! ## The MSVC build -/

namespace Msvc

variable {region : String → F}

structure NamedParcelWorld (F : Type) (region : String → F) extends NamedWorld F region where
  /-- The descriptors, with the processes that have them. -/
  descriptors : List (NamedProcess F region × aidl.MQDescriptor)

/-- The same steps. A text that does not fit into the parcel is not sent. -/
inductive NamedParcelWorld.Step [DecidableEq F] (json : JsonLibrary)
    (ndk : NamedProcess F region → NamedProcess F region → Ndk C) (g : Geometry) :
    NamedParcelWorld F region → ParcelEvent g.s → NamedParcelWorld F region → Prop
  | call {w e op files reply} : e ∈ w.endpoints →
      (e.toEndpoint json).exec w.files op = .ok (files, reply) →
      Step json ndk g w (.queue (.call op reply)) ⟨⟨files, w.endpoints⟩, w.descriptors⟩
  | dupeDesc {w e desc} : e ∈ w.endpoints →
      e.mq.dupeDesc (e.process.windows.platform json) = .ok desc →
      Step json ndk g w .dupeDesc
        ⟨w.toNamedWorld, w.descriptors ++ [(e.process, desc.toParcelable)]⟩
  | send {w sender receiver sent this received b b' data position} :
      (sender, sent) ∈ w.descriptors →
      aidl.MQDescriptor.writeToParcel (ndk sender receiver) sent b = (0, b') →
      aidl.MQDescriptor.TextWritten (ndk sender receiver) sent b →
      Agrees b'.data data b.position b'.position →
      aidl.MQDescriptor.readFromParcel (ndk sender receiver) this ⟨data, b.position⟩ =
        (0, received, position) →
      Step json ndk g w .send ⟨w.toNamedWorld, w.descriptors ++ [(receiver, received)]⟩
  | attach {w p desc mq resetPointers} : (p, desc) ∈ w.descriptors →
      (Origin.mqDescriptor desc resetPointers).construct (p.windows.platform json)
        .kSynchronizedReadWrite (sizeofT g) = .ok mq → mq.isValid = true →
      Step json ndk g w (.queue (.attach resetPointers))
        ⟨⟨((⟨p, sizeofT g, mq⟩ : NamedEndpoint F region).toEndpoint json).opened w.files,
          w.endpoints ++ [⟨p, sizeofT g, mq⟩]⟩, w.descriptors⟩

end Msvc

end Fmq
