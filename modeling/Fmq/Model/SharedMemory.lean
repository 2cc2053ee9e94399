import Fmq.Lib.SharedFiles
import Fmq.Lib.Transition
import Fmq.Lib.Words
import Fmq.Model.Calls
import Fmq.Model.Export
import Fmq.Model.Geometry
import Fmq.Model.Mappings

/-!
# One queue in several processes

Queue objects over the memory that their processes have mapped. A call goes through the addresses
of its own object; two objects share what the addresses of both of them show. Every call is whole.
-/
namespace Fmq

open BoundedFifo Memory SharedFiles MessageQueueBase

/-- A process: what its descriptors denote and what its addresses show. The two laws are those of
`dup` and of `mmap`; no number and no address is used a second time for something else. -/
structure Process (F : Type) where
  os : Platform
  file : Int32 → F
  space : Space F
  dup_file : ∀ fd, file (os.dup fd) = file fd
  mmap_maps : ∀ length fd offset address, os.mmap length fd offset = some address →
    Maps space address
      ⟨file fd, offset.toInt.toNat, (sizeOfInt length).toNat⟩

/-- A synchronized queue object in a process. -/
structure Endpoint (F : Type) where
  process : Process F
  sizeofT : UInt64
  mq : MessageQueueBase

namespace Endpoint

variable {F : Type} (e : Endpoint F) (files : Files F UInt8)

/-- The memory of the process. -/
def memory : Mem UInt8 := shown e.process.space files

def queue : Option Queue := e.mq.queue .kSynchronizedReadWrite e.sizeofT

/-- The bytes of the ring. -/
def ringSize : Nat := e.mq.mDesc.elim 0 (·.getSize.toNat)

/-- What is behind the three pointers, `none` if one of them is null. -/
def view : Option Storage :=
  match e.mq.mRing, e.mq.mReadPtr, e.mq.mWritePtr with
  | some mRing, some mReadPtr, some mWritePtr => some {
      ring := fun i => if i < e.ringSize then e.memory files (mRing + i) else 0
      readPtr := word (e.memory files) mReadPtr
      writePtr := word (e.memory files) mWritePtr }
  | _, _, _ => none

variable [DecidableEq F]

/-- The files with this behind the three pointers. -/
def put (σ : Storage) : Files F UInt8 :=
  match e.mq.mRing, e.mq.mReadPtr, e.mq.mWritePtr with
  | some mRing, some mReadPtr, some mWritePtr =>
    let files := storeAt e.process.space files mRing (load σ.ring 0 e.ringSize)
    let files := storeAt e.process.space files mReadPtr (wordBytes σ.readPtr)
    storeAt e.process.space files mWritePtr (wordBytes σ.writePtr)
  | _, _, _ => files

/-- The files after the constructor. -/
def opened : Files F UInt8 :=
  match e.view files with
  | some σ => e.put files (e.mq.attach σ)
  | none => files

/-- One call on the object. -/
def exec {s : Nat} (op : Op (Vector UInt8 s)) :
    Call (Files F UInt8 × Reply (List UInt8)) :=
  match e.queue, e.view files with
  | some queue, some σ => do
    let (σ, reply) ← queue.exec σ op
    return (e.put files σ, reply)
  | _, _ => .error .nullAccess

end Endpoint

/-! ## All processes -/

structure World (F : Type) where
  files : Files F UInt8
  endpoints : List (Endpoint F)

inductive WorldEvent (s : Nat) where
  | call (op : Op (Vector UInt8 s)) (reply : Reply (List UInt8))
  | attach (resetPointers : Bool)

namespace World

variable {F : Type} [DecidableEq F] (g : Geometry)

/-- The message size is that of the payload type. -/
abbrev sizeofT : UInt64 := .ofNat g.s

/-- Received descriptors denote the files of the sent ones. -/
def Received (sender receiver : Process F) (sent received : List Int32) : Prop :=
  received.map receiver.file = sent.map sender.file

/-- The queue right after `AidlMessageQueue(numElementsInQueue, configureEventFlagWord)`, over
memory with any contents. -/
inductive Created : World F → Prop
  | created {p : Process F} {configureEventFlagWord mq files} :
      (Source.numElements (.ofNat g.N) configureEventFlagWord (-1) 0).construct p.os
        .kSynchronizedReadWrite (sizeofT g) = .ok mq → mq.isValid = true →
      Created ⟨(⟨p, sizeofT g, mq⟩ : Endpoint F).opened files, [⟨p, sizeofT g, mq⟩]⟩

inductive Step : World F → WorldEvent g.s → World F → Prop
  /-- A whole call on any of the objects. -/
  | call {w e op files reply} : e ∈ w.endpoints → e.exec w.files op = .ok (files, reply) →
      Step w (.call op reply) ⟨files, w.endpoints⟩
  /-- `AidlMessageQueue(desc, resetPointers)` in some process, for the `dupeDesc()` of any of the
  objects. -/
  | attach {w e desc fds mq resetPointers} {p : Process F} : e ∈ w.endpoints →
      e.mq.dupeDesc e.process.os = .ok desc → Received e.process p desc.handle.fds fds →
      (Source.mqDescriptor { desc with handle := ⟨fds, desc.handle.ints⟩ } resetPointers).construct
        p.os .kSynchronizedReadWrite (sizeofT g) = .ok mq → mq.isValid = true →
      Step w (.attach resetPointers)
        ⟨(⟨p, sizeofT g, mq⟩ : Endpoint F).opened w.files, w.endpoints ++ [⟨p, sizeofT g, mq⟩]⟩

end World

/-! ## The purpose -/

/-- A bounded queue of which the whole world is one view: a call replies as the queue does, and an
object that resets the pointers empties it. -/
def oneFifo {s : Nat} (capacity : Nat) :
    List (Vector UInt8 s) → List (WorldEvent s) → Option (List (Vector UInt8 s))
  | items, [] => some items
  | items, .call op reply :: events =>
    if reply = (step capacity items op).2.map flat then
      oneFifo capacity (step capacity items op).1 events
    else none
  | items, .attach resetPointers :: events =>
    oneFifo capacity (if resetPointers then [] else items) events

/-- The number of messages written. -/
def writtenBy {s : Nat} : List (WorldEvent s) → Nat
  | [] => 0
  | .call op reply :: events => accepted op reply + writtenBy events
  | .attach _ :: events => writtenBy events

end Fmq
