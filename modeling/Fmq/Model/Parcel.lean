import Fmq.Lib.SizedRecords
import Fmq.Model.Msvc

/-!
# Parcels

The parcelables that a queue's descriptor consists of, as they are written into a parcel in one
process and read from it in another one.
-/
namespace Fmq

open SizedRecords

/-- `STATUS_BAD_VALUE`. -/
def STATUS_BAD_VALUE : ResultCode := -22

/-- The functions of the NDK for the types of the fields, the sender's for writing and the
receiver's for reading. A vector of parcelables grows by default-constructed elements. -/
structure Ndk (C : Type) where
  int32 : Format C Int32
  int64 : Format C Int64
  int32Vector : Format C (List Int32)
  fileDescriptorVector : Format C (List Int32)
  string : Format C String
  parcelable : {α : Type} → Format C α → Format C α
  parcelableVector : {α : Type} → α → Format C α → Format C (List α)

/-- What is written is read again; of file descriptors it is what they denote. -/
structure Ndk.Lawful {C : Type} (ndk : Ndk C) (SameFiles : List Int32 → List Int32 → Prop) :
    Prop where
  int32 : Header ndk.int32
  int64 : Matches ndk.int64.write ndk.int64.read fun x _ y => y = x
  int32Vector : Matches ndk.int32Vector.write ndk.int32Vector.read fun xs _ ys => ys = xs
  fileDescriptorVector : Matches ndk.fileDescriptorVector.write ndk.fileDescriptorVector.read
    fun fds _ fds' => SameFiles fds fds'
  string : Matches ndk.string.write ndk.string.read fun s _ t => t = s
  parcelable : ∀ {α} {f : Format C α} {Carries}, Matches f.write f.read Carries →
    Matches (ndk.parcelable f).write (ndk.parcelable f).read Carries
  parcelableVector : ∀ {α} default {f : Format C α},
    Matches f.write f.read (fun x _ y => y = x) →
      Matches (ndk.parcelableVector default f).write (ndk.parcelableVector default f).read
        fun xs _ ys => ys = xs

namespace aidl

variable {C : Type} (ndk : Ndk C)

namespace GrantorDescriptor

/-- `GrantorDescriptor()`. -/
def default : GrantorDescriptor := ⟨0, 0, 0⟩

def fields : List (Format C GrantorDescriptor) :=
  [ndk.int32.field (·.fdIndex) fun fdIndex this => { this with fdIndex },
    ndk.int32.field (·.offset) fun offset this => { this with offset },
    ndk.int64.field (·.extent) fun extent this => { this with extent }]

def readFromParcel : Deserializer C GrantorDescriptor :=
  readRecord ndk.int32.read STATUS_BAD_VALUE ((fields ndk).map (·.read)) Deserializer.nothing

def writeToParcel : Serializer C GrantorDescriptor :=
  writeRecord ndk.int32.write ((fields ndk).map (·.write)) Serializer.nothing

def format : Format C GrantorDescriptor := ⟨writeToParcel ndk, readFromParcel ndk⟩

end GrantorDescriptor

end aidl

namespace NativeHandle

variable {C : Type} (ndk : Ndk C)

def fields : List (Format C NativeHandle) :=
  [ndk.fileDescriptorVector.field (·.fds) fun fds this => { this with fds },
    ndk.int32Vector.field (·.ints) fun ints this => { this with ints }]

def readFromParcel : Deserializer C NativeHandle :=
  readRecord ndk.int32.read STATUS_BAD_VALUE ((fields ndk).map (·.read)) Deserializer.nothing

def writeToParcel : Serializer C NativeHandle :=
  writeRecord ndk.int32.write ((fields ndk).map (·.write)) Serializer.nothing

def format : Format C NativeHandle := ⟨writeToParcel ndk, readFromParcel ndk⟩

end NativeHandle

namespace aidl.MQDescriptor

variable {C : Type} (ndk : Ndk C)

def fields : List (Format C MQDescriptor) :=
  [(ndk.parcelableVector .default (GrantorDescriptor.format ndk)).field (·.grantors)
      fun grantors this => { this with grantors },
    (ndk.parcelable (NativeHandle.format ndk)).field (·.handle)
      fun handle this => { this with handle },
    ndk.int32.field (·.quantum) fun quantum this => { this with quantum },
    ndk.int32.field (·.flags) fun flags this => { this with flags }]

def readFromParcel : Deserializer C MQDescriptor :=
  readRecord ndk.int32.read STATUS_BAD_VALUE ((fields ndk).map (·.read)) Deserializer.nothing

def writeToParcel : Serializer C MQDescriptor :=
  writeRecord ndk.int32.write ((fields ndk).map (·.write)) Serializer.nothing

end aidl.MQDescriptor

/-! ## The MSVC build -/

namespace Msvc.aidl.MQDescriptor

variable {C : Type} (ndk : Ndk C)

/-- The fields of the other build. -/
def fields : List (Format C MQDescriptor) :=
  (Fmq.aidl.MQDescriptor.fields ndk).map fun field =>
    field.field (·.toMQDescriptor) fun desc this => { this with toMQDescriptor := desc }

/-- The text is read behind the fields, whether or not the record reaches there. -/
def readFromParcel : Deserializer C MQDescriptor :=
  readRecord ndk.int32.read STATUS_BAD_VALUE ((fields ndk).map (·.read))
    (ndk.string.read.field (·.json_decriptor)
      fun json_decriptor this => { this with json_decriptor })

def writeToParcel : Serializer C MQDescriptor :=
  writeRecord ndk.int32.write ((fields ndk).map (·.write))
    (ndk.string.write.field (·.json_decriptor))

/-- The text fits behind the fields. `writeToParcel` does not look at that. -/
def TextWritten (sent : MQDescriptor) (b : Buffer C) : Prop :=
  (ndk.string.write sent.json_decriptor
    (writeBody ndk.int32.write ((fields ndk).map (·.write)) sent b).2).1 = 0

end Msvc.aidl.MQDescriptor

end Fmq
