import Fmq.Lib.ByteFormats
import Fmq.Model.Parcel

/-!
# Descriptors through parcels

What `readFromParcel` makes of what `writeToParcel` has written, in one version, between versions
and between the builds.
-/
namespace Fmq

open SizedRecords

variable {C : Type} {ndk : Ndk C} {SameFiles : List Int32 → List Int32 → Prop}

theorem aidl.GrantorDescriptor.matching (lawful : ndk.Lawful SameFiles) :
    Matches (GrantorDescriptor.format ndk).write (GrantorDescriptor.format ndk).read
      fun sent _ received => received = sent := by
  have int32 := lawful.int32.toMatches
  have fields : FieldsMatch ((fields ndk).map (·.write)) ((fields ndk).map (·.read)) _ :=
    .cons (Format.field_matching int32 _ _) (.cons (Format.field_matching int32 _ _)
      (.cons (Format.field_matching lawful.int64 _ _) .nil))
  refine (lawful.int32.record fields).mono ?_
  rintro ⟨_, _, _⟩ old new ⟨_, ⟨_, rfl, rfl⟩, _, ⟨_, rfl, rfl⟩, _, ⟨_, rfl, rfl⟩, rfl⟩
  rfl

/-- The integers, and what the file descriptors denote. -/
structure NativeHandle.Carried (SameFiles : List Int32 → List Int32 → Prop)
    (sent received : NativeHandle) : Prop where
  fds : SameFiles sent.fds received.fds
  ints : received.ints = sent.ints

theorem NativeHandle.matching (lawful : ndk.Lawful SameFiles) :
    Matches (NativeHandle.format ndk).write (NativeHandle.format ndk).read
      fun sent _ received => Carried SameFiles sent received := by
  have fields : FieldsMatch ((fields ndk).map (·.write)) ((fields ndk).map (·.read)) _ :=
    .cons (Format.field_matching lawful.fileDescriptorVector _ _)
      (.cons (Format.field_matching lawful.int32Vector _ _) .nil)
  refine (lawful.int32.record fields).mono ?_
  rintro sent old new ⟨_, ⟨_, same, rfl⟩, _, ⟨_, rfl, rfl⟩, rfl⟩
  exact ⟨same, rfl⟩

namespace aidl.MQDescriptor

/-- What each field carries. -/
def carries (SameFiles : List Int32 → List Int32 → Prop) :
    List (MQDescriptor → MQDescriptor → MQDescriptor → Prop) :=
  [fun sent this received => received = { this with grantors := sent.grantors },
    fun sent this received => ∃ handle, NativeHandle.Carried SameFiles sent.handle handle ∧
      received = { this with handle },
    fun sent this received => received = { this with quantum := sent.quantum },
    fun sent this received => received = { this with flags := sent.flags }]

theorem fields_matching (lawful : ndk.Lawful SameFiles) :
    FieldsMatch ((fields ndk).map (·.write)) ((fields ndk).map (·.read)) (carries SameFiles) := by
  have grantors := lawful.parcelableVector .default (GrantorDescriptor.matching lawful)
  have handle := lawful.parcelable (NativeHandle.matching lawful)
  have int32 := lawful.int32.toMatches
  refine .cons ((Format.field_matching grantors _ _).mono ?_)
    (.cons (Format.field_matching handle _ _)
      (.cons ((Format.field_matching int32 _ _).mono ?_)
        (.cons ((Format.field_matching int32 _ _).mono ?_) .nil)))
  · rintro sent this received ⟨_, rfl, rfl⟩
    rfl
  · rintro sent this received ⟨_, rfl, rfl⟩
    rfl
  · rintro sent this received ⟨_, rfl, rfl⟩
    rfl

/-- All fields, the file descriptors as what they denote. -/
structure Carried (SameFiles : List Int32 → List Int32 → Prop) (sent received : MQDescriptor) :
    Prop where
  grantors : received.grantors = sent.grantors
  handle : NativeHandle.Carried SameFiles sent.handle received.handle
  quantum : received.quantum = sent.quantum
  flags : received.flags = sent.flags

theorem carried {sent this received : MQDescriptor}
    (sequence : Sequence ((carries SameFiles).map (· sent)) this received) :
    Carried SameFiles sent received := by
  obtain ⟨_, rfl, _, ⟨_, handle, rfl⟩, _, rfl, _, rfl, rfl⟩ := sequence
  exact ⟨rfl, handle, rfl, rfl⟩

theorem Carried.eq_with_fds {sent received : MQDescriptor}
    (carried : Carried SameFiles sent received) :
    received = { sent with handle := ⟨received.handle.fds, sent.handle.ints⟩ } := by
  obtain ⟨grantors, ⟨-, ints⟩, quantum, flags⟩ := carried
  rw [← grantors, ← ints, ← quantum, ← flags]

/-- Writing and reading in one version. -/
theorem matching (lawful : ndk.Lawful SameFiles) :
    Matches (writeToParcel ndk) (readFromParcel ndk)
      fun sent _ received => Carried SameFiles sent received :=
  (lawful.int32.record (fields_matching lawful)).mono fun _ _ _ => carried

end aidl.MQDescriptor

/-! ## Bytes -/

namespace Ndk

def int32Bytes : Format UInt8 Int32 := word 4 (·.toUInt32.toNat) fun n => (UInt32.ofNat n).toInt32

def int64Bytes : Format UInt8 Int64 := word 8 (·.toUInt64.toNat) fun n => (UInt64.ofNat n).toInt64

def charBytes : Format UInt8 Char := word 4 Char.toNat Char.ofNat

/-- Parcels of bytes inside one process, where duplicates have the numbers of their originals. -/
def bytes : Ndk UInt8 where
  int32 := int32Bytes
  int64 := int64Bytes
  int32Vector := counted int32Bytes 0 int32Bytes
  fileDescriptorVector := counted int32Bytes 0 int32Bytes
  string := (counted int32Bytes ' ' charBytes).field String.toList
    fun chars _ => String.ofList chars
  parcelable := present int32Bytes
  parcelableVector default f := counted int32Bytes default (present int32Bytes f)

theorem int32Bytes_header : Header int32Bytes :=
  word_header (fun x => x.toUInt32.toNat_lt) fun x => by
    rw [UInt32.ofNat_toNat, Int32.toInt32_toUInt32]

theorem int64Bytes_matching : Matches int64Bytes.write int64Bytes.read fun x _ y => y = x :=
  word_matching (by decide) (fun x => x.toUInt64.toNat_lt) fun x => by
    rw [UInt64.ofNat_toNat, Int64.toInt64_toUInt64]

theorem charBytes_matching : Matches charBytes.write charBytes.read fun x _ y => y = x :=
  word_matching (by decide) (fun c => c.val.toNat_lt) Char.ofNat_toNat

theorem bytes_lawful : bytes.Lawful fun fds fds' => fds' = fds where
  int32 := int32Bytes_header
  int64 := int64Bytes_matching
  int32Vector := counted_matching 0 int32Bytes_header.toMatches int32Bytes_header.toMatches
  fileDescriptorVector :=
    counted_matching 0 int32Bytes_header.toMatches int32Bytes_header.toMatches
  string := by
    refine (Format.field_matching (counted_matching ' ' int32Bytes_header.toMatches
      charBytes_matching) _ _).mono ?_
    rintro text _ _ ⟨_, rfl, rfl⟩
    exact String.ofList_toList
  parcelable := present_matching int32Bytes_header.toMatches
  parcelableVector default _ matching := counted_matching default int32Bytes_header.toMatches
    (present_matching int32Bytes_header.toMatches matching)

/-- The descriptor of a queue of three bytes. -/
def threeBytesDesc : aidl.MQDescriptor :=
  ⟨[⟨0, 0, 8⟩, ⟨0, 8, 8⟩, ⟨0, 16, 3⟩], ⟨[3], []⟩, 1, 1⟩

/-- `MQDescriptor()`. -/
def emptyDesc : aidl.MQDescriptor := ⟨[], ⟨[], []⟩, 0, 0⟩

end Ndk

/-! ## Versions -/

namespace aidl.MQDescriptor

/-- The first `known` fields are those sent, and the others as before. -/
structure CarriedUpTo (known : Nat) (SameFiles : List Int32 → List Int32 → Prop)
    (sent this received : MQDescriptor) : Prop where
  grantors : received.grantors = if 0 < known then sent.grantors else this.grantors
  handle : if 1 < known then NativeHandle.Carried SameFiles sent.handle received.handle
    else received.handle = this.handle
  quantum : received.quantum = if 2 < known then sent.quantum else this.quantum
  flags : received.flags = if 3 < known then sent.flags else this.flags

theorem carriedUpTo {known : Nat} {sent this received : MQDescriptor}
    (sequence : Sequence (((carries SameFiles).take known).map (· sent)) this received) :
    CarriedUpTo known SameFiles sent this received := by
  match known with
  | 0 =>
    cases sequence
    exact ⟨rfl, rfl, rfl, rfl⟩
  | 1 =>
    obtain ⟨_, rfl, rfl⟩ := sequence
    exact ⟨rfl, rfl, rfl, rfl⟩
  | 2 =>
    obtain ⟨_, rfl, _, ⟨_, handle, rfl⟩, rfl⟩ := sequence
    exact ⟨rfl, handle, rfl, rfl⟩
  | 3 =>
    obtain ⟨_, rfl, _, ⟨_, handle, rfl⟩, _, rfl, rfl⟩ := sequence
    exact ⟨rfl, handle, rfl, rfl⟩
  | known + 4 =>
    rw [List.take_of_length_le (Nat.le_add_left 4 known)] at sequence
    have all := carried sequence
    refine ⟨?_, ?_, ?_, ?_⟩
    · rw [if_pos (Nat.succ_pos _), all.grantors]
    · rw [if_pos (by omega)]
      exact all.handle
    · rw [if_pos (by omega), all.quantum]
    · rw [if_pos (by omega), all.flags]

/-- A sender whose descriptor has only the first of the fields, or further ones behind them. -/
theorem readFromParcel_versions (lawful : ndk.Lawful SameFiles) {W : Type}
    (part : W → MQDescriptor) (known : Nat) (newer : List (Serializer C W))
    (lawful_newer : ∀ w ∈ newer, w.Lawful) (ends : newer = [] ∨ 4 ≤ known) {x : W}
    {b b' : Buffer C} (written : writeRecord ndk.int32.write
      (((fields ndk).take known).map (fun field => field.write.field part) ++ newer)
      Serializer.nothing x b = (0, b'))
    {data : Memory.Mem C} (agrees : Agrees b'.data data b.position b'.position)
    (this : MQDescriptor) :
    ∃ received, readFromParcel ndk this ⟨data, b.position⟩ = (0, received, b'.position) ∧
      CarriedUpTo known SameFiles (part x) this received := by
  have matching := ((fields_matching lawful).take known).sender part
  rw [← List.map_take, ← List.map_take, List.map_map] at matching
  obtain ⟨b₁, reached, _, position, _, _, all, record⟩ :=
    lawful.int32.record_written matching lawful_newer (fun b₁ _ => .refl b₁) written
  have others : ((fields ndk).drop known).map (·.read) = [] ∨ reached = b'.position := by
    rcases ends with none | whole
    · exact Or.inr ((all none).trans position.symm)
    · exact Or.inl (by rw [List.drop_of_length_le whole, List.map_nil])
  obtain ⟨received, read, sequence⟩ :=
    record.holds STATUS_BAD_VALUE others data agrees this
  rw [← List.map_append, List.take_append_drop] at read
  rw [List.map_map] at sequence
  exact ⟨received, read, carriedUpTo sequence⟩

/-- A version with one more field. -/
theorem readFromParcel_versions_bytes : ∃ b',
    writeRecord Ndk.bytes.int32.write (((fields .bytes).take 4).map
      (fun field => field.write.field Prod.fst) ++ [Ndk.int32Bytes.write.field Prod.snd])
      Serializer.nothing (Ndk.threeBytesDesc, (5 : Int32)) ⟨fun _ => 0, 8⟩ = (0, b') ∧
    ∃ received, readFromParcel .bytes Ndk.emptyDesc ⟨b'.data, 8⟩ =
        (0, received, b'.position) ∧
      CarriedUpTo 4 (fun fds fds' => fds' = fds) Ndk.threeBytesDesc Ndk.emptyDesc
        received := by
  have written : ∃ b', writeRecord Ndk.bytes.int32.write (((fields .bytes).take 4).map
      (fun field => field.write.field Prod.fst) ++ [Ndk.int32Bytes.write.field Prod.snd])
      Serializer.nothing (Ndk.threeBytesDesc, (5 : Int32)) ⟨fun _ => 0, 8⟩ = (0, b') :=
    exists_written (by decide +kernel)
  obtain ⟨b', written⟩ := written
  have lawful : ∀ w ∈ [Ndk.int32Bytes.write.field Prod.snd],
      Serializer.Lawful (W := MQDescriptor × Int32) w :=
    List.forall_mem_singleton.mpr (Ndk.int32Bytes_header.toMatches.sender Prod.snd).toLawful
  exact ⟨b', written, readFromParcel_versions Ndk.bytes_lawful Prod.fst 4 _ lawful
    (Or.inr (Nat.le_refl 4)) written (fun _ _ _ => rfl) Ndk.emptyDesc⟩

end aidl.MQDescriptor

/-! ## Builds -/

namespace Msvc.aidl.MQDescriptor

open Fmq.aidl.MQDescriptor (Carried carried carries fields_matching matching)

variable {sent : MQDescriptor} {b b' : Buffer C}

/-- The record of this build: the fields, and the text up to the end. -/
theorem written_record (lawful : ndk.Lawful SameFiles) {R : Type}
    {readers : List (Deserializer C R)} {carries}
    (matching : FieldsMatch ((fields ndk).map (·.write)) readers carries)
    (text : TextWritten ndk sent b) (written : writeToParcel ndk sent b = (0, b')) :
    ∃ reached, Record ndk.int32.read b'.data readers (carries.map (· sent)) b.position reached
        b'.position ∧
      Holds ndk.string.read (fun _ json_decriptor => json_decriptor = sent.json_decriptor)
        b'.data reached b'.position := by
  have put : ∀ b₁, writeBody ndk.int32.write ((fields ndk).map (·.write)) sent b = (0, b₁) →
      ndk.string.write sent.json_decriptor b₁ =
        (0, (ndk.string.write sent.json_decriptor b₁).2) := by
    intro b₁ body
    unfold TextWritten at text
    rw [body] at text
    exact Prod.ext text rfl
  unfold writeToParcel at written
  rw [← List.append_nil ((fields ndk).map _)] at written
  obtain ⟨b₁, reached, body, position, kept, _, all, record⟩ :=
    lawful.int32.record_written matching (fun _ member => absurd member List.not_mem_nil)
      (fun b₁ body => lawful.string.passed (put b₁ (by rwa [List.append_nil] at body))) written
  rw [List.append_nil] at body
  have holds := lawful.string.holds (put b₁ body)
  rw [all rfl] at record
  change b'.position = (ndk.string.write sent.json_decriptor b₁).2.position at position
  rw [← position] at holds
  exact ⟨_, record, holds.of_agrees kept⟩

/-- What each field carries into a descriptor of this build. -/
def carriesInto (SameFiles : List Int32 → List Int32 → Prop) :
    List (Fmq.aidl.MQDescriptor → MQDescriptor → MQDescriptor → Prop) :=
  (carries SameFiles).map fun Carries sent this received =>
    ∃ desc, Carries sent this.toMQDescriptor desc ∧ received = { this with toMQDescriptor := desc }

theorem fields_received (lawful : ndk.Lawful SameFiles) :
    FieldsMatch ((Fmq.aidl.MQDescriptor.fields ndk).map (·.write)) ((fields ndk).map (·.read))
      (carriesInto SameFiles) := by
  have matching := (fields_matching lawful).receiver MQDescriptor.toMQDescriptor
    fun desc this => { this with toMQDescriptor := desc }
  unfold fields
  rwa [List.map_map] at matching ⊢

theorem fields_sent (ndk : Ndk C) : (fields ndk).map (·.write) =
    ((Fmq.aidl.MQDescriptor.fields ndk).map (·.write)).map (·.field (·.toMQDescriptor)) := by
  unfold fields
  rw [List.map_map, List.map_map]
  rfl

theorem carried_into {sent : Fmq.aidl.MQDescriptor} {this received : MQDescriptor}
    (sequence : Sequence ((carriesInto SameFiles).map (· sent)) this received) :
    Carried SameFiles sent received.toMQDescriptor ∧
      received.json_decriptor = this.json_decriptor := by
  obtain ⟨_, ⟨_, rfl, rfl⟩, _, ⟨_, ⟨_, handle, rfl⟩, rfl⟩, _, ⟨_, rfl, rfl⟩, _,
    ⟨_, rfl, rfl⟩, rfl⟩ := sequence
  exact ⟨⟨rfl, handle, rfl, rfl⟩, rfl⟩

/-- The fields of a record are read, and as the text what stands behind them. -/
theorem read_record {sent : Fmq.aidl.MQDescriptor} {data data' : Memory.Mem C}
    {start reached stop : Nat}
    (record : Record ndk.int32.read data ((fields ndk).map (·.read))
      ((carriesInto SameFiles).map (· sent)) start reached stop)
    (agrees : Agrees data data' start stop) (this : MQDescriptor) :
    ∃ received, readFromParcel ndk this ⟨data', start⟩ =
        ((ndk.string.read this.json_decriptor ⟨data', reached⟩).1, received, stop) ∧
      Carried SameFiles sent received.toMQDescriptor ∧
      received.json_decriptor = (ndk.string.read this.json_decriptor ⟨data', reached⟩).2.1 := by
  obtain ⟨new, sequence, read⟩ := record.read agrees STATUS_BAD_VALUE
    (ndk.string.read.field (·.json_decriptor)
      fun json_decriptor this => { this with json_decriptor }) [] this
  obtain ⟨fields, text⟩ := carried_into sequence
  rw [List.append_nil] at read
  have lower := record.fields.le
  have upper := record.within
  have whole : start + (stop - start) = stop := by omega
  rw [readFields, whole] at read
  rw [← text]
  exact ⟨_, read, fields, rfl⟩

theorem read_other {sent : Fmq.aidl.MQDescriptor} {data : Memory.Mem C}
    (lawful : ndk.Lawful SameFiles)
    (written : Fmq.aidl.MQDescriptor.writeToParcel ndk sent b = (0, b'))
    (agrees : Agrees b'.data data b.position b'.position) (this : MQDescriptor) :
    ∃ received, readFromParcel ndk this ⟨data, b.position⟩ =
        ((ndk.string.read this.json_decriptor ⟨data, b'.position⟩).1, received, b'.position) ∧
      Carried SameFiles sent received.toMQDescriptor ∧ received.json_decriptor =
        (ndk.string.read this.json_decriptor ⟨data, b'.position⟩).2.1 :=
  read_record (lawful.int32.written (fields_received lawful) written).2 agrees this

theorem other_reads {data : Memory.Mem C} (lawful : ndk.Lawful SameFiles)
    (written : writeToParcel ndk sent b = (0, b')) (text : TextWritten ndk sent b)
    (agrees : Agrees b'.data data b.position b'.position) (this : Fmq.aidl.MQDescriptor) :
    ∃ received, Fmq.aidl.MQDescriptor.readFromParcel ndk this ⟨data, b.position⟩ =
        (0, received, b'.position) ∧
      Carried SameFiles sent.toMQDescriptor received := by
  have matching := (fields_matching lawful).sender MQDescriptor.toMQDescriptor
  rw [← fields_sent] at matching
  obtain ⟨reached, record, -⟩ := written_record lawful matching text written
  obtain ⟨received, read, sequence⟩ :=
    record.holds STATUS_BAD_VALUE (Or.inl rfl) data agrees this
  rw [List.append_nil] at read
  rw [List.map_map] at sequence
  exact ⟨received, read, carried sequence⟩

theorem read_own {data : Memory.Mem C} (lawful : ndk.Lawful SameFiles)
    (written : writeToParcel ndk sent b = (0, b')) (text : TextWritten ndk sent b)
    (agrees : Agrees b'.data data b.position b'.position) (this : MQDescriptor) :
    ∃ received, readFromParcel ndk this ⟨data, b.position⟩ = (0, received, b'.position) ∧
      Carried SameFiles sent.toMQDescriptor received.toMQDescriptor ∧
      received.json_decriptor = sent.json_decriptor := by
  have matching := (fields_received lawful).sender MQDescriptor.toMQDescriptor
  rw [← fields_sent] at matching
  obtain ⟨reached, record, holds⟩ := written_record lawful matching text written
  have lower := record.fields.le
  obtain ⟨_, read_text, rfl⟩ := holds data
    (agrees.mono (Nat.le_trans (Nat.le_add_right _ _) lower) (Nat.le_refl _)) this.json_decriptor
  rw [List.map_map] at record
  obtain ⟨received, read, fields, same⟩ := read_record record agrees this
  rw [read_text] at read same
  exact ⟨received, read, fields, same⟩

/-- The builds read each other's records. The other build leaves the text alone. This build takes
for the text whatever stands behind a record of the other one, and that decides on the status. -/
theorem parcel_builds (lawful : ndk.Lawful SameFiles) {data : Memory.Mem C}
    (agrees : Agrees b'.data data b.position b'.position) :
    (∀ sent this, Fmq.aidl.MQDescriptor.writeToParcel ndk sent b = (0, b') →
      ∃ received, Fmq.aidl.MQDescriptor.readFromParcel ndk this ⟨data, b.position⟩ =
          (0, received, b'.position) ∧
        Carried SameFiles sent received) ∧
    (∀ sent this, Fmq.aidl.MQDescriptor.writeToParcel ndk sent b = (0, b') →
      ∃ received, readFromParcel ndk this ⟨data, b.position⟩ =
          ((ndk.string.read this.json_decriptor ⟨data, b'.position⟩).1, received, b'.position) ∧
        Carried SameFiles sent received.toMQDescriptor ∧ received.json_decriptor =
          (ndk.string.read this.json_decriptor ⟨data, b'.position⟩).2.1) ∧
    ∀ sent, writeToParcel ndk sent b = (0, b') → TextWritten ndk sent b →
      (∀ this, ∃ received, Fmq.aidl.MQDescriptor.readFromParcel ndk this ⟨data, b.position⟩ =
          (0, received, b'.position) ∧
        Carried SameFiles sent.toMQDescriptor received) ∧
      ∀ this, ∃ received, readFromParcel ndk this ⟨data, b.position⟩ =
          (0, received, b'.position) ∧
        Carried SameFiles sent.toMQDescriptor received.toMQDescriptor ∧
        received.json_decriptor = sent.json_decriptor :=
  ⟨fun _ this written => (matching lawful).holds written data agrees this,
    fun _ this written => read_other lawful written agrees this,
    fun _ written text => ⟨other_reads lawful written text agrees,
      read_own lawful written text agrees⟩⟩

theorem ext_fields {desc desc' : MQDescriptor} (fields : desc.toMQDescriptor = desc'.toMQDescriptor)
    (text : desc.json_decriptor = desc'.json_decriptor) : desc = desc' := by
  cases desc
  cases desc'
  exact congr (congrArg mk fields) text

/-- A record of each build. -/
theorem parcel_builds_bytes :
    (∃ b', Fmq.aidl.MQDescriptor.writeToParcel .bytes Ndk.threeBytesDesc ⟨fun _ => 0, 8⟩ = (0, b') ∧
      (∃ received, Fmq.aidl.MQDescriptor.readFromParcel .bytes Ndk.emptyDesc ⟨b'.data, 8⟩ =
          (0, received, b'.position) ∧
        Carried (fun fds fds' => fds' = fds) Ndk.threeBytesDesc received) ∧
      ∃ received, readFromParcel .bytes ⟨Ndk.emptyDesc, ""⟩ ⟨b'.data, 8⟩ =
          ((Ndk.bytes.string.read "" ⟨b'.data, b'.position⟩).1, received, b'.position) ∧
        Carried (fun fds fds' => fds' = fds) Ndk.threeBytesDesc
          received.toMQDescriptor ∧
        received.json_decriptor = (Ndk.bytes.string.read "" ⟨b'.data, b'.position⟩).2.1) ∧
    ∃ b', writeToParcel .bytes ⟨Ndk.threeBytesDesc, "q"⟩ ⟨fun _ => 0, 8⟩ = (0, b') ∧
      (∃ received, Fmq.aidl.MQDescriptor.readFromParcel .bytes Ndk.emptyDesc ⟨b'.data, 8⟩ =
          (0, received, b'.position) ∧
        Carried (fun fds fds' => fds' = fds) Ndk.threeBytesDesc received) ∧
      ∃ received, readFromParcel .bytes ⟨Ndk.emptyDesc, ""⟩ ⟨b'.data, 8⟩ =
          (0, received, b'.position) ∧
        Carried (fun fds fds' => fds' = fds) Ndk.threeBytesDesc
          received.toMQDescriptor ∧
        received.json_decriptor = "q" := by
  have other : ∃ b', Fmq.aidl.MQDescriptor.writeToParcel .bytes Ndk.threeBytesDesc ⟨fun _ => 0, 8⟩ =
      (0, b') := exists_written (by decide +kernel)
  have own : ∃ b', writeToParcel .bytes ⟨Ndk.threeBytesDesc, "q"⟩ ⟨fun _ => 0, 8⟩ = (0, b') :=
    exists_written (by decide +kernel)
  have text : TextWritten .bytes ⟨Ndk.threeBytesDesc, "q"⟩ ⟨fun _ => 0, 8⟩ := by
    unfold TextWritten
    decide +kernel
  obtain ⟨b₁, written₁⟩ := other
  obtain ⟨b₂, written₂⟩ := own
  obtain ⟨first, second, -⟩ := parcel_builds (b := ⟨fun _ => 0, 8⟩) Ndk.bytes_lawful
    (fun i _ _ => rfl : Agrees b₁.data b₁.data 8 b₁.position)
  obtain ⟨-, -, third⟩ := parcel_builds (b := ⟨fun _ => 0, 8⟩) Ndk.bytes_lawful
    (fun i _ _ => rfl : Agrees b₂.data b₂.data 8 b₂.position)
  obtain ⟨by_other, by_own⟩ := third _ written₂ text
  exact ⟨⟨b₁, written₁, first _ Ndk.emptyDesc written₁, second _ ⟨Ndk.emptyDesc, ""⟩ written₁⟩,
    b₂, written₂, by_other Ndk.emptyDesc, by_own ⟨Ndk.emptyDesc, ""⟩⟩

end Msvc.aidl.MQDescriptor

end Fmq
