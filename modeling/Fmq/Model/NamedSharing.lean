import Fmq.Model.Rebuilding
import Fmq.Model.SharedMemory

/-!
# One named queue in several processes

The MSVC build over the calls of Windows that `system_porting` makes. A queue lies in a region with
a name, and its descriptor reaches other processes as text. Every call is whole.
-/
namespace Fmq.Msvc

open BoundedFifo SharedFiles MessageQueueBase

/-! ## `system_porting` -/

def INVALID_HANDLE_VALUE : Int32 := -1

/-- The answers of Windows and of the allocator. A null `HANDLE` is 0. -/
structure Windows where
  nativeHandleCreate : Int32 → Int32 → Option NativeHandle
  ashmemCreateRegion : String → UInt64 → Int32
  /-- For a name or a null pointer. -/
  openFileMapping : Option String → Int32
  /-- For a protection and a length. -/
  createFileMapping : UInt32 → UInt64 → Int32
  /-- What is in `duped_handle` after the call. -/
  duplicateHandle : Int32 → Int32
  /-- For a handle, an access, an offset and a length; `none` for a null address. -/
  mapViewOfFileEx : Int32 → UInt32 → Int32 → UInt64 → Option Nat
  newDescriptor : Bool
  newCounter : Option Nat

def PROT_NONE : UInt32 := 0
def PROT_READ : UInt32 := 1
def PROT_WRITE : UInt32 := 2
def PROT_EXEC : UInt32 := 4

def MAP_SHARED : UInt32 := 0x01
def MAP_PRIVATE : UInt32 := 0x02
def MAP_FIXED : UInt32 := 0x04
def MAP_ANONYMOUS : UInt32 := 0x10

def PAGE_NOACCESS : UInt32 := 0x01
def PAGE_READWRITE : UInt32 := 0x04
def PAGE_WRITECOPY : UInt32 := 0x08
def PAGE_EXECUTE : UInt32 := 0x10
def PAGE_EXECUTE_READ : UInt32 := 0x20
def PAGE_EXECUTE_READWRITE : UInt32 := 0x40

def FILE_MAP_COPY : UInt32 := 0x01
def FILE_MAP_WRITE : UInt32 := 0x02
def FILE_MAP_READ : UInt32 := 0x04
def FILE_MAP_EXECUTE : UInt32 := 0x20

/-- `nt_flag_protect` and `nt_flags`, `none` for `EOPNOTSUPP`. -/
def ntFlags (prot : UInt32) : Option (UInt32 × UInt32) :=
  if prot = PROT_NONE then some (PAGE_NOACCESS, 0)
  else if prot = PROT_READ then some (PAGE_READWRITE, FILE_MAP_READ)
  else if prot &&& PROT_READ ≠ 0 ∧ prot &&& PROT_WRITE ≠ 0 then
    some (PAGE_READWRITE, FILE_MAP_WRITE)
  else if prot = PROT_EXEC then some (PAGE_EXECUTE, FILE_MAP_EXECUTE)
  else if prot &&& PROT_EXEC ≠ 0 ∧ prot &&& PROT_READ ≠ 0 then
    some (PAGE_EXECUTE_READ, FILE_MAP_EXECUTE ||| FILE_MAP_READ)
  else if prot &&& PROT_EXEC ≠ 0 ∧ prot &&& PROT_READ ≠ 0 ∧ prot &&& PROT_WRITE ≠ 0 then
    some (PAGE_EXECUTE_READWRITE, FILE_MAP_EXECUTE ||| FILE_MAP_WRITE)
  else none

namespace Windows

variable (w : Windows)

def systemPortingOpenShmem (a_name : String) : Int32 :=
  w.openFileMapping (if a_name = "" then none else some a_name)

/-- `system_porting_mmap(nullptr, ..)`, `none` for `MAP_FAILED`. -/
def systemPortingMmap (len : UInt64) (prot flags : UInt32) (file_handle off : Int32) :
    Option Nat :=
  -- The address is null, and would be set to null.
  if flags &&& MAP_FIXED ≠ 0 then none
  else if flags &&& MAP_ANONYMOUS ≠ 0 ∧ file_handle ≠ INVALID_HANDLE_VALUE ∨ file_handle = 0 then
    none
  else
    match ntFlags prot with
    | none => none
    | some (nt_flag_protect, nt_flags) =>
      let (nt_flag_protect, nt_flags) := if flags &&& MAP_PRIVATE ≠ 0 then
        (nt_flag_protect ||| PAGE_WRITECOPY, FILE_MAP_COPY) else (nt_flag_protect, nt_flags)
      let file_mapping := if file_handle = INVALID_HANDLE_VALUE then
        w.createFileMapping nt_flag_protect len else w.duplicateHandle file_handle
      if file_mapping = 0 then none else w.mapViewOfFileEx file_mapping nt_flags off len

def platform (json : JsonLibrary) : Platform where
  json := json
  nativeHandleCreate := w.nativeHandleCreate
  openShmem := w.systemPortingOpenShmem
  ashmemCreateRegion := w.ashmemCreateRegion
  mmap length fd offset :=
    w.systemPortingMmap (sizeOfInt length) (PROT_READ ||| PROT_WRITE) MAP_SHARED fd offset
  newDescriptor := w.newDescriptor
  newCounter := w.newCounter

end Windows

/-! ## Processes -/

/-- A process: what its handles denote and what its addresses show. A name denotes one region in
all processes; no number and no address is used a second time for something else. -/
structure NamedProcess (F : Type) (region : String → F) where
  windows : Windows
  file : Int32 → F
  space : Space F
  handle_counts : ∀ numFds numInts created,
    windows.nativeHandleCreate numFds numInts = some created →
      created.fds.length = numFds.toInt.toNat ∧ created.ints.length = numInts.toInt.toNat
  region_created : ∀ name size, windows.ashmemCreateRegion name size = 0 ∨
    windows.ashmemCreateRegion name size ≠ INVALID_HANDLE_VALUE ∧
      file (windows.ashmemCreateRegion name size) = region name
  region_opened : ∀ name, windows.openFileMapping (some name) = 0 ∨
    windows.openFileMapping (some name) ≠ INVALID_HANDLE_VALUE ∧
      file (windows.openFileMapping (some name)) = region name
  /-- The result of the call is not looked at, and after a failure `duped_handle` is uninitialised.
  It is taken to be 0 then, which `system_porting_mmap` refuses. -/
  handle_duplicated : ∀ h, windows.duplicateHandle h = 0 ∨
    file (windows.duplicateHandle h) = file h
  view_maps : ∀ h access offset length address,
    windows.mapViewOfFileEx h access offset length = some address →
      Maps space address ⟨file h, offset.toInt.toNat, length.toNat⟩

namespace NamedProcess

variable {F : Type} {region : String → F} (p : NamedProcess F region)

/-- A handle that is open is mapped as what it denotes, and a null handle is not mapped. -/
theorem maps (json : JsonLibrary) {length fd offset : Int32} {address : Nat}
    (opened : fd ≠ INVALID_HANDLE_VALUE)
    (mapped : (p.windows.platform json).mmap length fd offset = some address) :
    fd ≠ 0 ∧ Maps p.space address
      ⟨p.file fd, offset.toInt.toNat, (sizeOfInt length).toNat⟩ := by
  have writable : ntFlags (PROT_READ ||| PROT_WRITE) = some (PAGE_READWRITE, FILE_MAP_WRITE) := by
    decide
  unfold Windows.platform Windows.systemPortingMmap at mapped
  dsimp only at mapped
  rw [if_neg (by decide), writable] at mapped
  split at mapped
  · cases mapped
  next known =>
    rw [not_or] at known
    refine ⟨known.2, ?_⟩
    have shared : ¬ (MAP_SHARED &&& MAP_PRIVATE ≠ 0) := by decide
    dsimp only at mapped
    rw [if_neg shared] at mapped
    split at mapped
    · cases mapped
    next duplicated =>
      rw [← (p.handle_duplicated fd).resolve_left duplicated]
      exact p.view_maps _ _ _ _ _ mapped

/-- What its queue objects see of it. Without a file, every mapping is memory of its own. -/
def toProcess (json : JsonLibrary) : Process F where
  os := { (p.windows.platform json).base with
    mmap := fun length fd offset => if fd = INVALID_HANDLE_VALUE then none
      else (p.windows.platform json).mmap length fd offset }
  file := p.file
  space := p.space
  dup_file _ := rfl
  mmap_maps length fd offset address mapped := by
    dsimp only at mapped
    split at mapped
    · cases mapped
    next opened => exact (p.maps json opened mapped).2

end NamedProcess

/-! ## All processes -/

/-- A synchronized queue object in a process. -/
structure NamedEndpoint (F : Type) (region : String → F) where
  process : NamedProcess F region
  sizeofT : UInt64
  mq : AidlMessageQueue

def NamedEndpoint.toEndpoint {F : Type} {region : String → F} (e : NamedEndpoint F region)
    (json : JsonLibrary) : Endpoint F :=
  ⟨e.process.toProcess json, e.sizeofT, e.mq.toMessageQueueBase⟩

structure NamedWorld (F : Type) (region : String → F) where
  files : SharedFiles.Files F UInt8
  endpoints : List (NamedEndpoint F region)

namespace NamedWorld

variable {F : Type} [DecidableEq F] {region : String → F} (json : JsonLibrary) (g : Geometry)

/-- The queue right after `AidlMessageQueue(numElementsInQueue, name, configureEventFlagWord)`,
over memory with any contents. -/
inductive Created : NamedWorld F region → Prop
  | created {p : NamedProcess F region} {configureEventFlagWord name rand mq files} :
      (Origin.numElements (.ofNat g.N) configureEventFlagWord (-1) 0 name rand).construct
        (p.windows.platform json) .kSynchronizedReadWrite (World.sizeofT g) = .ok mq →
      mq.isValid = true →
      Created ⟨((⟨p, World.sizeofT g, mq⟩ : NamedEndpoint F region).toEndpoint json).opened files,
        [⟨p, World.sizeofT g, mq⟩]⟩

inductive Step : NamedWorld F region → WorldEvent g.s → NamedWorld F region → Prop
  /-- A whole call on any of the objects. -/
  | call {w e op files reply} : e ∈ w.endpoints →
      (e.toEndpoint json).exec w.files op = .ok (files, reply) →
      Step w (.call op reply) ⟨files, w.endpoints⟩
  /-- `AidlMessageQueue(desc, resetPointers)` in some process, for a descriptor that has the text of
  the `dupeDesc()` of any of the objects. -/
  | attach {w e sent resetPointers mq} {received : aidl.MQDescriptor}
      {p : NamedProcess F region} : e ∈ w.endpoints →
      e.mq.dupeDesc (e.process.windows.platform json) = .ok sent →
      received.json_decriptor = sent.json_decriptor →
      (Origin.mqDescriptor received resetPointers).construct (p.windows.platform json)
        .kSynchronizedReadWrite (World.sizeofT g) = .ok mq →
      mq.isValid = true →
      Step w (.attach resetPointers)
        ⟨((⟨p, World.sizeofT g, mq⟩ : NamedEndpoint F region).toEndpoint json).opened w.files,
          w.endpoints ++ [⟨p, World.sizeofT g, mq⟩]⟩

end NamedWorld

/-- The JSON library reads the text of this descriptor as the document that was written. -/
def AidlMQDescriptorShim.Carried (json : JsonLibrary) (shim : AidlMQDescriptorShim) : Prop :=
  ∀ v, SystemPorting.document json shim.mGrantors shim.mHandle shim.mQuantum shim.mFlags
    shim.mName = some v → json.RoundTrips v

end Fmq.Msvc
