import Fmq.Lib.Memory
import Fmq.Model.Base

/-!
# `MemRegion` and `MemTransaction`

A `T*` is `nullptr` or a byte offset from the base of the ring. A caller's buffer is the list
of its bytes, so that every `memcpy` moves bytes and never whole messages.
-/
namespace Fmq

open Memory

/-- The bytes behind `mRing`. -/
abbrev Ring := Mem UInt8

inductive Block where
  | null
  | ring
  deriving DecidableEq, Repr

/-- A `T*`: the block it points into and the distance in bytes from the base of the block. -/
structure Ptr where
  block : Block
  offset : Nat
  deriving DecidableEq, Repr

def nullptr : Ptr := ⟨.null, 0⟩

/-- `p + k` for `T* p`. -/
def Ptr.add (p : Ptr) (sizeofT k : UInt64) : Ptr := ⟨p.block, p.offset + k.toNat * sizeofT.toNat⟩

/-- `p - k` for `T* p`. -/
def Ptr.sub (p : Ptr) (sizeofT k : UInt64) : Ptr := ⟨p.block, p.offset - k.toNat * sizeofT.toNat⟩

/-- `if (count != 0) memcpy(p, bytes, count * sizeof(T))` into the ring. -/
def memcpyTo (ring : Ring) (p : Ptr) (bytes : List UInt8) (sizeofT count : UInt64) : Call Ring :=
  if count = 0 then .ok ring
  else
    match p.block with
    | .null => .error .nullAccess
    | .ring => .ok (store ring p.offset (bytes.take (count * sizeofT).toNat))

/-- `if (count != 0) memcpy(.., p, count * sizeof(T))` out of the ring. -/
def memcpyFrom (ring : Ring) (p : Ptr) (sizeofT count : UInt64) : Call (List UInt8) :=
  if count = 0 then .ok []
  else
    match p.block with
    | .null => .error .nullAccess
    | .ring => .ok (load ring p.offset (count * sizeofT).toNat)

structure MemRegion where
  address : Ptr
  length : UInt64
  deriving DecidableEq, Repr

/-- `MemRegion()`. -/
def MemRegion.empty : MemRegion := ⟨nullptr, 0⟩

structure MemTransaction where
  first : MemRegion
  second : MemRegion
  deriving DecidableEq, Repr

/-- `MemTransaction()`. -/
def MemTransaction.empty : MemTransaction := ⟨.empty, .empty⟩

/-- The out parameters of `getMemRegionInfo`. -/
structure MemRegionInfo where
  firstCount : UInt64
  secondCount : UInt64
  firstBaseAddress : Ptr
  secondBaseAddress : Ptr
  deriving DecidableEq, Repr

namespace MemTransaction

variable (tx : MemTransaction) (sizeofT : UInt64)

/-- Where the bytes of slot `i` lie. -/
def slotOffset (s i : Nat) : Nat :=
  if i < tx.first.length.toNat then tx.first.address.offset + i * s
  else tx.second.address.offset + (i - tx.first.length.toNat) * s

def getSlot (idx : UInt64) : Ptr :=
  let firstRegionLength := tx.first.length
  let secondRegionLength := tx.second.length
  if idx > firstRegionLength + secondRegionLength then nullptr
  else if idx < firstRegionLength then tx.first.address.add sizeofT idx
  -- `second.getAddress() + idx - firstRegionLength`.
  else (tx.second.address.add sizeofT idx).sub sizeofT firstRegionLength

/-- `none` is the return value `false`. -/
def getMemRegionInfo (startIdx nMessages : UInt64) : Option MemRegionInfo :=
  let firstRegionLength := tx.first.length
  let secondRegionLength := tx.second.length
  -- The sums are `size_t` sums, so they wrap.
  if startIdx + nMessages > firstRegionLength + secondRegionLength then none
  else
    let firstCount :=
      if startIdx < firstRegionLength then min nMessages (firstRegionLength - startIdx) else 0
    let secondCount := nMessages - firstCount
    let secondStartIdx :=
      -- Nothing of the first region is left to skip in the second one when it starts before it.
      if startIdx > firstRegionLength then startIdx - firstRegionLength else 0
    some {
      firstCount
      secondCount
      firstBaseAddress :=
        if firstCount ≠ 0 then tx.first.address.add sizeofT startIdx else nullptr
      secondBaseAddress :=
        if secondCount ≠ 0 then tx.second.address.add sizeofT secondStartIdx else nullptr }

/-- Returns the buffer behind `data` as `copyFrom` leaves it, `none` when it returns `false`
without having touched it. `hasData` is `data != nullptr`. -/
def copyFrom (ring : Ring) (hasData : Bool) (startIdx nMessages : UInt64) :
    Call (Option (List UInt8)) :=
  if !hasData then .ok none
  else
    match tx.getMemRegionInfo sizeofT startIdx nMessages with
    | none => .ok none
    | some info => do
      let front ← memcpyFrom ring info.firstBaseAddress sizeofT info.firstCount
      let back ← memcpyFrom ring info.secondBaseAddress sizeofT info.secondCount
      return some (front ++ back)

/-- `data` is `none` for `nullptr`, else the bytes it points to. -/
def copyTo (ring : Ring) (data : Option (List UInt8)) (startIdx nMessages : UInt64) :
    Call (Bool × Ring) :=
  match data with
  | none => .ok (false, ring)
  | some data =>
    match tx.getMemRegionInfo sizeofT startIdx nMessages with
    | none => .ok (false, ring)
    | some info => do
      let ring ← memcpyTo ring info.firstBaseAddress data sizeofT info.firstCount
      let rest := data.drop (info.firstCount.toNat * sizeofT.toNat)
      let ring ← memcpyTo ring info.secondBaseAddress rest sizeofT info.secondCount
      return (true, ring)

end MemTransaction
end Fmq
