import Fmq.Lib.Memory
import Fmq.Model.Geometry

/-!
# Open transactions of the two sides

Between `begin` and `commit` a side holds a granted transaction. What it stored or copied so
far is recorded slot by slot; the code does not read these records.
-/
namespace Fmq

open Memory

variable {s : Nat}

/-- A transaction granted by `beginWrite`. -/
structure OpenWrite (s : Nat) where
  tx : MemTransaction
  nMessages : UInt64
  /-- The message last stored into slot `i` of the transaction. -/
  stored : Nat → Option (Vector UInt8 s)

/-- A transaction granted by `beginRead`. -/
structure OpenRead (s : Nat) where
  tx : MemTransaction
  nMessages : UInt64
  /-- The message last copied out of slot `i` of the transaction. -/
  copied : Nat → Option (Vector UInt8 s)

def OpenWrite.granted (tx : MemTransaction) (nMessages : UInt64) : OpenWrite s :=
  ⟨tx, nMessages, fun _ => none⟩

def OpenRead.granted (tx : MemTransaction) (nMessages : UInt64) : OpenRead s :=
  ⟨tx, nMessages, fun _ => none⟩

/-- The record after `xs` was stored into the slots from `start` on. -/
def OpenWrite.note (w : OpenWrite s) (start : Nat) (xs : List (Vector UInt8 s)) : OpenWrite s :=
  { w with stored := store w.stored start (xs.map some) }

def OpenRead.note (r : OpenRead s) (start : Nat) (xs : List (Vector UInt8 s)) : OpenRead s :=
  { r with copied := store r.copied start (xs.map some) }

/-- `*tx.getSlot(idx) = x`. -/
def MemTransaction.storeSlot (tx : MemTransaction) (sizeofT : UInt64) (ring : Ring) (idx : UInt64)
    (x : Vector UInt8 s) : Call Ring :=
  memcpyTo ring (tx.getSlot sizeofT idx) x.toList sizeofT 1

end Fmq
