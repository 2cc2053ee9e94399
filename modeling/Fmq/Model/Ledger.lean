import Fmq.Lib.Scatter
import Fmq.Lib.Transition
import Fmq.Model.MappedCalls

/-!
# Whole calls over an arbitrary data extent

`write` and `read` on the mapped bytes of a synchronized queue whose data extent need not be a
multiple of the message size, with a ledger of where the unread messages are.
-/
namespace Fmq

open Memory SharedFiles

/-- A message size and a data extent that has room for a message. -/
structure Extent where
  sizeofT : UInt64
  size : UInt64
  pos : sizeofT ≠ 0
  fits : sizeofT ≤ size

namespace Extent

variable (e : Extent)

abbrev s : Nat := e.sizeofT.toNat

abbrev E : Nat := e.size.toNat

/-- The capacity in messages. -/
def C : Nat := e.E / e.s

abbrev queue : Queue := ⟨.kSynchronizedReadWrite, e.sizeofT, e.size, e.sizeofT⟩

end Extent

namespace Ledger

/-- An unread message: where `write` stored it, and what it stored. -/
structure Message (s : Nat) where
  offset : Nat
  value : Vector UInt8 s

structure State (F : Type) (s : Nat) where
  files : Files F UInt8
  unread : List (Message s)
  /-- The number of messages written so far. -/
  written : Nat

inductive Action (s : Nat) where
  | write (xs : List (Vector UInt8 s)) (ok : Bool)
  /-- With the bytes delivered, `none` for the return value `false`. -/
  | read (n : Nat) (data : Option (List UInt8))

/-- The messages `xs` in the slots of a transaction. -/
def messages {s : Nat} (tx : MemTransaction) (xs : List (Vector UInt8 s)) : List (Message s) :=
  xs.mapIdx fun i x => ⟨tx.slotOffset s i, x⟩

variable {F : Type}

/-- The state after a `write` that was granted `tx` and returned `ok`. -/
def State.afterWrite {s : Nat} (σ : State F s) (xs : List (Vector UInt8 s)) (tx : MemTransaction)
    (ok : Bool) (files : Files F UInt8) : State F s :=
  if ok then ⟨files, σ.unread ++ messages tx xs, σ.written + xs.length⟩ else { σ with files }

def State.afterRead {s : Nat} (σ : State F s) (n : Nat) (ok : Bool) (files : Files F UInt8) :
    State F s :=
  if ok then ⟨files, σ.unread.drop n, σ.written⟩ else { σ with files }

variable [DecidableEq F] (object : Endpoint F) {s : Nat}

/-- The constructor has stored to the counters, and nothing is written yet. -/
def initial (σ : State F s) : Prop :=
  ∃ memory files, object.initStores memory = .ok files ∧ σ = ⟨files, [], 0⟩

/-- One call. The caller's buffer of `n` messages is an object of `n * sizeof(T)` bytes. -/
inductive Step : State F s → Action s → State F s → Prop
  | write {σ xs begun tx ok files} : xs.length * s < 2 ^ 64 →
      object.beginWrite σ.files (.ofNat xs.length) .empty = .ok (begun, tx) →
      object.write σ.files (some (flat xs)) (.ofNat xs.length) = .ok (ok, files) →
      Step σ (.write xs ok) (σ.afterWrite xs tx ok files)
  | read {σ n ok files data} : n * s < 2 ^ 64 →
      object.read σ.files true (.ofNat n) = .ok (ok, files, data) →
      Step σ (.read n (if ok then data else none)) (σ.afterRead n ok files)

end Ledger
end Fmq
