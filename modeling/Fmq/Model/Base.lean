import Mathlib.Algebra.Group.Nat.Defs

/-!
# Common vocabulary

Machine words are `UInt64` (`size_t`, `uint64_t`) and `UInt32`. A call returns a value or ends
in a `Fault`; nothing else of the C++ abstract machine is visible to the model.
-/
namespace Fmq

/-- The ways a call ends without returning. -/
inductive Fault where
  /-- `details::check` aborted the process with this message. -/
  | check (message : String)
  /-- Integer division or remainder by zero. -/
  | divideByZero
  /-- An access through a null pointer. -/
  | nullAccess
  /-- `handle->data[fdIndex]` outside the array. -/
  | fdOutOfRange
  deriving DecidableEq, Repr

abbrev Call (α : Type) := Except Fault α

instance {α : Type} [DecidableEq α] : DecidableEq (Call α)
  | .ok a, .ok b => decidable_of_iff (a = b) (by simp)
  | .error e, .error f => decidable_of_iff (e = f) (by simp)
  | .ok _, .error _ => isFalse (by simp)
  | .error _, .ok _ => isFalse (by simp)

theorem bind_eq_ok {α β : Type} {x : Call α} {f : α → Call β} {b : β} :
    x >>= f = .ok b ↔ ∃ a, x = .ok a ∧ f a = .ok b := by
  cases x with
  | ok a => simp [bind, Except.bind]
  | error e => simp [bind, Except.bind]

/-- The machine's unsigned division. -/
def div (a b : UInt64) : Call UInt64 :=
  if b = 0 then .error .divideByZero else .ok (a / b)

/-- The machine's unsigned remainder. -/
def mod (a b : UInt64) : Call UInt64 :=
  if b = 0 then .error .divideByZero else .ok (a % b)

theorem div_ok (a : UInt64) {b : UInt64} (pos : b ≠ 0) : div a b = .ok (a / b) := if_neg pos

theorem mod_ok (a : UInt64) {b : UInt64} (pos : b ≠ 0) : mod a b = .ok (a % b) := if_neg pos

/-- The machine's signed difference, `none` where it overflows: what happens then is undefined. -/
def signedSub (a b : Int64) : Option Int64 :=
  if (a - b).toInt = a.toInt - b.toInt then some (a - b) else none

inductive MQFlavor where
  | kSynchronizedReadWrite
  | kUnsynchronizedWrite
  deriving DecidableEq, Repr

/-- The value of the enumerator, as stored in `mFlags`. -/
def MQFlavor.value : MQFlavor → UInt32
  | .kSynchronizedReadWrite => 0x01
  | .kUnsynchronizedWrite => 0x02

namespace details

/-- `enum GrantorType`. -/
def READPTRPOS : Nat := 0
def WRITEPTRPOS : Nat := 1
def DATAPTRPOS : Nat := 2
def EVFLAGWORDPOS : Nat := 3

def kMinGrantorCount : Nat := DATAPTRPOS + 1
def kMinGrantorCountForEvFlagSupport : Nat := EVFLAGWORDPOS + 1

def check (exp : Bool) (message : String) : Call Unit :=
  if exp then .ok () else .error (.check message)

/-- Rounds up to a multiple of 8 bytes (`kAlignmentSize / 8`). -/
def alignToWordBoundary (length : UInt64) : Call UInt64 := do
  -- `std::numeric_limits<size_t>::max() - alignmentSize + 1`.
  check (length ≤ 0xFFFFFFFFFFFFFFFF - 8 + 1) "Queue size too large"
  return (length + 8 - 1) &&& ~~~(8 - 1)

def isAlignedToWordBoundary (offset : UInt64) : Bool := offset &&& (8 - 1) == 0

end details
end Fmq
