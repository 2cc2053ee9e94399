import Fmq.Model.Notifications

/-!
# One call of `wait`

A thread in a single `wait`, with the values that its clock returns, among other threads that make
whatever calls they like.
-/
namespace Fmq.EventFlag

variable {ι : Type} [DecidableEq ι]

/-- The value of `elapsedRealtimeNano` in a step that reads the clock. -/
def clockReading : FreeAction ι → Option Int64
  | .step (.prevTime _ now) | .step (.currentTime _ now) => some now
  | _ => none

namespace Clocked

structure State (ι : Type) where
  flag : EventFlag.State ι
  /-- How often the thread has read the clock. -/
  readings : Nat

/-- A step of another thread, or one of the call: its next reading is the next value of the
clock. -/
inductive Step (i : ι) (clock : Nat → Int64) : State ι → FreeAction ι → State ι → Prop
  | other {σ a φ} : a.actor ≠ i → FreeStep σ.flag a φ → Step i clock σ a { σ with flag := φ }
  | own {σ a φ call pc} : a.actor = i → σ.flag.thread i = .wait call pc → FreeStep σ.flag a φ →
      (∀ now, clockReading a = some now → now = clock σ.readings) →
      Step i clock σ a ⟨φ, σ.readings + (clockReading a).toList.length⟩

/-- The call has just begun, with any word and with the other threads anywhere. -/
def entered (i : ι) (bitmask : UInt32) (hasEfState : Bool) (efState : UInt32)
    (timeoutNanoSeconds : Int64) (retry : Bool) (σ : State ι) : Prop :=
  σ.flag.thread i = wait bitmask hasEfState efState timeoutNanoSeconds retry ∧ σ.readings = 0

end Clocked
end Fmq.EventFlag
