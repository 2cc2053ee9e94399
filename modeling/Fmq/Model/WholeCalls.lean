import Mathlib.Logic.Function.Basic
import Fmq.Lib.Transition
import Fmq.Model.Calls
import Fmq.Model.Geometry

/-!
# Endpoints that call `write` and `read`

Any number of endpoints of one queue, each of which may call `write` and `read` with arbitrary
arguments. In a synchronized queue they share the read counter, in an unsynchronized one each has
its own.
-/
namespace Fmq.WholeCalls

structure State (ι : Type) where
  ring : Ring
  writePtr : UInt64
  /-- The read counter in shared memory. -/
  readPtr : UInt64
  /-- The read counters of the endpoints. -/
  ownReadPtr : ι → UInt64
  /-- How many messages were written so far. -/
  written : Nat

inductive Action (ι : Type) where
  | write (i : ι) (data : Option (List UInt8)) (nMessages : UInt64)
  | read (i : ι) (hasData : Bool) (nMessages : UInt64)

variable {ι : Type}

namespace State

variable (flavor : MQFlavor) (σ : State ι)

/-- The storage behind endpoint `i`. -/
def view (i : ι) : Storage :=
  match flavor with
  | .kSynchronizedReadWrite => ⟨σ.ring, σ.readPtr, σ.writePtr⟩
  | .kUnsynchronizedWrite => ⟨σ.ring, σ.ownReadPtr i, σ.writePtr⟩

variable [DecidableEq ι]

/-- The state after a call of endpoint `i` that left `storage` and wrote `more` messages. -/
def after (i : ι) (storage : Storage) (more : Nat) : State ι where
  ring := storage.ring
  writePtr := storage.writePtr
  readPtr := if flavor = .kSynchronizedReadWrite then storage.readPtr else σ.readPtr
  ownReadPtr :=
    if flavor = .kUnsynchronizedWrite then Function.update σ.ownReadPtr i storage.readPtr
    else σ.ownReadPtr
  written := σ.written + more

end State

/-- All counters are reset. -/
def initial (σ : State ι) : Prop := ∃ ring, σ = ⟨ring, 0, 0, fun _ => 0, 0⟩

variable [DecidableEq ι] (g : Geometry) (flavor : MQFlavor)

inductive Step : State ι → Action ι → State ι → Prop
  | write {σ i data nMessages ok storage} :
      (g.queue flavor).write (σ.view flavor i) data nMessages = .ok (ok, storage) →
      Step σ (.write i data nMessages)
        (σ.after flavor i storage (if ok then nMessages.toNat else 0))
  | read {σ i hasData nMessages ok storage data} :
      (g.queue flavor).read (σ.view flavor i) hasData nMessages = .ok (ok, storage, data) →
      Step σ (.read i hasData nMessages) (σ.after flavor i storage 0)

end Fmq.WholeCalls
