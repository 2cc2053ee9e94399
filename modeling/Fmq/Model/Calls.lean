import Fmq.Lib.BoundedFifo
import Fmq.Model.Queue

/-!
# Sequences of whole calls

One endpoint, or a writer and a reader that never overlap, calling `write`, `read`,
`availableToRead` and `availableToWrite` with non-null buffers.
-/
namespace Fmq

open BoundedFifo Memory

/-- A call that a caller can make: the buffers of `write` and of `read` exist. -/
def Callable {s : Nat} : Op (Vector UInt8 s) → Prop
  | .write xs => xs.length < 2 ^ 64
  | .read n => n * s < 2 ^ 64
  | .availableToRead | .availableToWrite => True

namespace Queue

variable {s : Nat} (q : Queue)

/-- One call. `write(xs)` is `write(data, |xs|)` for a buffer that holds `xs`. -/
def exec (σ : Storage) : Op (Vector UInt8 s) → Call (Storage × Reply (List UInt8))
  | .write xs => do
    let (ok, σ) ← q.write σ (some (flat xs)) (.ofNat xs.length)
    return (σ, .written ok)
  | .read n => do
    let (ok, σ, data) ← q.read σ true (.ofNat n)
    return (σ, .read (if ok then data else none))
  | .availableToRead => do
    return (σ, .count (← q.availableToRead σ.writePtr σ.readPtr).toNat)
  | .availableToWrite => do
    return (σ, .count (← q.availableToWrite σ.writePtr σ.readPtr).toNat)

/-- The replies of a sequence of calls. -/
def execAll (σ : Storage) : List (Op (Vector UInt8 s)) → Call (List (Reply (List UInt8)))
  | [] => return []
  | op :: ops => do
    let (σ, r) ← q.exec σ op
    return r :: (← execAll σ ops)

end Queue

/-- The storage after the counters were reset, over a ring with arbitrary bytes. -/
def Storage.reset (ring : Ring) : Storage := ⟨ring, 0, 0⟩

end Fmq
