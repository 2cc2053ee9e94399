import Fmq.Model.Queue

/-!
# Ring geometry

The queues whose data grantor holds a whole number of messages, which is what the library
itself allocates.
-/
namespace Fmq

/-- A message size and a capacity whose product, the data size, is a `size_t`. -/
structure Geometry where
  s : Nat
  N : Nat
  s_pos : 0 < s
  N_pos : 0 < N
  fits : N * s < 2 ^ 64

namespace Geometry

variable (g : Geometry)

/-- The queue of element size `s` whose data grantor has the extent `N * s`. -/
def queue (flavor : MQFlavor) : Queue where
  flavor
  sizeofT := .ofNat g.s
  getSize := .ofNat (g.N * g.s)
  getQuantum := .ofNat g.s

/-- The smallest ring: one message of one byte. -/
def single : Geometry := ⟨1, 1, by decide, by decide, by decide⟩

/-- Three messages of one byte. -/
def three : Geometry := ⟨1, 3, by decide, by decide, by decide⟩

end Geometry
end Fmq
