/-!
# Bounded first-in first-out queue

A queue is the list of its items, oldest first. Writes and reads of several items are
all-or-nothing.
-/
namespace BoundedFifo

variable {α δ ε : Type}

inductive Op (α : Type) where
  | write (xs : List α)
  | read (n : Nat)
  | availableToRead
  | availableToWrite

/-- What a call returns; `δ` is the form in which read items are delivered. -/
inductive Reply (δ : Type) where
  | written (ok : Bool)
  | read (items : Option δ)
  | count (n : Nat)
  deriving DecidableEq

def Reply.map (f : δ → ε) : Reply δ → Reply ε
  | .written ok => .written ok
  | .read items => .read (items.map f)
  | .count n => .count n

def step (capacity : Nat) (q : List α) : Op α → List α × Reply (List α)
  | .write xs =>
    if xs.length ≤ capacity - q.length then (q ++ xs, .written true) else (q, .written false)
  | .read n => if n ≤ q.length then (q.drop n, .read (some (q.take n))) else (q, .read none)
  | .availableToRead => (q, .count q.length)
  | .availableToWrite => (q, .count (capacity - q.length))

/-- The replies of a sequence of calls. -/
def replies (capacity : Nat) : List α → List (Op α) → List (Reply (List α))
  | _, [] => []
  | q, op :: ops => (step capacity q op).2 :: replies capacity (step capacity q op).1 ops

/-- The number of items that one call writes, given its reply. -/
def accepted : Op α → Reply δ → Nat
  | .write xs, .written true => xs.length
  | _, _ => 0

/-- The number of items written by a sequence of calls with these replies. -/
def written : List (Op α) → List (Reply δ) → Nat
  | op :: ops, r :: rs => accepted op r + written ops rs
  | _, _ => 0

end BoundedFifo
