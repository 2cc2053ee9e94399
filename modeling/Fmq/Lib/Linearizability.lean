import Mathlib.Logic.Function.Basic
import Fmq.Lib.Transition

/-!
# Linearizable objects

Threads call the operations of an object. A call takes effect as a whole at one moment between
its invocation and its response. A system of which each step is a step of such an object, or
none, has no other histories.
-/
namespace Linearizability

open Function Transition

variable {Item Thread Op Reply State : Type*}

inductive Event (Thread Op Reply : Type*) where
  | invoke (thread : Thread) (op : Op)
  | respond (thread : Thread) (reply : Reply)
  /-- The thread ends, wherever it is in its call, and another one takes its place. -/
  | crash (thread : Thread)

inductive Status (Op Reply : Type*) where
  | idle
  /-- Invoked, without effect so far. -/
  | pending (op : Op)
  /-- Its effect has taken place. -/
  | performed (reply : Reply)

/-- An object with the calls that are in progress. -/
structure Atomic (Item Thread Op Reply : Type*) where
  item : Item
  status : Thread → Status Op Reply

/-- The object before any call. -/
def Atomic.initial (item : Item) : Atomic Item Thread Op Reply := ⟨item, fun _ => .idle⟩

/-- The events of a run, whose other labels are `none`. -/
def history (labels : List (Option (Event Thread Op Reply))) : List (Event Thread Op Reply) :=
  labels.filterMap id

theorem history_append (labels labels' : List (Option (Event Thread Op Reply))) :
    history (labels ++ labels') = history labels ++ history labels' :=
  List.filterMap_append

variable [DecidableEq Thread]

/-- The steps of an object whose operations do what `spec` says. -/
inductive Atomic.Step (spec : Item → Op → Item × Reply) :
    Atomic Item Thread Op Reply → Option (Event Thread Op Reply) →
      Atomic Item Thread Op Reply → Prop
  | invoke {α t op} : α.status t = .idle →
      Step spec α (some (.invoke t op)) ⟨α.item, update α.status t (.pending op)⟩
  | perform {α t op} : α.status t = .pending op →
      Step spec α none ⟨(spec α.item op).1, update α.status t (.performed (spec α.item op).2)⟩
  | respond {α t reply} : α.status t = .performed reply →
      Step spec α (some (.respond t reply)) ⟨α.item, update α.status t .idle⟩
  /-- A call that has had its effect keeps it, another one never has any. -/
  | crash {α t} : Step spec α (some (.crash t)) ⟨α.item, update α.status t .idle⟩

/-- A history of the object that holds `item` at first. -/
def Linearizable (spec : Item → Op → Item × Reply) (item : Item)
    (events : List (Event Thread Op Reply)) : Prop :=
  ∃ labels α, Run (Atomic.Step spec) (.initial item) labels α ∧ history labels = events

/-! ## Proofs by simulation -/

variable {spec : Item → Op → Item × Reply}
  {step : State → Option (Event Thread Op Reply) → State → Prop}

/-- The object does what a step shows, before or after calls that take effect. -/
def Follows (spec : Item → Op → Item × Reply) (α : Atomic Item Thread Op Reply)
    (label : Option (Event Thread Op Reply)) (β : Atomic Item Thread Op Reply) : Prop :=
  ∃ labels, Run (Atomic.Step spec) α labels β ∧ history labels = label.toList

theorem Follows.stays (α : Atomic Item Thread Op Reply) : Follows spec α none α :=
  ⟨[], .done α, rfl⟩

theorem Follows.single {α β : Atomic Item Thread Op Reply}
    {label : Option (Event Thread Op Reply)} (taken : Atomic.Step spec α label β) :
    Follows spec α label β := by
  refine ⟨[label], .cons taken (.done β), ?_⟩
  cases label <;> rfl

/-- The rule for runs inside of a bound that holds of all earlier states too. -/
theorem linearizable_of_simulation (bound : State → Prop)
    (rel : State → Atomic Item Thread Op Reply → Prop)
    (within : ∀ σ a τ, step σ a τ → bound τ → bound σ)
    (sim : ∀ σ a τ α, rel σ α → bound τ → step σ a τ → ∃ β, Follows spec α a β ∧ rel τ β)
    {σ τ : State} {labels : List (Option (Event Thread Op Reply))}
    (run : Run step σ labels τ) (bounded : bound τ) {item : Item} (start : rel σ (.initial item)) :
    Linearizable spec item (history labels) ∧ ∃ α, rel τ α := by
  suffices ∀ α, rel σ α → ∃ labels' β, Run (Atomic.Step spec) α labels' β ∧
      history labels' = history labels ∧ rel τ β by
    obtain ⟨labels', α, run', same, related⟩ := this _ start
    exact ⟨⟨labels', α, run', same⟩, α, related⟩
  clear start
  induction run with
  | done => exact fun α related => ⟨[], α, .done α, rfl, related⟩
  | @cons σ a τ labels υ taken rest ih =>
    intro α related
    obtain ⟨β, ⟨first, run_first, shows_⟩, related⟩ :=
      sim _ _ _ _ related (rest.within bound within bounded) taken
    obtain ⟨labels', γ, run_rest, same, related⟩ := ih bounded β related
    refine ⟨first ++ labels', γ, run_first.append run_rest, ?_, related⟩
    rw [history_append, shows_, same]
    cases a <;> rfl

end Linearizability
