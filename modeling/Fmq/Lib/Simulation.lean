import Fmq.Lib.Transition

/-!
# Stuttering simulation

A step of one system is matched by a finite run of another one, possibly by an empty one.
-/
namespace Transition

variable {State State' Label Label' : Type*}

/-- Every step from a state related to `σ'` is matched by a run from `σ'`. -/
def Simulates (step : State → Label → State → Prop) (step' : State' → Label' → State' → Prop)
    (rel : State → State' → Prop) : Prop :=
  ∀ σ a τ σ', rel σ σ' → step σ a τ → ∃ labels τ', Run step' σ' labels τ' ∧ rel τ τ'

variable {step : State → Label → State → Prop} {step' : State' → Label' → State' → Prop}
  {rel : State → State' → Prop} {init : State → Prop} {init' : State' → Prop}

theorem Run.single {σ τ : State} {a : Label} (taken : step σ a τ) : Run step σ [a] τ :=
  .cons taken (.done τ)

/-- Every reachable state of the first system is related to a reachable one of the second. -/
theorem Simulates.reachable (sim : Simulates step step' rel)
    (starts : ∀ σ, init σ → ∃ σ', init' σ' ∧ rel σ σ') {σ : State}
    (reachable : Reachable init step σ) : ∃ σ', Reachable init' step' σ' ∧ rel σ σ' := by
  induction reachable with
  | start initial =>
    obtain ⟨σ', initial', related⟩ := starts _ initial
    exact ⟨σ', .start initial', related⟩
  | next _ taken ih =>
    obtain ⟨σ', reachable', related⟩ := ih
    obtain ⟨_, τ', run, related'⟩ := sim _ _ _ _ related taken
    exact ⟨τ', run.reachable reachable', related'⟩

/-- A run starts in one of the initial states. -/
theorem Reachable.exists_init {ι : Type*} {inits : ι → State → Prop} {σ : State}
    (reachable : Reachable (fun σ => ∃ i, inits i σ) step σ) : ∃ i, Reachable (inits i) step σ := by
  induction reachable with
  | start initial =>
    obtain ⟨i, initial⟩ := initial
    exact ⟨i, .start initial⟩
  | next _ taken ih =>
    obtain ⟨i, reachable⟩ := ih
    exact ⟨i, .next reachable taken⟩

end Transition
