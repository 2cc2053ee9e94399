import Mathlib.Logic.Basic

/-!
# Labelled transition systems

Reachability, the invariant rule, the invariant rule below a bound that grows along every
run, restriction of the steps, and finite runs.
-/
namespace Transition

variable {State Label : Type*}

/-- The states that the runs from an initial state pass through. -/
inductive Reachable (init : State → Prop) (step : State → Label → State → Prop) : State → Prop
  | start {σ} : init σ → Reachable init step σ
  | next {σ a τ} : Reachable init step σ → step σ a τ → Reachable init step τ

variable {init : State → Prop} {step : State → Label → State → Prop} {inv : State → Prop}

theorem Reachable.invariant (holds : ∀ σ, init σ → inv σ)
    (preserved : ∀ σ a τ, inv σ → step σ a τ → inv τ) {σ : State}
    (reachable : Reachable init step σ) : inv σ := by
  induction reachable with
  | start initial => exact holds _ initial
  | next _ taken ih => exact preserved _ _ _ ih taken

/-- An invariant of the runs that stay inside `bound`, when leaving `bound` is final. -/
theorem Reachable.invariant_within (bound inv : State → Prop) (holds : ∀ σ, init σ → inv σ)
    (within : ∀ σ a τ, step σ a τ → bound τ → bound σ)
    (preserved : ∀ σ a τ, inv σ → bound τ → step σ a τ → inv τ) {σ : State}
    (reachable : Reachable init step σ) (bounded : bound σ) : inv σ := by
  induction reachable with
  | start initial => exact holds _ initial
  -- The run up to this step stayed inside the bound too, so the induction hypothesis applies.
  | next _ taken ih => exact preserved _ _ _ (ih (within _ _ _ taken bounded)) bounded taken

/-- The steps whose source and label meet a condition. -/
def Restrict (ok : State → Label → Prop) (step : State → Label → State → Prop) :
    State → Label → State → Prop :=
  fun σ a τ => ok σ a ∧ step σ a τ

/-- A finite run with its labels, first step first. -/
inductive Run (step : State → Label → State → Prop) : State → List Label → State → Prop
  | done (σ) : Run step σ [] σ
  | cons {σ a τ labels υ} : step σ a τ → Run step τ labels υ → Run step σ (a :: labels) υ

theorem Run.mono {step' : State → Label → State → Prop}
    (weaker : ∀ σ a τ, step σ a τ → step' σ a τ) {σ τ : State} {labels : List Label}
    (run : Run step σ labels τ) : Run step' σ labels τ := by
  induction run with
  | done => exact .done _
  | cons taken _ ih => exact .cons (weaker _ _ _ taken) ih

/-- A run whose labels all have a property. -/
theorem Run.restrict {allowed : Label → Prop} {σ τ : State} {labels : List Label}
    (run : Run step σ labels τ) (all : ∀ a ∈ labels, allowed a) :
    Run (Restrict (fun _ => allowed) step) σ labels τ := by
  induction run with
  | done => exact .done _
  | cons taken _ ih =>
    exact .cons ⟨all _ List.mem_cons_self, taken⟩
      (ih fun a member => all a (List.mem_cons_of_mem _ member))

theorem Run.append {σ τ υ : State} {labels labels' : List Label} (run : Run step σ labels τ)
    (run' : Run step τ labels' υ) : Run step σ (labels ++ labels') υ := by
  induction run with
  | done => exact run'
  | cons taken _ ih => exact .cons taken (ih run')

theorem Run.exists_cons {ends : State → Prop} {σ τ : State} {a : Label} {labels : List Label}
    (taken : step σ a τ) (rest : ∃ υ, Run step τ labels υ ∧ ends υ) :
    ∃ υ, Run step σ (a :: labels) υ ∧ ends υ := by
  obtain ⟨υ, run, there⟩ := rest
  exact ⟨υ, .cons taken run, there⟩

/-- A bound at the end of a run is met at its beginning, when leaving it is final. -/
theorem Run.within (bound : State → Prop) (within : ∀ σ a τ, step σ a τ → bound τ → bound σ)
    {σ τ : State} {labels : List Label} (run : Run step σ labels τ) (bounded : bound τ) :
    bound σ := by
  induction run with
  | done => exact bounded
  | cons taken _ ih => exact within _ _ _ taken (ih bounded)

/-- Step by step, a run of one system is a run of another one. -/
theorem Run.image {State' : Type*} {step' : State' → Label → State' → Prop} (f : State → State')
    (preserved : ∀ σ a τ, inv σ → step σ a τ → step' (f σ) a (f τ) ∧ inv τ) {σ τ : State}
    {labels : List Label} (run : Run step σ labels τ) (start : inv σ) :
    Run step' (f σ) labels (f τ) ∧ inv τ := by
  induction run with
  | done => exact ⟨.done _, start⟩
  | cons taken _ ih =>
    obtain ⟨taken', holds⟩ := preserved _ _ _ start taken
    exact ⟨.cons taken' (ih holds).1, (ih holds).2⟩

/-- A run of a system with silent steps is a run of another one, under the labels seen there. -/
theorem Run.project {State' Label' : Type*} {step' : State' → Label' → State' → Prop}
    (f : State → State') (seen : Label → Option Label')
    (preserved : ∀ σ a τ, inv σ → step σ a τ →
      (∀ a', seen a = some a' → step' (f σ) a' (f τ)) ∧ (seen a = none → f τ = f σ) ∧ inv τ)
    {σ τ : State} {labels : List Label} (run : Run step σ labels τ) (start : inv σ) :
    Run step' (f σ) (labels.filterMap seen) (f τ) ∧ inv τ := by
  induction run with
  | done => exact ⟨.done _, start⟩
  | @cons σ a τ labels υ taken _ ih =>
    obtain ⟨visible, silent, holds⟩ := preserved _ _ _ start taken
    obtain ⟨rest, final⟩ := ih holds
    refine ⟨?_, final⟩
    cases label : seen a with
    | none =>
      rw [List.filterMap_cons_none label, ← silent label]
      exact rest
    | some a' =>
      rw [List.filterMap_cons_some label]
      exact .cons (visible a' label) rest

theorem Run.reachable {σ τ : State} {labels : List Label} (run : Run step σ labels τ)
    (reachable : Reachable init step σ) : Reachable init step τ := by
  induction run with
  | done => exact reachable
  | cons taken _ ih => exact ih (.next reachable taken)

end Transition
