import Mathlib.Algebra.Order.Group.Multiset

/-!
# Programs that own resources

A program requests resources from its system and releases them. A triple says which resources it
takes over and which it leaves to its caller, next to any others; and that it never releases one
that is not there. The system answers each request as it likes, up to a law that it keeps.
-/
namespace Ownership

variable {R ε α β : Type}

/-- Why a program ends early. -/
inductive Stop (R ε : Type) where
  | fault (e : ε)
  /-- This resource was released, but nobody had it. -/
  | notLive (r : R)

structure Ledger (R : Type) where
  live : Multiset R
  /-- How many requests were made. -/
  calls : Nat

abbrev Prog (R ε α : Type) := StateT (Ledger R) (Except (Stop R ε)) α

/-- A request that the system answers, and the resources that come with the answer. -/
def request (answer : Nat → Multiset R → α) (grants : α → Multiset R) : Prog R ε α := fun l =>
  .ok (answer l.calls l.live, ⟨grants (answer l.calls l.live) + l.live, l.calls + 1⟩)

def release [DecidableEq R] (r : R) : Prog R ε Unit := fun l =>
  if r ∈ l.live then .ok ((), ⟨l.live.erase r, l.calls⟩) else .error (.notLive r)

def fail (e : ε) : Prog R ε α := fun _ => .error (.fault e)

/-- A computation without resources. -/
def lift : Except ε α → Prog R ε α
  | .ok a => pure a
  | .error e => fail e

/-! ## Triples -/

/-- The program takes the resources `before` and leaves the resources `after`, next to any others,
and the law of the system keeps to hold. -/
def Owns (law : Multiset R → Prop) (before : Multiset R) (prog : Prog R ε α)
    (after : α → Multiset R) : Prop :=
  ∀ frame calls, law (before + frame) →
    match prog ⟨before + frame, calls⟩ with
    | .ok (a, l) => l.live = after a + frame ∧ law l.live
    | .error (.fault _) => True
    | .error (.notLive _) => False

variable {law : Multiset R → Prop} {before before' : Multiset R} {prog : Prog R ε α}
  {after after' : α → Multiset R}

theorem Owns.pure (a : α) (after : α → Multiset R) :
    Owns (ε := ε) law (after a) (pure a) after := fun _ _ kept => ⟨rfl, kept⟩

theorem Owns.fail (e : ε) : Owns law before (fail e) after := fun _ _ _ => trivial

theorem Owns.lift (x : Except ε α) : Owns law before (lift x) fun _ => before := by
  cases x with
  | ok a => exact Owns.pure a fun _ => before
  | error e => exact Owns.fail e

theorem Owns.congr (owns : Owns law before prog after) (same : before' = before)
    (same' : ∀ a, after' a = after a) : Owns law before' prog after' := by
  have eq : after' = after := funext same'
  rwa [same, eq]

theorem Owns.bind {rest : α → Prog R ε β} {last : β → Multiset R}
    (first : Owns law before prog after) (second : ∀ a, Owns law (after a) (rest a) last) :
    Owns law before (prog >>= rest) last := by
  intro frame calls kept
  have one := first frame calls kept
  show match (prog ⟨before + frame, calls⟩ >>= fun x => rest x.1 x.2) with
    | .ok (a, l) => l.live = last a + frame ∧ law l.live
    | .error (.fault _) => True
    | .error (.notLive _) => False
  cases ran : prog ⟨before + frame, calls⟩ with
  | error stop =>
    rw [ran] at one
    cases stop with
    | fault e => trivial
    | notLive r => cases one
  | ok result =>
    obtain ⟨a, l⟩ := result
    rw [ran] at one
    obtain ⟨live, kept'⟩ := one
    obtain ⟨l, calls'⟩ := l
    dsimp only at live kept'
    subst live
    exact second a frame calls' kept'

/-- Frame: other resources stay. -/
theorem Owns.frame (owns : Owns law before prog after) (others : Multiset R) :
    Owns law (before + others) prog fun a => after a + others := by
  intro frame calls kept
  simp only [add_assoc] at kept ⊢
  exact owns (others + frame) calls kept

/-- What follows works beside what was there before. -/
theorem Owns.seq {rest : α → Prog R ε β} {last : β → Multiset R} {others : Multiset R}
    (first : Owns law before prog after) (second : ∀ a, Owns law (after a + others) (rest a) last) :
    Owns law (before + others) (prog >>= rest) last :=
  (first.frame others).bind second

theorem Owns.acquire {rest : α → Prog R ε β} {last : β → Multiset R} {others : Multiset R}
    (first : Owns law 0 prog after)
    (second : ∀ a, Owns law (after a + others) (rest a) last) :
    Owns law others (prog >>= rest) last := by
  rw [← zero_add others]
  exact first.seq second

theorem Owns.dispose {rest : α → Prog R ε β} {last : β → Multiset R} {others : Multiset R}
    (first : Owns law before prog fun _ => 0) (second : ∀ a, Owns law others (rest a) last) :
    Owns law (before + others) (prog >>= rest) last := by
  refine first.seq fun a => ?_
  rw [zero_add]
  exact second a

/-- A check that was passed is known afterwards. -/
theorem Owns.checked {x : Except ε α} {rest : α → Prog R ε β} {last : β → Multiset R}
    (second : ∀ a, x = .ok a → Owns law before (rest a) last) :
    Owns law before (Ownership.lift x >>= rest) last := by
  cases x with
  | ok a => exact second a rfl
  | error e => exact fun _ _ _ => trivial

/-- Only what the system can answer counts. -/
theorem Owns.request {answer : Nat → Multiset R → α} {grants : α → Multiset R}
    (lawful : ∀ n live, law live → grants (answer n live) = after (answer n live) ∧
      law (after (answer n live) + live)) :
    Owns (ε := ε) law 0 (request answer grants) after := by
  intro frame calls kept
  rw [zero_add] at kept ⊢
  obtain ⟨granted, kept⟩ := lawful calls frame kept
  dsimp only [Ownership.request]
  rw [granted]
  exact ⟨rfl, kept⟩

theorem Owns.release [DecidableEq R] (closed : ∀ r live, law (r ::ₘ live) → law live) (r : R) :
    Owns (ε := ε) law {r} (release r) fun _ => 0 := by
  intro frame calls kept
  have member : r ∈ {r} + frame := Multiset.mem_add.mpr (.inl (Multiset.mem_singleton_self r))
  unfold Ownership.release
  rw [if_pos member]
  rw [Multiset.singleton_add] at kept ⊢
  rw [Multiset.erase_cons_head]
  exact ⟨(zero_add frame).symm, closed r frame kept⟩

/-! ## Values -/

/-- Apart from the resources, the program computes this, which is `value` of its own result. -/
def Computes (value : α → β) (prog : Prog R ε α) (x : Except ε β) : Prop :=
  ∀ l, match prog l with
    | .ok (a, _) => x = .ok (value a)
    | .error (.fault e) => x = .error e
    | .error (.notLive _) => True

/-- It computes nothing. -/
abbrev Silent (prog : Prog R ε α) : Prop := Computes (fun _ => ()) prog (.ok ())

variable {γ δ : Type} {value : α → β}

theorem Computes.pure (value : α → β) (a : α) :
    Computes (R := R) (ε := ε) value (pure a) (.ok (value a)) := fun _ => rfl

theorem Computes.fail (e : ε) : Computes (R := R) value (fail e) (.error e) := fun _ => rfl

theorem Computes.lift (x : Except ε α) : Computes (R := R) id (lift x) x := by
  cases x with
  | ok a => exact Computes.pure id a
  | error e => exact Computes.fail e

theorem Computes.bind {rest : α → Prog R ε γ} {last : γ → δ} {x : Except ε β}
    {y : β → Except ε δ} (first : Computes value prog x)
    (second : ∀ a, Computes last (rest a) (y (value a))) :
    Computes last (prog >>= rest) (x >>= y) := by
  intro l
  have one := first l
  show match (prog l >>= fun x => rest x.1 x.2) with
    | .ok (a, _) => (x >>= y) = .ok (last a)
    | .error (.fault e) => (x >>= y) = .error e
    | .error (.notLive _) => True
  cases ran : prog l with
  | error stop =>
    rw [ran] at one
    cases stop with
    | fault e =>
      have same : x = .error e := one
      rw [same]
      rfl
    | notLive r => trivial
  | ok result =>
    rw [ran] at one
    have same : x = .ok (value result.1) := one
    rw [same]
    exact second result.1 result.2

/-- After an answer that is known. -/
theorem Computes.known {rest : α → Prog R ε γ} {last : γ → δ} {b : β} {y : Except ε δ}
    (first : Computes value prog (.ok b))
    (second : ∀ a, value a = b → Computes last (rest a) y) :
    Computes last (prog >>= rest) y := by
  intro l
  have one := first l
  show match (prog l >>= fun x => rest x.1 x.2) with
    | .ok (a, _) => y = .ok (last a)
    | .error (.fault e) => y = .error e
    | .error (.notLive _) => True
  cases ran : prog l with
  | error stop =>
    rw [ran] at one
    cases stop with
    | fault e => cases one
    | notLive r => trivial
  | ok result =>
    rw [ran] at one
    exact second result.1 (Except.ok.inj one).symm result.2

/-- One step of both. -/
theorem Computes.step {rest : α → Prog R ε γ} {last : γ → δ} {x : Except ε α}
    {y : α → Except ε δ} (first : Computes id prog x)
    (second : ∀ a, Computes last (rest a) (y a)) :
    Computes last (prog >>= rest) (x >>= y) := first.bind second

/-- A step whose answer the other one has at once. -/
theorem Computes.answer {rest : α → Prog R ε γ} {last : γ → δ} {a : α} {y : Except ε δ}
    (first : Computes id prog (.ok a)) (second : Computes last (rest a) y) :
    Computes last (prog >>= rest) y := by
  refine first.known fun answered same => ?_
  cases same
  exact second

/-- A step that the other one does not make. -/
theorem Silent.then {rest : α → Prog R ε γ} {last : γ → δ} {y : Except ε δ}
    (first : Silent prog) (second : ∀ a, Computes last (rest a) y) :
    Computes last (prog >>= rest) y :=
  first.known fun a _ => second a

theorem Computes.request {answer : Nat → Multiset R → α} {grants : α → Multiset R} {a : α}
    (constant : ∀ n live, answer n live = a) :
    Computes (ε := ε) id (request answer grants) (.ok a) := fun l =>
  congrArg Except.ok (constant l.calls l.live).symm

theorem Silent.request (answer : Nat → Multiset R → α) (grants : α → Multiset R) :
    Silent (ε := ε) (request answer grants) := fun _ => rfl

theorem Silent.release [DecidableEq R] (r : R) : Silent (ε := ε) (release r) := by
  intro l
  unfold Ownership.release
  by_cases member : r ∈ l.live
  · rw [if_pos member]
  · rw [if_neg member]
    trivial

end Ownership
