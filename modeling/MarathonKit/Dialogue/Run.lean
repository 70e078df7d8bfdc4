import Mathlib.Data.List.Basic

/-!
Runs of a system that takes one labelled step after another.

The rules here each package one induction on a run, so that a property of every
run needs a lemma about one step only:

* `Run.invariant` — what every step keeps, holds at the end;
* `Run.all` — what every step from a good state says of its label, all labels say;
* `Run.conserves` — what is moved step by step is moved in one piece;
* `Run.refines` — an abstraction of the states that turns steps into abstract
  steps turns runs into abstract runs.

A step that goes wrong ends a run: of the state after it nothing is known. In
`UntilWrong` it leads to no state at all, and `Run.known_iff` takes a run that
has not gone wrong back to one of ordinary steps.
-/

namespace Dialogue

/-- Finitely many steps, with their labels in order. -/
inductive Run {σ ℓ : Type} (step : σ → ℓ → σ → Prop) : σ → List ℓ → σ → Prop where
  | nil (s : σ) : Run step s [] s
  | cons {s s' s'' : σ} {l : ℓ} {ls : List ℓ} :
      step s l s' → Run step s' ls s'' → Run step s (l :: ls) s''

namespace Run

variable {σ τ ℓ κ α : Type} {step : σ → ℓ → σ → Prop} {s s' s'' : σ} {l : ℓ} {ls ls' : List ℓ}
  {I : σ → Prop}

theorem single (once : step s l s') : Run step s [l] s' := .cons once (.nil s')

theorem append (first : Run step s ls s') (rest : Run step s' ls' s'') :
    Run step s (ls ++ ls') s'' := by
  induction first with
  | nil => exact rest
  | cons once _ ih => exact .cons once (ih rest)

/-- One more step, at the end. -/
theorem snoc (run : Run step s ls s') (once : step s' l s'') : Run step s (ls ++ [l]) s'' :=
  run.append (.single once)

theorem mono {step' : σ → ℓ → σ → Prop} (run : Run step s ls s')
    (weaker : ∀ s l s', step s l s' → step' s l s') : Run step' s ls s' := by
  induction run with
  | nil s => exact .nil s
  | cons once _ ih => exact .cons (weaker _ _ _ once) ih

theorem invariant (run : Run step s ls s') (keeps : ∀ s l s', I s → step s l s' → I s')
    (start : I s) : I s' := by
  induction run with
  | nil => exact start
  | cons once _ ih => exact ih (keeps _ _ _ start once)

theorem all {P : ℓ → Prop} (run : Run step s ls s')
    (keeps : ∀ s l s', I s → step s l s' → I s' ∧ P l) (start : I s) : ∀ l ∈ ls, P l := by
  induction run with
  | nil => simp
  | cons once _ ih =>
      obtain ⟨held, good⟩ := keeps _ _ _ start once
      exact List.forall_mem_cons.mpr ⟨good, ih held⟩

/-- If every step takes what its label says off `content`, so does the run. -/
theorem conserves (content : σ → List α) (taken : ℓ → List α) (run : Run step s ls s')
    (keeps : ∀ s l s', I s → step s l s' → I s' ∧ content s = taken l ++ content s')
    (start : I s) : content s = ls.flatMap taken ++ content s' := by
  induction run with
  | nil => simp
  | cons once _ ih =>
      obtain ⟨held, moved⟩ := keeps _ _ _ start once
      rw [moved, ih held, List.flatMap_cons, List.append_assoc]

theorem refines (abstract : τ → κ → τ → Prop) (toState : σ → τ) (toLabel : ℓ → κ)
    (run : Run step s ls s')
    (simulates : ∀ s l s', I s → step s l s' →
      I s' ∧ abstract (toState s) (toLabel l) (toState s'))
    (start : I s) : Run abstract (toState s) (ls.map toLabel) (toState s') := by
  induction run with
  | nil s => exact .nil _
  | cons once _ ih =>
      obtain ⟨held, simulated⟩ := simulates _ _ _ start once
      exact .cons simulated (ih held)

end Run

/-- The steps of a program that may go wrong: the one that does is the last. -/
inductive UntilWrong {σ ℓ : Type} (acts : σ → ℓ → σ → Prop) (wrong : ℓ → Prop) :
    Option σ → ℓ → Option σ → Prop where
  | goesOn {s s' : σ} {l : ℓ} :
      acts s l s' → ¬ wrong l → UntilWrong acts wrong (some s) l (some s')
  | goesWrong {s s' : σ} {l : ℓ} : acts s l s' → wrong l → UntilWrong acts wrong (some s) l none

namespace Run

variable {σ ℓ : Type} {acts : σ → ℓ → σ → Prop} {wrong : ℓ → Prop} {s s' : σ} {r : Option σ}
  {ls : List ℓ}

/-- Nothing follows a step that has gone wrong. -/
theorem of_none (run : Run (UntilWrong acts wrong) none ls r) : ls = [] ∧ r = none := by
  cases run with
  | nil => exact ⟨rfl, rfl⟩
  | cons once _ => cases once

theorem known_iff : Run (UntilWrong acts wrong) (some s) ls (some s') ↔
    Run (fun s l s' => acts s l s' ∧ ¬ wrong l) s ls s' := by
  constructor
  · intro run
    induction ls generalizing s with
    | nil =>
        cases run
        exact .nil _
    | cons l ls ih =>
        cases run with
        | cons once rest =>
            cases once with
            | goesOn acted safe => exact .cons ⟨acted, safe⟩ (ih rest)
            | goesWrong _ _ => exact absurd (of_none rest).2 (by simp)
  · intro run
    induction run with
    | nil s => exact .nil (some s)
    | cons once _ ih => exact .cons (.goesOn once.1 once.2) ih

/-- A run goes wrong in its last step, if it does. -/
theorem ended_iff : Run (UntilWrong acts wrong) (some s) ls none ↔ ∃ before l s₁ s₂,
    ls = before ++ [l] ∧ Run (fun s l s' => acts s l s' ∧ ¬ wrong l) s before s₁ ∧
      acts s₁ l s₂ ∧ wrong l := by
  constructor
  · intro run
    induction ls generalizing s with
    | nil => cases run
    | cons l ls ih =>
        cases run with
        | cons once rest =>
            cases once with
            | goesOn acted safe =>
                obtain ⟨before, last, s₁, s₂, rfl, run, ends⟩ := ih rest
                exact ⟨l :: before, last, s₁, s₂, rfl, .cons ⟨acted, safe⟩ run, ends⟩
            | goesWrong acted isWrong =>
                obtain ⟨rfl, -⟩ := of_none rest
                exact ⟨[], l, s, _, rfl, .nil s, acted, isWrong⟩
  · rintro ⟨before, l, s₁, s₂, rfl, run, acted, isWrong⟩
    exact (known_iff.mpr run).snoc (.goesWrong acted isWrong)

/-- A state is known as long as no step has gone wrong. -/
theorem isSome_iff (run : Run (UntilWrong acts wrong) (some s) ls r) :
    r.isSome ↔ ∀ l ∈ ls, ¬ wrong l := by
  cases r with
  | some s' =>
      have safe : ∀ l ∈ ls, ¬ wrong l := (known_iff.mp run).all (I := fun _ => True)
        (fun _ _ _ _ once => ⟨trivial, once.2⟩) trivial
      simpa using safe
  | none =>
      obtain ⟨before, l, s₁, s₂, rfl, -, -, isWrong⟩ := ended_iff.mp run
      simp [isWrong]

/-- What is true of the label of every act from a good state is true of all labels,
the last one included. -/
theorem all_acts {I : σ → Prop} {P : ℓ → Prop} (run : Run (UntilWrong acts wrong) (some s) ls r)
    (keeps : ∀ s l s', I s → acts s l s' → I s' ∧ P l) (start : I s) : ∀ l ∈ ls, P l := by
  refine run.all (I := fun r => ∀ s ∈ r, I s) ?_ (by simpa using start)
  rintro r l r' good once
  cases once with
  | goesOn acted _ =>
      obtain ⟨held, holds⟩ := keeps _ _ _ (good _ rfl) acted
      exact ⟨by simpa using held, holds⟩
  | goesWrong acted _ => exact ⟨by simp, (keeps _ _ _ (good _ rfl) acted).2⟩

end Run

end Dialogue
