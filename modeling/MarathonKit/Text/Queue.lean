import MarathonKit.Dialogue.Run
import MarathonKit.Text.Lines

/-!
A queue of symbols that is read by symbols and by lines.

This is what a buffered reader is for, without the buffer: the symbols still to
come are a list, and each operation takes either nothing, or the first symbol,
or everything up to the first separator together with that separator. Nothing
else is said about a reader, so two facts about this queue are facts about every
reader that refines it:

* `conserves` — what was taken, put back in front of what is left, is what there
  was (`Take.symbols` puts the separator back behind a line);
* `deterministic` — what the takes give depends on their kinds and on the queue
  alone, however many takes of nothing lie between them.
-/

namespace Text.Queue

open Dialogue

variable {α : Type} {sep : α}

/-- What one operation takes off the front. -/
inductive Take (α : Type) where
  | nothing
  | first (a : α)
  | line (symbols : List α)
deriving DecidableEq, Repr

inductive Kind where
  | nothing | first | line
deriving DecidableEq, Repr

def Take.kind : Take α → Kind
  | nothing => .nothing
  | first _ => .first
  | line _ => .line

/-- The symbols that are gone from the queue. -/
def Take.symbols (sep : α) : Take α → List α
  | nothing => []
  | first a => [a]
  | line symbols => symbols ++ [sep]

/-- Does it take anything? -/
def Take.serves (t : Take α) : Bool := t.kind ≠ .nothing

/-- One operation on the queue `p` leaves `p'`. -/
def Step (sep : α) (p : List α) : Take α → List α → Prop
  | .nothing, p' => p = p'
  | .first a, p' => p = a :: p'
  | .line symbols, p' => sep ∉ symbols ∧ p = symbols ++ sep :: p'

variable {p p' q q' : List α} {t u : Take α} {ts us : List (Take α)}

theorem Step.conserves (step : Step sep p t p') : p = t.symbols sep ++ p' := by
  cases t with
  | nothing => exact step
  | first a => exact step
  | line symbols => simpa [Take.symbols] using step.2

theorem conserves (run : Run (Step sep) p ts p') : p = ts.flatMap (Take.symbols sep) ++ p' :=
  run.conserves (I := fun _ => True) id _ (fun _ _ _ _ step => ⟨trivial, step.conserves⟩) trivial

theorem Step.deterministic (step : Step sep p t p') (step' : Step sep p u q')
    (sameKind : t.kind = u.kind) : t = u ∧ p' = q' := by
  cases t <;> cases u <;> simp only [Take.kind, reduceCtorEq] at sameKind
  case nothing.nothing => exact ⟨rfl, step.symm.trans step'⟩
  case first.first a b =>
      obtain ⟨rfl, left⟩ := List.cons.inj (step.symm.trans step')
      exact ⟨rfl, left⟩
  case line.line =>
      obtain ⟨rfl, left⟩ := line_unique step.1 step'.1 (step.2.symm.trans step'.2)
      exact ⟨rfl, left⟩

/-- Takes of nothing can be left out of a run. -/
theorem serving (run : Run (Step sep) p ts p') : Run (Step sep) p (ts.filter Take.serves) p' := by
  induction run with
  | nil p => exact .nil p
  | @cons p _ _ t _ step _ ih =>
      cases t with
      | nothing => exact step ▸ ih
      | first a => exact .cons step ih
      | line symbols => exact .cons step ih

theorem deterministic (run : Run (Step sep) p ts p') (run' : Run (Step sep) p us q')
    (sameKinds : (ts.filter Take.serves).map Take.kind = (us.filter Take.serves).map Take.kind) :
    ts.filter Take.serves = us.filter Take.serves ∧ p' = q' := by
  replace run := serving run
  replace run' := serving run'
  generalize ts.filter Take.serves = ts at run sameKinds
  generalize us.filter Take.serves = us at run' sameKinds
  induction run generalizing us with
  | nil =>
      obtain rfl : us = [] := by simpa using sameKinds.symm
      cases run'
      exact ⟨rfl, rfl⟩
  | cons step _ ih =>
      cases run' with
      | nil => simp at sameKinds
      | cons step' rest' =>
          obtain ⟨sameKind, sameRest⟩ := List.cons.inj sameKinds
          obtain ⟨rfl, rfl⟩ := step.deterministic step' sameKind
          obtain ⟨rfl, left⟩ := ih _ rest' sameRest
          exact ⟨rfl, left⟩

end Text.Queue
