import Mathlib.Data.List.Basic

/-!
Questions answered in turn.

An answer may depend on all questions so far. `answers` are the answers to a
sequence of questions; further questions add answers (`answers_append`), so that
the first questions have the first answers (`answers_isPrefix`).
-/

namespace Text

variable {α β : Type}

/-- The answer to each of the questions, given all up to it. -/
def answers (answer : List α → β) (questions : List α) : List β :=
  (List.range questions.length).map fun i => answer (questions.take (i + 1))

variable {answer : List α → β} {questions more : List α}

@[simp] theorem length_answers : (answers answer questions).length = questions.length := by
  simp [answers]

theorem answers_append : answers answer (questions ++ more) =
    answers answer questions ++ answers (fun later => answer (questions ++ later)) more := by
  rw [answers, List.length_append, List.range_add, List.map_append, List.map_map]
  refine congrArg₂ (· ++ ·) (List.map_congr_left fun i before => ?_)
    (List.map_congr_left fun i _ => ?_)
  · rw [List.take_append_of_le_length (List.mem_range.mp before)]
  · rw [Function.comp_apply, Nat.add_assoc, List.take_length_add_append]

theorem answers_isPrefix (first : questions <+: more) :
    answers answer questions <+: answers answer more := by
  obtain ⟨rest, rfl⟩ := first
  rw [answers_append]
  exact List.prefix_append _ _

variable (answer) in
/-- The answer to the question after the first `k`. -/
theorem take_answers_succ {k : Nat} (unanswered : k < questions.length) :
    (answers answer questions).take (k + 1) =
      (answers answer questions).take k ++ [answer (questions.take (k + 1))] := by
  rw [List.take_succ_eq_append_getElem (by simpa using unanswered)]
  simp [answers]

end Text
