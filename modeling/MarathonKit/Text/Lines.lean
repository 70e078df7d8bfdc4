import Mathlib.Data.List.Basic

/-!
Lines in a list of symbols.

A line is what stands before a separator. Where a list starts is enough to know
its first line (`line_unique`), so a reader that has put some lines back
together, each with its separator, knows that they are the first lines of
whatever the list was made of: `prefix_of_unlines` if that was lines as well, and
`prefix_splitOn` in any case.
-/

namespace Text

variable {α : Type} {sep : α} {p p' : List α}

/-- The first separator is in one place only. -/
theorem line_unique {symbols symbols' : List α} (clean : sep ∉ symbols) (clean' : sep ∉ symbols')
    (same : symbols ++ sep :: p = symbols' ++ sep :: p') : symbols = symbols' ∧ p = p' := by
  induction symbols generalizing symbols' with
  | nil =>
      cases symbols' with
      | nil => simpa using same
      | cons a _ =>
          obtain ⟨rfl, -⟩ : sep = a ∧ _ := by simpa using same
          simp at clean'
  | cons a symbols ih =>
      cases symbols' with
      | nil =>
          obtain ⟨rfl, -⟩ : a = sep ∧ _ := by simpa using same
          simp at clean
      | cons b symbols' =>
          obtain ⟨rfl, rest⟩ : a = b ∧ symbols ++ sep :: p = symbols' ++ sep :: p' := by
            simpa using same
          obtain ⟨rfl, left⟩ := ih (List.not_mem_of_not_mem_cons clean)
            (List.not_mem_of_not_mem_cons clean') rest
          exact ⟨rfl, left⟩

/-- The lines, each with its separator behind it. -/
def unlines (sep : α) (lines : List (List α)) : List α := lines.flatMap fun line => line ++ [sep]

@[simp] theorem unlines_nil : unlines sep [] = [] := rfl

@[simp] theorem unlines_cons {line : List α} {lines : List (List α)} :
    unlines sep (line :: lines) = line ++ sep :: unlines sep lines := by
  simp [unlines]

@[simp] theorem unlines_append {lines lines' : List (List α)} :
    unlines sep (lines ++ lines') = unlines sep lines ++ unlines sep lines' :=
  List.flatMap_append

variable {lines lines' : List (List α)} {rest : List α}

/-- Every list is some lines and what comes behind the last separator. -/
theorem exists_unlines [DecidableEq α] (sep : α) (symbols : List α) : ∃ lines rest,
    symbols = unlines sep lines ++ rest ∧ (∀ line ∈ lines, sep ∉ line) ∧ sep ∉ rest := by
  induction symbols with
  | nil => exact ⟨[], [], rfl, by simp, List.not_mem_nil⟩
  | cons a symbols ih =>
      obtain ⟨lines, rest, rfl, clean, unfinished⟩ := ih
      by_cases isSep : a = sep
      · subst isSep
        exact ⟨[] :: lines, rest, by simp, by simpa using clean, unfinished⟩
      · cases lines with
        | nil => exact ⟨[], a :: rest, by simp, by simp, by simp [Ne.symm isSep, unfinished]⟩
        | cons line lines =>
            obtain ⟨first, others⟩ := List.forall_mem_cons.mp clean
            exact ⟨(a :: line) :: lines, rest, by simp,
              List.forall_mem_cons.mpr ⟨by simp [Ne.symm isSep, first], others⟩, unfinished⟩

theorem prefix_of_unlines (clean : ∀ line ∈ lines, sep ∉ line)
    (clean' : ∀ line ∈ lines', sep ∉ line)
    (same : unlines sep lines ++ rest = unlines sep lines') : lines <+: lines' := by
  induction lines generalizing lines' with
  | nil => exact List.nil_prefix
  | cons line lines ih =>
      cases lines' with
      | nil => simp at same
      | cons line' lines' =>
          rw [unlines_cons, unlines_cons, List.append_assoc, List.cons_append] at same
          obtain ⟨rfl, left⟩ := line_unique (clean line List.mem_cons_self)
            (clean' line' List.mem_cons_self) same
          have shorter := ih (fun l mem => clean l (List.mem_cons_of_mem _ mem))
            (fun l mem => clean' l (List.mem_cons_of_mem _ mem)) left
          exact List.cons_prefix_cons.mpr ⟨rfl, shorter⟩

/-- What lines make up says which they are. -/
theorem eq_of_unlines (clean : ∀ line ∈ lines, sep ∉ line) (clean' : ∀ line ∈ lines', sep ∉ line)
    (same : unlines sep lines = unlines sep lines') : lines = lines' := by
  have first : lines <+: lines' := prefix_of_unlines clean clean' ((List.append_nil _).trans same)
  have second : lines' <+: lines :=
    prefix_of_unlines clean' clean ((List.append_nil _).trans same.symm)
  exact first.eq_of_length_le second.length_le

theorem prefix_splitOn [DecidableEq α] (clean : ∀ line ∈ lines, sep ∉ line) (rest : List α) :
    lines <+: (unlines sep lines ++ rest).splitOn sep := by
  induction lines with
  | nil => exact List.nil_prefix
  | cons line lines ih =>
      rw [unlines_cons, List.append_assoc, List.cons_append,
        List.splitOn_append_cons_self_of_not_mem (clean line List.mem_cons_self)]
      exact List.cons_prefix_cons.mpr ⟨rfl, ih fun l mem => clean l (List.mem_cons_of_mem _ mem)⟩

end Text
