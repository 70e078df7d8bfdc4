import MarathonKit.Text.Lines

/-!
Fields in a line, and lines in a text, read back.

`cut` takes off what stands before the first separator, `cutLast` what stands
behind the last one; `linesOf` are the lines that have their separator. Each gives
back what was put there, as long as that has no separator in it.
-/

namespace Text

variable {α β γ δ : Type} [DecidableEq α] {sep : α}

/-- The field before the first separator, and what follows. -/
def cut (sep : α) : List α → Option (List α × List α)
  | [] => none
  | a :: rest =>
      if a = sep then some ([], rest)
      else (cut sep rest).map fun (field, rest) => (a :: field, rest)

/-- What comes before the last separator, and the field behind it. -/
def cutLast (sep : α) (symbols : List α) : Option (List α × List α) :=
  (cut sep symbols.reverse).map fun (field, front) => (front.reverse, field.reverse)

/-- The lines that are finished. -/
def linesOf (sep : α) (symbols : List α) : List (List α) := (symbols.splitOn sep).dropLast

variable {field front rest : List α} {lines : List (List α)}

theorem cut_append (clean : sep ∉ field) : cut sep (field ++ sep :: rest) = some (field, rest) := by
  induction field with
  | nil => simp [cut]
  | cons a field ih =>
      have other : a ≠ sep := fun same => clean (same ▸ List.mem_cons_self)
      simp [cut, other, ih (List.not_mem_of_not_mem_cons clean)]

theorem cutLast_append (clean : sep ∉ field) :
    cutLast sep (front ++ sep :: field) = some (front, field) := by
  have reversed : (front ++ sep :: field).reverse = field.reverse ++ sep :: front.reverse := by
    simp
  rw [cutLast, reversed, cut_append (by simpa using clean)]
  simp

theorem linesOf_unlines (clean : ∀ line ∈ lines, sep ∉ line) :
    linesOf sep (unlines sep lines) = lines := by
  unfold linesOf
  suffices whole : (unlines sep lines).splitOn sep = lines ++ [[]] by
    rw [whole, List.dropLast_concat]
  induction lines with
  | nil => simp
  | cons line lines ih =>
      obtain ⟨first, others⟩ := List.forall_mem_cons.mp clean
      rw [unlines_cons, List.splitOn_append_cons_self_of_not_mem first, ih others]
      rfl

/-- A reader that gives each line back gives all of them back. -/
theorem mapM_map {read : δ → Option β} {write : γ → δ} {value : γ → β} {items : List γ}
    (back : ∀ item ∈ items, read (write item) = some (value item)) :
    (items.map write).mapM read = some (items.map value) := by
  induction items with
  | nil => rfl
  | cons item items ih =>
      obtain ⟨first, others⟩ := List.forall_mem_cons.mp back
      simp [first, ih others]

end Text
