import MarathonKit.Text.Lines
import Mathlib.Data.List.Forall2

/-!
Lines that may be torn.

A writer that fails in the middle of a line leaves a part of it behind, without
a separator. A reader cannot tell: the part becomes the beginning of the next
line that is written whole. `mended` are the lines a reader sees in a sequence of
pieces; each ends with the line that was written (`suffix_mended`), and they are
the lines written if nothing is left behind (`mended_eq_wholes`).
-/

namespace Text

variable {α : Type} {sep : α}

/-- A line written whole, or what was written of one. -/
inductive Piece (α : Type) where
  | whole (line : List α)
  | torn (part : List α)
deriving DecidableEq, Repr

/-- What is written: a whole line goes with its separator. -/
def Piece.symbols (sep : α) : Piece α → List α
  | whole line => line ++ [sep]
  | torn part => part

/-- The lines written whole. -/
def wholes : List (Piece α) → List (List α)
  | [] => []
  | .whole line :: pieces => line :: wholes pieces
  | .torn _ :: pieces => wholes pieces

/-- The lines a reader sees, with `carry` in front of them. -/
def mended (carry : List α) : List (Piece α) → List (List α)
  | [] => []
  | .whole line :: pieces => (carry ++ line) :: mended [] pieces
  | .torn part :: pieces => mended (carry ++ part) pieces

/-- No separator but those behind the whole lines. -/
def Piece.Clean (sep : α) : Piece α → Prop
  | whole line => sep ∉ line
  | torn part => sep ∉ part

variable {pieces : List (Piece α)} {carry : List α} {lines lines' : List (List α)}
  {rest rest' : List α}

@[simp] theorem wholes_append (pieces pieces' : List (Piece α)) :
    wholes (pieces ++ pieces') = wholes pieces ++ wholes pieces' := by
  induction pieces with
  | nil => rfl
  | cons piece pieces ih => cases piece <;> simp [wholes, ih]

/-- Each line that is seen ends with the line that was written. -/
theorem suffix_mended (carry : List α) (pieces : List (Piece α)) :
    List.Forall₂ (· <:+ ·) (wholes pieces) (mended carry pieces) := by
  induction pieces generalizing carry with
  | nil => exact .nil
  | cons piece pieces ih =>
      cases piece with
      | whole line => exact .cons (List.suffix_append carry line) (ih [])
      | torn part => exact ih (carry ++ part)

theorem mended_eq_wholes (nothing : ∀ part, .torn part ∈ pieces → part = []) :
    mended [] pieces = wholes pieces := by
  induction pieces with
  | nil => rfl
  | cons piece pieces ih =>
      have rest := ih fun part mem => nothing part (List.mem_cons_of_mem _ mem)
      cases piece with
      | whole line => rw [mended, wholes, rest, List.nil_append]
      | torn part =>
          obtain rfl : part = [] := nothing part List.mem_cons_self
          exact rest

theorem clean_mended (noSep : sep ∉ carry) (clean : ∀ piece ∈ pieces, piece.Clean sep) :
    ∀ line ∈ mended carry pieces, sep ∉ line := by
  induction pieces generalizing carry with
  | nil => simp [mended]
  | cons piece pieces ih =>
      obtain ⟨first, others⟩ := List.forall_mem_cons.mp clean
      cases piece with
      | whole line =>
          refine List.forall_mem_cons.mpr ⟨?_, ih List.not_mem_nil others⟩
          exact List.not_mem_append noSep first
      | torn part => exact ih (List.not_mem_append noSep first) others

/-- What is written are the lines that are seen, and then what no separator has
been written behind. -/
theorem unlines_mended (noSep : sep ∉ carry) (clean : ∀ piece ∈ pieces, piece.Clean sep) :
    ∃ rest, sep ∉ rest ∧
      carry ++ pieces.flatMap (Piece.symbols sep) = unlines sep (mended carry pieces) ++ rest := by
  induction pieces generalizing carry with
  | nil => exact ⟨carry, noSep, by simp [mended]⟩
  | cons piece pieces ih =>
      obtain ⟨first, others⟩ := List.forall_mem_cons.mp clean
      cases piece with
      | whole line =>
          obtain ⟨rest, after, same⟩ := ih List.not_mem_nil others
          refine ⟨rest, after, ?_⟩
          rw [List.nil_append] at same
          simp [mended, Piece.symbols, same]
      | torn part =>
          obtain ⟨rest, after, same⟩ := ih (List.not_mem_append noSep first) others
          refine ⟨rest, after, ?_⟩
          rw [mended, ← same]
          simp [Piece.symbols]

/-- Lines in front of the same symbols, with an unfinished one at the end. -/
theorem prefix_of_unlines_append (clean : ∀ line ∈ lines, sep ∉ line)
    (clean' : ∀ line ∈ lines', sep ∉ line) (unfinished : sep ∉ rest')
    (same : unlines sep lines ++ rest = unlines sep lines' ++ rest') : lines <+: lines' := by
  induction lines generalizing lines' with
  | nil => exact List.nil_prefix
  | cons line lines ih =>
      obtain ⟨first, others⟩ := List.forall_mem_cons.mp clean
      cases lines' with
      | nil =>
          rw [unlines_nil, List.nil_append] at same
          subst same
          exact absurd (by simp) unfinished
      | cons line' lines' =>
          obtain ⟨first', others'⟩ := List.forall_mem_cons.mp clean'
          rw [unlines_cons, unlines_cons, List.append_assoc, List.append_assoc, List.cons_append,
            List.cons_append] at same
          obtain ⟨rfl, left⟩ := line_unique first first' same
          exact List.cons_prefix_cons.mpr ⟨rfl, ih others others' left⟩

/-- Lines in front of what was written are the first that a reader sees. -/
theorem prefix_mended (clean : ∀ piece ∈ pieces, piece.Clean sep)
    (cleanLines : ∀ line ∈ lines, sep ∉ line)
    (same : unlines sep lines ++ rest = pieces.flatMap (Piece.symbols sep)) :
    lines <+: mended [] pieces := by
  obtain ⟨rest', unfinished, whole⟩ := unlines_mended List.not_mem_nil clean
  exact prefix_of_unlines_append cleanLines (clean_mended List.not_mem_nil clean) unfinished
    (same.trans whole)

/-- Lines that are all that was written are all that a reader sees. -/
theorem eq_mended (clean : ∀ piece ∈ pieces, piece.Clean sep)
    (cleanLines : ∀ line ∈ lines, sep ∉ line)
    (same : unlines sep lines = pieces.flatMap (Piece.symbols sep)) :
    lines = mended [] pieces := by
  obtain ⟨rest, -, whole⟩ := unlines_mended List.not_mem_nil clean
  have first : lines <+: mended [] pieces :=
    prefix_mended clean cleanLines ((List.append_nil _).trans same)
  have ends : unlines sep (mended [] pieces) ++ rest = unlines sep lines ++ [] := by
    rw [List.append_nil, same]
    exact whole.symm
  have last : mended [] pieces <+: lines :=
    prefix_of_unlines_append (clean_mended List.not_mem_nil clean) cleanLines List.not_mem_nil ends
  exact first.eq_of_length_le last.length_le

end Text
