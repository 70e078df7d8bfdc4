import MarathonKit.Core.LineBuffer.Polls
import MarathonKit.Text.Lines

/-!
A line by `getLine`, and the same line character by character.

`getLine` loads until a line is complete and then takes it out in one piece;
a loop of `getChar` loads whenever the buffer is empty and takes out one byte
after the other. Which chunk completes the first line does not depend on who
reads it: `FirstLine` says where it is, and both readers are followed along it.
-/

namespace MarathonKit.Core.LineBuffer

open Dialogue Dialogue.Method FileDescriptor

/-- The characters `getChar` returns before it returns `'\n'`, which it must do
within `bound` calls. -/
def getLineByChars : Nat → Method Bytes
  | 0 => fun s => .running s
  | bound + 1 => do
      let ch ← getChar
      if ch = newline then
        return []
      else
        let line ← getLineByChars bound
        return ch :: line

/-- The first line of what is held and of the chunks to come: it is `line`, it
is complete with `left` behind it, and the chunks after that are `rest`. -/
inductive FirstLine : Bytes → List Bytes → Bytes → Bytes → List Bytes → Prop where
  | here {held line left : Bytes} {chunks : List Bytes} :
      newline ∉ line → held = line ++ newline :: left → FirstLine held chunks line left chunks
  | further {held chunk line left : Bytes} {chunks rest : List Bytes} :
      newline ∉ held → FirstLine (held ++ chunk) chunks line left rest →
      FirstLine held (chunk :: chunks) line left rest

variable {held chunk line left : Bytes} {ch : Byte} {chunks rest : List Bytes}
  {buffer : LineBuffer} {fd : FdPtr} {bound : Nat}

namespace FirstLine

/-- If there is a newline, there is a first line. -/
theorem exists_of_mem (pending : newline ∈ held ++ chunks.flatten) :
    ∃ line left rest, FirstLine held chunks line left rest := by
  induction chunks generalizing held with
  | nil =>
      obtain ⟨line, left, split, clean⟩ := List.eq_append_cons_of_mem (by simpa using pending)
      exact ⟨line, left, [], .here clean split⟩
  | cons chunk chunks ih =>
      by_cases inHeld : newline ∈ held
      · obtain ⟨line, left, split, clean⟩ := List.eq_append_cons_of_mem inHeld
        exact ⟨line, left, chunk :: chunks, .here clean split⟩
      · have further : newline ∈ (held ++ chunk) ++ chunks.flatten := by simpa using pending
        obtain ⟨line, left, rest, first⟩ := ih further
        exact ⟨line, left, rest, .further inHeld first⟩

/-- The line, its newline and what is left are the pending bytes. -/
theorem pending (first : FirstLine held chunks line left rest) :
    held ++ chunks.flatten = line ++ newline :: left ++ rest.flatten := by
  induction first with
  | here _ split => rw [split]
  | further _ _ ih => simpa using ih

theorem clean (first : FirstLine held chunks line left rest) : newline ∉ line := by
  induction first with
  | here clean _ => exact clean
  | further _ _ ih => exact ih

/-- With a newline in front, the line is empty. -/
theorem newline_cons (first : FirstLine (newline :: held) chunks line left rest) :
    line = [] ∧ left = held ∧ rest = chunks := by
  cases first with
  | here clean split =>
      obtain ⟨rfl, rfl⟩ := Text.line_unique List.not_mem_nil clean split
      exact ⟨rfl, rfl, rfl⟩
  | further clean _ => simp at clean

/-- Another character in front is the first of the line. -/
theorem char_cons (first : FirstLine (ch :: held) chunks line left rest) (other : ch ≠ newline) :
    ∃ line', line = ch :: line' ∧ FirstLine held chunks line' left rest := by
  generalize all : ch :: held = chars at first
  induction first generalizing held with
  | here clean split =>
      subst all
      rename_i line _ _
      cases line with
      | nil => exact absurd (List.cons.inj split).1 other
      | cons ch' line' =>
          obtain ⟨rfl, tail⟩ := List.cons.inj split
          exact ⟨line', rfl, .here (List.not_mem_of_not_mem_cons clean) tail⟩
  | further clean _ ih =>
      subst all
      obtain ⟨line', rfl, first⟩ := ih rfl
      exact ⟨line', rfl, .further (List.not_mem_of_not_mem_cons clean) first⟩

/-- With nothing held, it is in the chunks. -/
theorem nil (first : FirstLine [] chunks line left rest) :
    ∃ chunk chunks', chunks = chunk :: chunks' ∧ FirstLine chunk chunks' line left rest := by
  cases first with
  | here _ split => simp at split
  | further _ first => exact ⟨_, _, rfl, first⟩

end FirstLine

/-! ### The two readers -/

@[simp] theorem loaded_leaving : (buffer.loaded chunk).leaving left = buffer.leaving left := rfl

theorem Inv.leaving (attached : buffer.mFd = some fd) : (buffer.leaving left).Inv :=
  ⟨rfl, fun detached => absurd (attached.symm.trans detached) (by simp)⟩

theorem takeLine_first (inv : buffer.Inv) (split : buffer.mBuffer = line ++ newline :: left)
    (clean : newline ∉ line) : takeLine buffer = .returned (buffer.leaving left) line := by
  have ready : buffer.mLinesReady ≠ 0 := inv.linesReady_ne_zero.mpr (by simp [split])
  obtain ⟨line', left', split', clean', taken⟩ := takeLine_spec inv.counted ready
  obtain ⟨rfl, rfl⟩ := Text.line_unique clean clean' (split.symm.trans split')
  exact taken

theorem getLine_serve (attached : buffer.mFd = some fd) (inv : buffer.Inv)
    (first : FirstLine buffer.mBuffer chunks line left rest) (enough : chunks.length < bound) :
    (getLine bound buffer).serve arriving chunks =
      (.returned (buffer.leaving left) line, rest) := by
  generalize isHeld : buffer.mBuffer = held at first
  obtain ⟨bound, rfl⟩ : ∃ n, bound = n + 1 := Nat.exists_eq_add_one_of_ne_zero (by omega)
  induction first generalizing buffer bound with
  | here clean split =>
      subst isHeld
      have ready : buffer.mLinesReady ≠ 0 := inv.linesReady_ne_zero.mpr (by simp [split])
      simp [getLine, whileLoop_unroll, noLine, ready, takeLine_first inv split clean, Call.serve]
  | @further _ chunk _ _ _ _ unfinished _ ih =>
      subst isHeld
      have none : buffer.mLinesReady = 0 := inv.linesReady_eq_zero.mpr unfinished
      have inv' : (buffer.loaded chunk).Inv := inv.loaded (by simp [attached]) chunk
      rw [List.length_cons] at enough
      obtain ⟨bound, rfl⟩ : ∃ n, bound = n + 1 := Nat.exists_eq_add_one_of_ne_zero (by omega)
      have further := ih (by simpa using attached) inv' rfl bound (by omega)
      rw [getLine, bind_apply] at further
      rw [getLine, bind_apply, whileLoop_unroll]
      simpa [noLine, none, loadChars_some attached, Call.serve, arriving] using further

/-- One character, and then the rest of the line. -/
theorem getLineByChars_cons (inv : buffer.Inv) (front : buffer.mBuffer = ch :: held) :
    getLineByChars (bound + 1) buffer =
      if ch = newline then .returned (buffer.leaving held) []
      else (getLineByChars bound (buffer.leaving held)).andThen fun s line =>
        .returned s (ch :: line) := by
  simp [getLineByChars, getChar, front, takeChar_cons inv.counted front]

/-- With none there, the next chunk is loaded first. -/
theorem getLineByChars_nil (attached : buffer.mFd = some fd) (isEmpty : buffer.mBuffer = [])
    (nonempty : chunk ≠ []) :
    (getLineByChars (bound + 1) buffer).serve arriving (chunk :: chunks) =
      (getLineByChars (bound + 1) (buffer.loaded chunk)).serve arriving chunks := by
  simp [getLineByChars, getChar, isEmpty, nonempty, loadChars_some attached, Call.serve, arriving]

theorem getLineByChars_serve (attached : buffer.mFd = some fd) (inv : buffer.Inv)
    (first : FirstLine buffer.mBuffer chunks line left rest)
    (nonempty : ∀ chunk ∈ chunks, chunk ≠ []) (enough : line.length < bound) :
    (getLineByChars bound buffer).serve arriving chunks =
      (.returned (buffer.leaving left) line, rest) := by
  induction bound generalizing buffer chunks line with
  | zero => omega
  | succ bound ih =>
      -- with a byte in the buffer nothing is loaded for it
      have buffered : ∀ {buffer : LineBuffer} {chunks ch held}, buffer.mFd = some fd →
          buffer.Inv → buffer.mBuffer = ch :: held →
          FirstLine buffer.mBuffer chunks line left rest → (∀ chunk ∈ chunks, chunk ≠ []) →
          (getLineByChars (bound + 1) buffer).serve arriving chunks =
            (.returned (buffer.leaving left) line, rest) := by
        intro buffer chunks ch held attached inv front first nonempty
        rw [getLineByChars_cons inv front]
        rw [front] at first
        by_cases isNewline : ch = newline
        · subst isNewline
          obtain ⟨rfl, rfl, rfl⟩ := first.newline_cons
          rw [if_pos rfl]
          rfl
        · obtain ⟨line, rfl, further⟩ := first.char_cons isNewline
          have attached' : (buffer.leaving held).mFd = some fd := attached
          have further := ih attached' (.leaving attached) further nonempty (by simpa using enough)
          rw [if_neg isNewline, Call.serve_andThen, further]
          rfl
      cases front : buffer.mBuffer with
      | cons ch held => exact buffered attached inv front first nonempty
      | nil =>
          rw [front] at first
          obtain ⟨chunk, chunks, rfl, inChunk⟩ := first.nil
          have brings : chunk ≠ [] := nonempty chunk List.mem_cons_self
          obtain ⟨ch, held, rfl⟩ := List.exists_cons_of_ne_nil brings
          have loaded : (buffer.loaded (ch :: held)).mBuffer = ch :: held := by simp [front]
          rw [getLineByChars_nil attached front brings]
          exact buffered (by simpa using attached) (inv.loaded (by simp [attached]) _) loaded
            (by rwa [loaded]) fun chunk mem => nonempty chunk (List.mem_cons_of_mem _ mem)

/-- One `getLine`, and `getChar` until it returns `'\n'`: the same line, the same
buffer after it, and the same chunks read. -/
theorem getLine_eq_getLineByChars (reachable : Reachable buffer)
    (attached : buffer.mFd = some fd) (chunks : List Bytes)
    (nonempty : ∀ chunk ∈ chunks, chunk ≠ [])
    (pending : newline ∈ buffer.mBuffer ++ chunks.flatten) :
    ∃ s line rest, newline ∉ line ∧
      buffer.mBuffer ++ chunks.flatten = line ++ newline :: s.mBuffer ++ rest.flatten ∧
      (∀ bound, chunks.length < bound →
        (getLine bound buffer).serve arriving chunks = (.returned s line, rest)) ∧
      (∀ bound, line.length < bound →
        (getLineByChars bound buffer).serve arriving chunks = (.returned s line, rest)) := by
  obtain ⟨line, left, rest, first⟩ := FirstLine.exists_of_mem pending
  have inv := reachable.inv
  exact ⟨buffer.leaving left, line, rest, first.clean, first.pending,
    fun _ => getLine_serve attached inv first,
    fun _ => getLineByChars_serve attached inv first nonempty⟩

/-- `"ab\nc"` in three chunks, with a fourth that neither reader touches. -/
theorem getLine_eq_getLineByChars_split : ∃ s line rest, newline ∉ line ∧
    [97, 98, 10, 99, 100] = line ++ newline :: s.mBuffer ++ rest.flatten ∧
    (getLine 5 (ofFd (some 0))).serve arriving [[97], [98], [10, 99], [100]] =
      (.returned s line, rest) ∧
    (getLineByChars 5 (ofFd (some 0))).serve arriving [[97], [98], [10, 99], [100]] =
      (.returned s line, rest) := by
  obtain ⟨s, line, rest, clean, pending, whole, byChars⟩ :=
    getLine_eq_getLineByChars (reachable_ofFd 0) rfl [[97], [98], [10, 99], [100]] (by decide)
      (by decide)
  refine ⟨s, line, rest, clean, pending, whole 5 (by decide), byChars 5 ?_⟩
  have lengths := congrArg List.length pending
  simp [ofFd] at lengths
  omega

end MarathonKit.Core.LineBuffer
