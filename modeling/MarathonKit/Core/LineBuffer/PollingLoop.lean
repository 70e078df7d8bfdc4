import MarathonKit.Core.LineBuffer.CharByChar

/-!
A program that polls for lines.

The two functions `linesReady` and `getLine` are made for a loop that takes lines
as long as there are any and then does something else until more has arrived.
`polled_lines` says what such a program gets: in each round all the lines that
have become complete, without ever reading from a descriptor that is not ready,
and over all rounds the lines of the stream, each once, whatever the chunks are
and however they are spread over the rounds.
-/

namespace MarathonKit.Core.LineBuffer

open Dialogue Dialogue.Method FileDescriptor Text

/-- `while (lineBuffer.linesReady() > 0) lines.push_back(lineBuffer.getLine())`, with
the condition evaluated at most `times` times. -/
def takeReady (bound : Nat) : Nat → Method (List Bytes)
  | 0 => fun s => .running s
  | times + 1 => do
      if 0 < (← linesReady bound) then
        let line ← getLine bound
        let lines ← takeReady bound times
        return line :: lines
      else
        return []

variable {buffer buffer' : LineBuffer} {fd : FdPtr} {chunks : List Bytes} {lines : List Bytes}
  {left : Bytes} {bound times : Nat}

theorem takeReady_succ : takeReady bound (times + 1) buffer =
    (linesReady bound buffer).andThen fun s n =>
      if 0 < n then (getLine bound s).andThen fun s line =>
        (takeReady bound times s).andThen fun s lines => .returned s (line :: lines)
      else .returned s [] := by
  simp only [takeReady, bind_apply, Dialogue.Method.ite_apply, pure_apply]

/-- With a line in the buffer, `getLine` asks for nothing. -/
theorem getLine_buffered (inv : buffer.Inv) {line : Bytes}
    (split : buffer.mBuffer = line ++ newline :: left) (clean : newline ∉ line) :
    getLine (bound + 1) buffer = .returned (buffer.leaving left) line := by
  have ready : buffer.mLinesReady ≠ 0 := inv.linesReady_ne_zero.mpr (by simp [split])
  simp [getLine, whileLoop_unroll, noLine, ready, takeLine_first inv split clean]

/-- What `linesReady` does not read is still to come. -/
theorem needed_append_drop (held : Bytes) (chunks : List Bytes) :
    needed held chunks ++ (chunks.drop (chunksNeeded held chunks)).flatten = chunks.flatten := by
  rw [needed, ← List.flatten_append, List.take_append_drop]

/-- A line among what is ready is in the buffer after the poll. -/
theorem newline_mem_polled (line : newline ∈ buffer.mBuffer ++ chunks.flatten) :
    newline ∈ buffer.mBuffer ++ needed buffer.mBuffer chunks := by
  by_cases left : chunksNeeded buffer.mBuffer chunks < chunks.length
  · exact newline_mem_of_left left
  · rwa [needed, List.take_of_length_le (Nat.not_lt.mp left)]

/-- A round takes every line there is, and leaves what is behind the last one in
the buffer. -/
theorem takeReady_serve (attached : buffer.mFd = some fd) (inv : buffer.Inv)
    (whole : buffer.mBuffer ++ chunks.flatten = unlines newline lines ++ left)
    (clean : ∀ line ∈ lines, newline ∉ line) (unfinished : newline ∉ left)
    (enough : chunks.length < bound) (often : lines.length < times) :
    (takeReady bound times buffer).serve arriving chunks =
      (.returned (buffer.leaving left) lines, []) := by
  obtain ⟨bound, rfl⟩ : ∃ n, bound = n + 1 := Nat.exists_eq_add_one_of_ne_zero (by omega)
  obtain ⟨times, rfl⟩ : ∃ n, times = n + 1 := Nat.exists_eq_add_one_of_ne_zero (by omega)
  induction lines generalizing buffer chunks times with
  | nil =>
      have noLine : newline ∉ buffer.mBuffer ++ chunks.flatten := by simpa [whole] using unfinished
      have all : chunks.length ≤ chunksNeeded buffer.mBuffer chunks := by
        refine Nat.le_of_not_lt fun fewer => noLine ?_
        rw [← needed_append_drop buffer.mBuffer chunks, ← List.append_assoc]
        exact List.mem_append_left _ (newline_mem_of_left fewer)
      have read : needed buffer.mBuffer chunks = chunks.flatten := by
        rw [needed, List.take_of_length_le all]
      have none : ¬ 0 < (buffer.mBuffer ++ chunks.flatten).count newline := by
        rwa [List.count_pos_iff]
      rw [takeReady_succ, Call.serve_andThen, linesReady_serve attached inv enough, read,
        Call.andThen_returned, if_neg none, List.drop_of_length_le all]
      rw [unlines_nil, List.nil_append] at whole
      simp [Call.serve, leaving, loaded, inv.counted, ← whole]
  | cons line lines ih =>
      obtain ⟨first, others⟩ := List.forall_mem_cons.mp clean
      have polled : newline ∈ buffer.mBuffer ++ needed buffer.mBuffer chunks :=
        newline_mem_polled (by simp [whole])
      obtain ⟨line', rest, split, clean'⟩ := List.eq_append_cons_of_mem polled
      -- the line in the buffer is the first of those to come
      rw [← needed_append_drop buffer.mBuffer chunks, ← List.append_assoc, split, unlines_cons,
        List.append_assoc, List.append_assoc, List.cons_append, List.cons_append] at whole
      obtain ⟨rfl, further⟩ := line_unique clean' first whole
      have inv' := inv.loaded (by simp [attached]) (needed buffer.mBuffer chunks)
      have attached' : (buffer.leaving rest).mFd = some fd := attached
      have fewer : (chunks.drop (chunksNeeded buffer.mBuffer chunks)).length < bound + 1 := by
        rw [List.length_drop]
        omega
      obtain ⟨times, rfl⟩ : ∃ n, times = n + 1 :=
        Nat.exists_eq_add_one_of_ne_zero (by rintro rfl; simp at often)
      have remaining := ih attached' (.leaving attached) further others fewer times
        (by simpa using often)
      rw [takeReady_succ, Call.serve_andThen, linesReady_serve attached inv enough,
        Call.andThen_returned, if_pos (List.count_pos_iff.mpr polled),
        getLine_buffered inv' (by simpa using split) first, Call.andThen_returned,
        loaded_leaving, Call.serve_andThen, remaining]
      rfl

/-! ### Rounds -/

/-- One round of the program: these chunks are ready, and these lines are taken,
whatever the bounds are from some number on. -/
def Polled (buffer : LineBuffer) (round : List Bytes × List Bytes) (buffer' : LineBuffer) : Prop :=
  ∃ enough, ∀ bound times, enough ≤ bound → enough ≤ times →
    (takeReady bound times buffer).serve arriving round.1 = (.returned buffer' round.2, [])

theorem exists_polled (attached : buffer.mFd = some fd) (inv : buffer.Inv)
    (chunks : List Bytes) : ∃ lines left, Polled buffer (chunks, lines) (buffer.leaving left) ∧
      buffer.mBuffer ++ chunks.flatten = unlines newline lines ++ left ∧
      (∀ line ∈ lines, newline ∉ line) ∧ newline ∉ left := by
  obtain ⟨lines, left, whole, clean, unfinished⟩ :=
    exists_unlines newline (buffer.mBuffer ++ chunks.flatten)
  refine ⟨lines, left, ⟨max chunks.length lines.length + 1, ?_⟩, whole, clean, unfinished⟩
  intro bound times enough often
  show (takeReady bound times buffer).serve arriving chunks = (.returned _ lines, [])
  exact takeReady_serve attached inv whole clean unfinished (by omega) (by omega)

/-- However the stream is cut into chunks and the chunks are spread over the
rounds, each round comes to an end without waiting, and over all rounds the
lines of the stream are taken. What is left in the buffer holds none. -/
theorem polled_lines (reachable : Reachable buffer) (attached : buffer.mFd = some fd)
    (first : List Bytes) (bursts : List (List Bytes)) :
    ∃ rounds buffer', rounds.map Prod.fst = first :: bursts ∧
      Run Polled buffer rounds buffer' ∧
      (∀ line ∈ rounds.flatMap Prod.snd, newline ∉ line) ∧ newline ∉ buffer'.mBuffer ∧
      buffer.mBuffer ++ (first :: bursts).flatten.flatten =
        unlines newline (rounds.flatMap Prod.snd) ++ buffer'.mBuffer := by
  have inv := reachable.inv
  clear reachable
  induction bursts generalizing buffer first with
  | nil =>
      obtain ⟨lines, left, polled, whole, clean, unfinished⟩ := exists_polled attached inv first
      exact ⟨[(first, lines)], _, rfl, .single polled, by simpa using clean, unfinished,
        by simpa [leaving] using whole⟩
  | cons burst bursts ih =>
      obtain ⟨lines, left, polled, whole, clean, -⟩ := exists_polled attached inv first
      have attached' : (buffer.leaving left).mFd = some fd := attached
      obtain ⟨rounds, buffer', same, run, cleanRest, unfinished, rest⟩ :=
        ih attached' burst (.leaving attached)
      refine ⟨(first, lines) :: rounds, buffer', by rw [List.map_cons, same], .cons polled run,
        ?_, unfinished, ?_⟩
      · rw [List.flatMap_cons]
        exact List.forall_mem_append.mpr ⟨clean, cleanRest⟩
      · rw [List.flatten_cons, List.flatten_append, ← List.append_assoc, whole, List.flatMap_cons,
          unlines_append, List.append_assoc, List.append_assoc, ← rest]
        rfl

/-- `"ab\nc"`, and in the next round `"\n"`. -/
theorem polled_lines_two : ∃ rounds buffer', rounds.map Prod.fst = [[[97], [98, 10, 99]], [[10]]] ∧
    Run Polled (ofFd (some 0)) rounds buffer' ∧
    [97, 98, 10, 99, 10] = unlines newline (rounds.flatMap Prod.snd) ++ buffer'.mBuffer := by
  obtain ⟨rounds, buffer', bursts, run, -, -, whole⟩ :=
    polled_lines (reachable_ofFd 0) rfl [[97], [98, 10, 99]] [[[10]]]
  exact ⟨rounds, buffer', bursts, run, whole⟩

end MarathonKit.Core.LineBuffer
