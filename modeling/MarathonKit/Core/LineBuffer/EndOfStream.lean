import MarathonKit.Core.LineBuffer.Store

/-!
`linesReady` and `getLine` on a stream that ends.

A stream here is what a descriptor will still answer: for each chunk left, what
a poll says while the chunk is next and what the read of it brings; after the
last one polls say that there is something to read, and reads return `""`, as
`select` and `read` do once the peer has closed. Neither loop takes notice of an
empty chunk, so at the end of the stream both go round for ever: `ends_iff` says
that a call ends exactly if something before that point ends it.
-/

namespace MarathonKit.Core.LineBuffer

open Dialogue Dialogue.Method FileDescriptor

/-- A chunk on its way. -/
structure Arrival where
  /-- the answer of a poll while the chunk is the next one -/
  ready : Except Exn Bool
  chunk : Except Exn Bytes

/-- What a stream that ends answers, and what is left of it. -/
def answer : (q : Request) → List Arrival → Option (Answer q × List Arrival)
  | .isReadyForReading _, [] => some (.ok true, [])
  | .isReadyForReading _, next :: rest => some (next.ready, next :: rest)
  | .read _, [] => some (.ok [], [])
  | .read _, next :: rest => some (next.chunk, rest)
  | .write _ _, rest => some (.ok (), rest)
  | .logw _, rest => some ((), rest)

/-- The operation returns or throws, after some number of rounds. -/
def Ends (op : Op) (buffer : LineBuffer) (arrivals : List Arrival) : Prop :=
  ∃ bound, ((op.call bound buffer).serve answer arrivals).1.outcome.Finished

/-- A read that ends `getLine`: it fails, or brings the end of a line. -/
def Arrival.EndsLine (next : Arrival) : Prop :=
  ∀ chars, next.chunk = .ok chars → newline ∈ chars

theorem Arrival.not_endsLine {next : Arrival} :
    ¬ next.EndsLine ↔ ∃ chars, next.chunk = .ok chars ∧ newline ∉ chars := by
  simp [Arrival.EndsLine]

/-- `linesReady` ends there also if the poll before fails or is negative. -/
def Arrival.EndsPolling (next : Arrival) : Prop := next.ready ≠ .ok true ∨ next.EndsLine

/-! ### The two loops -/

/-- A loop condition that is false once a line is there, and true at the end of
the stream; before that it may let the loop go on where `goesOn` holds. -/
structure Waits (cond : Method Bool) (fd : FdPtr) (goesOn : Arrival → Prop) : Prop where
  line : ∀ s, s.mLinesReady ≠ 0 → cond s = .returned s false
  atEnd : ∀ s, s.mFd = some fd → s.mLinesReady = 0 →
    (cond s).serve answer [] = (.returned s true, [])
  next : ∀ s next rest, s.mFd = some fd → s.mLinesReady = 0 → goesOn next →
    (cond s).serve answer (next :: rest) = (.returned s true, next :: rest)
  stops : ∀ s next rest, s.mFd = some fd → s.mLinesReady = 0 → ¬ goesOn next →
    ((cond s).serve answer (next :: rest)).1 = .returned s false ∨
    ∃ e, ((cond s).serve answer (next :: rest)).1 = .threw s e

theorem noLine_waits (fd : FdPtr) : Waits noLine fd fun _ => True where
  line s ready := by simp [noLine, ready]
  atEnd s _ none := by simp [noLine, none, Call.serve]
  next s next rest _ none _ := by simp [noLine, none, Call.serve]
  stops s next rest _ _ goesOn := absurd trivial goesOn

theorem noLineButReady_waits (fd : FdPtr) :
    Waits noLineButReady fd fun next => next.ready = .ok true where
  line s ready := by simp [noLineButReady, ready]
  atEnd s attached none := by simp [noLineButReady, attached, none, Call.serve, answer]
  next s next rest attached none goesOn := by
    simp [noLineButReady, attached, none, Call.serve, answer, goesOn]
  stops s next rest attached none goesOn := by
    cases ready : next.ready with
    | error e => simp [noLineButReady, attached, none, Call.serve, answer, ready]
    | ok value =>
        cases value with
        | true => exact absurd ready goesOn
        | false => simp [noLineButReady, attached, none, Call.serve, answer, ready]

variable {cond : Method Bool} {fd : FdPtr} {goesOn : Arrival → Prop} {s buffer : LineBuffer}
  {next : Arrival} {arrivals rest : List Arrival}

/-- Some number of rounds is enough for the loop to end. -/
def LoopEnds (cond : Method Bool) (s : LineBuffer) (arrivals : List Arrival) : Prop :=
  ∃ bound, ((whileLoop cond loadChars bound s).serve answer arrivals).1.outcome.Finished

namespace Waits

/-- A round that finds a line is the last. -/
theorem loopEnds_of_line (waits : Waits cond fd goesOn) (ready : s.mLinesReady ≠ 0) :
    LoopEnds cond s arrivals := by
  refine ⟨1, ?_⟩
  simp [whileLoop_unroll, waits.line s ready, Call.serve, Call.outcome, Outcome.Finished]

theorem loopEnds_of_stops (waits : Waits cond fd goesOn) (attached : s.mFd = some fd)
    (noLine : s.mLinesReady = 0) (stops : ¬ goesOn next) : LoopEnds cond s (next :: rest) := by
  refine ⟨1, ?_⟩
  rw [whileLoop_unroll, Call.serve_andThen]
  rcases waits.stops s next rest attached noLine stops with ended | ⟨e, ended⟩
  · simp [ended, Call.serve, Call.outcome, Outcome.Finished]
  · simp [ended, Call.serve, Call.outcome, Outcome.Finished]

/-- At the end of the stream with no line, every round is like the one before. -/
theorem not_loopEnds_atEnd (waits : Waits cond fd goesOn) (attached : s.mFd = some fd)
    (noLine : s.mLinesReady = 0) : ¬ LoopEnds cond s [] := by
  rintro ⟨bound, finished⟩
  induction bound with
  | zero => exact finished
  | succ bound ih =>
      apply ih
      rw [whileLoop_unroll, Call.serve_andThen, waits.atEnd s attached noLine] at finished
      simpa [loadChars_some attached, Call.serve, answer] using finished

/-- A chunk further, with the chunk in the buffer. -/
theorem loopEnds_cons (waits : Waits cond fd goesOn) (attached : s.mFd = some fd)
    (noLine : s.mLinesReady = 0) (goes : goesOn next) :
    LoopEnds cond s (next :: rest) ↔
      ∀ chars, next.chunk = .ok chars → LoopEnds cond (s.loaded chars) rest := by
  have unrolled : ∀ bound, (whileLoop cond loadChars (bound + 1) s).serve answer (next :: rest) =
      ((loadChars s).andThen fun s _ => whileLoop cond loadChars bound s).serve answer
        (next :: rest) := by
    intro bound
    rw [whileLoop_unroll, Call.serve_andThen, waits.next s next rest attached noLine goes]
    rfl
  cases brought : next.chunk with
  | error e =>
      refine ⟨fun _ chars impossible => by simp at impossible, fun _ => ⟨1, ?_⟩⟩
      simp [unrolled, loadChars_some attached, Call.serve, answer, brought, Call.outcome,
        Outcome.Finished]
  | ok chars =>
      have further : ∀ bound,
          (whileLoop cond loadChars (bound + 1) s).serve answer (next :: rest) =
            (whileLoop cond loadChars bound (s.loaded chars)).serve answer rest := by
        intro bound
        simp [unrolled, loadChars_some attached, Call.serve, answer, brought]
      constructor
      · rintro ⟨bound, finished⟩ chars' ⟨⟩
        cases bound with
        | zero => exact absurd finished id
        | succ bound => exact ⟨bound, further bound ▸ finished⟩
      · intro ends
        obtain ⟨bound, finished⟩ := ends chars rfl
        exact ⟨bound + 1, (further bound).symm ▸ finished⟩

/-- The loop ends if a line is there, or comes, or something stops it before. -/
theorem loopEnds_iff (waits : Waits cond fd goesOn) (attached : s.mFd = some fd) (inv : s.Inv) :
    LoopEnds cond s arrivals ↔
      newline ∈ s.mBuffer ∨ ∃ next ∈ arrivals, ¬ goesOn next ∨ next.EndsLine := by
  by_cases ready : newline ∈ s.mBuffer
  · have counted : s.mLinesReady ≠ 0 := inv.linesReady_ne_zero.mpr ready
    simpa [ready] using waits.loopEnds_of_line counted
  have noLine : s.mLinesReady = 0 := inv.linesReady_eq_zero.mpr ready
  induction arrivals generalizing s with
  | nil => simpa [ready] using waits.not_loopEnds_atEnd attached noLine
  | cons next rest ih =>
      by_cases goes : goesOn next
      · rw [waits.loopEnds_cons attached noLine goes]
        have loaded : ∀ chars, newline ∉ chars → (LoopEnds cond (s.loaded chars) rest ↔
            ∃ next ∈ rest, ¬ goesOn next ∨ next.EndsLine) := by
          intro chars clean
          have still : newline ∉ (s.loaded chars).mBuffer := by simp [ready, clean]
          have inv' : (s.loaded chars).Inv := inv.loaded (by simp [attached]) chars
          have further :=
            ih (by simpa using attached) inv' still (inv'.linesReady_eq_zero.mpr still)
          simpa only [still, false_or] using further
        constructor
        · intro ends
          right
          by_cases here : next.EndsLine
          · exact ⟨next, List.mem_cons_self, .inr here⟩
          · obtain ⟨chars, brought, clean⟩ := Arrival.not_endsLine.mp here
            obtain ⟨later, mem, stops⟩ := (loaded chars clean).mp (ends chars brought)
            exact ⟨later, List.mem_cons_of_mem _ mem, stops⟩
        · rintro (impossible | ⟨later, mem, stops⟩) chars brought
          · exact absurd impossible ready
          by_cases clean : newline ∈ chars
          · have inv' : (s.loaded chars).Inv := inv.loaded (by simp [attached]) chars
            exact waits.loopEnds_of_line (inv'.linesReady_ne_zero.mpr (by simp [clean]))
          · apply (loaded chars clean).mpr
            rcases List.mem_cons.mp mem with rfl | inRest
            · rcases stops with stops | endsLine
              · exact absurd goes stops
              · exact absurd (endsLine chars brought) clean
            · exact ⟨later, inRest, stops⟩
      · simpa [goes] using waits.loopEnds_of_stops attached noLine goes

end Waits

/-! ### The two operations -/

theorem answer_total (q : Request) (arrivals : List Arrival) : (answer q arrivals).isSome := by
  cases q <;> cases arrivals <;> rfl

/-- If what follows the loop ends wherever the loop has returned, the operation
ends as the loop does. -/
theorem ends_iff_loopEnds {op : Op} {f : LineBuffer → Call interface Exn Fault LineBuffer Value}
    (body : ∀ bound, op.call bound buffer =
      (whileLoop cond loadChars bound buffer).andThen fun s _ => f s)
    (follows : ∀ bound h s, (whileLoop cond loadChars bound buffer).Reaches h (.returned s ()) →
      ∃ v s', f s = .returned s' v) :
    Ends op buffer arrivals ↔ LoopEnds cond buffer arrivals := by
  apply exists_congr
  intro bound
  rw [body, Call.serve_andThen]
  obtain ⟨h, reached⟩ :=
    Call.serve_reaches answer (whileLoop cond loadChars bound buffer) arrivals
  have answered :=
    Call.serve_ne_asking answer_total (whileLoop cond loadChars bound buffer) arrivals
  generalize (whileLoop cond loadChars bound buffer).serve answer arrivals = result
    at reached answered ⊢
  obtain ⟨c, rest⟩ := result
  cases c with
  | returned s _ =>
      obtain ⟨v, s', finished⟩ := follows bound h s reached
      simp [finished, Call.serve, Call.outcome, Outcome.Finished]
  | asking s q resume => exact absurd rfl (answered q)
  | _ => simp [Call.serve, Call.outcome, Outcome.Finished]

theorem linesReady_ends_iff (inv : buffer.Inv) (attached : buffer.mFd = some fd) :
    Ends .linesReady buffer arrivals ↔
      newline ∈ buffer.mBuffer ∨ ∃ next ∈ arrivals, next.EndsPolling := by
  rw [ends_iff_loopEnds (fun _ => linesReady_apply attached) fun _ _ s _ => ⟨_, s, rfl⟩]
  exact (noLineButReady_waits fd).loopEnds_iff attached inv

theorem getLine_ends_iff (inv : buffer.Inv) (attached : buffer.mFd = some fd) :
    Ends .getLine buffer arrivals ↔
      newline ∈ buffer.mBuffer ∨ ∃ next ∈ arrivals, next.EndsLine := by
  have follows : ∀ bound h s,
      (whileLoop noLine loadChars bound buffer).Reaches h (.returned s ()) →
      ∃ v s', ((takeLine s).andThen fun s line => .returned s (Value.line line) :
        Call interface Exn Fault LineBuffer Value) = .returned s' v := by
    intro bound h s reached
    obtain ⟨loading, ready⟩ := (loadLoop_wp noLine_guards attached bound).reaches reached
    have counted : s.mLinesReady = s.mBuffer.count newline := by
      obtain rfl : s = buffer.loaded (bytesRead h) := loading.state
      exact (inv.loaded (by simp [attached]) _).counted
    obtain ⟨line, rest, -, -, taken⟩ := takeLine_spec counted (ready rfl)
    exact ⟨.line line, s.leaving rest, by rw [taken]; rfl⟩
  rw [ends_iff_loopEnds (fun _ => getLine_apply) follows]
  simpa using (noLine_waits fd).loopEnds_iff attached inv

/-- At the end of its stream a call ends exactly if a complete line is buffered
or still to come, or a read fails, or, for `linesReady`, a poll fails or is
negative while there are chunks to come. -/
theorem ends_iff (reachable : Reachable buffer) (attached : buffer.mFd = some fd)
    (arrivals : List Arrival) :
    (Ends .linesReady buffer arrivals ↔
      newline ∈ buffer.mBuffer ∨ ∃ next ∈ arrivals, next.EndsPolling) ∧
    (Ends .getLine buffer arrivals ↔
      newline ∈ buffer.mBuffer ∨ ∃ next ∈ arrivals, next.EndsLine) :=
  ⟨linesReady_ends_iff reachable.inv attached, getLine_ends_iff reachable.inv attached⟩

theorem ends_iff_wholeLine :
    Ends .linesReady (ofFd (some 0)) [⟨.ok true, .ok [104, 10]⟩] ∧
      Ends .getLine (ofFd (some 0)) [⟨.ok true, .ok [104, 10]⟩] := by
  obtain ⟨linesReady, getLine⟩ := ends_iff (reachable_ofFd 0) rfl [⟨.ok true, .ok [104, 10]⟩]
  have line : Arrival.EndsLine ⟨.ok true, .ok [104, 10]⟩ := by
    rintro chars ⟨⟩
    decide
  exact ⟨linesReady.mpr (.inr ⟨_, by simp, .inr line⟩), getLine.mpr (.inr ⟨_, by simp, line⟩)⟩

/-- `"h"` and then the end of the stream: the two loops go on for ever. -/
theorem ends_fails : ¬ ∀ buffer fd arrivals, Reachable buffer → buffer.mFd = some fd →
    Ends .linesReady buffer arrivals ∧ Ends .getLine buffer arrivals := by
  intro always
  obtain ⟨-, getLine⟩ := always _ 0 [⟨.ok true, .ok [104]⟩] (reachable_ofFd 0) rfl
  have line : Arrival.EndsLine ⟨.ok true, .ok [104]⟩ := by
    simpa [ofFd] using (getLine_ends_iff (reachable_ofFd 0).inv rfl).mp getLine
  exact absurd (line [104] rfl) (by decide)

end MarathonKit.Core.LineBuffer
