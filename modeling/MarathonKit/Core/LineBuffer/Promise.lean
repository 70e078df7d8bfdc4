import MarathonKit.Core.LineBuffer.Store

/-!
What a poll promises: the calls it announces return without asking the
descriptor for anything.

The promise is a statement about `mBuffer` alone. The bytes handed out since the
poll are a prefix of what was buffered then, followed by what was read since, so
as long as fewer newlines (bytes) are gone than were counted, one is left.
-/

namespace MarathonKit.Core.LineBuffer

open Dialogue Dialogue.Method FileDescriptor Objects

variable {buffer buffer' : LineBuffer} {x : Exchange} {xs : List Exchange}

/-! ### Calls on one buffer -/

theorem Calls.inv (calls : buffer.Calls x buffer') (inv : buffer.Inv) : buffer'.Inv :=
  (calls.post inv).inv

/-- Nothing is handed out that was not in the buffer or read since. -/
theorem calls_conserved (run : Run Calls buffer xs buffer') (inv : buffer.Inv) :
    xs.flatMap Exchange.consumed ++ buffer'.mBuffer =
      buffer.mBuffer ++ xs.flatMap Exchange.received := by
  induction run with
  | nil => simp
  | cons calls _ ih =>
      have first := calls.conserved inv
      have rest := ih (calls.inv inv)
      simp only [List.flatMap_cons, List.append_assoc, rest]
      rw [← List.append_assoc, first, List.append_assoc]

/-- If fewer bytes of a kind are gone than there were, there is one left. -/
theorem exists_left {p : Byte → Bool} (run : Run Calls buffer xs buffer')
    (inv : buffer.Inv) (fewer : (xs.flatMap Exchange.consumed).countP p < buffer.mBuffer.countP p) :
    0 < buffer'.mBuffer.countP p := by
  have counts := congrArg (List.countP p) (calls_conserved run inv)
  rw [List.countP_append, List.countP_append] at counts
  omega

/-! ### Calls that ask for nothing -/

/-- The call returns, and asks for nothing on the way. -/
def ReturnsAtOnce (buffer : LineBuffer) (op : Op) : Prop :=
  ∀ bound, ∃ buffer' v, op.call (bound + 1) buffer = .returned buffer' v

theorem getChar_returnsAtOnce (inv : buffer.Inv) (buffered : buffer.mBuffer ≠ []) :
    buffer.ReturnsAtOnce .getChar := by
  intro bound
  obtain ⟨ch, rest, front⟩ := List.exists_cons_of_ne_nil buffered
  refine ⟨buffer.leaving rest, .char ch, ?_⟩
  exact getChar_cons inv front

theorem getLine_returnsAtOnce (inv : buffer.Inv) (ready : buffer.mLinesReady ≠ 0) :
    buffer.ReturnsAtOnce .getLine := by
  intro bound
  obtain ⟨line, rest, -, -, taken⟩ := takeLine_spec inv.counted ready
  refine ⟨buffer.leaving rest, .line line, ?_⟩
  simp [getLine_apply, whileLoop_unroll, noLine, ready, taken]

/-! ### The promise -/

variable {b₀ b₁ b₂ b₃ b₄ : LineBuffer} {h h' : List (Event interface)} {lines chars : Nat}
  {ys : List Exchange}

/-- With a line fewer consumed than were counted, a line and hence a byte is
there. -/
theorem returnsAtOnce_of_count (run : Run Calls buffer xs buffer') (inv : buffer.Inv)
    (fewer : (xs.flatMap Exchange.consumed).count newline < buffer.mBuffer.count newline) :
    buffer'.ReturnsAtOnce .getLine ∧ buffer'.ReturnsAtOnce .getChar := by
  have inv' : buffer'.Inv := run.invariant (fun _ _ _ inv calls => calls.inv inv) inv
  have left : 0 < buffer'.mBuffer.count newline := exists_left run inv fewer
  have ready : buffer'.mLinesReady ≠ 0 := by
    have counted := inv'.counted
    omega
  have buffered : buffer'.mBuffer ≠ [] := List.ne_nil_of_mem (List.count_pos_iff.mp left)
  exact ⟨getLine_returnsAtOnce inv' ready, getChar_returnsAtOnce inv' buffered⟩

theorem returnsAtOnce_of_length (run : Run Calls buffer xs buffer') (inv : buffer.Inv)
    (fewer : (xs.flatMap Exchange.consumed).length < buffer.mBuffer.length) :
    buffer'.ReturnsAtOnce .getChar := by
  have inv' : buffer'.Inv := run.invariant (fun _ _ _ inv calls => calls.inv inv) inv
  have left := exists_left (p := fun _ => true) run inv (by simpa using fewer)
  exact getChar_returnsAtOnce inv' (by
    rintro isEmpty
    simp [isEmpty] at left)

/-- After `linesReady` has returned `lines` and then, with nothing handed out in
between, `charsReady` has returned `chars`: while fewer newlines than `lines` are
consumed, `getLine` and `getChar` return at once, and while fewer bytes than
`chars` are, `getChar` does. -/
theorem poll_promise (reachable : Reachable b₀)
    (counted : b₀.Calls ⟨.linesReady, h, .returned (.count lines)⟩ b₁)
    (between : Run Calls b₁ xs b₂) (nothing : xs.flatMap Exchange.consumed = [])
    (measured : b₂.Calls ⟨.charsReady, h', .returned (.count chars)⟩ b₃)
    (later : Run Calls b₃ ys b₄) :
    ((ys.flatMap Exchange.consumed).count newline < lines →
      b₄.ReturnsAtOnce .getLine ∧ b₄.ReturnsAtOnce .getChar) ∧
    ((ys.flatMap Exchange.consumed).length < chars → b₄.ReturnsAtOnce .getChar) := by
  have inv₁ : b₁.Inv := counted.inv reachable.inv
  have inv₂ : b₂.Inv := between.invariant (fun _ _ _ inv calls => calls.inv inv) inv₁
  have inv₃ : b₃.Inv := measured.inv inv₂
  have linesThen : lines = b₁.mBuffer.count newline := (counted.post reachable.inv).returns _ rfl
  have charsThen : chars = b₃.mBuffer.length := (measured.post inv₂).returns _ rfl
  have kept : b₁.mBuffer.count newline ≤ b₃.mBuffer.count newline := by
    have moved := calls_conserved (between.snoc measured) inv₁
    rw [List.flatMap_append, nothing] at moved
    obtain ⟨more, whole⟩ : ∃ more, b₃.mBuffer = b₁.mBuffer ++ more :=
      ⟨_, by simpa [Exchange.consumed, LineBuffer.consumed, Value.consumed] using moved⟩
    rw [whole, List.count_append]
    omega
  constructor
  · intro fewer
    exact returnsAtOnce_of_count later inv₃ (by omega)
  · intro fewer
    exact returnsAtOnce_of_length later inv₃ (by omega)

/-- `"h\n"` is read by the poll; after `getChar` has taken the `h`, one line and
one byte are still promised. -/
theorem poll_promise_afterChar :
    (LineBuffer.mk (some 0) [10] 1).ReturnsAtOnce .getLine ∧
      (LineBuffer.mk (some 0) [10] 1).ReturnsAtOnce .getChar := by
  have counted : (ofFd (some 0)).Calls
      ⟨.linesReady, [⟨.isReadyForReading 0, .ok true⟩, ⟨.read 0, .ok [104, 10]⟩],
        .returned (.count 1)⟩ ⟨some 0, [104, 10], 1⟩ :=
    ⟨2, _, .answer (.answer (.here _)), rfl, rfl⟩
  have measured : (LineBuffer.mk (some 0) [104, 10] 1).Calls
      ⟨.charsReady, [], .returned (.count 2)⟩ ⟨some 0, [104, 10], 1⟩ :=
    ⟨0, _, .here _, rfl, rfl⟩
  have taken : (LineBuffer.mk (some 0) [104, 10] 1).Calls
      ⟨.getChar, [], .returned (.char 104)⟩ ⟨some 0, [10], 1⟩ :=
    ⟨0, _, .here _, rfl, rfl⟩
  have promise := poll_promise (reachable_ofFd 0) counted (.nil _) rfl measured (.single taken)
  exact promise.1 (by decide)

end MarathonKit.Core.LineBuffer
