import MarathonKit.Core.LineBuffer.Spec
import MarathonKit.Text.Queue

/-!
A `LineBuffer` at work on one descriptor: it refines a queue of bytes.

The bytes pending are those in `mBuffer` followed by the chunks the descriptor
has not delivered yet. `Session.refines_queue` says that the four operations are
the operations of `Text.Queue` on the pending bytes, at every point of every
run; `Session.schedule_independent` that therefore neither the chunking nor the
polls nor the exceptions can be seen in what `getChar` and `getLine` return.
-/

namespace MarathonKit.Core.LineBuffer

open Dialogue FileDescriptor Text

structure Session where
  buffer : LineBuffer
  /-- the chunks the reads to come will return, in order -/
  unread : List Bytes

namespace Session

def start (fd : FdPtr) (chunks : List Bytes) : Session := ⟨ofFd (some fd), chunks⟩

/-- What the session has still to hand out. -/
def pending (s : Session) : Bytes := s.buffer.mBuffer ++ s.unread.flatten

/-- One call. Its reads return the next chunks; a read may also fail, and a poll
may answer anything. -/
def Step (s : Session) (x : Exchange) (s' : Session) : Prop :=
  s.buffer.Calls x s'.buffer ∧ s.unread = chunksRead x.history ++ s'.unread

/-- What is kept by every call. -/
structure Inv (s : Session) : Prop where
  buffer : s.buffer.Inv
  attached : s.buffer.mFd ≠ none
  nonempty : [] ∉ s.unread

theorem inv_start {fd : FdPtr} {chunks : List Bytes} (nonempty : [] ∉ chunks) :
    (start fd chunks).Inv :=
  ⟨⟨rfl, by simp [start, ofFd]⟩, by simp [start, ofFd], nonempty⟩

variable {s s' : Session} {x : Exchange} {xs : List Exchange}

theorem Step.inv (step : s.Step x s') (inv : s.Inv) : s'.Inv := by
  have post := step.1.post inv.buffer
  refine ⟨post.inv, post.sameFd ▸ inv.attached, fun isEmpty => inv.nonempty ?_⟩
  rw [step.2]
  exact List.mem_append_right _ isEmpty

theorem Step.pending (step : s.Step x s') (inv : s.Inv) :
    s.pending = x.consumed ++ s'.pending := by
  have conserved := step.1.conserved inv.buffer
  rw [Session.pending, Session.pending, step.2, ← List.append_assoc, conserved, Exchange.received,
    bytesRead, List.flatten_append, List.append_assoc]

/-- With something in every chunk, the front of an empty buffer is never
asked for. -/
theorem Step.safe (step : s.Step x s') (inv : s.Inv) (f : Fault) : x.outcome ≠ .faulted f := by
  intro faulted
  obtain ⟨-, -, -, fd, -, history⟩ := (step.1.post inv.buffer).faults f faulted
  apply inv.nonempty
  rw [step.2, history]
  simp

end Session

namespace Exchange

/-- What a call takes off the queue of pending bytes. -/
def take (x : Exchange) : Queue.Take Byte :=
  match x.outcome with
  | .returned (.char ch) => .first ch
  | .returned (.line chars) => .line chars
  | _ => .nothing

theorem symbols_take (x : Exchange) : x.take.symbols newline = x.consumed := by
  obtain ⟨op, history, outcome⟩ := x
  rcases outcome with v | _ | _ | _ | _
  · cases v <;> rfl
  all_goals rfl

end Exchange

namespace Session

variable {s s' : Session} {x : Exchange} {xs : List Exchange} {fd : FdPtr} {chunks : List Bytes}

/-- A call is an operation on the queue of pending bytes. -/
theorem Step.refines (step : s.Step x s') (inv : s.Inv) :
    Queue.Step newline s.pending x.take s'.pending := by
  have moved := step.pending inv
  have returns := (step.1.post inv.buffer).returns
  obtain ⟨op, history, outcome⟩ := x
  rcases outcome with v | _ | _ | _ | _
  · have holds := returns v rfl
    cases v with
    | count n => exact moved
    | char ch => exact moved
    | line chars =>
        refine ⟨?_, by simpa [Exchange.consumed, LineBuffer.consumed, Value.consumed] using moved⟩
        cases op <;> simp_all [Op.Returns]
  all_goals exact moved

theorem flatMap_received (xs : List Exchange) :
    xs.flatMap Exchange.received = (xs.flatMap fun x => chunksRead x.history).flatten := by
  induction xs with
  | nil => rfl
  | cons x xs ih => simp [Exchange.received, bytesRead, ih]

theorem refines (inv : (start fd chunks).Inv) (run : Run Step (start fd chunks) xs s) :
    Run (Queue.Step newline) chunks.flatten (xs.map Exchange.take) s.pending := by
  simpa [pending, start, ofFd] using run.refines (Queue.Step newline) pending Exchange.take
    (fun _ _ _ inv step => ⟨step.inv inv, step.refines inv⟩) inv

/-- What was handed out, followed by what is buffered, is what was read. -/
theorem buffered (inv : (start fd chunks).Inv) (run : Run Step (start fd chunks) xs s) :
    xs.flatMap Exchange.consumed ++ s.buffer.mBuffer = xs.flatMap Exchange.received := by
  have moved := Queue.conserves (refines inv run)
  simp only [List.flatMap_map, Exchange.symbols_take] at moved
  have read := run.conserves unread (fun x => chunksRead x.history)
    (fun _ _ _ inv step => ⟨step.inv inv, step.2⟩) inv
  apply (List.append_left_inj s.unread.flatten).mp
  calc xs.flatMap Exchange.consumed ++ s.buffer.mBuffer ++ s.unread.flatten
      = chunks.flatten := by rw [moved, pending, List.append_assoc]
    _ = (start fd chunks).unread.flatten := rfl
    _ = xs.flatMap Exchange.received ++ s.unread.flatten := by
        rw [read, List.flatten_append, flatMap_received]

/-- At every point of every run: the calls are operations on a queue that holds
the whole stream at first and the pending bytes at last, each of its own kind,
and what they handed out, followed by what is buffered, is what was read. -/
theorem refines_queue (nonempty : [] ∉ chunks) (run : Run Step (start fd chunks) xs s) :
    Run (Queue.Step newline) chunks.flatten (xs.map Exchange.take) s.pending ∧
    (∀ x ∈ xs, x.Fits) ∧
    xs.flatMap Exchange.consumed ++ s.buffer.mBuffer = xs.flatMap Exchange.received := by
  have inv : (start fd chunks).Inv := inv_start nonempty
  refine ⟨refines inv run, ?_, buffered inv run⟩
  exact run.all (fun _ _ _ inv step =>
    ⟨step.inv inv, .of_returns (step.1.post inv.buffer).returns (step.safe inv)⟩) inv

/-- What is kept holds of every session reached. -/
theorem inv_of_run (nonempty : [] ∉ chunks) (run : Run Step (start fd chunks) xs s) :
    s.Inv :=
  run.invariant (fun _ _ _ inv step => step.inv inv) (inv_start nonempty)

/-- `"hi\nj\n"` in three chunks: a character, a line, a read that fails, polls, and the
line that was left. -/
def mixed : List Exchange :=
  [⟨.charsReady, [⟨.isReadyForReading 0, .ok false⟩], .returned (.count 0)⟩,
    ⟨.getChar, [⟨.read 0, .ok [104]⟩], .returned (.char 104)⟩,
    ⟨.getLine, [⟨.read 0, .ok [105, 10, 106]⟩], .returned (.line [105])⟩,
    ⟨.getLine, [⟨.read 0, .error (.strerror 4)⟩], .threw (.strerror 4)⟩,
    ⟨.linesReady, [⟨.isReadyForReading 0, .ok true⟩, ⟨.read 0, .ok [10]⟩], .returned (.count 1)⟩,
    ⟨.getLine, [], .returned (.line [106])⟩]

theorem run_mixed : Run Step (start 0 [[104], [105, 10, 106], [10]]) mixed
    ⟨ofFd (some 0), []⟩ := by
  have polls : Step (start 0 [[104], [105, 10, 106], [10]])
      ⟨.charsReady, [⟨.isReadyForReading 0, .ok false⟩], .returned (.count 0)⟩
      (start 0 [[104], [105, 10, 106], [10]]) :=
    ⟨⟨0, _, .answer (.here _), rfl, rfl⟩, rfl⟩
  have char : Step (start 0 [[104], [105, 10, 106], [10]])
      ⟨.getChar, [⟨.read 0, .ok [104]⟩], .returned (.char 104)⟩
      (start 0 [[105, 10, 106], [10]]) :=
    ⟨⟨0, _, .answer (.here _), rfl, rfl⟩, rfl⟩
  have line : Step (start 0 [[105, 10, 106], [10]])
      ⟨.getLine, [⟨.read 0, .ok [105, 10, 106]⟩], .returned (.line [105])⟩
      ⟨⟨some 0, [106], 0⟩, [[10]]⟩ :=
    ⟨⟨2, _, .answer (.here _), rfl, rfl⟩, rfl⟩
  have fails : Step ⟨⟨some 0, [106], 0⟩, [[10]]⟩
      ⟨.getLine, [⟨.read 0, .error (.strerror 4)⟩], .threw (.strerror 4)⟩
      ⟨⟨some 0, [106], 0⟩, [[10]]⟩ :=
    ⟨⟨2, _, .answer (.here _), rfl, rfl⟩, rfl⟩
  have loads : Step ⟨⟨some 0, [106], 0⟩, [[10]]⟩
      ⟨.linesReady, [⟨.isReadyForReading 0, .ok true⟩, ⟨.read 0, .ok [10]⟩], .returned (.count 1)⟩
      ⟨⟨some 0, [106, 10], 1⟩, []⟩ :=
    ⟨⟨2, _, .answer (.answer (.here _)), rfl, rfl⟩, rfl⟩
  have left : Step ⟨⟨some 0, [106, 10], 1⟩, []⟩ ⟨.getLine, [], .returned (.line [106])⟩
      ⟨ofFd (some 0), []⟩ :=
    ⟨⟨1, _, .here _, rfl, rfl⟩, rfl⟩
  exact .cons polls (.cons char (.cons line (.cons fails (.cons loads (.single left)))))

theorem refines_queue_mixed :
    Run (Queue.Step newline) [104, 105, 10, 106, 10]
      [.nothing, .first 104, .line [105], .nothing, .nothing, .line [106]] [] ∧
    (∀ x ∈ mixed, x.Fits) ∧
    mixed.flatMap Exchange.consumed ++ [] = mixed.flatMap Exchange.received :=
  refines_queue (by decide) run_mixed

/-! ### What the calls that succeed return -/

/-- The successes of a run: the calls of `getChar` and `getLine` that returned,
each with its value. A call that throws is not among them; repeated until it
returns, it is there once. -/
def successes (xs : List Exchange) : List (Op × Value) :=
  xs.filterMap fun x =>
    match x.op, x.outcome with
    | .getChar, .returned v => some (.getChar, v)
    | .getLine, .returned v => some (.getLine, v)
    | _, _ => none

/-- What was asked for, and given. -/
def succeeded (xs : List Exchange) : List Op := (successes xs).map Prod.fst

/-- What was given. -/
def delivered (xs : List Exchange) : List Value := (successes xs).map Prod.snd

/-- The success a take is. -/
def success? : Queue.Take Byte → Option (Op × Value)
  | .nothing => none
  | .first ch => some (.getChar, .char ch)
  | .line chars => some (.getLine, .line chars)

def kindOf : Op → Queue.Kind
  | .charsReady | .linesReady => .nothing
  | .getChar => .first
  | .getLine => .line

theorem successes_eq (fits : ∀ x ∈ xs, x.Fits) :
    successes xs = (xs.map Exchange.take).filterMap success? := by
  rw [successes, List.filterMap_map]
  apply List.filterMap_congr
  intro x mem
  have holds := fits x mem
  obtain ⟨op, history, outcome⟩ := x
  cases outcome with
  | returned v => cases op <;> cases v <;> simp_all [Exchange.Fits, Exchange.take, success?]
  | _ => cases op <;> rfl

theorem filterMap_serving (ts : List (Queue.Take Byte)) :
    (ts.filter Queue.Take.serves).filterMap success? = ts.filterMap success? := by
  induction ts with
  | nil => rfl
  | cons t ts ih =>
      cases t with
      | nothing => rwa [List.filterMap_cons_none rfl]
      | first ch => simp [Queue.Take.serves, Queue.Take.kind, success?, ih]
      | line chars => simp [Queue.Take.serves, Queue.Take.kind, success?, ih]

theorem map_kind_serving (ts : List (Queue.Take Byte)) :
    (ts.filter Queue.Take.serves).map Queue.Take.kind =
      (ts.filterMap success?).map fun success => kindOf success.1 := by
  induction ts with
  | nil => rfl
  | cons t ts ih =>
      cases t with
      | nothing => rwa [List.filterMap_cons_none rfl]
      | first ch => simp [Queue.Take.serves, Queue.Take.kind, success?, kindOf, ih]
      | line chars => simp [Queue.Take.serves, Queue.Take.kind, success?, kindOf, ih]

variable {t : Session} {ys : List Exchange} {fd' : FdPtr} {chunks' : List Bytes}

/-- Two runs over one stream, cut into chunks in two ways, with whatever polls
and exceptions between: the calls that succeed return the same, if they are the
same calls. -/
theorem delivered_eq (same : chunks.flatten = chunks'.flatten) (nonempty : [] ∉ chunks)
    (nonempty' : [] ∉ chunks') (run : Run Step (start fd chunks) xs s)
    (run' : Run Step (start fd' chunks') ys t) (wanted : succeeded xs = succeeded ys) :
    delivered xs = delivered ys := by
  obtain ⟨queue, fits, -⟩ := refines_queue nonempty run
  obtain ⟨queue', fits', -⟩ := refines_queue nonempty' run'
  rw [succeeded, succeeded, successes_eq fits, successes_eq fits'] at wanted
  have sameKinds := congrArg (List.map kindOf) wanted
  simp only [List.map_map] at sameKinds
  obtain ⟨sameTakes, -⟩ := Queue.deterministic queue (same ▸ queue') (by
    rw [map_kind_serving, map_kind_serving]
    exact sameKinds)
  rw [delivered, delivered, successes_eq fits, successes_eq fits', ← filterMap_serving, sameTakes,
    filterMap_serving]

/-- A call that throws has taken nothing off the stream; what it has read is
kept. -/
theorem Step.threw (inv : s.Inv) (step : s.Step x s') {e : Exn} (threw : x.outcome = .threw e) :
    s'.pending = s.pending ∧ s'.buffer.mBuffer = s.buffer.mBuffer ++ x.received := by
  have nothing : x.consumed = [] := by simp [Exchange.consumed, LineBuffer.consumed, threw]
  have moved := step.pending inv
  have buffered := step.1.conserved inv.buffer
  rw [nothing, List.nil_append] at moved buffered
  exact ⟨moved.symm, buffered⟩

/-- The values a stream gives do not depend on how it is cut, on what the polls
answer and where they stand, or on which calls throw before they are repeated;
and a call that throws, however much it has read, has consumed nothing. -/
theorem schedule_independent {wanted : List Op} (same : chunks.flatten = chunks'.flatten)
    (nonempty : [] ∉ chunks) (nonempty' : [] ∉ chunks')
    (run : Run Step (start fd chunks) xs s) (run' : Run Step (start fd' chunks') ys t)
    (all : succeeded xs = wanted) (all' : succeeded ys = wanted) :
    delivered xs = delivered ys ∧
    ∀ x s' e, s.Step x s' → x.outcome = .threw e →
      s'.pending = s.pending ∧ s'.buffer.mBuffer = s.buffer.mBuffer ++ x.received := by
  refine ⟨delivered_eq same nonempty nonempty' run run' (all.trans all'.symm), ?_⟩
  intro x s' e step threw
  exact step.threw (inv_of_run nonempty run) threw

/-- `"h\n"` in one chunk, read by one `getLine`. -/
def wholeLine : Exchange := ⟨.getLine, [⟨.read 0, .ok [104, 10]⟩], .returned (.line [104])⟩

theorem run_wholeLine : Run Step (start 0 [[104, 10]]) [wholeLine] ⟨ofFd (some 0), []⟩ :=
  .single ⟨⟨2, _, .answer (.here _), rfl, rfl⟩, rfl⟩

/-- The same bytes in two chunks, and a read between them that fails: the first
`getLine` throws, is repeated and returns. -/
def cutLine : List Exchange :=
  [⟨.getLine, [⟨.read 0, .ok [104]⟩, ⟨.read 0, .error (.strerror 4)⟩], .threw (.strerror 4)⟩,
    ⟨.linesReady, [⟨.isReadyForReading 0, .ok false⟩], .returned (.count 0)⟩,
    ⟨.getLine, [⟨.read 0, .ok [10]⟩], .returned (.line [104])⟩]

theorem run_cutLine : Run Step (start 0 [[104], [10]]) cutLine ⟨ofFd (some 0), []⟩ := by
  have fails : Step (start 0 [[104], [10]])
      ⟨.getLine, [⟨.read 0, .ok [104]⟩, ⟨.read 0, .error (.strerror 4)⟩], .threw (.strerror 4)⟩
      ⟨⟨some 0, [104], 0⟩, [[10]]⟩ :=
    ⟨⟨2, _, .answer (.answer (.here _)), rfl, rfl⟩, rfl⟩
  have polls : Step ⟨⟨some 0, [104], 0⟩, [[10]]⟩
      ⟨.linesReady, [⟨.isReadyForReading 0, .ok false⟩], .returned (.count 0)⟩
      ⟨⟨some 0, [104], 0⟩, [[10]]⟩ :=
    ⟨⟨1, _, .answer (.here _), rfl, rfl⟩, rfl⟩
  have returns : Step ⟨⟨some 0, [104], 0⟩, [[10]]⟩
      ⟨.getLine, [⟨.read 0, .ok [10]⟩], .returned (.line [104])⟩ ⟨ofFd (some 0), []⟩ :=
    ⟨⟨2, _, .answer (.here _), rfl, rfl⟩, rfl⟩
  exact .cons fails (.cons polls (.single returns))

theorem schedule_independent_cutLine : delivered [wholeLine] = delivered cutLine :=
  (schedule_independent (by decide : ([[104, 10]] : List Bytes).flatten = _) (by decide)
    (by decide) run_wholeLine run_cutLine (rfl : _ = [Op.getLine]) rfl).1

end Session

end MarathonKit.Core.LineBuffer
