import MarathonKit.Core.LineBuffer.Spec
import MarathonKit.Dialogue.Run
import MarathonKit.Objects.Store

/-!
Any number of `LineBuffer`s, constructed, moved, swapped, called and destroyed.

A call is a step whether or not it is over, so the states reached include those
in the middle of a load loop and those left by an exception. `representation`
is the representation invariant in all of them. A call that goes wrong ends the
run (`UntilWrong`). `delivers_iff` says which runs are free of that: those in
which no `getChar` reads the empty string, which is what a descriptor returns at
the end of its stream.
-/

namespace MarathonKit.Core.LineBuffer

open Dialogue Dialogue.Method FileDescriptor Objects

/-- A buffer with its past: the bytes read into it and those handed out of it.
The past goes with the contents when a buffer is moved. -/
structure Account where
  buffer : LineBuffer
  received : Bytes
  taken : Bytes
deriving DecidableEq, Repr

namespace Account

def opened (buffer : LineBuffer) : Account := ⟨buffer, [], []⟩

def movable : Movable Account where
  construct a :=
    (⟨(moveConstruct a.buffer).1, a.received, a.taken⟩, opened (moveConstruct a.buffer).2)
  assign a b :=
    (⟨(moveAssign a.buffer b.buffer).1, b.received, b.taken⟩,
      ⟨(moveAssign a.buffer b.buffer).2, a.received, a.taken⟩)
  swap a b :=
    (⟨(swapWith a.buffer b.buffer).1, b.received, b.taken⟩,
      ⟨(swapWith a.buffer b.buffer).2, a.received, a.taken⟩)

theorem movable_exchanges : movable.Exchanges (opened empty) :=
  ⟨fun _ => rfl, fun _ _ => rfl, fun _ _ => rfl⟩

structure Inv (a : Account) : Prop where
  buffer : a.buffer.Inv
  balanced : a.taken ++ a.buffer.mBuffer = a.received

theorem inv_opened {buffer : LineBuffer} (blank : buffer.mBuffer = [])
    (none : buffer.mLinesReady = 0) : (opened buffer).Inv :=
  ⟨⟨by simp [opened, blank, none], fun _ => blank⟩, by simp [opened, blank]⟩

/-- One call on the buffer. -/
def Step (a : Account) (x : Exchange) (a' : Account) : Prop :=
  a.buffer.Calls x a'.buffer ∧ a'.received = a.received ++ x.received ∧
    a'.taken = a.taken ++ x.consumed

variable {a a' : Account} {x : Exchange}

/-- What the call handed out is what was received next. -/
theorem Step.received (step : a.Step x a') (inv : a.Inv) :
    a'.received = a.taken ++ x.consumed ++ a'.buffer.mBuffer := by
  have conserved := step.1.conserved inv.buffer
  rw [step.2.1, ← inv.balanced, List.append_assoc, ← conserved, List.append_assoc]

theorem Step.inv (step : a.Step x a') (inv : a.Inv) : a'.Inv where
  buffer := (step.1.post inv.buffer).inv
  balanced := by rw [step.2.2, step.received inv]

end Account

inductive Action where
  | construct (i : Nat)
  | constructFd (i : Nat) (fd : Option FdPtr)
  | transfer (t : Transfer)
  | destroy (i : Nat)
  /-- a call on the buffer named `i`, with what was found and what was left there -/
  | call (i : Nat) (before : Account) (x : Exchange) (after : Account)

/-- What an action does. A call may be at any of its points. -/
def Acts (s : Store Account) : Action → Store Account → Prop
  | .construct i, s' => s i = none ∧ s' = s.put i (some (.opened empty))
  | .constructFd i fd, s' => s i = none ∧ s' = s.put i (some (.opened (ofFd fd)))
  | .transfer t, s' => Account.movable.Step s t s'
  | .destroy i, s' => s i ≠ none ∧ s' = s.put i none
  | .call i before x after, s' =>
      s i = some before ∧ before.Step x after ∧ s' = s.put i (some after)

/-- A call goes wrong; nothing is known of the buffers afterwards. -/
def Action.Faulted : Action → Prop
  | .call _ _ x _ => x.outcome.Faulted
  | _ => False

/-- One step from one state to another that is known. -/
def Step (s : Store Account) (action : Action) (s' : Store Account) : Prop :=
  Acts s action s' ∧ ¬ action.Faulted

variable {s s' : Store Account} {action : Action} {actions : List Action} {i : Nat} {a : Account}

theorem Acts.all (acts : Acts s action s') (all : s.All Account.Inv) : s'.All Account.Inv := by
  cases action with
  | construct i =>
      obtain ⟨-, rfl⟩ := acts
      apply all.put
      rintro a ⟨⟩
      exact Account.inv_opened rfl rfl
  | constructFd i fd =>
      obtain ⟨-, rfl⟩ := acts
      apply all.put
      rintro a ⟨⟩
      exact Account.inv_opened rfl rfl
  | transfer t =>
      exact Movable.Step.all Account.movable_exchanges (Account.inv_opened rfl rfl) acts all
  | destroy i =>
      obtain ⟨-, rfl⟩ := acts
      exact all.put (by simp)
  | call i before x after =>
      obtain ⟨alive, calls, rfl⟩ := acts
      apply all.put
      rintro a ⟨⟩
      exact calls.inv (all i before alive)

theorem all_of_run (run : Run Step Store.none actions s) : s.All Account.Inv :=
  run.invariant (fun _ _ _ all step => step.1.all all) Store.All.none

/-- A buffer that occurs in some run. -/
def Reachable (buffer : LineBuffer) : Prop :=
  ∃ actions s i a, Run Step Store.none actions s ∧ s i = some a ∧ a.buffer = buffer

theorem reachable_ofFd (fd : FdPtr) : Reachable (ofFd (some fd)) :=
  ⟨[.constructFd 0 (some fd)], _, 0, .opened (ofFd (some fd)), .single ⟨⟨rfl, rfl⟩, id⟩, rfl, rfl⟩

theorem Reachable.inv {buffer : LineBuffer} (reachable : Reachable buffer) : buffer.Inv := by
  obtain ⟨actions, s, i, a, run, alive, rfl⟩ := reachable
  exact (all_of_run run i a alive).buffer

/-- What is left of a buffer that a new one is constructed from. -/
theorem left_construct {j : Nat} (step : Step s (.transfer (.construct j i)) s') :
    ∃ left, s' i = some left ∧ left.buffer = empty := by
  obtain ⟨⟨-, a, -, rfl⟩, -⟩ := step
  exact ⟨_, Store.put_same, rfl⟩

/-- The representation invariant, and what it means for a buffer that was
default constructed or moved from. -/
theorem representation (run : Run Step Store.none actions s) (alive : s i = some a) :
    a.buffer.mLinesReady = a.buffer.mBuffer.count newline ∧
    (a.buffer.mFd = none → a.buffer.mBuffer = [] ∧ a.buffer.mLinesReady = 0 ∧
      getChar a.buffer = .threw a.buffer notInitialized ∧
      ∀ bound, getLine (bound + 1) a.buffer = .threw a.buffer notInitialized) ∧
    ∀ j s', Step s (.transfer (.construct j i)) s' →
      ∃ left, s' i = some left ∧ left.buffer = empty ∧ left.buffer.mFd = none := by
  have inv : a.buffer.Inv := (all_of_run run i a alive).buffer
  refine ⟨inv.counted, fun detached => ?_, fun j s' step => ?_⟩
  · exact ⟨inv.detached detached, inv.linesReady_detached detached, getChar_detached inv detached,
      getLine_detached inv detached⟩
  · obtain ⟨left, alive, same⟩ := left_construct step
    exact ⟨left, alive, same, by rw [same]; rfl⟩

/-- A buffer on the descriptor `0` that has read `"h"` before a read failed, and
the buffer that was moved from it. -/
def halfLine : Account := ⟨⟨some 0, [104], 0⟩, [104], []⟩

def halfLineRead : Exchange :=
  ⟨.getLine, [⟨.read 0, .ok [104]⟩, ⟨.read 0, .error (.strerror 4)⟩], .threw (.strerror 4)⟩

theorem run_halfLine :
    Run Step Store.none [.constructFd 0 (some 0),
        .call 0 (.opened (ofFd (some 0))) halfLineRead halfLine, .transfer (.construct 1 0)]
      (Movable.write (((Store.none : Store Account).put 0 (some (.opened (ofFd (some 0))))).put 0
        (some halfLine)) 1 0 (halfLine, .opened empty)) := by
  have reads : Account.Step (.opened (ofFd (some 0))) halfLineRead halfLine :=
    ⟨⟨2, _, .answer (.answer (.here _)), rfl, rfl⟩, rfl, rfl⟩
  exact .cons ⟨⟨rfl, rfl⟩, id⟩ (.cons ⟨⟨rfl, reads, rfl⟩, id⟩
    (.single ⟨⟨rfl, halfLine, rfl, rfl⟩, id⟩))

theorem representation_halfLine :
    halfLine.buffer.mLinesReady = halfLine.buffer.mBuffer.count newline ∧
      getChar empty = .threw empty notInitialized :=
  ⟨(representation run_halfLine (i := 1) (a := halfLine) rfl).1,
    ((representation run_halfLine (i := 0) (a := .opened empty) rfl).2.1 rfl).2.2.1⟩

/-! ### Which runs are free of faults -/

/-- `getChar` on an empty buffer, whose read returns `""`. -/
def Action.ReadsNothing : Action → Prop
  | .call _ before x _ => x.op.ReadsNothing before.buffer.mBuffer x.history
  | _ => False

/-- What a call may do: no fault, a value of its kind if it returns, and as
value the bytes received next. -/
def Action.Delivers : Action → Prop
  | .call _ before x after =>
      x.Fits ∧ after.received = before.taken ++ x.consumed ++ after.buffer.mBuffer
  | _ => True

theorem Acts.delivers (acts : Acts s action s') (all : s.All Account.Inv) :
    action.Delivers ↔ ¬ action.ReadsNothing := by
  cases action with
  | call i before x after =>
      obtain ⟨alive, calls, -⟩ := acts
      have inv : before.Inv := all i before alive
      show _ ∧ _ ↔ ¬ x.op.ReadsNothing _ _
      rw [← calls.1.faulted_iff inv.buffer, and_iff_left (calls.received inv)]
      constructor
      · intro fits faulted
        obtain ⟨f, same⟩ := Outcome.faulted_iff.mp faulted
        simp [Exchange.Fits, same] at fits
      · intro safe
        refine .of_returns (calls.1.post inv.buffer).returns fun f same => ?_
        exact safe (Outcome.faulted_iff.mpr ⟨f, same⟩)
  | _ => simp [Action.Delivers, Action.ReadsNothing]

variable {reached : Option (Store Account)}

/-- A run in which every call delivers is a run in which no `getChar` reads
nothing. -/
theorem delivers_iff
    (run : Run (UntilWrong Acts Action.Faulted) (some Store.none) actions reached) :
    (∀ action ∈ actions, action.Delivers) ↔ ∀ action ∈ actions, ¬ action.ReadsNothing := by
  have each : ∀ action ∈ actions, action.Delivers ↔ ¬ action.ReadsNothing :=
    run.all_acts (fun _ _ _ all acts => ⟨acts.all all, acts.delivers all⟩) Store.All.none
  exact forall₂_congr each

/-- The end of the stream, met by `getChar`. -/
def endOfStreamRead : Exchange := ⟨.getChar, [⟨.read 0, .ok []⟩], .faulted .frontOfEmpty⟩

theorem run_endOfStream :
    Run (UntilWrong Acts Action.Faulted) (some Store.none) [.constructFd 0 (some 0),
        .call 0 (.opened (ofFd (some 0))) endOfStreamRead (.opened (ofFd (some 0)))] none :=
  .cons (.goesOn ⟨rfl, rfl⟩ id) (.single (.goesWrong
    ⟨rfl, ⟨⟨0, _, .answer (.here _), rfl, rfl⟩, rfl, rfl⟩, rfl⟩ trivial))

theorem delivers_fails : ¬ ∀ actions reached,
    Run (UntilWrong Acts Action.Faulted) (some Store.none) actions reached →
      ∀ action ∈ actions, action.Delivers := by
  intro always
  have delivers := always _ _ run_endOfStream
  obtain ⟨fits, -⟩ := delivers _ (List.mem_cons_of_mem _ List.mem_cons_self)
  simp [Exchange.Fits, endOfStreamRead] at fits

theorem delivers_iff_halfLine :
    Action.Delivers (.call 0 (.opened (ofFd (some 0))) halfLineRead halfLine) := by
  refine (delivers_iff (Run.known_iff.mpr run_halfLine)).mpr ?_ _
    (List.mem_cons_of_mem _ List.mem_cons_self)
  simp [Action.ReadsNothing, Op.ReadsNothing, halfLineRead]

end MarathonKit.Core.LineBuffer
