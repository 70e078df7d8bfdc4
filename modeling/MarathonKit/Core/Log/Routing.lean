import MarathonKit.Core.Log
import Mathlib.Data.List.Induction

/-!
Where the records go.

A run is a list of actions, performed on the state of the log. Beside it runs the
account of what is due: each accepted record to standard error, and to the file
named by the last `setLogFile` that returned normally. `routing_iff` says for
which runs what is written is what is due: those in which no record is logged
after `setLogFile` was called with a file already open. Such a call does not
close the file, so it fails, and the `failbit` it leaves behind swallows every
record from then on. `setLogFile_throws_iff` is the same defect as a caller of
`setLogFile` sees it.
-/

namespace MarathonKit.Core.Log

inductive Action where
  | setMinLogLevel (level : Level)
  | setLogFile (fileName : String) (accepts : Bool)
  | log (self : Log) (level : Level) (time : Option String) (objects : List String)

def perform (s : State) : Action → State
  | .setMinLogLevel level => setMinLogLevel level s
  | .setLogFile fileName accepts => (setLogFile fileName accepts s).1
  | .log self level time objects => self.log level time objects s

/-- What should have been written, and where the next record should go. -/
structure Due where
  file : Option String
  stderr : List String
  files : String → List String

/-- What is due after an action in the state `s`. -/
def Due.after (due : Due) (s : State) : Action → Due
  | .setMinLogLevel _ => due
  | .setLogFile fileName accepts =>
      match (setLogFile fileName accepts s).2 with
      | .ok _ => { due with file := some fileName }
      | .error _ => due
  | .log self level time objects =>
      if level.value < s.mMinLogLevel.value then due
      else
        let text := self.record level time objects
        { due with
          stderr := due.stderr ++ [text]
          files := match due.file with
            | some name => Function.update due.files name (due.files name ++ [text])
            | none => due.files }

/-- The state after a run, and what is due then. -/
def run (actions : List Action) : State × Due :=
  actions.foldl (fun (s, due) action => (perform s action, due.after s action))
    (start, ⟨none, [], fun _ => []⟩)

/-! ### What the actions say -/

/-- The minimum level in force after the actions. -/
def minLevel (actions : List Action) : Level :=
  actions.foldl (fun level action =>
    match action with
    | .setMinLogLevel level' => level'
    | _ => level) .debug

/-- Some `setLogFile` was called with a file the system can open. -/
def Opened (actions : List Action) : Prop := ∃ name, .setLogFile name true ∈ actions

/-- `setLogFile` is called, and a file may be open: some call before could open
one. -/
def Reopens (before : List Action) (action : Action) : Prop :=
  Opened before ∧ ∃ name accepts, action = .setLogFile name accepts

def Reopened (actions : List Action) : Prop :=
  ∃ before action rest, actions = before ++ action :: rest ∧ Reopens before action

/-- After that, a record is accepted. -/
def LosesNow (before : List Action) (action : Action) : Prop :=
  Reopened before ∧ ∃ self level time objects, action = .log self level time objects ∧
    (minLevel before).value ≤ level.value

def Loses (actions : List Action) : Prop :=
  ∃ before action rest, actions = before ++ action :: rest ∧ LosesNow before action

variable {actions : List Action} {action : Action}

/-- A split of a list with one element more at the end. -/
theorem exists_split_snoc {α : Type} {P : List α → α → Prop} {as : List α} {a : α} :
    (∃ before x rest, as ++ [a] = before ++ x :: rest ∧ P before x) ↔
      (∃ before x rest, as = before ++ x :: rest ∧ P before x) ∨ P as a := by
  constructor
  · rintro ⟨before, x, rest, split, holds⟩
    rcases List.eq_nil_or_concat rest with rfl | ⟨rest, last, rfl⟩
    · obtain ⟨rfl, same⟩ := List.append_inj' split rfl
      obtain rfl : a = x := by simpa using same
      exact .inr holds
    · rw [List.concat_eq_append, ← List.cons_append, ← List.append_assoc] at split
      obtain ⟨rfl, -⟩ := List.append_inj' split rfl
      exact .inl ⟨before, x, rest, rfl, holds⟩
  · rintro (⟨before, x, rest, rfl, holds⟩ | holds)
    · exact ⟨before, x, rest ++ [a], by simp, holds⟩
    · exact ⟨as, a, [], rfl, holds⟩

theorem minLevel_snoc : minLevel (actions ++ [action]) =
    match action with
    | .setMinLogLevel level => level
    | _ => minLevel actions := by
  simp only [minLevel, List.foldl_append, List.foldl_cons, List.foldl_nil]

theorem opened_snoc :
    Opened (actions ++ [action]) ↔ Opened actions ∨ ∃ name, action = .setLogFile name true := by
  simp only [Opened, List.mem_append, List.mem_singleton, exists_or, eq_comm]

theorem reopened_snoc :
    Reopened (actions ++ [action]) ↔ Reopened actions ∨ Reopens actions action :=
  exists_split_snoc

theorem loses_snoc : Loses (actions ++ [action]) ↔ Loses actions ∨ LosesNow actions action :=
  exists_split_snoc

theorem Reopened.opened (reopened : Reopened actions) : Opened actions := by
  obtain ⟨before, action, rest, rfl, ⟨name, mem⟩, -⟩ := reopened
  exact ⟨name, List.mem_append_left _ mem⟩

theorem run_snoc : run (actions ++ [action]) =
    (perform (run actions).1 action, (run actions).2.after (run actions).1 action) := by
  simp only [run, List.foldl_append, List.foldl_cons, List.foldl_nil]

/-! ### What is written -/

/-- How the state and what is due stand to the actions. -/
structure Inv (actions : List Action) (s : State) (due : Due) : Prop where
  level : s.mMinLogLevel = minLevel actions
  stderr : s.stderr = due.stderr
  file : s.mLogFile.file = due.file
  opened : s.mLogFile.isOpen = true ↔ Opened actions
  failed : s.mLogFile.isOpen = true → (s.mLogFile.fail = true ↔ Reopened actions)
  kept : ¬ Loses actions → s.files = due.files
  lost : Loses actions → ∃ name, due.file = some name ∧
    (s.files name).length < (due.files name).length

theorem not_opened_nil : ¬ Opened [] := by
  rintro ⟨name, mem⟩
  simp at mem

theorem inv_nil : Inv [] start ⟨none, [], fun _ => []⟩ where
  level := rfl
  stderr := rfl
  file := rfl
  opened := by simp [start, OFStream.isOpen, not_opened_nil]
  failed := by simp [start, OFStream.isOpen]
  kept := fun _ => rfl
  lost := by
    rintro ⟨before, action, rest, split, -⟩
    simp at split

/-- `setLogFile` with no file open: it does what the system allows. -/
theorem setLogFile_closed {s : State} (closed : s.mLogFile.file = none) (name : String)
    (accepts : Bool) : setLogFile name accepts s =
      if accepts then ({ s with mLogFile := ⟨some name, false⟩ }, .ok ())
      else ({ s with mLogFile := ⟨none, true⟩ },
        .error (.runtimeError "Could not open the log file")) := by
  cases accepts <;> simp [setLogFile, OFStream.clear, OFStream.openFile, OFStream.isOpen, closed]

/-- `setLogFile` with a file open: it fails, and the file stays. -/
theorem setLogFile_open {s : State} {current : String} (isOpen : s.mLogFile.file = some current)
    (name : String) (accepts : Bool) : setLogFile name accepts s =
      ({ s with mLogFile := ⟨some current, true⟩ },
        .error (.runtimeError "Could not open the log file")) := by
  simp [setLogFile, OFStream.clear, OFStream.openFile, OFStream.isOpen, isOpen]

variable {s : State} {due : Due}

theorem Inv.closed (inv : Inv actions s due) (closed : s.mLogFile.file = none) :
    ¬ Opened actions ∧ ¬ Loses actions := by
  constructor
  · rw [← inv.opened]
    simp [OFStream.isOpen, closed]
  · intro loses
    obtain ⟨name, named, -⟩ := inv.lost loses
    simp [← inv.file, closed] at named

theorem inv_setMinLogLevel (inv : Inv actions s due) (level : Level) :
    Inv (actions ++ [.setMinLogLevel level]) (setMinLogLevel level s) due where
  level := by simp [minLevel_snoc, setMinLogLevel]
  stderr := inv.stderr
  file := inv.file
  opened := by simpa [opened_snoc, setMinLogLevel] using inv.opened
  failed := by simpa [reopened_snoc, Reopens, setMinLogLevel] using inv.failed
  kept := by simpa [loses_snoc, LosesNow, setMinLogLevel] using inv.kept
  lost := by simpa [loses_snoc, LosesNow, setMinLogLevel] using inv.lost

theorem inv_setLogFile (inv : Inv actions s due) (name : String) (accepts : Bool) :
    Inv (actions ++ [.setLogFile name accepts]) (setLogFile name accepts s).1
      (due.after s (.setLogFile name accepts)) := by
  have sameLevel : minLevel (actions ++ [.setLogFile name accepts]) = minLevel actions := by
    simp [minLevel_snoc]
  have sameLoss : Loses (actions ++ [.setLogFile name accepts]) ↔ Loses actions := by
    simp [loses_snoc, LosesNow]
  cases current : s.mLogFile.file with
  | none =>
      obtain ⟨notOpened, keeps⟩ := inv.closed current
      have notReopened : ¬ Reopened actions := fun reopened => notOpened reopened.opened
      cases accepts with
      | true =>
          simp only [Due.after, setLogFile_closed current, if_true]
          exact ⟨inv.level.trans sameLevel.symm, inv.stderr, rfl,
            by simp [OFStream.isOpen, opened_snoc],
            by simp [reopened_snoc, Reopens, notReopened, notOpened],
            fun _ => inv.kept keeps, fun loses => absurd (sameLoss.mp loses) keeps⟩
      | false =>
          simp only [Due.after, setLogFile_closed current, Bool.false_eq_true, if_false]
          exact ⟨inv.level.trans sameLevel.symm, inv.stderr, current.symm.trans inv.file,
            by simp [OFStream.isOpen, opened_snoc, notOpened],
            by simp [OFStream.isOpen],
            fun _ => inv.kept keeps, fun loses => absurd (sameLoss.mp loses) keeps⟩
  | some fileName =>
      have isOpen : Opened actions := by simp [← inv.opened, OFStream.isOpen, current]
      simp only [Due.after, setLogFile_open current]
      exact ⟨inv.level.trans sameLevel.symm, inv.stderr, current.symm.trans inv.file,
        by simp [OFStream.isOpen, opened_snoc, isOpen],
        by simp [reopened_snoc, Reopens, isOpen],
        fun keeps => inv.kept fun loses => keeps (sameLoss.mpr loses),
        fun loses => inv.lost (sameLoss.mp loses)⟩

section Record

variable {self : Log} {level : Level} {time : Option String} {objects : List String}

theorem minLevel_log :
    minLevel (actions ++ [.log self level time objects]) = minLevel actions := by
  simp [minLevel_snoc]

theorem opened_log : Opened (actions ++ [.log self level time objects]) ↔ Opened actions := by
  simp [opened_snoc]

theorem reopened_log :
    Reopened (actions ++ [.log self level time objects]) ↔ Reopened actions := by
  simp [reopened_snoc, Reopens]

theorem loses_log : Loses (actions ++ [.log self level time objects]) ↔
    Loses actions ∨ Reopened actions ∧ (minLevel actions).value ≤ level.value := by
  simp [loses_snoc, LosesNow]

theorem inv_rejected (inv : Inv actions s due) (below : level.value < s.mMinLogLevel.value) :
    Inv (actions ++ [.log self level time objects]) s due := by
  have rejected : ¬ (minLevel actions).value ≤ level.value := by
    rw [← inv.level]
    omega
  have sameLoss : Loses (actions ++ [.log self level time objects]) ↔ Loses actions := by
    simp [loses_log, rejected]
  constructor
  · rw [minLevel_log, inv.level]
  · exact inv.stderr
  · exact inv.file
  · rw [opened_log, inv.opened]
  · rw [reopened_log]
    exact inv.failed
  · rw [sameLoss]
    exact inv.kept
  · rw [sameLoss]
    exact inv.lost

/-- An accepted record changes what is written and due, and nothing else. -/
theorem Inv.accepted (inv : Inv actions s due) {text : String}
    {files files' : String → List String}
    (kept : ¬ Loses (actions ++ [.log self level time objects]) → files = files')
    (lost : Loses (actions ++ [.log self level time objects]) →
      ∃ name, due.file = some name ∧ (files name).length < (files' name).length) :
    Inv (actions ++ [.log self level time objects])
      { s with stderr := s.stderr ++ [text], files := files }
      { due with stderr := due.stderr ++ [text], files := files' } where
  level := by rw [minLevel_log, ← inv.level]
  stderr := by rw [inv.stderr]
  file := inv.file
  opened := by rw [opened_log, ← inv.opened]
  failed := by rw [reopened_log]; exact inv.failed
  kept := kept
  lost := lost

/-- With no file set, there is none to write to. -/
theorem inv_unrouted (inv : Inv actions s due) (closed : s.mLogFile.file = none) {text : String} :
    Inv (actions ++ [.log self level time objects]) { s with stderr := s.stderr ++ [text] }
      { due with stderr := due.stderr ++ [text] } := by
  obtain ⟨notOpened, keeps⟩ := inv.closed closed
  have keepsOn : ¬ Loses (actions ++ [.log self level time objects]) := by
    rw [loses_log]
    rintro (loses | ⟨reopened, -⟩)
    · exact keeps loses
    · exact notOpened reopened.opened
  exact inv.accepted (fun _ => inv.kept keeps) (fun loses => absurd loses keepsOn)

/-- A stream that has not failed takes the record. -/
theorem inv_written (inv : Inv actions s due) {name text : String}
    (current : s.mLogFile.file = some name) (good : s.mLogFile.fail = false) :
    Inv (actions ++ [.log self level time objects])
      { s with
        stderr := s.stderr ++ [text]
        files := Function.update s.files name (s.files name ++ [text]) }
      { due with
        stderr := due.stderr ++ [text]
        files := Function.update due.files name (due.files name ++ [text]) } := by
  have isOpen : s.mLogFile.isOpen = true := by simp [OFStream.isOpen, current]
  have notReopened : ¬ Reopened actions := by
    rw [← inv.failed isOpen, good]
    simp
  have sameLoss : Loses (actions ++ [.log self level time objects]) ↔ Loses actions := by
    simp [loses_log, notReopened]
  refine inv.accepted ?_ ?_
  · intro keeps
    rw [inv.kept fun loses => keeps (sameLoss.mpr loses)]
  · intro loses
    obtain ⟨name', named, shorter⟩ := inv.lost (sameLoss.mp loses)
    obtain rfl : name = name' := Option.some.inj (current.symm.trans (inv.file.trans named))
    exact ⟨name, named, by simpa using shorter⟩

/-- A stream that has failed drops it. -/
theorem inv_swallowed (inv : Inv actions s due) {name text : String}
    (current : s.mLogFile.file = some name) (failed : s.mLogFile.fail = true)
    (accepted : s.mMinLogLevel.value ≤ level.value) :
    Inv (actions ++ [.log self level time objects]) { s with stderr := s.stderr ++ [text] }
      { due with
        stderr := due.stderr ++ [text]
        files := Function.update due.files name (due.files name ++ [text]) } := by
  have isOpen : s.mLogFile.isOpen = true := by simp [OFStream.isOpen, current]
  have reopened : Reopened actions := (inv.failed isOpen).mp failed
  have losesNow : Loses (actions ++ [.log self level time objects]) :=
    loses_log.mpr (.inr ⟨reopened, inv.level ▸ accepted⟩)
  refine inv.accepted (fun keeps => absurd losesNow keeps) fun _ =>
    ⟨name, inv.file.symm.trans current, ?_⟩
  simp only [Function.update_self, List.length_append]
  by_cases loses : Loses actions
  · obtain ⟨name', named, shorter⟩ := inv.lost loses
    obtain rfl : name = name' := Option.some.inj (current.symm.trans (inv.file.trans named))
    exact Nat.lt_of_lt_of_le shorter (Nat.le_add_right _ _)
  · rw [inv.kept loses]
    exact Nat.lt_succ_self _

theorem inv_log (inv : Inv actions s due) :
    Inv (actions ++ [.log self level time objects]) (self.log level time objects s)
      (due.after s (.log self level time objects)) := by
  unfold log Due.after
  by_cases below : level.value < s.mMinLogLevel.value
  · simp only [if_pos below]
    exact inv_rejected inv below
  simp only [if_neg below]
  cases current : s.mLogFile.file with
  | none =>
      have unrouted : due.file = none := inv.file.symm.trans current
      simpa [OFStream.isOpen, current, unrouted] using inv_unrouted inv current
  | some name =>
      have routed : due.file = some name := inv.file.symm.trans current
      cases failed : s.mLogFile.fail with
      | false =>
          simpa [OFStream.isOpen, OFStream.insert, current, failed, routed]
            using inv_written inv current failed
      | true =>
          simpa [OFStream.isOpen, OFStream.insert, current, failed, routed]
            using inv_swallowed inv current failed (Nat.not_lt.mp below)

end Record

theorem inv_run (actions : List Action) : Inv actions (run actions).1 (run actions).2 := by
  induction actions using List.reverseRecOn with
  | nil => exact inv_nil
  | append_singleton actions action ih =>
      rw [run_snoc]
      cases action with
      | setMinLogLevel level => exact inv_setMinLogLevel ih level
      | setLogFile name accepts => exact inv_setLogFile ih name accepts
      | log self level time objects => exact inv_log ih

/-- What is written at the end of a run is what is due, if and only if no record
is accepted in it after `setLogFile` was called with a file already open. -/
theorem routing_iff (actions : List Action) :
    ((run actions).1.stderr = (run actions).2.stderr ∧
      (run actions).1.files = (run actions).2.files) ↔ ¬ Loses actions := by
  have inv : Inv actions (run actions).1 (run actions).2 := inv_run actions
  constructor
  · rintro ⟨-, same⟩ loses
    obtain ⟨name, -, shorter⟩ := inv.lost loses
    rw [same] at shorter
    exact Nat.lt_irrefl _ shorter
  · intro keeps
    exact ⟨inv.stderr, inv.kept keeps⟩

/-- A file is set, a second one cannot be opened, and a record is logged: it is
not in the first file. -/
theorem routing_fails : ¬ ∀ actions, (run actions).1.stderr = (run actions).2.stderr ∧
    (run actions).1.files = (run actions).2.files := by
  intro always
  obtain ⟨-, same⟩ := always [.setLogFile "a" true, .setLogFile "b" false,
    .log ⟨"", 0⟩ .err none ["x"]]
  have written := congrFun same "a"
  revert written
  decide

/-! ### When `setLogFile` throws -/

/-- The call throws, after these actions. -/
def Throws (actions : List Action) (name : String) (accepts : Bool) : Prop :=
  ∃ e, (setLogFile name accepts (run actions).1).2 = .error e

/-- It throws when the system refuses the file, and otherwise if and only if a
file is open. -/
theorem throws_iff_opened (actions : List Action) (name : String) (accepts : Bool) :
    Throws actions name accepts ↔ accepts = false ∨ Opened actions := by
  have inv : Inv actions (run actions).1 (run actions).2 := inv_run actions
  unfold Throws
  cases current : (run actions).1.mLogFile.file with
  | none =>
      have notOpened : ¬ Opened actions := (inv.closed current).1
      rw [setLogFile_closed current]
      cases accepts with
      | true => simp [notOpened]
      | false => simp
  | some fileName =>
      have isOpen : Opened actions := by simp [← inv.opened, OFStream.isOpen, current]
      rw [setLogFile_open current]
      simp [isOpen]

/-- A call throws exactly when the system refuses the file, if and only if the
system does refuse it or none of the calls before could open a file. -/
theorem setLogFile_throws_iff (actions : List Action) (name : String) (accepts : Bool) :
    (Throws actions name accepts ↔ accepts = false) ↔ (accepts = false ∨ ¬ Opened actions) := by
  rw [throws_iff_opened]
  constructor
  · intro exactly
    rcases Classical.em (Opened actions) with isOpen | notOpened
    · exact .inl (exactly.mp (.inr isOpen))
    · exact .inr notOpened
  · rintro (refused | notOpened)
    · exact ⟨fun _ => refused, .inl⟩
    · exact ⟨fun throws => throws.resolve_right notOpened, .inl⟩

/-- After `"a"` was opened, `"b"` cannot be, though the system would open it. -/
theorem setLogFile_throws_fails :
    ¬ ∀ actions name accepts, Throws actions name accepts ↔ accepts = false := by
  intro always
  have throws : Throws [.setLogFile "a" true] "b" true := ⟨_, rfl⟩
  have refused := (always [.setLogFile "a" true] "b" true).mp throws
  exact Bool.noConfusion refused

end MarathonKit.Core.Log
