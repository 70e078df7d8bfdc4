import MarathonKit.Core.Log.Routing
import MarathonKit.Text.Fields

/-!
Reading a log back.

A record is one line, with the time, the level in five characters, the source
file, the line there and the message: `readRecord` takes it apart again. It is
told by its first tab, the last colon before that and the blanks in front, so a
file name may have blanks and colons, and a message may have anything but a
newline. `readLog_run`: what a run has written to standard error says which
records were accepted, in order, and what is in a log file says some of that.
-/

namespace MarathonKit.Core.Log

open Text

/-- What a record says. The log has question marks for what it does not know. -/
structure Entry where
  time : String
  level : Level
  file : String
  line : Option Int
  message : String
deriving DecidableEq, Repr

def entry (self : Log) (level : Level) (time : Option String) (objects : List String) : Entry where
  time := time.getD "?"
  level := level
  file := if self.mFile ≠ "" then self.mFile else "?"
  line := if self.mLine > 0 then some self.mLine else none
  message := writeObjectsToStream objects

/-! ### The reader -/

/-- A question mark, or a date and a time of day. -/
def readTime (text : List Char) : Option (List Char × List Char) := do
  let (first, rest) ← cut ' ' text
  if first = ['?'] then return (first, rest)
  let (second, rest) ← cut ' ' rest
  return (first ++ ' ' :: second, rest)

def readLevel (text : List Char) : Option Level :=
  [Level.debug, .info, .warn, .err].find? fun level => (setw 5 level.string).toList = text

/-- A question mark, or a number, as it is written: no sign and no zero in front. -/
def readLine (text : List Char) : Option (Option Int) :=
  let number := Nat.ofDigitChars 10 text 0
  if text = ['?'] then some none
  else if text = number.repr.toList then some (some number)
  else none

def readRecord (text : List Char) : Option Entry := do
  let (head, message) ← cut '\t' text
  let (head, line) ← cutLast ':' head
  let (time, head) ← readTime head
  let level ← readLevel (head.take 5)
  let line ← readLine line
  return ⟨.ofList time, level, .ofList (head.drop 6), line, .ofList message⟩

def readLog (text : String) : Option (List Entry) := (linesOf '\n' text.toList).mapM readRecord

/-! ### What is read back -/

/-- What `strftime` makes of `"%Y-%m-%d %H:%M:%S"`, as far as it matters. -/
def Stamp (time : List Char) : Prop :=
  ∃ date clock, time = date ++ ' ' :: clock ∧ ∀ c ∈ date ++ clock, c.isDigit ∨ c = '-' ∨ c = ':'

/-- A record that does not look like something else. -/
structure Plain (log : Log) (time : Option String) (objects : List String) : Prop where
  time : ∀ text, time = some text → Stamp text.toList
  file : '\t' ∉ log.mFile.toList ∧ '\n' ∉ log.mFile.toList
  message : '\n' ∉ (writeObjectsToStream objects).toList

section Fields

variable {time rest : List Char} {level : Level} {number : Int}

theorem stamp_char {c : Char} (char : c.isDigit ∨ c = '-' ∨ c = ':') :
    c ≠ ' ' ∧ c ≠ '\t' ∧ c ≠ '\n' ∧ c ≠ '?' := by
  rcases char with digit | rfl | rfl
  · refine ⟨?_, ?_, ?_, ?_⟩
    all_goals
      rintro rfl
      simp at digit
  · decide
  · decide

theorem Stamp.not_mem (stamp : Stamp time) : '\t' ∉ time ∧ '\n' ∉ time := by
  obtain ⟨date, clock, rfl, chars⟩ := stamp
  have others {c : Char} (mem : c ∈ date ++ ' ' :: clock) : c = ' ' ∨ c ∈ date ++ clock := by
    simp only [List.mem_append, List.mem_cons] at mem ⊢
    tauto
  constructor
  · intro mem
    rcases others mem with blank | inside
    · simp at blank
    · exact (stamp_char (chars _ inside)).2.1 rfl
  · intro mem
    rcases others mem with blank | inside
    · simp at blank
    · exact (stamp_char (chars _ inside)).2.2.1 rfl

theorem readTime_stamp (stamp : Stamp time) :
    readTime (time ++ ' ' :: rest) = some (time, rest) := by
  obtain ⟨date, clock, rfl, chars⟩ := stamp
  have noBlank {part : List Char} (inside : ∀ c ∈ part, c ∈ date ++ clock) : ' ' ∉ part :=
    fun mem => (stamp_char (chars _ (inside _ mem))).1 rfl
  have known : date ≠ ['?'] := by
    rintro rfl
    exact (stamp_char (chars '?' (by simp))).2.2.2 rfl
  rw [readTime, List.append_assoc, List.cons_append,
    cut_append (noBlank fun c mem => List.mem_append_left _ mem)]
  simp [known, cut_append (noBlank fun c mem => List.mem_append_right _ mem)]

theorem readTime_unknown : readTime (['?'] ++ ' ' :: rest) = some (['?'], rest) := by
  rw [readTime, cut_append (by decide)]
  simp

theorem readLevel_setw : readLevel (setw 5 level.string).toList = some level := by
  cases level <;> decide

theorem length_setw : (setw 5 level.string).toList.length = 5 := by
  cases level <;> decide

theorem tab_setw : '\t' ∉ (setw 5 level.string).toList ∧ '\n' ∉ (setw 5 level.string).toList := by
  cases level <;> decide

theorem toList_toString (n : Nat) : (toString (n : Int)).toList = Nat.toDigits 10 n := by
  have written : toString (n : Int) = n.repr := rfl
  rw [written, Nat.repr_eq_ofList_toDigits, String.toList_ofList]

/-- A number that is positive is written with digits only. -/
theorem isDigit_of_mem (positive : 0 < number) {c : Char} (mem : c ∈ (toString number).toList) :
    c.isDigit = true := by
  obtain ⟨n, rfl⟩ := Int.eq_ofNat_of_zero_le (Int.le_of_lt positive)
  rw [toList_toString] at mem
  exact Nat.isDigit_of_mem_toDigits (by decide) (by decide) mem

theorem readLine_toString (positive : 0 < number) :
    readLine (toString number).toList = some (some number) := by
  have digits : (toString number).toList ≠ ['?'] := by
    intro same
    have digit := isDigit_of_mem positive (same ▸ List.mem_singleton_self '?')
    simp at digit
  obtain ⟨n, rfl⟩ := Int.eq_ofNat_of_zero_le (Int.le_of_lt positive)
  have known : Nat.ofDigitChars 10 (toString (n : Int)).toList 0 = n := by
    rw [toList_toString, Nat.ofDigitChars_ten_toDigits]
  rw [readLine, if_neg digits, known]
  exact if_pos rfl

end Fields

/-! ### A record -/

section Record

variable {self : Log} {level : Level} {time : Option String} {objects : List String}

/-- The line as it is written. -/
def lineString (self : Log) : String := if self.mLine > 0 then toString self.mLine else "?"

/-- A record without the newline at its end. -/
def body (self : Log) (level : Level) (time : Option String) (objects : List String) : List Char :=
  ((time.getD "?").toList ++ ' ' :: ((setw 5 level.string).toList ++ ' ' ::
    (self.entry level time objects).file.toList) ++ ':' :: self.lineString.toList) ++ '\t' ::
    (writeObjectsToStream objects).toList

theorem record_eq : (self.record level time objects).toList =
    self.body level time objects ++ ['\n'] := by
  simp [record, body, entry, lineString]

theorem Plain.time_clean (plain : Plain self time objects) :
    '\t' ∉ (time.getD "?").toList ∧ '\n' ∉ (time.getD "?").toList := by
  cases known : time with
  | none => decide
  | some stamp => exact (plain.time stamp known).not_mem

theorem Plain.file_clean (plain : Plain self time objects) (level : Level) :
    '\t' ∉ (self.entry level time objects).file.toList ∧
      '\n' ∉ (self.entry level time objects).file.toList := by
  show '\t' ∉ (if self.mFile ≠ "" then self.mFile else "?").toList ∧
    '\n' ∉ (if self.mFile ≠ "" then self.mFile else "?").toList
  split
  case isTrue => exact plain.file
  case isFalse => decide

theorem line_clean : ':' ∉ self.lineString.toList ∧ '\t' ∉ self.lineString.toList ∧
    '\n' ∉ self.lineString.toList := by
  unfold lineString
  split
  case isTrue known =>
      refine ⟨?_, ?_, ?_⟩
      all_goals
        intro mem
        have digit := isDigit_of_mem known mem
        simp at digit
  case isFalse => decide

theorem Plain.readTime (plain : Plain self time objects) {rest : List Char} :
    readTime ((time.getD "?").toList ++ ' ' :: rest) = some ((time.getD "?").toList, rest) := by
  cases known : time with
  | none => exact readTime_unknown
  | some stamp => exact readTime_stamp (plain.time stamp known)

theorem readLine_lineString (self : Log) (level : Level) (time : Option String)
    (objects : List String) :
    readLine self.lineString.toList = some (self.entry level time objects).line := by
  unfold lineString entry
  split
  case isTrue known => exact readLine_toString known
  case isFalse => rfl

theorem readRecord_body (plain : Plain self time objects) :
    readRecord (self.body level time objects) = some (self.entry level time objects) := by
  have head : '\t' ∉ (time.getD "?").toList ++ ' ' :: ((setw 5 level.string).toList ++ ' ' ::
      (self.entry level time objects).file.toList) ++ ':' :: self.lineString.toList := by
    simp [plain.time_clean.1, tab_setw.1, (plain.file_clean level).1, line_clean.2.1]
  have padded : ((setw 5 level.string).toList ++ ' ' ::
      (self.entry level time objects).file.toList).take 5 = (setw 5 level.string).toList :=
    List.take_left' length_setw
  have rest : ((setw 5 level.string).toList ++ ' ' ::
      (self.entry level time objects).file.toList).drop 6 =
        (self.entry level time objects).file.toList := by
    rw [List.append_cons]
    exact List.drop_left' (by simp [length_setw])
  rw [readRecord, body, cut_append head]
  simp only [Option.bind_eq_bind, Option.bind_some, cutLast_append line_clean.1, plain.readTime,
    padded, readLevel_setw, rest]
  rw [readLine_lineString self level time objects]
  simp [entry]

theorem newline_not_mem_body (plain : Plain self time objects) :
    '\n' ∉ self.body level time objects := by
  simp [body, plain.time_clean.2, tab_setw.2, (plain.file_clean level).2, line_clean.2.2,
    plain.message]

end Record

/-! ### Runs -/

/-- A call that logs a record. -/
structure Logged where
  log : Log
  level : Level
  time : Option String
  objects : List String

namespace Logged

def text (logged : Logged) : String := logged.log.record logged.level logged.time logged.objects

def body (logged : Logged) : List Char :=
  logged.log.body logged.level logged.time logged.objects

def entry (logged : Logged) : Entry := logged.log.entry logged.level logged.time logged.objects

def Plain (logged : Logged) : Prop := Log.Plain logged.log logged.time logged.objects

def action (logged : Logged) : Action :=
  .log logged.log logged.level logged.time logged.objects

end Logged

/-- The records that are accepted, with `level` the minimum level at first. -/
def accepted (level : Level) : List Action → List Logged
  | [] => []
  | .setMinLogLevel level :: actions => accepted level actions
  | .setLogFile _ _ :: actions => accepted level actions
  | .log self level' time objects :: actions =>
      if level'.value < level.value then accepted level actions
      else ⟨self, level', time, objects⟩ :: accepted level actions

section Runs

variable {actions : List Action} {s : State} {level : Level} {logged : List Logged}

theorem run_eq (actions : List Action) : (run actions).1 = actions.foldl perform start := by
  induction actions using List.reverseRecOn with
  | nil => rfl
  | append_singleton actions action ih =>
      rw [run_snoc, List.foldl_append, ← ih]
      rfl

/-- What an accepted record changes. -/
theorem log_accepted (self : Log) (time : Option String) (objects : List String)
    (above : ¬ level.value < s.mMinLogLevel.value) :
    (self.log level time objects s).mMinLogLevel = s.mMinLogLevel ∧
    (self.log level time objects s).stderr = s.stderr ++ [self.record level time objects] ∧
    ∀ name, (self.log level time objects s).files name = s.files name ∨
      (self.log level time objects s).files name =
        s.files name ++ [self.record level time objects] := by
  cases current : s.mLogFile.file with
  | none => simp [log, above, OFStream.isOpen, current]
  | some fileName =>
      cases failed : s.mLogFile.fail with
      | true => simp [log, above, OFStream.isOpen, OFStream.insert, current, failed]
      | false =>
          simp only [log, above, OFStream.isOpen, OFStream.insert, current, failed, if_false,
            Option.isSome_some, if_true, true_and]
          intro name
          by_cases same : name = fileName
          · subst same
            exact .inr (Function.update_self _ _ _)
          · exact .inl (Function.update_of_ne same _ _)

/-- What a run writes: the accepted records to standard error, and some of them
to each file. -/
theorem foldl_perform (actions : List Action) (s : State) :
    (actions.foldl perform s).stderr =
      s.stderr ++ (accepted s.mMinLogLevel actions).map Logged.text ∧
    ∀ name, ∃ kept : List Logged, kept.Sublist (accepted s.mMinLogLevel actions) ∧
      (actions.foldl perform s).files name = s.files name ++ kept.map Logged.text := by
  induction actions generalizing s with
  | nil => exact ⟨by simp [accepted], fun name => ⟨[], by simp⟩⟩
  | cons action actions ih =>
      cases action with
      | setMinLogLevel level => exact ih (setMinLogLevel level s)
      | setLogFile fileName accepts => exact ih (setLogFile fileName accepts s).1
      | log self level time objects =>
          by_cases below : level.value < s.mMinLogLevel.value
          · simpa [perform, log, below, accepted] using ih s
          · obtain ⟨sameLevel, stderr, files⟩ := log_accepted self time objects below
            obtain ⟨stderrThen, filesThen⟩ := ih (self.log level time objects s)
            rw [sameLevel] at stderrThen filesThen
            simp only [accepted, if_neg below, List.foldl_cons, perform]
            refine ⟨by rw [stderrThen, stderr]; simp [Logged.text], fun name => ?_⟩
            obtain ⟨kept, fewer, same⟩ := filesThen name
            rcases files name with before | written
            · exact ⟨kept, fewer.cons _, by rw [same, before]⟩
            · exact ⟨_ :: kept, fewer.cons_cons _, by rw [same, written]; simp [Logged.text]⟩

theorem accepted_mem {level : Level} {item : Logged} (mem : item ∈ accepted level actions) :
    .log item.log item.level item.time item.objects ∈ actions := by
  induction actions generalizing level with
  | nil => simp [accepted] at mem
  | cons action actions ih =>
      cases action with
      | setMinLogLevel level' => exact List.mem_cons_of_mem _ (ih mem)
      | setLogFile fileName accepts => exact List.mem_cons_of_mem _ (ih mem)
      | log self level' time objects =>
          rw [accepted] at mem
          split at mem
          case isTrue => exact List.mem_cons_of_mem _ (ih mem)
          case isFalse =>
              rcases List.mem_cons.mp mem with rfl | later
              · exact List.mem_cons_self
              · exact List.mem_cons_of_mem _ (ih later)

/-- Plain records, one after the other, are read back. -/
theorem readLog_join (plain : ∀ item ∈ logged, item.Plain) :
    readLog (String.join (logged.map Logged.text)) = some (logged.map Logged.entry) := by
  have lines : (String.join (logged.map Logged.text)).toList =
      unlines '\n' (logged.map Logged.body) := by
    simp only [String.toList_join, List.flatMap_map, unlines]
    exact List.flatMap_congr fun item _ => record_eq
  rw [readLog, lines, linesOf_unlines]
  · exact mapM_map fun item mem => readRecord_body (plain item mem)
  · intro line mem
    obtain ⟨item, inside, rfl⟩ := List.mem_map.mp mem
    exact newline_not_mem_body (plain item inside)

/-- The records on standard error are those accepted, and plain. -/
theorem stderr_run
    (plain : ∀ self level time objects, .log self level time objects ∈ actions →
      Plain self time objects) :
    (run actions).1.stderr = (accepted .debug actions).map Logged.text ∧
      ∀ item ∈ accepted .debug actions, item.Plain := by
  refine ⟨?_, fun item mem => plain _ _ _ _ (accepted_mem mem)⟩
  rw [run_eq]
  exact (foldl_perform actions start).1

theorem accepted_actions (level : Level) (items : List Logged) :
    accepted level (items.map Logged.action) =
      items.filter fun item => level.value ≤ item.level.value := by
  induction items with
  | nil => rfl
  | cons item items ih =>
      rw [List.map_cons, Logged.action, accepted, ih]
      by_cases below : item.level.value < level.value
      · simp [below]
      · simp [below, Nat.le_of_not_lt below]

/-- What is logged after a run stands behind what the run has logged. -/
theorem readLog_after
    (plain : ∀ self level time objects, .log self level time objects ∈ actions →
      Plain self time objects) (plainNow : ∀ item ∈ logged, item.Plain) :
    readLog (String.join (run (actions ++ logged.map Logged.action)).1.stderr) =
      some ((accepted .debug actions).map Logged.entry ++
        (logged.filter fun item => (run actions).1.mMinLogLevel.value ≤ item.level.value).map
          Logged.entry) := by
  obtain ⟨before, all⟩ := stderr_run plain
  have written : (run (actions ++ logged.map Logged.action)).1.stderr = (accepted .debug actions ++
      logged.filter fun item => (run actions).1.mMinLogLevel.value ≤ item.level.value).map
        Logged.text := by
    rw [run_eq, List.foldl_append, (foldl_perform _ _).1, ← run_eq, before, accepted_actions,
      List.map_append]
  rw [written, ← List.map_append]
  apply readLog_join
  exact List.forall_mem_append.mpr ⟨all, fun item mem => plainNow item (List.mem_of_mem_filter mem)⟩

/-- What is on standard error says which records were accepted, and what they say;
what is in a file says some of it, in the same order. -/
theorem readLog_run (actions : List Action)
    (plain : ∀ self level time objects, .log self level time objects ∈ actions →
      Plain self time objects) :
    readLog (String.join (run actions).1.stderr) =
      some ((accepted .debug actions).map Logged.entry) ∧
    ∀ name, ∃ kept : List Logged, kept.Sublist (accepted .debug actions) ∧
      readLog (String.join ((run actions).1.files name)) = some (kept.map Logged.entry) := by
  obtain ⟨stderr, all⟩ := stderr_run plain
  refine ⟨by rw [stderr]; exact readLog_join all, fun name => ?_⟩
  obtain ⟨kept, fewer, same⟩ := (foldl_perform actions start).2 name
  refine ⟨kept, fewer, ?_⟩
  rw [run_eq, same]
  exact readLog_join fun item mem => all item (fewer.subset mem)

theorem plain_known : Plain ⟨"a b:c.cpp", 7⟩ (some "2015-01-02 03:04:05") ["x = ", "1"] where
  time := by
    rintro text ⟨⟩
    exact ⟨"2015-01-02".toList, "03:04:05".toList, by decide, by simp⟩
  file := by decide
  message := by decide

/-- A record about `x` is accepted, and one that is not severe enough is not. -/
theorem readLog_run_info :
    readLog (String.join (run
      [.log ⟨"a b:c.cpp", 7⟩ .info (some "2015-01-02 03:04:05") ["x = ", "1"],
        .setMinLogLevel .err, .log ⟨"", 0⟩ .warn none ["y"]]).1.stderr) =
      some [⟨"2015-01-02 03:04:05", .info, "a b:c.cpp", some 7, "x = 1"⟩] := by
  refine (readLog_run _ ?_).1.trans ?_
  · intro self level time objects mem
    rcases List.mem_cons.mp mem with same | mem
    · cases same
      exact plain_known
    · have same : Action.log self level time objects = .log ⟨"", 0⟩ .warn none ["y"] := by
        simpa using mem
      cases same
      exact ⟨by simp, by decide, by decide⟩
  · rfl

end Runs

end MarathonKit.Core.Log
