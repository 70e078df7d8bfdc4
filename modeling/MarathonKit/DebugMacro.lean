import MarathonKit.Core.Log.ReadBack

/-!
`DebugMacro.h`: variables with their names, in the log.

`DEBUG(x, s)` passes the text of its arguments and their values, which are logged
as one record. Values without commas are told apart in it (`readValues`), also
when other records stand around theirs: `debug_readBack`.
-/

namespace MarathonKit.DebugMacroImpl

open MarathonKit.Core Text

/-- `writeObjectsToStream`; the objects as they are inserted. There is no overload
for none. -/
def writeObjectsToStream : List String → String
  | [] => ""
  | [object] => object
  | object :: objects => object ++ ", " ++ writeObjectsToStream objects

/-- The text that is logged. -/
def message (names : String) (objects : List String) : String :=
  "(" ++ names ++ ") = (" ++ writeObjectsToStream objects ++ ")"

def debug (file : String) (line : Int) (names : String) (objects : List String)
    (time : Option String) : Log.State → Log.State :=
  Log.d ⟨file, line⟩ time [message names objects]

/-- The values in the text that is logged for these names. -/
def readValues (names message : List Char) : List String :=
  let values := ((message.drop (names.length + 6)).dropLast).splitOn ','
  (values.take 1 ++ (values.drop 1).map (List.drop 1)).map String.ofList

example : message "x, s" ["42", "foo"] = "(x, s) = (42, foo)" := by decide

variable {names object : String} {objects : List String}

/-- Cut at the commas, the values after the first have a blank in front. -/
theorem splitOn_writeObjectsToStream (before : List Char) (start : ',' ∉ before)
    (clean : ∀ value ∈ object :: objects, ',' ∉ value.toList) :
    (before ++ (writeObjectsToStream (object :: objects)).toList).splitOn ',' =
      (before ++ object.toList) :: objects.map fun value => ' ' :: value.toList := by
  induction objects generalizing object before with
  | nil =>
      exact List.splitOn_eq_singleton
        (List.not_mem_append start (clean object List.mem_cons_self))
  | cons next objects ih =>
      obtain ⟨first, others⟩ := List.forall_mem_cons.mp clean
      have joined : before ++ (writeObjectsToStream (object :: next :: objects)).toList =
          (before ++ object.toList) ++ ',' :: ([' '] ++
            (writeObjectsToStream (next :: objects)).toList) := by
        simp [writeObjectsToStream]
      rw [joined, List.splitOn_append_cons_self_of_not_mem (List.not_mem_append start first),
        ih [' '] (by decide) others]
      rfl

theorem readValues_message (nonempty : objects ≠ [])
    (clean : ∀ value ∈ objects, ',' ∉ value.toList) :
    readValues names.toList (message names objects).toList = objects := by
  obtain ⟨object, objects, rfl⟩ := List.exists_cons_of_ne_nil nonempty
  have shape : (message names (object :: objects)).toList =
      ('(' :: names.toList ++ ") = (".toList) ++
        ((writeObjectsToStream (object :: objects)).toList ++ [')']) := by
    simp [message]
  have values := splitOn_writeObjectsToStream [] List.not_mem_nil clean
  rw [List.nil_append] at values
  rw [readValues, shape, List.drop_left' (by simp), List.dropLast_concat, values]
  simp [Function.comp_def]

/-- What `DEBUG` logs in a program, at any time at which everything is logged, is
read back with the rest of the log, and so are the values. -/
theorem debug_readBack (names : String) (actions : List Log.Action)
    (plain : ∀ self level time objects, .log self level time objects ∈ actions →
      Log.Plain self time objects)
    (everything : (Log.run actions).1.mMinLogLevel = .debug) (file : String) (line : Int)
    (time : Option String) (nonempty : objects ≠ [])
    (clean : ∀ value ∈ objects, ',' ∉ value.toList)
    (plainNow : Log.Plain ⟨file, line⟩ time [message names objects]) :
    ∃ now : Log.Entry,
      Log.readLog (String.join (debug file line names objects time (Log.run actions).1).stderr) =
        some ((Log.accepted .debug actions).map Log.Logged.entry ++ [now]) ∧
      now.level = .debug ∧ readValues names.toList now.message.toList = objects := by
  let logged : Log.Logged := ⟨⟨file, line⟩, .debug, time, [message names objects]⟩
  have after : debug file line names objects time (Log.run actions).1 =
      (Log.run (actions ++ [logged].map Log.Logged.action)).1 := by
    rw [List.map_singleton, Log.run_snoc]
    rfl
  have plainLogged : ∀ item ∈ [logged], item.Plain := List.forall_mem_singleton.mpr plainNow
  refine ⟨logged.entry, ?_, rfl, ?_⟩
  · rw [after, Log.readLog_after plain plainLogged, everything]
    rfl
  · show readValues names.toList (Log.writeObjectsToStream [message names objects]).toList = objects
    simpa [Log.writeObjectsToStream] using readValues_message nonempty clean

/-- `DEBUG(x, s)` at the start of a program. -/
theorem debug_readBack_first : ∃ now : Log.Entry,
    Log.readLog (String.join (debug "a.cpp" 3 "x, s" ["42", "foo"] none Log.start).stderr) =
      some [now] ∧
    readValues "x, s".toList now.message.toList = ["42", "foo"] := by
  obtain ⟨now, readBack, -, values⟩ := debug_readBack "x, s" [] (by simp) rfl "a.cpp" 3
    none (List.cons_ne_nil "42" ["foo"]) (by decide) ⟨by simp, by decide, by decide⟩
  exact ⟨now, readBack, values⟩

end MarathonKit.DebugMacroImpl
