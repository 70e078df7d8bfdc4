import MarathonKit.Core.FileDescriptor
import Mathlib.Logic.Function.Basic

/-!
`Core/Log.h` and `Core/Log.cpp`.

The static members of `Log` are the state, together with what has been written:
to standard error and, insertion by insertion, to each file. What the outside
decides is a parameter: the time of a record, the text of the objects logged,
and whether the system can open a file for appending.
-/

namespace MarathonKit.Core

/-- `Log::Level` -/
inductive Level where
  | debug | info | warn | err
deriving DecidableEq, Repr

/-- The value of the enumerator. -/
def Level.value : Level → Nat
  | debug => 0
  | info => 1
  | warn => 2
  | err => 3

/-- `mLevelString` -/
def Level.string : Level → String
  | debug => "DEBUG"
  | info => "INFO"
  | warn => "WARN"
  | err => "ERR"

/-- As much of a `std::ofstream` as matters here: the file it is open on, and its
`failbit`. -/
structure OFStream where
  file : Option String
  fail : Bool
deriving DecidableEq, Repr

namespace OFStream

def isOpen (stream : OFStream) : Bool := stream.file.isSome

/-- `clear()` resets the error state and closes nothing. -/
def clear (stream : OFStream) : OFStream := { stream with fail := false }

/-- `open(name, app)`, where `accepts` says whether the system can open the file:
an open stream cannot be opened again. -/
def openFile (stream : OFStream) (name : String) (accepts : Bool) : OFStream :=
  if stream.isOpen then { stream with fail := true }
  else if accepts then ⟨some name, false⟩
  else { stream with fail := true }

/-- `stream << text`: nothing is written with `failbit` set. -/
def insert (stream : OFStream) (text : String) (files : String → List String) :
    String → List String :=
  match stream.file, stream.fail with
  | some name, false => Function.update files name (files name ++ [text])
  | _, _ => files

end OFStream

/-- An object of class `Log`: where in the source it logs from. -/
structure Log where
  mFile : String
  mLine : Int
deriving DecidableEq, Repr

namespace Log

/-- The static members, and what has been written. -/
structure State where
  mMinLogLevel : Level
  mLogFile : OFStream
  stderr : List String
  files : String → List String

def start : State := ⟨.debug, ⟨none, false⟩, [], fun _ => []⟩

def setMinLogLevel (level : Level) (s : State) : State := { s with mMinLogLevel := level }

def setLogFile (fileName : String) (accepts : Bool) (s : State) : State × Except Exn Unit :=
  let mLogFile := s.mLogFile.clear.openFile fileName accepts
  ({ s with mLogFile := mLogFile },
    if mLogFile.fail then .error (.runtimeError "Could not open the log file") else .ok ())

/-- `std::setw(width)` before the insertion of `text` -/
def setw (width : Nat) (text : String) : String := "".pushn ' ' (width - text.length) ++ text

/-- `writeObjectsToStream`; the objects as they are inserted -/
def writeObjectsToStream : List String → String
  | [] => ""
  | object :: objects => object ++ writeObjectsToStream objects

/-- The text of a record. `time` is what `strftime` has made of the time, if
anything. -/
def record (self : Log) (level : Level) (time : Option String) (objects : List String) : String :=
  time.getD "?" ++ " " ++ setw 5 level.string ++ " " ++
    (if self.mFile ≠ "" then self.mFile else "?") ++ ":" ++
    (if self.mLine > 0 then toString self.mLine else "?") ++ "\t" ++
    writeObjectsToStream objects ++ "\n"

def log (self : Log) (level : Level) (time : Option String) (objects : List String) (s : State) :
    State :=
  if level.value < s.mMinLogLevel.value then s
  else
    let text := self.record level time objects
    let s := { s with stderr := s.stderr ++ [text] }
    if s.mLogFile.isOpen then { s with files := s.mLogFile.insert text s.files } else s

def d (self : Log) : Option String → List String → State → State := self.log .debug

def i (self : Log) : Option String → List String → State → State := self.log .info

def w (self : Log) : Option String → List String → State → State := self.log .warn

def e (self : Log) : Option String → List String → State → State := self.log .err

example : (⟨"a.cpp", 7⟩ : Log).record .info none ["x = ", "1"] = "?  INFO a.cpp:7\tx = 1\n" := by
  decide

end Log

end MarathonKit.Core
