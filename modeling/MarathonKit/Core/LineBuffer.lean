import MarathonKit.Core.FileDescriptor

/-!
`Core/LineBuffer.cpp`: characters and lines out of the chunks a descriptor
delivers.

The definitions follow the source function by function. The size of a buffer in
memory is far below `2 ^ 64`, so `mLinesReady` is a natural number; its
decrement is the one place where the difference would show, and there `0` is a
fault.
-/

namespace MarathonKit.Core

open Dialogue Dialogue.Method FileDescriptor

structure LineBuffer where
  mFd : Option FdPtr
  mBuffer : Bytes
  mLinesReady : Nat
deriving DecidableEq, Repr

namespace LineBuffer

abbrev Method := Dialogue.Method FileDescriptor.interface Exn Fault LineBuffer

/-- `LineBuffer::LineBuffer()` -/
def empty : LineBuffer := ⟨none, [], 0⟩

/-- `LineBuffer::LineBuffer(const shared_ptr<FileDescriptor>&)` -/
def ofFd (fd : Option FdPtr) : LineBuffer := ⟨fd, [], 0⟩

/-- The two buffers after `buffer.swapWith(other)`, field by field. -/
def swapWith (buffer other : LineBuffer) : LineBuffer × LineBuffer :=
  (⟨other.mFd, other.mBuffer, other.mLinesReady⟩, ⟨buffer.mFd, buffer.mBuffer, buffer.mLinesReady⟩)

/-- `LineBuffer::LineBuffer(LineBuffer&&)`: the new buffer and the one moved
from. -/
def moveConstruct (other : LineBuffer) : LineBuffer × LineBuffer := empty.swapWith other

/-- `operator = (LineBuffer&&)` is a swap: the old contents go to `other`. -/
def moveAssign (buffer other : LineBuffer) : LineBuffer × LineBuffer := buffer.swapWith other

def isInitialized (buffer : LineBuffer) : Bool := buffer.mFd.isSome

/-- One round of the loop in `loadChars`. -/
def pushChar (buffer : LineBuffer) (ch : Byte) : LineBuffer where
  mFd := buffer.mFd
  mBuffer := buffer.mBuffer ++ [ch]
  mLinesReady := if ch = newline then buffer.mLinesReady + 1 else buffer.mLinesReady

def loadChars : Method Unit := do
  if (← this).mFd = none then
    throw (.runtimeError "Cannot read from an unitialized LineBuffer")
  let chars ← read (← deref (← this).mFd)
  update fun buffer => chars.foldl pushChar buffer

/-- `mBuffer.empty() && mFd->isReadyForReading()` -/
def emptyButReady : Method Bool := do
  if (← this).mBuffer.isEmpty then
    isReadyForReading (← deref (← this).mFd)
  else
    return false

def charsReady : Method Nat := do
  if !(← this).isInitialized then
    logw "charsReady called on unitialized LineBuffer"
    return 0
  if ← emptyButReady then
    loadChars
  return (← this).mBuffer.length

/-- `mBuffer.front()` and `mBuffer.pop_front()` -/
def popFront : Method Byte := do
  match (← this).mBuffer with
  | [] => fault .frontOfEmpty
  | ch :: rest =>
      update fun buffer => { buffer with mBuffer := rest }
      return ch

/-- `--mLinesReady` -/
def countDown : Method Unit := do
  if (← this).mLinesReady = 0 then
    fault .counterUnderflow
  update fun buffer => { buffer with mLinesReady := buffer.mLinesReady - 1 }

/-- What `getChar` does after loading. -/
def takeChar : Method Byte := do
  let ch ← popFront
  if ch = newline then
    countDown
  return ch

def getChar : Method Byte := do
  if (← this).mBuffer.isEmpty then
    loadChars
  takeChar

/-- `mLinesReady == 0 && mFd->isReadyForReading()` -/
def noLineButReady : Method Bool := do
  if (← this).mLinesReady = 0 then
    isReadyForReading (← deref (← this).mFd)
  else
    return false

def linesReady (bound : Nat) : Method Nat := do
  if !(← this).isInitialized then
    logw "linesReady called on unitialized LineBuffer"
    return 0
  whileLoop noLineButReady loadChars bound
  return (← this).mLinesReady

/-- How far `while (*it != '\n') ++it` gets from `begin()`; `none` when it runs
into `end()`. -/
def scan : Bytes → Option Nat
  | [] => none
  | ch :: rest => if ch = newline then some 0 else (scan rest).map (· + 1)

/-- `mLinesReady == 0` -/
def noLine : Method Bool := do
  return (← this).mLinesReady = 0

/-- What `getLine` does after its loop. -/
def takeLine : Method Bytes := do
  match scan (← this).mBuffer with
  | none => fault .scanPastEnd
  | some it =>
      let line := (← this).mBuffer.take it
      update fun buffer => { buffer with mBuffer := buffer.mBuffer.drop (it + 1) }
      countDown
      return line

def getLine (bound : Nat) : Method Bytes := do
  whileLoop noLine loadChars bound
  takeLine

end LineBuffer

end MarathonKit.Core
