import MarathonKit.Dialogue.Method

/-!
`Core/FileDescriptor.h`: the abstract descriptor, and what its users ask of it.

A `FileDescriptor` is known to its users only through its virtual functions, so
they are the requests of an interface: a user asks the object behind a pointer
and is answered by a value or by an exception. Which class implements the
object is left to the handler of the requests.
-/

namespace MarathonKit.Core

open Dialogue

abbrev Byte := UInt8

/-- `std::string` as the code uses it: any bytes, with their number. -/
abbrev Bytes := List Byte

/-- `'\n'` -/
def newline : Byte := 10

/-- The exceptions: a `std::runtime_error` of a fixed text, or of
`std::strerror(errno)`. -/
inductive Exn where
  | runtimeError (what : String)
  | strerror (errno : Nat)
deriving DecidableEq, Repr

/-- What the code must not do; nothing is known of the program afterwards. -/
inductive Fault where
  /-- a virtual call through a null pointer -/
  | nullDereference
  /-- `front()` or `pop_front()` of an empty deque -/
  | frontOfEmpty
  /-- an iterator of a deque dereferenced at `end()` -/
  | scanPastEnd
  /-- a `size_t` counter decremented at 0 -/
  | counterUnderflow
  /-- `FD_SET` or `FD_ISSET` of a descriptor that an `fd_set` has no bit for -/
  | fdSetOutOfBounds
  /-- signed overflow of an `int` -/
  | intOverflow
deriving DecidableEq, Repr

/-- The object a `std::shared_ptr<FileDescriptor>` points at. -/
abbrev FdPtr := Nat

namespace FileDescriptor

inductive Request where
  | isReadyForReading (fd : FdPtr)
  | read (fd : FdPtr)
  | write (fd : FdPtr) (data : Bytes)
  /-- `LOGW(text)` -/
  | logw (text : String)
deriving DecidableEq, Repr

@[reducible] def Answer : Request → Type
  | .isReadyForReading _ => Except Exn Bool
  | .read _ => Except Exn Bytes
  | .write _ _ => Except Exn Unit
  | .logw _ => Unit

/-- The virtual functions of `FileDescriptor`, and the log. -/
abbrev interface : Interface := ⟨Request, Answer⟩

/-- The descriptor a request is made of. -/
def Request.target : Request → Option FdPtr
  | .isReadyForReading fd | .read fd | .write fd _ => some fd
  | .logw _ => none

variable {σ : Type}

/-- `*ptr` -/
def deref : Option FdPtr → Method interface Exn Fault σ FdPtr
  | none => .fault .nullDereference
  | some fd => pure fd

def isReadyForReading (fd : FdPtr) : Method interface Exn Fault σ Bool := do
  .orThrow (← .ask (Request.isReadyForReading fd))

def read (fd : FdPtr) : Method interface Exn Fault σ Bytes := do
  .orThrow (← .ask (Request.read fd))

def write (fd : FdPtr) (data : Bytes) : Method interface Exn Fault σ Unit := do
  .orThrow (← .ask (Request.write fd data))

def logw (text : String) : Method interface Exn Fault σ Unit :=
  Method.ask (I := interface) (Request.logw text)

variable {s : σ} {fd : FdPtr}

@[simp] theorem deref_none :
    deref none s = (.faulted s .nullDereference : Call interface Exn Fault σ FdPtr) := rfl

@[simp] theorem deref_some :
    deref (some fd) s = (.returned s fd : Call interface Exn Fault σ FdPtr) := rfl

@[simp] theorem isReadyForReading_apply :
    isReadyForReading fd s = .asking s (.isReadyForReading fd) fun a => Method.orThrow a s := rfl

@[simp] theorem read_apply :
    FileDescriptor.read fd s = .asking s (.read fd) fun a => Method.orThrow a s := rfl

@[simp] theorem write_apply {data : Bytes} :
    FileDescriptor.write fd data s = .asking s (.write fd data) fun a => Method.orThrow a s := rfl

@[simp] theorem logw_apply {text : String} :
    logw text s = .asking s (.logw text) fun _ => .returned s () := rfl

/-- The chunk an event delivers, if it is a read that succeeded. -/
def chunk? : Event interface → Option Bytes
  | ⟨.read _, .ok chunk⟩ => some chunk
  | _ => none

/-- The chunks read, in order. -/
def chunksRead (h : List (Event interface)) : List Bytes := h.filterMap chunk?

/-- All bytes read, in order. -/
def bytesRead (h : List (Event interface)) : Bytes := (chunksRead h).flatten

@[simp] theorem chunksRead_nil : chunksRead [] = [] := rfl

@[simp] theorem chunksRead_append (h h' : List (Event interface)) :
    chunksRead (h ++ h') = chunksRead h ++ chunksRead h' := List.filterMap_append

@[simp] theorem chunksRead_read {chunk : Bytes} {h : List (Event interface)} :
    chunksRead (⟨.read fd, .ok chunk⟩ :: h) = chunk :: chunksRead h := rfl

@[simp] theorem chunksRead_failed {e : Exn} {h : List (Event interface)} :
    chunksRead (⟨.read fd, .error e⟩ :: h) = chunksRead h := rfl

@[simp] theorem chunksRead_poll {a : Except Exn Bool} {h : List (Event interface)} :
    chunksRead (⟨.isReadyForReading fd, a⟩ :: h) = chunksRead h := rfl

@[simp] theorem chunksRead_logw {text : String} {a : Unit} {h : List (Event interface)} :
    chunksRead (⟨.logw text, a⟩ :: h) = chunksRead h := rfl

@[simp] theorem chunksRead_write {data : Bytes} {a : Except Exn Unit}
    {h : List (Event interface)} :
    chunksRead (⟨.write fd data, a⟩ :: h) = chunksRead h := rfl

@[simp] theorem bytesRead_nil : bytesRead [] = [] := rfl

@[simp] theorem bytesRead_append (h h' : List (Event interface)) :
    bytesRead (h ++ h') = bytesRead h ++ bytesRead h' := by
  simp [bytesRead]

/-- The bytes read of one descriptor. -/
def readFrom (fd : FdPtr) (h : List (Event interface)) : Bytes :=
  bytesRead (h.filter fun event => event.request.target = some fd)

/-- If only one descriptor is asked, what is read is read of it. -/
theorem readFrom_of_target {target : Option FdPtr} {h : List (Event interface)}
    (targets : ∀ event ∈ h, event.request.target = target) (fd : FdPtr) :
    readFrom fd h = if target = some fd then bytesRead h else [] := by
  unfold readFrom
  by_cases isTarget : target = some fd
  · have all : (h.filter fun event => event.request.target = some fd) = h := by
      apply List.filter_eq_self.mpr
      intro event mem
      simp [targets event mem, isTarget]
    rw [all, if_pos isTarget]
  · have none : (h.filter fun event => event.request.target = some fd) = [] := by
      apply List.filter_eq_nil_iff.mpr
      intro event mem
      simp [targets event mem, isTarget]
    rw [none, if_neg isTarget, bytesRead_nil]

end FileDescriptor

end MarathonKit.Core
