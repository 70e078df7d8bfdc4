import MarathonKit.Core.FileDescriptor
import MarathonKit.Dialogue.Asks
import Mathlib.Logic.Function.Basic

/-!
The system calls the descriptors make, and `Core/FileDescriptor.cpp`.

A system call is a request to the kernel; it fails with an `errno` or returns
what it has to give. Buffers are passed by value: `read` and `recv` answer the
bytes they put at the front of the caller's buffer.
-/

namespace MarathonKit.Core.System

open Dialogue Dialogue.Method

/-- `FD_SETSIZE` -/
def fdSetSize : Nat := 1024

/-- `fd_set`, bit by bit -/
abbrev FdSet := Fin fdSetSize → Bool

inductive Request where
  /-- `select(nfds, &readFds, nullptr, nullptr, {0, 0})` -/
  | select (nfds : Int) (readFds : FdSet)
  | read (fd : Int) (count : Nat)
  | write (fd : Int) (buf : Bytes)
  /-- `recv(fd, buf, len, peek ? MSG_PEEK : 0)` -/
  | recv (fd : Int) (len : Nat) (peek : Bool)
  /-- `send(fd, buf, len, 0)` -/
  | send (fd : Int) (buf : Bytes)
  | logw (text : String)

@[reducible] def Answer : Request → Type
  | .select _ _ => Except Nat FdSet
  | .read _ _ | .recv _ _ _ => Except Nat Bytes
  | .write _ _ | .send _ _ => Except Nat Nat
  | .logw _ => Unit

abbrev interface : Interface := ⟨Request, Answer⟩

abbrev Method (σ : Type) := Dialogue.Method interface Exn Fault σ

variable {σ α : Type} {s : σ}

/-- `if (rc < 0) throw std::runtime_error(std::strerror(errno))` -/
def orStrerror : Except Nat α → Method σ α
  | .ok a => pure a
  | .error errno => throw (.strerror errno)

@[simp] theorem orStrerror_ok {a : α} : orStrerror (.ok a) s = .returned s a := rfl

@[simp] theorem orStrerror_error {errno : Nat} :
    (orStrerror (.error errno) : Method σ α) s = .threw s (.strerror errno) := rfl

/-- `FD_ZERO` -/
def fdZero : FdSet := fun _ => false

/-- `FD_SET` -/
def fdSet (fd : Int) (set : FdSet) : Method σ FdSet :=
  if h : 0 ≤ fd ∧ fd.toNat < fdSetSize then
    pure (Function.update set ⟨fd.toNat, h.2⟩ true)
  else
    fault .fdSetOutOfBounds

/-- `FD_ISSET` -/
def fdIsSet (fd : Int) (set : FdSet) : Method σ Bool :=
  if h : 0 ≤ fd ∧ fd.toNat < fdSetSize then
    pure (set ⟨fd.toNat, h.2⟩)
  else
    fault .fdSetOutOfBounds

/-- `INT_MAX` -/
def intMax : Int := 2147483647

/-- `a + b` for `int`s -/
def addInt (a b : Int) : Method σ Int :=
  if a + b ≤ intMax then pure (a + b) else fault .intOverflow

/-- `FileDescriptor::isReadyForReading(int fd)` -/
def isReadyForReading (fd : Int) : Method σ Bool := do
  let readFds ← fdSet fd fdZero
  let nfds ← addInt fd 1
  let readFds ← orStrerror (← ask (Request.select nfds readFds))
  fdIsSet fd readFds

/-- A descriptor with a bit in `fd_set` is polled by one `select` of that bit. -/
theorem isReadyForReading_apply {fd : Int} (nonneg : 0 ≤ fd) (fits : fd.toNat < fdSetSize) :
    isReadyForReading fd s = .asking s
      (.select (fd + 1) (Function.update fdZero ⟨fd.toNat, fits⟩ true)) fun
        | .ok readFds => .returned s (readFds ⟨fd.toNat, fits⟩)
        | .error errno => .threw s (.strerror errno) := by
  have small : fd + 1 ≤ intMax := by
    unfold fdSetSize at fits
    unfold intMax
    omega
  simp only [isReadyForReading, fdSet, addInt, fdIsSet, nonneg, fits, small, and_self, dite_true,
    if_true, bind_apply, pure_apply, ask_apply, Call.andThen_returned, Call.andThen_asking]
  congr 1
  funext a
  cases a <;> rfl

/-- A descriptor without one is not polled at all. -/
theorem isReadyForReading_outOfBounds {fd : Int} (outside : fdSetSize ≤ fd.toNat) :
    (isReadyForReading fd s : Call interface Exn Fault σ Bool) = .faulted s .fdSetOutOfBounds := by
  have noBit : ¬ (0 ≤ fd ∧ fd.toNat < fdSetSize) := by omega
  simp [isReadyForReading, fdSet, noBit]

/-- The system call is one on `fd`; `select` polls nothing else. -/
def Request.On (fd : Int) : Request → Prop
  | .select nfds readFds => nfds = fd + 1 ∧ ∀ j : Fin fdSetSize, readFds j = true → (j : Int) = fd
  | .read fd' _ | .write fd' _ | .recv fd' _ _ | .send fd' _ => fd' = fd
  | .logw _ => True

theorem isReadyForReading_asks {fd : Int} (nonneg : 0 ≤ fd) :
    (isReadyForReading fd s).Asks (Request.On fd) := by
  by_cases fits : fd.toNat < fdSetSize
  · rw [isReadyForReading_apply nonneg fits, Call.asks_asking]
    refine ⟨⟨rfl, ?_⟩, ?_⟩
    · intro j isSet
      by_cases same : j = ⟨fd.toNat, fits⟩
      · subst same
        exact Int.toNat_of_nonneg nonneg
      · simp [Function.update_of_ne same, fdZero] at isSet
    · rintro (errno | readFds)
      · exact Call.asks_threw
      · exact Call.asks_returned
  · rw [isReadyForReading_outOfBounds (Nat.not_lt.mp fits)]
    exact Call.asks_faulted

/-! ### What a history of system calls has moved -/

/-- The bytes an event has read from a stream, or written to it. -/
def read? : Event interface → Bytes
  | ⟨.read _ _, .ok buf⟩ => buf
  | _ => []

def written? : Event interface → Bytes
  | ⟨.write _ buf, .ok count⟩ => buf.take count
  | _ => []

def bytesRead (h : List (Event interface)) : Bytes := h.flatMap read?

def bytesWritten (h : List (Event interface)) : Bytes := h.flatMap written?

variable {e : Event interface} {h : List (Event interface)}

@[simp] theorem bytesRead_nil : bytesRead [] = [] := rfl

@[simp] theorem bytesRead_cons : bytesRead (e :: h) = read? e ++ bytesRead h :=
  List.flatMap_cons

@[simp] theorem bytesRead_append (h h' : List (Event interface)) :
    bytesRead (h ++ h') = bytesRead h ++ bytesRead h' := List.flatMap_append

@[simp] theorem bytesWritten_nil : bytesWritten [] = [] := rfl

@[simp] theorem bytesWritten_cons : bytesWritten (e :: h) = written? e ++ bytesWritten h :=
  List.flatMap_cons

@[simp] theorem bytesWritten_append (h h' : List (Event interface)) :
    bytesWritten (h ++ h') = bytesWritten h ++ bytesWritten h' := List.flatMap_append

end MarathonKit.Core.System
