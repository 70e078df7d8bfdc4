import MarathonKit.Core.System
import Mathlib.Algebra.Ring.Nat

/-!
`Core/MessageFileDescriptor.cpp`: a descriptor on a socket of datagrams.

`read` finds out how large the next datagram is by peeking at it with a buffer
that grows until the datagram does not fill it, and then receives. `read_wp`
says what that comes to: one receive, with a buffer that the last datagram
peeked at did not fill; `read_sizes` how large the buffer is after so many peeks.
-/

namespace MarathonKit.Core

open Dialogue Dialogue.Method

/-- A descriptor as the constructor admits it. -/
structure MessageFileDescriptor where
  mFd : Int
  nonneg : 0 ≤ mFd
deriving Repr

namespace MessageFileDescriptor

/-- `MessageFileDescriptor::MessageFileDescriptor(int)` -/
def make (fd : Int) : Except Exn MessageFileDescriptor :=
  if nonneg : 0 ≤ fd then
    .ok ⟨fd, nonneg⟩
  else
    .error (.runtimeError "Invalid descriptor in MessageFileDescriptor constructor")

theorem make_of_nonneg {fd : Int} (nonneg : 0 ≤ fd) : make fd = .ok ⟨fd, nonneg⟩ :=
  dif_pos nonneg

theorem mFd_of_make {fd : Int} {self : MessageFileDescriptor} (made : make fd = .ok self) :
    self.mFd = fd := by
  by_cases nonneg : 0 ≤ fd
  · rw [make_of_nonneg nonneg] at made
    obtain rfl := Except.ok.inj made
    rfl
  · simp [make, nonneg] at made

/-- The local variables of `read`. What the buffer holds is what was received
into it last, so only its size is kept. -/
structure Local where
  size : Nat
  enoughSpace : Bool
deriving DecidableEq, Repr

variable {σ : Type} (self : MessageFileDescriptor)

def isReadyForReading : System.Method σ Bool := System.isReadyForReading self.mFd

/-- `!enoughSpace` -/
def tooSmall : System.Method Local Bool := do
  return !(← this).enoughSpace

/-- The body of the loop in `read`; the product is one of `size_t`s. -/
def peek : System.Method Local Unit := do
  let size := (← this).size
  let buf ← System.orStrerror (← ask (System.Request.recv self.mFd size true))
  if buf.length < size then
    update fun vars => { vars with enoughSpace := true }
  else
    update fun vars => { vars with size := 4 * size % UInt64.size }

/-- The receive after the loop. -/
def receive : System.Method Local Bytes := do
  System.orStrerror (← ask (System.Request.recv self.mFd (← this).size false))

def read (bound : Nat) : System.Method σ Bytes := fun s =>
  ((do
    whileLoop tooSmall self.peek bound
    self.receive : System.Method Local Bytes) ⟨32, false⟩).within fun _ => s

/-- How much was sent is not looked at. -/
def write (data : Bytes) : System.Method σ Unit := do
  let _ ← System.orStrerror (← ask (System.Request.send self.mFd data))

/-- The virtual functions, as this class defines them. -/
def implement (bound : Nat) :
    (q : FileDescriptor.Request) → Call System.interface Exn Fault Unit (FileDescriptor.Answer q)
  | .isReadyForReading _ => (self.isReadyForReading ()).caught
  | .read _ => (self.read bound ()).caught
  | .write _ data => (self.write data ()).caught
  | .logw text => ask (I := System.interface) (System.Request.logw text) ()

variable {self} {s : σ}

theorem write_apply {data : Bytes} : self.write data s =
    .asking s (.send self.mFd data) fun
      | .ok _ => .returned s ()
      | .error errno => .threw s (.strerror errno) := by
  simp only [write, bind_apply, ask_apply, Call.andThen_returned, Call.andThen_asking]
  congr 1
  funext a
  cases a <;> rfl

theorem peekRound_apply {vars : Local} : round tooSmall self.peek vars =
    if vars.enoughSpace then .returned vars false
    else .asking vars (.recv self.mFd vars.size true) fun
      | .ok buf =>
          if buf.length < vars.size then .returned ⟨vars.size, true⟩ true
          else .returned ⟨4 * vars.size % UInt64.size, vars.enoughSpace⟩ true
      | .error errno => .threw vars (.strerror errno) := by
  cases enough : vars.enoughSpace with
  | true => simp [round_apply, tooSmall, enough]
  | false =>
      simp only [round_apply, tooSmall, peek, bind_apply, this_apply, pure_apply, ask_apply,
        Call.andThen_returned, Call.andThen_asking, enough, Bool.not_false, if_true,
        Bool.false_eq_true, if_false]
      congr 1
      funext a
      cases a with
      | error errno => rfl
      | ok buf =>
          by_cases fits : buf.length < vars.size
          · simp [fits]
          · simp [fits, enough]

theorem receive_apply {vars : Local} : self.receive vars =
    .asking vars (.recv self.mFd vars.size false) fun
      | .ok buf => .returned vars buf
      | .error errno => .threw vars (.strerror errno) := by
  simp only [receive, bind_apply, this_apply, ask_apply, Call.andThen_returned,
    Call.andThen_asking]
  congr 1
  funext a
  cases a <;> rfl

/-! ### What a read does -/

/-- What a receive that was not a peek has brought. -/
def received? : Event System.interface → List Bytes
  | ⟨.recv _ _ false, .ok buf⟩ => [buf]
  | _ => []

/-- The datagrams received, as far as they were brought. -/
def received (h : List (Event System.interface)) : List Bytes := h.flatMap received?

/-- The size of the buffer at the last peek, and how much of it was filled. -/
def lastPeek (before : Option (Nat × Nat)) (h : List (Event System.interface)) :
    Option (Nat × Nat) :=
  h.foldl (fun last event =>
    match event with
    | ⟨.recv _ size true, .ok buf⟩ => some (size, buf.length)
    | _ => last) before

@[simp] theorem received_nil : received [] = [] := rfl

@[simp] theorem received_cons {event : Event System.interface} {h : List (Event System.interface)} :
    received (event :: h) = received? event ++ received h := List.flatMap_cons

@[simp] theorem received_append (h h' : List (Event System.interface)) :
    received (h ++ h') = received h ++ received h' := List.flatMap_append

@[simp] theorem lastPeek_append (before : Option (Nat × Nat))
    (h h' : List (Event System.interface)) :
    lastPeek before (h ++ h') = lastPeek (lastPeek before h) h' := List.foldl_append

/-- A point of a `read` that has received `got` and last peeked as in `before`
when `h` begins: it returns the one datagram it receives, and it asks for it
with a buffer that the last peek did not fill. -/
structure Reading (got : List Bytes) (before : Option (Nat × Nat))
    (h : List (Event System.interface)) (o : Outcome System.interface Exn Fault Bytes) : Prop where
  returns : ∀ v, o = .returned v → got ++ received h = [v]
  nothing : (∀ v, o ≠ .returned v) → got ++ received h = []
  room : ∀ fd size, o = .asking (.recv fd size false) →
    ∃ filled, lastPeek before h = some (size, filled) ∧ filled < size

theorem read_wp (bound : Nat) : (self.read bound s).wp fun h o _ => Reading [] none h o := by
  refine Call.wp_within.mpr (Call.wp_andThen.mpr (wp_whileLoop
    (fun h vars => received h = [] ∧ (vars.enoughSpace = true →
      ∃ filled, lastPeek none h = some (vars.size, filled) ∧ filled < vars.size))
    ⟨rfl, by simp⟩ ?_ ?_))
  · rintro h vars ⟨nothing, -⟩
    exact ⟨by simp, by simp [nothing], by simp⟩
  · rintro h vars ⟨nothing, room⟩
    rw [peekRound_apply]
    cases enough : vars.enoughSpace with
    | true =>
        obtain ⟨filled, last, less⟩ := room enough
        simp only [if_true, Call.wp_returned, List.append_nil, afterRound, Call.passOn,
          receive_apply, Call.wp_asking]
        refine ⟨⟨by simp, by simp [nothing], ?_⟩, fun a => ?_⟩
        · rintro fd size ⟨⟩
          exact ⟨filled, last, less⟩
        cases a with
        | ok buf => exact ⟨by simp [nothing, received?], by simp, by simp⟩
        | error errno => exact ⟨by simp, by simp [nothing, received?], by simp⟩
    | false =>
        simp only [Bool.false_eq_true, if_false]
        refine ⟨⟨by simp, by simp [nothing], by simp⟩, fun a => ?_⟩
        cases a with
        | error errno => exact ⟨by simp, by simp [nothing, received?], by simp⟩
        | ok buf =>
            by_cases fits : buf.length < vars.size
            · simp only [if_pos fits]
              refine ⟨by simp [nothing, received?], fun _ => ?_⟩
              exact ⟨buf.length, by simp [lastPeek], fits⟩
            · simp only [if_neg fits]
              exact ⟨by simp [nothing, received?], by simp⟩

/-- A peek that has brought something. -/
def isPeek : Event System.interface → Bool
  | ⟨.recv _ _ true, .ok _⟩ => true
  | _ => false

/-- How often a read has peeked. -/
def peeks (h : List (Event System.interface)) : Nat := h.countP isPeek

/-- The size of the buffer after `k` peeks, if the last of them has not filled it. -/
def sizeAfter (k : Nat) : Nat := 32 * 4 ^ (k - 1) % UInt64.size

/-- A read receives with a buffer whose size is known from the number of its peeks. -/
theorem read_sizes (bound : Nat) : (self.read bound s).wp fun h o _ =>
    ∀ fd size, o = .asking (.recv fd size false) → size = sizeAfter (peeks h) := by
  refine Call.wp_within.mpr (Call.wp_andThen.mpr (wp_whileLoop
    (fun h vars => vars.size = sizeAfter (peeks h + if vars.enoughSpace then 0 else 1))
    rfl (fun _ _ _ => by simp [Call.passOn]) ?_))
  intro h vars sized
  rw [peekRound_apply]
  cases enough : vars.enoughSpace with
  | true =>
      rw [enough] at sized
      simp only [if_true, Call.wp_returned, List.append_nil, afterRound, Call.passOn, receive_apply,
        Call.wp_asking]
      refine ⟨?_, fun a => ?_⟩
      · rintro fd size ⟨⟩
        exact sized
      · cases a <;> simp
  | false =>
      rw [enough] at sized
      simp only [Bool.false_eq_true, if_false, Call.wp_asking]
      refine ⟨by simp [afterRound, Call.passOn], fun a => ?_⟩
      cases a with
      | error errno => simp [afterRound, Call.passOn]
      | ok buf =>
          by_cases fits : buf.length < vars.size
          · simpa [fits, afterRound, peeks, isPeek] using sized
          · have grown : 4 * vars.size % UInt64.size = sizeAfter (peeks h + 1 + 1) := by
              simp only [sized, sizeAfter, Bool.false_eq_true, if_false, Nat.add_sub_cancel,
                Nat.mul_mod_mod, Nat.pow_succ]
              congr 1
              omega
            simpa [fits, enough, afterRound, peeks, isPeek] using grown

/-! ### What a write does -/

def sent? : Event System.interface → List Bytes
  | ⟨.send _ buf, .ok _⟩ => [buf]
  | _ => []

/-- The datagrams sent. -/
def sent (h : List (Event System.interface)) : List Bytes := h.flatMap sent?

@[simp] theorem sent_nil : sent [] = [] := rfl

@[simp] theorem sent_cons {event : Event System.interface} {h : List (Event System.interface)} :
    sent (event :: h) = sent? event ++ sent h := List.flatMap_cons

/-- A point of a `write` of `data` that has sent `gone` when `h` begins: the one
datagram it sends is `data`, and it returns if and only if it has. -/
structure Writing (data : Bytes) (gone : List Bytes) (h : List (Event System.interface))
    (o : Outcome System.interface Exn Fault Unit) : Prop where
  returns : ∀ v, o = .returned v → gone ++ sent h = [data]
  nothing : (∀ v, o ≠ .returned v) → gone ++ sent h = []

theorem write_wp (data : Bytes) : (self.write data s).wp fun h o _ => Writing data [] h o := by
  rw [write_apply]
  refine ⟨⟨by simp, by simp⟩, fun a => ?_⟩
  cases a with
  | ok count => exact ⟨by simp [sent?], by simp⟩
  | error errno => exact ⟨by simp, by simp [sent?]⟩

/-! ### Which descriptor is used -/

theorem implement_asks (bound : Nat) (q : FileDescriptor.Request) :
    (self.implement bound q).Asks (System.Request.On self.mFd) := by
  cases q with
  | isReadyForReading fd => exact (System.isReadyForReading_asks self.nonneg).caught
  | read fd =>
      refine Call.Asks.caught (Call.Asks.within (Call.Asks.andThen (asks_whileLoop ?_ ?_) ?_))
      · exact fun _ => Call.asks_returned
      · intro vars
        refine Call.asks_asking.mpr ⟨rfl, ?_⟩
        rintro (errno | buf)
        · exact Call.asks_threw
        · by_cases fits : buf.length < vars.size
          · simpa [fits] using Call.asks_returned
          · simpa [fits] using Call.asks_returned
      · intro vars _
        show (self.receive vars).Asks _
        rw [receive_apply, Call.asks_asking]
        refine ⟨rfl, ?_⟩
        rintro (errno | buf)
        · exact Call.asks_threw
        · exact Call.asks_returned
  | write fd data =>
      refine Call.Asks.caught ?_
      rw [write_apply, Call.asks_asking]
      refine ⟨rfl, ?_⟩
      rintro (errno | count)
      · exact Call.asks_threw
      · exact Call.asks_returned
  | logw text => exact Call.asks_asking.mpr ⟨trivial, fun _ => Call.asks_returned⟩

end MessageFileDescriptor

end MarathonKit.Core
