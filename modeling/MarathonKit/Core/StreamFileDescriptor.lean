import MarathonKit.Core.System

/-!
`Core/StreamFileDescriptor.cpp`: a descriptor on a byte stream.

`implement` puts the methods of this class behind the virtual functions: a
request to the descriptor is answered by the system calls its method makes, and
an exception of the method is the answer. `read_wp` and `write_wp` say what a
request has moved at every point of the method serving it.
-/

namespace MarathonKit.Core

open Dialogue Dialogue.Method

/-- A descriptor as the constructor admits it. -/
structure StreamFileDescriptor where
  mFd : Int
  nonneg : 0 ≤ mFd
deriving Repr

namespace StreamFileDescriptor

/-- `StreamFileDescriptor::StreamFileDescriptor(int)` -/
def make (fd : Int) : Except Exn StreamFileDescriptor :=
  if nonneg : 0 ≤ fd then
    .ok ⟨fd, nonneg⟩
  else
    .error (.runtimeError "Invalid descriptor in StreamFileDescriptor constructor")

theorem make_of_nonneg {fd : Int} (nonneg : 0 ≤ fd) : make fd = .ok ⟨fd, nonneg⟩ :=
  dif_pos nonneg

theorem mFd_of_make {fd : Int} {self : StreamFileDescriptor} (made : make fd = .ok self) :
    self.mFd = fd := by
  by_cases nonneg : 0 ≤ fd
  · rw [make_of_nonneg nonneg] at made
    obtain rfl := Except.ok.inj made
    rfl
  · simp [make, nonneg] at made

variable {σ : Type} (self : StreamFileDescriptor)

def isReadyForReading : System.Method σ Bool := System.isReadyForReading self.mFd

/-- `BUFF_SIZE` -/
def buffSize : Nat := 4096

def read : System.Method σ Bytes := do
  System.orStrerror (← ask (System.Request.read self.mFd buffSize))

/-- `offset < data.size()`; the state is `offset`. -/
def unwritten (data : Bytes) : System.Method Nat Bool := do
  return (← this) < data.length

/-- The body of the loop in `write`. -/
def writeSome (data : Bytes) : System.Method Nat Unit := do
  let rc ← System.orStrerror (← ask (System.Request.write self.mFd (data.drop (← this))))
  update fun offset => offset + rc

def write (data : Bytes) (bound : Nat) : System.Method σ Unit :=
  fun s => (whileLoop (unwritten data) (self.writeSome data) bound 0).within fun _ => s

/-- The virtual functions, as this class defines them. -/
def implement (bound : Nat) :
    (q : FileDescriptor.Request) → Call System.interface Exn Fault Unit (FileDescriptor.Answer q)
  | .isReadyForReading _ => (self.isReadyForReading ()).caught
  | .read _ => (self.read ()).caught
  | .write _ data => (self.write data bound ()).caught
  | .logw text => ask (I := System.interface) (System.Request.logw text) ()

variable {self} {s : σ}

theorem read_apply : self.read s = .asking s (.read self.mFd buffSize) fun
    | .ok buff => .returned s buff
    | .error errno => .threw s (.strerror errno) := by
  simp only [read, bind_apply, ask_apply, Call.andThen_asking, Call.andThen_returned]
  congr 1
  funext a
  cases a <;> rfl

/-! ### Writing -/

variable {data : Bytes} {offset bound : Nat}

theorem writeRound_apply : round (unwritten data) (self.writeSome data) offset =
    if offset < data.length then
      .asking offset (.write self.mFd (data.drop offset)) fun
        | .ok rc => .returned (offset + rc) true
        | .error errno => .threw offset (.strerror errno)
    else .returned offset false := by
  by_cases more : offset < data.length
  · simp only [round_apply, unwritten, writeSome, bind_apply, this_apply, pure_apply, ask_apply,
      Call.andThen_returned, Call.andThen_asking, more, decide_true, if_true]
    congr 1
    funext a
    cases a <;> rfl
  · simp [round_apply, unwritten, more]

/-- A point of a `write`: what has been written and what is left make up the
data, a system call offers all that is left, and at the return nothing is. -/
structure Written (stream : StreamFileDescriptor) (data : Bytes)
    (h : List (Event System.interface)) (o : Outcome System.interface Exn Fault Unit)
    (left : Bytes) : Prop where
  written : System.bytesWritten h ++ left = data
  nothingRead : System.bytesRead h = []
  offers : ∀ q, o = .asking q → q = .write stream.mFd left ∧ left ≠ []
  all : ∀ v, o = .returned v → left = []
  safe : ∀ f, o ≠ .faulted f

theorem write_wp (data : Bytes) (bound : Nat) :
    (self.write data bound s).wp fun h o _ => ∃ left, self.Written data h o left := by
  refine Call.wp_within.mpr (wp_whileLoop
    (fun h offset => System.bytesWritten h = data.take offset ∧ System.bytesRead h = [])
    ⟨rfl, rfl⟩ ?_ ?_)
  · rintro h offset ⟨written, nothing⟩
    exact ⟨data.drop offset, by simp [written], nothing, by simp, by simp, by simp⟩
  · rintro h offset ⟨written, nothing⟩
    rw [writeRound_apply]
    by_cases more : offset < data.length
    · rw [if_pos more]
      refine ⟨⟨data.drop offset, by simp [written], by simp [nothing], by simpa using more,
        by simp, by simp⟩, ?_⟩
      intro a
      cases a with
      | ok rc =>
          refine ⟨?_, by simp [nothing, System.read?]⟩
          rw [System.bytesWritten_append, written, List.take_add]
          simp [System.written?]
      | error errno =>
          refine ⟨data.drop offset, ?_, ?_, by simp, by simp, by simp⟩
          · simp [written, System.written?]
          · simp [nothing, System.read?]
    · rw [if_neg more]
      have done : data.take offset = data := List.take_of_length_le (by omega)
      exact ⟨[], by simp [written, done], by simp [nothing], by simp, by simp, by simp⟩

/-- An exception leaves something unwritten. -/
theorem write_threw_wp (data : Bytes) (bound : Nat) :
    (self.write data bound s).wp fun h o _ =>
      ∀ e, o = .threw e → (System.bytesWritten h).length < data.length := by
  refine Call.wp_within.mpr (wp_whileLoop
    (fun h offset => System.bytesWritten h = data.take offset) rfl (by simp) ?_)
  intro h offset written
  rw [writeRound_apply]
  by_cases more : offset < data.length
  · rw [if_pos more]
    refine ⟨by simp [afterRound], fun a => ?_⟩
    cases a with
    | ok rc =>
        show System.bytesWritten (h ++ [_]) = data.take (offset + rc)
        rw [System.bytesWritten_append, written, List.take_add]
        simp [System.written?]
    | error errno =>
        intro e _
        have transmitted : (data.take offset).length < data.length := by
          rw [List.length_take]
          omega
        simpa [written, System.written?] using transmitted
  · rw [if_neg more]
    simp [afterRound]

/-! ### Behind the virtual functions -/

/-- A poll reads nothing, whether or not the descriptor has a bit in `fd_set`. -/
theorem isReadyForReading_wp :
    (self.isReadyForReading s).wp fun h _ _ => System.bytesRead h = [] := by
  by_cases fits : self.mFd.toNat < System.fdSetSize
  · rw [isReadyForReading, System.isReadyForReading_apply self.nonneg fits]
    refine ⟨rfl, fun a => ?_⟩
    cases a with
    | ok readFds => simp [System.read?]
    | error errno => simp [System.read?]
  · rw [isReadyForReading, System.isReadyForReading_outOfBounds (by omega)]
    rfl

/-- A call on the system calls below and the same call on the requests above: it
has ended below as it has above, or is over in neither. -/
def Below {α : Type} (o : Outcome System.interface Exn Fault α)
    (o' : Outcome FileDescriptor.interface Exn Fault α) : Prop :=
  match o with
  | .returned v => o' = .returned v
  | .threw e => o' = .threw e
  | _ => ∀ v, o' ≠ .returned v

theorem implement_wp (q : FileDescriptor.Request) (bound : Nat) :
    (self.implement bound q).wp fun k o _ => (∀ e, o ≠ .threw e) ∧
      match o with
      | .returned a => System.bytesRead k = FileDescriptor.bytesRead [⟨q, a⟩]
      | _ => System.bytesRead k = [] := by
  cases q with
  | isReadyForReading fd =>
      refine Call.wp_caught.mpr (isReadyForReading_wp.mono ?_)
      intro h o s nothing
      cases o <;> simpa [Outcome.caught, FileDescriptor.bytesRead] using nothing
  | read fd =>
      apply Call.wp_caught.mpr
      rw [read_apply]
      refine ⟨⟨by simp [Outcome.caught], rfl⟩, fun a => ?_⟩
      cases a with
      | ok buff => simp [Outcome.caught, System.read?, FileDescriptor.bytesRead]
      | error errno => simp [Outcome.caught, System.read?, FileDescriptor.bytesRead]
  | write fd data =>
      refine Call.wp_caught.mpr ((write_wp data bound).mono ?_)
      rintro h o s ⟨left, written⟩
      cases o <;> simpa [Outcome.caught, FileDescriptor.bytesRead] using written.nothingRead
  | logw text =>
      refine ⟨⟨by simp, rfl⟩, fun a => ?_⟩
      simp [System.read?, FileDescriptor.bytesRead]

/-- What is known of a call at every point is known of it with the requests
served by this class; the bytes read are the same. -/
theorem via_wp {α : Type} {c : Call FileDescriptor.interface Exn Fault σ α} {bound : Nat}
    {P : List (Event FileDescriptor.interface) → Outcome FileDescriptor.interface Exn Fault α →
      σ → Prop} (upper : c.wp P) :
    (c.via (self.implement bound)).wp fun h o s =>
      ∃ h' o', System.bytesRead h = FileDescriptor.bytesRead h' ∧ P h' o' s ∧ Below o o' := by
  refine Call.wp_via (R := fun h h' => System.bytesRead h = FileDescriptor.bytesRead h') upper rfl
    ?_ ?_ ?_ ?_ ?_
  · intro h h' s a same holds
    exact ⟨h', _, same, holds, rfl⟩
  · intro h h' s e same holds
    exact ⟨h', _, same, holds, rfl⟩
  · intro h h' s x same holds
    exact ⟨h', _, same, holds, by simp [Below]⟩
  · intro h h' s same holds
    exact ⟨h', _, same, holds, by simp [Below]⟩
  · intro h h' s q same holds
    apply (implement_wp q bound).mono
    rintro k o _ ⟨noThrow, moved⟩
    cases o with
    | returned a => simp [same, moved]
    | threw e => exact absurd rfl (noThrow e)
    | _ => exact ⟨h', _, by simp [same, moved], holds, by simp [Below]⟩

/-! ### Which descriptor is used -/

theorem implement_asks (bound : Nat) (q : FileDescriptor.Request) :
    (self.implement bound q).Asks (System.Request.On self.mFd) := by
  cases q with
  | isReadyForReading fd => exact (System.isReadyForReading_asks self.nonneg).caught
  | read fd =>
      refine Call.Asks.caught ?_
      rw [read_apply, Call.asks_asking]
      refine ⟨rfl, ?_⟩
      rintro (errno | buff)
      · exact Call.asks_threw
      · exact Call.asks_returned
  | write fd data =>
      refine Call.Asks.caught (Call.Asks.within (asks_whileLoop ?_ ?_))
      · exact fun _ => Call.asks_returned
      · intro offset
        refine Call.asks_asking.mpr ⟨rfl, ?_⟩
        rintro (errno | rc)
        · exact Call.asks_threw
        · exact Call.asks_returned
  | logw text => exact Call.asks_asking.mpr ⟨trivial, fun _ => Call.asks_returned⟩

end StreamFileDescriptor

end MarathonKit.Core
