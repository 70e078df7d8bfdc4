import MarathonKit.Core.Framing
import MarathonKit.Core.Messages
import MarathonKit.Text.Fields
import Mathlib.Data.List.Induction

/-!
Lines out of datagrams.

A `LineBuffer` reads from a socket of datagrams what many writers send there. It
sees one stream, of the datagrams in the order in which they are removed; where the
network loses, reorders or doubles datagrams, that stream is not the one that was
sent. `lines_whole` says what writers must do about it: where every datagram is
whole lines, no line is torn and no two are mixed, whatever the network does; the
lines received are those of the datagrams removed.

A call may read several datagrams. `Taking` describes it between any two of its
system calls; the last peek counts until the next receive (`peeked`).
-/

namespace MarathonKit.Core.Messages.Lines

open Dialogue LineBuffer MessageFileDescriptor Text
open Framing (lineOf)
open Transit (Service)

/-- The program with the buffer, between two calls or in one. -/
inductive Party where
  | idle (buffer : LineBuffer)
  | busy (call : Call System.interface Exn Fault LineBuffer Value)

structure Net (ι : Type) where
  /-- the writers, the network and the socket; its own reader stays idle -/
  below : Messages.Net ι
  party : Party
  /-- the values returned by the calls on the buffer, in order -/
  taken : List Value

inductive Action (ι : Type) where
  | elsewhere (action : Messages.Action ι)
  | call (op : Op) (bound : Nat)
  | poll (readFds : System.FdSet)
  | pollFailed (errno : Nat)
  | peek
  | receive
  | recvFailed (errno : Nat)
  | returned
  | threw

variable {ι : Type}

/-- What the writers and the network do. -/
def Elsewhere : Messages.Action ι → Prop
  | .write _ _ | .send _ _ | .sendFailed _ _ | .written _ | .writeThrew _ | .move _ => True
  | _ => False

section Steps

variable [DecidableEq ι]

/-- One step: of the writers or the network, or of the program with the buffer,
which reads from `self`. -/
inductive Step (service : Service) (out : ι → MessageFileDescriptor)
    (self : MessageFileDescriptor) : Net ι → Action ι → Net ι → Prop where
  | elsewhere {net : Net ι} {action : Messages.Action ι} {below : Messages.Net ι} :
      Messages.Step service out self net.below action below → Elsewhere action →
      Step service out self net (.elsewhere action) { net with below := below }
  | call {net : Net ι} {buffer : LineBuffer} (op : Op) (bound : Nat) :
      net.party = .idle buffer →
      Step service out self net (.call op bound) { net with
        party := .busy ((op.call bound buffer).via (self.implement bound)) }
  | poll {net : Net ι} {buffer : LineBuffer} {nfds : Int} {set : System.FdSet}
      {resume : Except Nat System.FdSet → Call System.interface Exn Fault LineBuffer Value}
      (readFds : System.FdSet) :
      net.party = .busy (.asking buffer (.select nfds set) resume) →
      Step service out self net (.poll readFds) { net with party := .busy (resume (.ok readFds)) }
  | pollFailed {net : Net ι} {buffer : LineBuffer} {nfds : Int} {set : System.FdSet}
      {resume : Except Nat System.FdSet → Call System.interface Exn Fault LineBuffer Value}
      (errno : Nat) :
      net.party = .busy (.asking buffer (.select nfds set) resume) →
      Step service out self net (.pollFailed errno) { net with
        party := .busy (resume (.error errno)) }
  | peek {net : Net ι} {buffer : LineBuffer} {fd : Int} {size : Nat} {datagram : Bytes}
      {rest : List Bytes}
      {resume : Except Nat Bytes → Call System.interface Exn Fault LineBuffer Value} :
      net.party = .busy (.asking buffer (.recv fd size true) resume) →
      net.below.queue = datagram :: rest →
      Step service out self net .peek { net with
        party := .busy (resume (.ok (datagram.take size))) }
  | receive {net : Net ι} {buffer : LineBuffer} {fd : Int} {size : Nat} {datagram : Bytes}
      {rest : List Bytes}
      {resume : Except Nat Bytes → Call System.interface Exn Fault LineBuffer Value} :
      net.party = .busy (.asking buffer (.recv fd size false) resume) →
      net.below.queue = datagram :: rest →
      Step service out self net .receive { net with
        below := { net.below with
          queue := rest
          removed := net.below.removed ++ [datagram] }
        party := .busy (resume (.ok (datagram.take size))) }
  | recvFailed {net : Net ι} {buffer : LineBuffer} {fd : Int} {size : Nat} {peek : Bool}
      {resume : Except Nat Bytes → Call System.interface Exn Fault LineBuffer Value}
      (errno : Nat) :
      net.party = .busy (.asking buffer (.recv fd size peek) resume) →
      Step service out self net (.recvFailed errno) { net with
        party := .busy (resume (.error errno)) }
  | returned {net : Net ι} {buffer : LineBuffer} {value : Value} :
      net.party = .busy (.returned buffer value) →
      Step service out self net .returned { net with
        party := .idle buffer
        taken := net.taken ++ [value] }
  | threw {net : Net ι} {buffer : LineBuffer} {e : Exn} :
      net.party = .busy (.threw buffer e) →
      Step service out self net .threw { net with party := .idle buffer }

end Steps

/-- A buffer just made, on the descriptor. -/
def start (fd : FdPtr) : Net ι := ⟨Messages.start, .idle (.ofFd (some fd)), []⟩

/-! ### A call on the buffer -/

/-- The last peek, if nothing has been received since. -/
def peeked (before : Option (Nat × Nat)) (h : List (Event System.interface)) :
    Option (Nat × Nat) :=
  h.foldl (fun last event =>
    match event with
    | ⟨.recv _ size true, .ok buf⟩ => some (size, buf.length)
    | ⟨.recv _ _ false, .ok _⟩ => none
    | _ => last) before

/-- A read that has received nothing has last peeked since then. -/
theorem peeked_of_lastPeek {before : Option (Nat × Nat)} {h : List (Event System.interface)}
    {last : Nat × Nat} (nothing : received h = []) (peeks : lastPeek none h = some last) :
    peeked before h = some last := by
  induction h using List.reverseRecOn with
  | nil => simp [lastPeek] at peeks
  | append_singleton h event ih =>
      obtain ⟨q, a⟩ := event
      simp only [received_append, received_cons, received_nil, List.append_nil,
        List.append_eq_nil_iff] at nothing
      rw [lastPeek_append] at peeks
      rw [peeked, List.foldl_append]
      cases q with
      | recv fd size peek =>
          cases peek with
          | true =>
              cases a with
              | error errno => exact ih nothing.1 peeks
              | ok buf => exact peeks
          | false =>
              cases a with
              | error errno => exact ih nothing.1 peeks
              | ok buf => simp [received?] at nothing
      | _ => exact ih nothing.1 peeks

/-- A point of a call that had `held` in the buffer, and last peeked as in `before`,
when `h` begins. -/
structure Taking (held : Bytes) (before : Option (Nat × Nat))
    (h : List (Event System.interface)) (o : Outcome System.interface Exn Fault Value)
    (buffer : LineBuffer) : Prop where
  inv : buffer.Inv
  conserved : consumed o ++ buffer.mBuffer = held ++ (received h).flatten
  clean : ∀ v, o = .returned v → ∀ line ∈ lineOf v, newline ∉ line
  room : ∀ fd size, o = .asking (.recv fd size false) →
    ∃ filled, peeked before h = some (size, filled) ∧ filled < size

def Holds (held : Bytes) (before : Option (Nat × Nat)) : Party → Prop
  | .idle buffer => buffer.Inv ∧ buffer.mBuffer = held
  | .busy call => call.wp fun h o buffer => Taking held before h o buffer

section Implement

variable {self : MessageFileDescriptor} {σ : Type} {s : σ}

theorem isReadyForReading_received : (self.isReadyForReading s).wp fun h o _ =>
    received h = [] ∧ ∀ fd size, o ≠ .asking (.recv fd size false) := by
  by_cases fits : self.mFd.toNat < System.fdSetSize
  · rw [isReadyForReading, System.isReadyForReading_apply self.nonneg fits]
    refine ⟨⟨rfl, by simp⟩, fun a => ?_⟩
    cases a with
    | ok readFds => exact ⟨rfl, by simp⟩
    | error errno => exact ⟨rfl, by simp⟩
  · rw [isReadyForReading, System.isReadyForReading_outOfBounds (by omega)]
    exact ⟨rfl, by simp⟩

/-- A point of one of the virtual functions: it throws nothing, what a read returns
is what was received, and there is room for what it receives. -/
structure Serving (q : FileDescriptor.Request) (k : List (Event System.interface))
    (o : Outcome System.interface Exn Fault (FileDescriptor.Answer q)) : Prop where
  noThrow : ∀ e, o ≠ .threw e
  answers : ∀ a, o = .returned a → (received k).flatten = FileDescriptor.bytesRead [⟨q, a⟩]
  nothing : (∀ a, o ≠ .returned a) → received k = []
  room : ∀ fd size, o = .asking (.recv fd size false) → ∀ before,
    ∃ filled, peeked before k = some (size, filled) ∧ filled < size

theorem implement_serving (q : FileDescriptor.Request) (bound : Nat) :
    (self.implement bound q).wp fun k o _ => Serving q k o := by
  cases q with
  | isReadyForReading fd =>
      refine Call.wp_caught.mpr (isReadyForReading_received.mono ?_)
      rintro k o s ⟨nothing, others⟩
      cases o with
      | asking q => exact ⟨by simp [Outcome.caught], by simp [Outcome.caught], fun _ => nothing,
          fun fd size same => absurd same (by simpa [Outcome.caught] using others fd size)⟩
      | _ => exact ⟨by simp [Outcome.caught],
          by simp [Outcome.caught, nothing, FileDescriptor.bytesRead], fun _ => nothing,
          by simp [Outcome.caught]⟩
  | read fd =>
      refine Call.wp_caught.mpr ((read_wp bound).mono ?_)
      rintro k o s ⟨returns, nothing, room⟩
      cases o with
      | returned v =>
          have got : received k = [v] := returns v rfl
          refine ⟨by simp [Outcome.caught], ?_, by simp [Outcome.caught], by simp [Outcome.caught]⟩
          rintro a ⟨⟩
          simp [got, FileDescriptor.bytesRead]
      | threw e =>
          have none : received k = [] := nothing (by simp)
          refine ⟨by simp [Outcome.caught], ?_, by simp [Outcome.caught], by simp [Outcome.caught]⟩
          rintro a ⟨⟩
          simp [none, FileDescriptor.bytesRead]
      | asking q =>
          have none : received k = [] := nothing (by simp)
          refine ⟨by simp [Outcome.caught], by simp [Outcome.caught], fun _ => none, ?_⟩
          rintro fd size ⟨⟩ before
          obtain ⟨filled, last, less⟩ := room fd size rfl
          exact ⟨filled, peeked_of_lastPeek none last, less⟩
      | _ => exact ⟨by simp [Outcome.caught], by simp [Outcome.caught],
          fun _ => nothing (by simp), by simp [Outcome.caught]⟩
  | write fd data =>
      apply Call.wp_caught.mpr
      rw [write_apply]
      refine ⟨⟨by simp [Outcome.caught], by simp [Outcome.caught], fun _ => rfl,
        by simp [Outcome.caught]⟩, fun a => ?_⟩
      cases a with
      | ok count => exact ⟨by simp [Outcome.caught],
          by simp [Outcome.caught, received?, FileDescriptor.bytesRead], fun _ => rfl,
          by simp [Outcome.caught]⟩
      | error errno => exact ⟨by simp [Outcome.caught],
          by simp [Outcome.caught, received?, FileDescriptor.bytesRead], fun _ => rfl,
          by simp [Outcome.caught]⟩
  | logw text =>
      refine ⟨⟨by simp, by simp, fun _ => rfl, by simp⟩, fun a => ?_⟩
      exact ⟨by simp, by simp [received?, FileDescriptor.bytesRead], fun _ => rfl, by simp⟩

end Implement

theorem clean_of_returns {op : Op} {buffer : LineBuffer} {v : Value}
    (returns : op.Returns buffer v) : ∀ line ∈ lineOf v, newline ∉ line := by
  cases op <;> cases v <;> simp_all [Op.Returns, lineOf]

/-- A call has the buffer as it was, and has not peeked. -/
theorem holds_call {self : MessageFileDescriptor} {buffer : LineBuffer} (inv : buffer.Inv) (op : Op)
    (bound : Nat) : Holds buffer.mBuffer none
      (.busy ((op.call bound buffer).via (self.implement bound))) := by
  refine Call.wp_via
    (R := fun h h' => (received h).flatten = FileDescriptor.bytesRead h')
    (LineBuffer.call_wp inv op bound) rfl ?_ ?_ ?_ ?_ ?_
  · rintro h h' s v same post
    refine ⟨post.inv, ?_, ?_, by simp⟩
    · rw [same, ← post.conserved]
      rfl
    · rintro v' ⟨⟩
      exact clean_of_returns (post.returns v rfl)
  · rintro h h' s e same post
    exact ⟨post.inv, by rw [same, ← post.conserved]; rfl, by simp, by simp⟩
  · rintro h h' s x same post
    exact ⟨post.inv, by rw [same, ← post.conserved]; rfl, by simp, by simp⟩
  · rintro h h' s same post
    exact ⟨post.inv, by rw [same, ← post.conserved]; rfl, by simp, by simp⟩
  · rintro h h' s q same post
    have kept : s.mBuffer = buffer.mBuffer ++ (received h).flatten := by
      rw [same, ← post.conserved]
      rfl
    apply (implement_serving q bound).mono
    rintro k o _ serving
    cases o with
    | returned a => simp [same, serving.answers a rfl]
    | threw e => exact absurd rfl (serving.noThrow e)
    | asking p =>
        have none : received k = [] := serving.nothing (by simp)
        refine ⟨post.inv, by simp [consumed, kept, none], by simp, ?_⟩
        rintro fd size ⟨⟩
        obtain ⟨filled, last, less⟩ := serving.room fd size rfl (peeked .none h)
        exact ⟨filled, by rw [peeked, List.foldl_append]; exact last, less⟩
    | _ =>
        have none : received k = [] := serving.nothing (by simp)
        exact ⟨post.inv, by simp [consumed, kept, none], by simp, by simp⟩

section Asking

variable {held : Bytes} {before : Option (Nat × Nat)} {buffer : LineBuffer}

/-- An answer that brings nothing, and is none to a peek. -/
theorem Holds.answer {q : System.Request} {a : System.Answer q}
    {resume : System.Answer q → Call System.interface Exn Fault LineBuffer Value}
    (holds : Holds held before (.busy (.asking buffer q resume)))
    (nothing : received? ⟨q, a⟩ = []) (noPeek : peeked before [⟨q, a⟩] = before) :
    Holds held before (.busy (resume a)) := by
  apply (holds.2 a).mono
  rintro h o s ⟨inv, conserved, clean, room⟩
  refine ⟨inv, by simpa [nothing] using conserved, clean, fun fd size asks => ?_⟩
  obtain ⟨filled, last, less⟩ := room fd size asks
  have later : peeked before (⟨q, a⟩ :: h) = peeked (peeked before [⟨q, a⟩]) h := rfl
  exact ⟨filled, by rw [← last, later, noPeek], less⟩

variable {fd : Int} {size : Nat}
  {resume : Except Nat Bytes → Call System.interface Exn Fault LineBuffer Value}

theorem Holds.peek (holds : Holds held before (.busy (.asking buffer (.recv fd size true) resume)))
    (buf : Bytes) : Holds held (some (size, buf.length)) (.busy (resume (.ok buf))) := by
  apply (holds.2 (.ok buf)).mono
  rintro h o s ⟨inv, conserved, clean, room⟩
  exact ⟨inv, by simpa [received?] using conserved, clean, room⟩

theorem Holds.receive
    (holds : Holds held before (.busy (.asking buffer (.recv fd size false) resume)))
    (buf : Bytes) : Holds (held ++ buf) none (.busy (resume (.ok buf))) := by
  apply (holds.2 (.ok buf)).mono
  rintro h o s ⟨inv, conserved, clean, room⟩
  exact ⟨inv, by simpa [received?] using conserved, clean, room⟩

end Asking

/-! ### Every run -/

/-- The program with the buffer, which holds `held` and last peeked as in `before`:
all bytes removed from the socket were taken, or are held. -/
structure Inv (service : Service) (net : Net ι) (held : Bytes) (before : Option (Nat × Nat)) :
    Prop where
  holds : Holds held before net.party
  account : net.taken.flatMap Value.consumed ++ held = net.below.removed.flatten
  oldest : ∀ size filled, before = some (size, filled) →
    ∃ datagram rest, net.below.queue = datagram :: rest ∧ filled = (datagram.take size).length
  clean : ∀ v ∈ net.taken, ∀ line ∈ lineOf v, newline ∉ line
  carried : service.Holds (net.below.removed ++ net.below.queue ++ net.below.way)
    (net.below.sent.map Prod.snd)

variable {service : Service} {out : ι → MessageFileDescriptor} {self : MessageFileDescriptor}
  {net net' : Net ι} {action : Action ι} {actions : List (Action ι)} {held : Bytes}
  {before : Option (Nat × Nat)} {fd : FdPtr}

theorem inv_start : Inv service (start fd : Net ι) [] none where
  holds := ⟨⟨rfl, fun _ => rfl⟩, rfl⟩
  account := rfl
  oldest := by simp
  clean := by simp [start]
  carried := Service.Holds.nil

/-- The program goes on, nothing having been removed. -/
theorem Inv.party (inv : Inv service net held before) {party : Party}
    (holds : Holds held before party) : Inv service { net with party := party } held before :=
  ⟨holds, inv.account, inv.oldest, inv.clean, inv.carried⟩

/-- The writers and the network leave alone what was removed, and what is queued. -/
theorem elsewhere_queue [DecidableEq ι] {below below' : Messages.Net ι}
    {action : Messages.Action ι} (step : Messages.Step service out self below action below')
    (elsewhere : Elsewhere action) : below'.removed = below.removed ∧
      ∃ arrives, below'.queue = below.queue ++ arrives := by
  cases step with
  | @move m way arrives moves allowed => exact ⟨rfl, arrives, rfl⟩
  | receive _ _ => exact elsewhere.elim
  | _ => exact ⟨rfl, [], (List.append_nil _).symm⟩

variable [DecidableEq ι]

theorem Step.inv (step : Step service out self net action net')
    (inv : Inv service net held before) : ∃ held before, Inv service net' held before := by
  have holds := inv.holds
  cases step with
  | @elsewhere action below step elsewhere =>
      obtain ⟨removed, arrives, queue⟩ := elsewhere_queue step elsewhere
      refine ⟨held, before, holds, ?_, ?_, inv.clean, step.carried inv.carried⟩
      · rw [removed, inv.account]
      · intro size filled last
        obtain ⟨datagram, rest, queued, filling⟩ := inv.oldest size filled last
        exact ⟨datagram, rest ++ arrives, by simp [queue, queued], filling⟩
  | @call buffer op bound idle =>
      rw [idle] at holds
      obtain ⟨kept, rfl⟩ := holds
      exact ⟨_, none, holds_call kept op bound, inv.account, by simp, inv.clean, inv.carried⟩
  | poll readFds asks =>
      rw [asks] at holds
      exact ⟨held, before, inv.party (holds.answer rfl rfl)⟩
  | pollFailed errno asks =>
      rw [asks] at holds
      exact ⟨held, before, inv.party (Holds.answer holds rfl rfl)⟩
  | @peek buffer fd size datagram rest resume asks queued =>
      rw [asks] at holds
      refine ⟨held, _, holds.peek (datagram.take size), inv.account, ?_, inv.clean, inv.carried⟩
      rintro size' filled ⟨⟩
      exact ⟨datagram, rest, queued, rfl⟩
  | @receive buffer fd size datagram rest resume asks queued =>
      rw [asks] at holds
      obtain ⟨filled, last, less⟩ := holds.1.room fd size rfl
      obtain ⟨datagram', rest', queued', filling⟩ := inv.oldest size filled last
      obtain ⟨rfl, rfl⟩ := List.cons.inj (queued.symm.trans queued')
      -- the buffer was not filled by the datagram it is to receive
      have fits : datagram.take size = datagram := by
        rw [List.length_take] at filling
        exact List.take_of_length_le (by omega)
      refine ⟨held ++ datagram, none, ?_, ?_, by simp, inv.clean, ?_⟩
      · rw [fits]
        exact holds.receive datagram
      · simp [← inv.account]
      · simpa [queued] using inv.carried
  | @recvFailed buffer fd size peek resume errno asks =>
      rw [asks] at holds
      refine ⟨held, before, inv.party (Holds.answer holds ?_ ?_)⟩
      · cases peek <;> rfl
      · cases peek <;> rfl
  | @returned buffer value finished =>
      rw [finished] at holds
      have conserved : value.consumed ++ buffer.mBuffer = held := by
        simpa [consumed] using holds.conserved
      refine ⟨buffer.mBuffer, none, ⟨holds.inv, rfl⟩, ?_, by simp, ?_, inv.carried⟩
      · simp [← inv.account, ← conserved]
      · exact List.forall_mem_append.mpr ⟨inv.clean, by simpa using holds.clean value rfl⟩
  | @threw buffer e finished =>
      rw [finished] at holds
      have conserved : buffer.mBuffer = held := by simpa [consumed] using holds.conserved
      exact ⟨held, none, ⟨holds.inv, conserved⟩, inv.account, by simp, inv.clean, inv.carried⟩

theorem inv_of_run (run : Run (Step service out self) (start fd) actions net) :
    ∃ held before, Inv service net held before := by
  refine run.invariant (I := fun net => ∃ held before, Inv service net held before) ?_
    ⟨[], none, inv_start⟩
  rintro net action net' ⟨held, before, inv⟩ step
  exact step.inv inv

theorem tally_of_run (run : Run (Step service out self) (start fd) actions net) (i : ι) :
    Tally net.below i := by
  have tallies : ∀ i, Tally net.below i := by
    refine run.invariant (I := fun net => ∀ i, Tally net.below i) ?_ fun _ => tally_start
    intro net action net' tally step
    cases step with
    | elsewhere step elsewhere => exact step.tally tally
    | receive _ _ => exact fun i => (tally i).congr rfl rfl rfl
    | _ => exact tally
  exact tallies i

/-! ### Whole lines -/

/-- The string ends with a newline, unless it is empty. -/
def Whole (data : Bytes) : Prop := ∀ ch, data.getLast? = some ch → ch = newline

theorem Whole.unlines_eq {data : Bytes} (whole : Whole data) :
    unlines newline (linesOf newline data) = data ∧
      ∀ line ∈ linesOf newline data, newline ∉ line := by
  obtain ⟨lines, rest, rfl, clean, unfinished⟩ := exists_unlines newline data
  obtain rfl : rest = [] := by
    rcases List.eq_nil_or_concat rest with none | ⟨front, ch, rfl⟩
    · exact none
    · have last : ch = newline := whole ch (by simp)
      simp [last] at unfinished
  simp only [List.append_nil, linesOf_unlines clean]
  exact ⟨trivial, clean⟩

/-- What datagrams that are whole lines make up. -/
theorem flatten_eq {datagrams : List Bytes} (whole : ∀ datagram ∈ datagrams, Whole datagram) :
    datagrams.flatten = unlines newline (datagrams.flatMap (linesOf newline)) := by
  induction datagrams with
  | nil => rfl
  | cons datagram datagrams ih =>
      obtain ⟨first, others⟩ := List.forall_mem_cons.mp whole
      rw [List.flatten_cons, List.flatMap_cons, unlines_append, first.unlines_eq.1, ih others]

/-- Without characters, what was taken is the lines taken. -/
theorem consumed_eq {taken : List Value} (noChar : ∀ v ∈ taken, ∀ ch, v ≠ .char ch) :
    taken.flatMap Value.consumed = unlines newline (taken.flatMap lineOf) := by
  induction taken with
  | nil => rfl
  | cons v taken ih =>
      obtain ⟨first, others⟩ := List.forall_mem_cons.mp noChar
      rw [List.flatMap_cons, List.flatMap_cons, unlines_append, ih others]
      cases v with
      | char ch => exact absurd rfl (first ch)
      | _ => simp [Value.consumed, lineOf]

/-- What the calls on the buffer take is, byte by byte, what was removed from the
socket. If every datagram sent is whole lines, and no characters are taken, the lines
taken are the lines of the datagrams removed, in order: whatever the network did with
datagrams, no line is torn, and lines of one datagram are next to each other. -/
theorem lines_whole (run : Run (Step service out self) (start fd) actions net) :
    (∀ i, net.below.written i ++ underWay (net.below.writer i) = sentBy i net.below.sent) ∧
    service.Delivers net.below.removed (net.below.sent.map Prod.snd) ∧
    net.taken.flatMap Value.consumed <+: net.below.removed.flatten ∧
    ((∀ datagram ∈ net.below.sent, Whole datagram.2) → (∀ v ∈ net.taken, ∀ ch, v ≠ .char ch) →
      net.taken.flatMap lineOf <+: net.below.removed.flatMap (linesOf newline) ∧
      ∀ buffer, net.party = .idle buffer → buffer.mLinesReady = 0 →
        net.taken.flatMap lineOf = net.below.removed.flatMap (linesOf newline)) := by
  obtain ⟨held, before, inv⟩ := inv_of_run run
  have carried := inv.carried
  rw [List.append_assoc] at carried
  have delivers := carried.delivers
  refine ⟨fun i => (tally_of_run run i).sent, delivers, ⟨held, inv.account⟩, ?_⟩
  intro whole noChar
  have removedWhole : ∀ datagram ∈ net.below.removed, Whole datagram := by
    intro datagram mem
    obtain ⟨⟨i, data⟩, inSent, rfl⟩ := List.mem_map.mp (delivers.subset mem)
    exact whole _ inSent
  have clean : ∀ line ∈ net.taken.flatMap lineOf, newline ∉ line := by
    simpa using fun line v mem isLine => inv.clean v mem line isLine
  have clean' : ∀ line ∈ net.below.removed.flatMap (linesOf newline), newline ∉ line := by
    simpa using fun line datagram mem isLine =>
      (removedWhole datagram mem).unlines_eq.2 line isLine
  have same : unlines newline (net.taken.flatMap lineOf) ++ held =
      unlines newline (net.below.removed.flatMap (linesOf newline)) := by
    rw [← consumed_eq noChar, inv.account, flatten_eq removedWhole]
  have first := prefix_of_unlines clean clean' same
  refine ⟨first, fun buffer idle noLine => ?_⟩
  obtain ⟨rest, all⟩ := first
  have holds := inv.holds
  rw [idle] at holds
  obtain ⟨kept, rfl⟩ := holds
  have left : buffer.mBuffer = unlines newline rest := by
    rw [← all, unlines_append] at same
    exact List.append_cancel_left same
  have noNewline : newline ∉ buffer.mBuffer := kept.linesReady_eq_zero.mp noLine
  cases rest with
  | nil => simpa using all
  | cons line rest => simp [left] at noNewline

/-- The datagram `"a\n"` is lost, and the lines of `"b\nc\n"` are read. -/
theorem exists_run_lost : ∃ net,
    Run (Step .ordered (fun second => cond second ⟨4, by decide⟩ ⟨3, by decide⟩) ⟨5, by decide⟩)
    (start 0)
    [.elsewhere (.write false [97, 10]), .elsewhere (.send false 2), .elsewhere (.written false),
      .elsewhere (.write true [98, 10, 99, 10]), .elsewhere (.send true 4),
      .elsewhere (.written true), .elsewhere (.move .lose), .elsewhere (.move .carry),
      .call .getLine 2, .peek, .receive, .returned, .call .getLine 1, .returned] net ∧
    net.below.sent = [(false, [97, 10]), (true, [98, 10, 99, 10])] ∧
    net.below.removed = [[98, 10, 99, 10]] ∧ net.taken = [.line [98], .line [99]] :=
  ⟨_, .cons (.elsewhere (.write false [97, 10] rfl) trivial)
    (.cons (.elsewhere (.send 2 rfl) trivial) (.cons (.elsewhere (.written rfl) trivial)
    (.cons (.elsewhere (.write true [98, 10, 99, 10] rfl) trivial)
    (.cons (.elsewhere (.send 4 rfl) trivial) (.cons (.elsewhere (.written rfl) trivial)
    (.cons (.elsewhere (.move (.lose [] [97, 10] [[98, 10, 99, 10]]) rfl) trivial)
    (.cons (.elsewhere (.move (.carry [98, 10, 99, 10] []) rfl) trivial)
    (.cons (.call .getLine 2 rfl) (.cons (.peek rfl rfl) (.cons (.receive rfl rfl)
    (.cons (.returned rfl) (.cons (.call .getLine 1 rfl) (.single (.returned rfl)))))))))))))),
    rfl, rfl, rfl⟩

theorem lines_whole_lost : ∃ net : Net Bool, net.taken.flatMap lineOf = [[98], [99]] ∧
    net.below.written false ++ underWay (net.below.writer false) = [[97, 10]] ∧
    Service.ordered.Delivers net.below.removed (net.below.sent.map Prod.snd) ∧
    net.taken.flatMap lineOf <+: net.below.removed.flatMap (linesOf newline) := by
  obtain ⟨net, run, sent, removed, taken⟩ := exists_run_lost
  obtain ⟨written, delivers, -, whole⟩ := lines_whole run
  refine ⟨net, by simp [taken, lineOf], ?_, delivers, (whole ?_ ?_).1⟩
  · rw [written false, sent]
    rfl
  · simp [sent, Whole, newline]
  · simp [taken]

end MarathonKit.Core.Messages.Lines
