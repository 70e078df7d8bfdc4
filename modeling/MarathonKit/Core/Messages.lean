import MarathonKit.Core.SharedSocket
import MarathonKit.Transit.Network

/-!
Strings from many writers to one reader, over sockets of datagrams.

The descriptors of the writers are on sockets connected to the reader's. Between
them is a network (`Transit.Service`), which on one machine carries every datagram
and elsewhere may lose, reorder or double them. Any system call may fail. Under
all interleavings a string arrives whole or not at all: `messages` says that the
strings read are the datagrams removed from the socket, that these are to the ones
sent as the network promises, and that the ones sent are the strings whose `write`
has returned — an exception means that nothing was sent.
-/

namespace MarathonKit.Core.Messages

open Dialogue MessageFileDescriptor SharedSocket
open Transit (Move Service)

inductive Writer where
  | idle
  | busy (data : Bytes) (call : Call System.interface Exn Fault Unit Unit)

structure Net (ι : Type) where
  writer : ι → Writer
  /-- the datagrams sent and by whom, in order -/
  sent : List (ι × Bytes)
  /-- the strings whose `write` has returned, of each writer in order -/
  written : ι → List Bytes
  /-- the datagrams on their way -/
  way : List Bytes
  /-- the datagrams in the reader's socket, the oldest first -/
  queue : List Bytes
  reader : Reader
  /-- the datagrams removed from the socket, in order -/
  removed : List Bytes
  /-- the strings returned by `read`, in order -/
  results : List Bytes

inductive Action (ι : Type) where
  | write (i : ι) (data : Bytes)
  | send (i : ι) (count : Nat)
  | sendFailed (i : ι) (errno : Nat)
  | written (i : ι)
  | writeThrew (i : ι)
  | move (m : Move)
  | read (bound : Nat)
  | peek
  | receive
  | recvFailed (errno : Nat)
  | returned
  | readThrew

variable {ι : Type}

section Steps

variable [DecidableEq ι]

def Net.setWriter (net : Net ι) (i : ι) (writer : Writer) : Net ι :=
  { net with writer := Function.update net.writer i writer }

/-- One step: of a writer (the first five), of the network, or of the reader. -/
inductive Step (service : Service) (out : ι → MessageFileDescriptor)
    (self : MessageFileDescriptor) : Net ι → Action ι → Net ι → Prop where
  | write {net : Net ι} (i : ι) (data : Bytes) :
      net.writer i = .idle →
      Step service out self net (.write i data)
        (net.setWriter i (.busy data ((out i).write data ())))
  | send {net : Net ι} {i : ι} {data buf : Bytes} {fd : Int}
      {resume : Except Nat Nat → Call System.interface Exn Fault Unit Unit} (count : Nat) :
      net.writer i = .busy data (.asking () (.send fd buf) resume) →
      Step service out self net (.send i count)
        { net.setWriter i (.busy data (resume (.ok count))) with
          sent := net.sent ++ [(i, buf)]
          way := net.way ++ [buf] }
  | sendFailed {net : Net ι} {i : ι} {data buf : Bytes} {fd : Int}
      {resume : Except Nat Nat → Call System.interface Exn Fault Unit Unit} (errno : Nat) :
      net.writer i = .busy data (.asking () (.send fd buf) resume) →
      Step service out self net (.sendFailed i errno)
        (net.setWriter i (.busy data (resume (.error errno))))
  | written {net : Net ι} {i : ι} {data : Bytes} :
      net.writer i = .busy data (.returned () ()) →
      Step service out self net (.written i) { net.setWriter i .idle with
        written := Function.update net.written i (net.written i ++ [data]) }
  | writeThrew {net : Net ι} {i : ι} {data : Bytes} {e : Exn} :
      net.writer i = .busy data (.threw () e) →
      Step service out self net (.writeThrew i) (net.setWriter i .idle)
  | move {net : Net ι} {m : Move} {way arrives : List Bytes} :
      Transit.Step m net.way way arrives → service.allows m →
      Step service out self net (.move m) { net with
        way := way
        queue := net.queue ++ arrives }
  | read {net : Net ι} (bound : Nat) :
      net.reader = .idle →
      Step service out self net (.read bound) { net with
        reader := .busy (self.read bound ()) }
  | peek {net : Net ι} {fd : Int} {size : Nat} {datagram : Bytes} {rest : List Bytes}
      {resume : Except Nat Bytes → Call System.interface Exn Fault Unit Bytes} :
      net.reader = .busy (.asking () (.recv fd size true) resume) →
      net.queue = datagram :: rest →
      Step service out self net .peek { net with
        reader := .busy (resume (.ok (datagram.take size))) }
  | receive {net : Net ι} {fd : Int} {size : Nat} {datagram : Bytes} {rest : List Bytes}
      {resume : Except Nat Bytes → Call System.interface Exn Fault Unit Bytes} :
      net.reader = .busy (.asking () (.recv fd size false) resume) →
      net.queue = datagram :: rest →
      Step service out self net .receive { net with
        queue := rest
        reader := .busy (resume (.ok (datagram.take size)))
        removed := net.removed ++ [datagram] }
  | recvFailed {net : Net ι} {fd : Int} {size : Nat} {peek : Bool}
      {resume : Except Nat Bytes → Call System.interface Exn Fault Unit Bytes} (errno : Nat) :
      net.reader = .busy (.asking () (.recv fd size peek) resume) →
      Step service out self net (.recvFailed errno) { net with
        reader := .busy (resume (.error errno)) }
  | returned {net : Net ι} {value : Bytes} :
      net.reader = .busy (.returned () value) →
      Step service out self net .returned { net with
        reader := .idle
        results := net.results ++ [value] }
  | readThrew {net : Net ι} {e : Exn} :
      net.reader = .busy (.threw () e) →
      Step service out self net .readThrew { net with reader := .idle }

end Steps

def start : Net ι := ⟨fun _ => .idle, [], fun _ => [], [], [], .idle, [], []⟩

/-! ### Writers -/

/-- The string a writer has sent and is about to return from. -/
def underWay : Writer → List Bytes
  | .busy data (.returned _ _) => [data]
  | _ => []

/-- The datagrams sent by one writer. -/
def sentBy [DecidableEq ι] (i : ι) (sent : List (ι × Bytes)) : List Bytes :=
  (sent.filter fun datagram => datagram.1 = i).map Prod.snd

/-- The state of one writer, which has sent `gone` in the write under way. -/
def Writes (gone : List Bytes) : Writer → Prop
  | .idle => gone = []
  | .busy data call => call.wp fun h o _ => Writing data gone h o

theorem Writes.underWay {gone : List Bytes} {writer : Writer} (writes : Writes gone writer) :
    underWay writer = gone := by
  cases writer with
  | idle => exact writes.symm
  | busy data call =>
      cases call with
      | returned _ value => simpa [Messages.underWay] using (writes.returns value rfl).symm
      | asking _ q resume => simpa [Messages.underWay] using (writes.1.nothing (by simp)).symm
      | threw _ e => simpa [Messages.underWay] using (writes.nothing (by simp)).symm
      | faulted _ x => simpa [Messages.underWay] using (writes.nothing (by simp)).symm
      | running _ => simpa [Messages.underWay] using (writes.nothing (by simp)).symm

section Asking

variable {gone : List Bytes} {data buf : Bytes} {fd : Int}
  {resume : Except Nat Nat → Call System.interface Exn Fault Unit Unit}

theorem Writes.send (writes : Writes gone (.busy data (.asking () (.send fd buf) resume)))
    (count : Nat) : Writes (gone ++ [buf]) (.busy data (resume (.ok count))) := by
  apply (writes.2 (.ok count)).mono
  rintro h o s point
  exact ⟨by simpa [sent?] using point.returns, by simpa [sent?] using point.nothing⟩

theorem Writes.failed (writes : Writes gone (.busy data (.asking () (.send fd buf) resume)))
    (errno : Nat) : Writes gone (.busy data (resume (.error errno))) := by
  apply (writes.2 (.error errno)).mono
  rintro h o s point
  exact ⟨by simpa [sent?] using point.returns, by simpa [sent?] using point.nothing⟩

end Asking

/-- The tally of one writer. -/
structure Tally [DecidableEq ι] (net : Net ι) (i : ι) : Prop where
  writes : Writes (underWay (net.writer i)) (net.writer i)
  sent : net.written i ++ underWay (net.writer i) = sentBy i net.sent

variable {service : Service} {out : ι → MessageFileDescriptor} {self : MessageFileDescriptor}
  {net net' : Net ι} {action : Action ι} {actions : List (Action ι)} {i j : ι}

section Tally

variable [DecidableEq ι]

theorem tally_start : Tally (start : Net ι) i := ⟨rfl, rfl⟩

theorem sentBy_snoc {sent : List (ι × Bytes)} {data : Bytes} :
    sentBy i (sent ++ [(j, data)]) = sentBy i sent ++ if j = i then [data] else [] := by
  by_cases same : j = i
  · simp [sentBy, same]
  · simp [sentBy, same]

/-- What another writer, the network or the reader does leaves it as it is. -/
theorem Tally.congr (tally : Tally net i) (writer : net'.writer i = net.writer i)
    (written : net'.written i = net.written i) (sent : sentBy i net'.sent = sentBy i net.sent) :
    Tally net' i where
  writes := writer ▸ tally.writes
  sent := by rw [writer, written, sent, tally.sent]

/-- The writer neither sends nor returns. -/
theorem Tally.setWriter (tally : Tally net i) {writer : Writer}
    (writes : Writes (underWay (net.writer i)) writer) : Tally (net.setWriter i writer) i where
  writes := by simpa [Net.setWriter, writes.underWay] using writes
  sent := by simpa [Net.setWriter, writes.underWay] using tally.sent

theorem Tally.send (tally : Tally net i) {data buf : Bytes} {fd : Int} {way : List Bytes}
    {resume : Except Nat Nat → Call System.interface Exn Fault Unit Unit}
    (asks : net.writer i = .busy data (.asking () (.send fd buf) resume)) (count : Nat) :
    Tally { net.setWriter i (.busy data (resume (.ok count))) with
      sent := net.sent ++ [(i, buf)]
      way := way } i := by
  have writes := tally.writes
  rw [asks] at writes
  have gone := writes.send count
  refine ⟨?_, ?_⟩
  · simpa [Net.setWriter, gone.underWay] using gone
  · simp [Net.setWriter, gone.underWay, sentBy_snoc, ← tally.sent, asks]

/-- A write that returns has sent its string. -/
theorem Tally.written (tally : Tally net i) {data : Bytes}
    (finished : net.writer i = .busy data (.returned () ())) :
    Tally { net.setWriter i .idle with
      written := Function.update net.written i (net.written i ++ [data]) } i where
  writes := by simp [Net.setWriter, underWay, Writes]
  sent := by simpa [Net.setWriter, finished, underWay] using tally.sent

theorem Step.tally (step : Step service out self net action net') (tally : ∀ i, Tally net i) :
    ∀ i, Tally net' i := by
  intro j
  cases step with
  | write i data idle =>
      by_cases same : j = i
      · subst same
        exact (tally j).setWriter (by rw [idle]; exact write_wp data)
      · exact (tally j).congr (by simp [Net.setWriter, same]) rfl rfl
  | @send i data buf fd resume count asks =>
      by_cases same : j = i
      · subst same
        exact (tally j).send asks count
      · exact (tally j).congr (by simp [Net.setWriter, same]) rfl
          (by simp [sentBy_snoc, Ne.symm same])
  | @sendFailed i data buf fd resume errno asks =>
      by_cases same : j = i
      · subst same
        have writes := (tally j).writes
        rw [asks] at writes
        exact (tally j).setWriter (by rw [asks]; exact writes.failed errno)
      · exact (tally j).congr (by simp [Net.setWriter, same]) rfl rfl
  | @written i data finished =>
      by_cases same : j = i
      · subst same
        exact (tally j).written finished
      · exact (tally j).congr (by simp [Net.setWriter, same]) (by simp [same]) rfl
  | @writeThrew i data e threw =>
      by_cases same : j = i
      · subst same
        exact (tally j).setWriter (by rw [threw]; rfl)
      · exact (tally j).congr (by simp [Net.setWriter, same]) rfl rfl
  | _ => exact (tally j).congr rfl rfl rfl

end Tally

/-! ### The reader -/

/-- The reader has received `got` in the read under way, and its last peek filled
the buffer as `before` says. As nobody else removes datagrams, the one it peeked at
is still the oldest. -/
structure Intake (service : Service) (net : Net ι) (got : List Bytes)
    (before : Option (Nat × Nat)) : Prop where
  reads : Reads got before net.reader
  whole : net.results ++ got = net.removed
  oldest : got = [] → ∀ size filled, before = some (size, filled) →
    ∃ datagram rest, net.queue = datagram :: rest ∧ filled = (datagram.take size).length
  carried : service.Holds (net.removed ++ net.queue ++ net.way) (net.sent.map Prod.snd)

variable {got : List Bytes} {before : Option (Nat × Nat)}

theorem intake_start : Intake service (start : Net ι) [] none where
  reads := rfl
  whole := rfl
  oldest := by simp
  carried := Service.Holds.nil

/-- What is done elsewhere, nothing being sent, leaves it as it is. -/
theorem Intake.congr (intake : Intake service net got before) (reader : net'.reader = net.reader)
    (results : net'.results = net.results) (removed : net'.removed = net.removed)
    (queue : net'.queue = net.queue) (way : net'.way = net.way) (sent : net'.sent = net.sent) :
    Intake service net' got before where
  reads := reader ▸ intake.reads
  whole := by rw [results, removed, intake.whole]
  oldest := queue ▸ intake.oldest
  carried := by rw [removed, queue, way, sent]; exact intake.carried

/-- The reader neither receives nor returns. -/
theorem Intake.setReader (intake : Intake service net got before) {reader : Reader}
    (reads : Reads got before reader) : Intake service { net with reader := reader } got before :=
  ⟨reads, intake.whole, intake.oldest, intake.carried⟩

section Asking

variable {fd : Int} {size : Nat} {datagram : Bytes} {rest : List Bytes}
  {resume : Except Nat Bytes → Call System.interface Exn Fault Unit Bytes}

theorem Intake.peek (intake : Intake service net got before)
    (asks : net.reader = .busy (.asking () (.recv fd size true) resume))
    (queued : net.queue = datagram :: rest) :
    Intake service { net with reader := .busy (resume (.ok (datagram.take size))) } got
      (some (size, (datagram.take size).length)) where
  reads := by
    have reads := intake.reads
    rw [asks] at reads
    exact reads.peek (datagram.take size)
  whole := intake.whole
  oldest := by
    rintro - size' filled ⟨⟩
    exact ⟨datagram, rest, queued, rfl⟩
  carried := intake.carried

/-- A receive brings the whole datagram, as the buffer is the one of the last
peek. -/
theorem Intake.receive (intake : Intake service net got before)
    (asks : net.reader = .busy (.asking () (.recv fd size false) resume))
    (queued : net.queue = datagram :: rest) :
    Intake service { net with
      queue := rest
      reader := .busy (resume (.ok (datagram.take size)))
      removed := net.removed ++ [datagram] } [datagram] before := by
  have reads := intake.reads
  rw [asks] at reads
  obtain ⟨rfl, filled, last, notFull⟩ := reads.room
  have fits : datagram.take size = datagram := by
    obtain ⟨datagram', rest', queued', filling⟩ := intake.oldest rfl size filled last
    obtain ⟨rfl, rfl⟩ := List.cons.inj (queued.symm.trans queued')
    rw [List.length_take] at filling
    exact List.take_of_length_le (by omega)
  refine ⟨?_, ?_, by simp, ?_⟩
  · have received := reads.receive (datagram.take size)
    rw [fits] at received ⊢
    exact received
  · simpa using intake.whole
  · simpa [queued] using intake.carried

end Asking

variable [DecidableEq ι]

/-- Every step keeps what the network promises. -/
theorem Step.carried (step : Step service out self net action net')
    (carried : service.Holds (net.removed ++ net.queue ++ net.way) (net.sent.map Prod.snd)) :
    service.Holds (net'.removed ++ net'.queue ++ net'.way) (net'.sent.map Prod.snd) := by
  cases step with
  | @send i data buf fd resume count asks => simpa [Net.setWriter] using carried.send buf
  | @move m way arrives moves allowed =>
      have moved := moves.keeps allowed carried
      rwa [List.append_assoc net.removed] at moved
  | receive asks queued => simpa [queued] using carried
  | _ => exact carried

theorem Step.intake (step : Step service out self net action net')
    (intake : Intake service net got before) : ∃ got before, Intake service net' got before := by
  have carried := step.carried intake.carried
  cases step with
  | send count asks =>
      exact ⟨got, before, intake.reads, intake.whole, intake.oldest, carried⟩
  | @move m way arrives moves allowed =>
      refine ⟨got, before, intake.reads, intake.whole, ?_, carried⟩
      intro none size filled last
      obtain ⟨datagram, rest, queued, filling⟩ := intake.oldest none size filled last
      exact ⟨datagram, rest ++ arrives, by simp [queued], filling⟩
  | read bound idle =>
      have reads := intake.reads
      rw [idle] at reads
      obtain rfl : got = [] := reads
      exact ⟨[], none, read_wp bound, intake.whole, by simp, intake.carried⟩
  | peek asks queued => exact ⟨got, _, intake.peek asks queued⟩
  | receive asks queued => exact ⟨_, before, intake.receive asks queued⟩
  | recvFailed errno asks =>
      have reads := intake.reads
      rw [asks] at reads
      exact ⟨got, before, intake.setReader (reads.failed errno)⟩
  | @returned value finished =>
      have reads := intake.reads
      rw [finished] at reads
      obtain rfl : got = [value] := by simpa using reads.returns value rfl
      exact ⟨[], none, rfl, by simpa using intake.whole, by simp, intake.carried⟩
  | @readThrew e threw =>
      have reads := intake.reads
      rw [threw] at reads
      obtain rfl : got = [] := by simpa using reads.nothing (by simp)
      exact ⟨[], none, rfl, intake.whole, by simp, intake.carried⟩
  | _ => exact ⟨got, before, intake.congr rfl rfl rfl rfl rfl rfl⟩

/-! ### Every run -/

/-- Under all interleavings of the writers, the network and the reader, and
wherever calls fail: what was sent are the strings whose `write` returned, of each
writer in order (up to one that is about to return); the strings read, up to one
that is about to be returned, are the datagrams removed from the socket, whole and
once each; and these are to those sent as the network promises. -/
theorem messages (run : Run (Step service out self) start actions net) :
    (∀ i, net.written i ++ underWay (net.writer i) = sentBy i net.sent) ∧
    net.results ++ inHand net.reader = net.removed ∧
    service.Delivers net.removed (net.sent.map Prod.snd) := by
  have inv : (∀ i, Tally net i) ∧ ∃ got before, Intake service net got before := by
    refine run.invariant
      (I := fun net => (∀ i, Tally net i) ∧ ∃ got before, Intake service net got before) ?_
      ⟨fun _ => tally_start, [], none, intake_start⟩
    rintro net action net' ⟨tally, got, before, intake⟩ step
    exact ⟨step.tally tally, step.intake intake⟩
  obtain ⟨tally, got, before, intake⟩ := inv
  refine ⟨fun i => (tally i).sent, ?_, ?_⟩
  · rw [intake.reads.inHand, intake.whole]
  · have carried := intake.carried
    rw [List.append_assoc] at carried
    exact carried.delivers

/-- The second string overtakes the first, and is read. -/
theorem exists_run_overtaken : ∃ net,
    Run (Step .once (fun second => cond second ⟨4, by decide⟩ ⟨3, by decide⟩) ⟨5, by decide⟩) start
    [.write false [1], .send false 1, .written false, .write true [2], .send true 1,
      .move .overtake, .read 2, .peek, .receive, .returned] net ∧
    net.sent = [(false, [1]), (true, [2])] ∧ net.removed = [[2]] ∧ net.results = [[2]] :=
  ⟨_, .cons (.write false [1] rfl) (.cons (.send 1 rfl) (.cons (.written rfl)
    (.cons (.write true [2] rfl) (.cons (.send 1 rfl)
    (.cons (.move (.overtake [[1]] [2] []) rfl) (.cons (.read 2 rfl)
    (.cons (.peek rfl rfl) (.cons (.receive rfl rfl) (.single (.returned rfl)))))))))),
    rfl, rfl, rfl⟩

theorem messages_overtaken : ∃ net : Net Bool, net.results = [[2]] ∧
    net.written false ++ underWay (net.writer false) = [[1]] ∧
    net.results ++ inHand net.reader = [[2]] ∧
    Service.once.Delivers net.removed (net.sent.map Prod.snd) := by
  obtain ⟨net, run, sent, removed, results⟩ := exists_run_overtaken
  obtain ⟨written, read, delivered⟩ := messages run
  refine ⟨net, results, ?_, read.trans removed, delivered⟩
  rw [written false, sent]
  rfl

end MarathonKit.Core.Messages
