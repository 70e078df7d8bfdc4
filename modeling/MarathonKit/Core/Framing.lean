import MarathonKit.Core.StreamFileDescriptor
import MarathonKit.Core.TcpClient
import MarathonKit.Dialogue.Run
import MarathonKit.Text.Lines

/-!
Lines from one client to another.

One client sends lines; every `write` is accepted in part. A transport carries
the bytes, in order, at its own pace. Another client polls and reads; every
`read` brings a part of what has arrived. The three take their steps in any
order, and a step of a client is one system call, so that a call of either may
be anywhere in its middle when the others act. `lines_isPrefix`: the lines
received are the first of those sent.

The invariant is an account of all bytes: those of the lines passed to `sendLine`
are those of the lines returned, then those the receiver holds, those that have
arrived, those on their way, and those the sender has not written yet.
-/

namespace MarathonKit.Core.Framing

open Dialogue Text LineBuffer

/-- A client between two calls, or in one. -/
inductive Party (α : Type) where
  | idle (client : TcpClient)
  | busy (call : Call System.interface Exn Fault TcpClient α)

structure Net where
  /-- the strings passed to `sendLine`, in order -/
  passed : List Bytes
  sender : Party Unit
  outgoing : Bytes
  incoming : Bytes
  receiver : Party Value
  /-- the lines `getLine` has returned, in order -/
  lines : List Bytes

inductive Action where
  | sendLine (line : Bytes) (bound : Nat)
  | write (count : Nat)
  | sent
  | transport (count : Nat)
  | receive (op : Op) (bound : Nat)
  | poll (readFds : System.FdSet)
  | read (count : Nat)
  | received

/-- The lines a returned value adds. -/
def lineOf : Value → List Bytes
  | .line chars => [chars]
  | _ => []

variable {near far : StreamFileDescriptor}

/-- One step: of the sender (the first three), of the transport, or of the
receiver. No system call fails; a `write` takes, and a `read` brings, at least
one byte. -/
inductive Step (near far : StreamFileDescriptor) : Net → Action → Net → Prop where
  | sendLine {net : Net} {client : TcpClient} (line : Bytes) (bound : Nat) :
      net.sender = .idle client →
      Step near far net (.sendLine line bound) { net with
        passed := net.passed ++ [line]
        sender := .busy ((TcpClient.sendLine line client).via (near.implement bound)) }
  | write {net : Net} {client : TcpClient} {fd : Int} {buf : Bytes}
      {resume : Except Nat Nat → Call System.interface Exn Fault TcpClient Unit} (count : Nat) :
      net.sender = .busy (.asking client (.write fd buf) resume) →
      1 ≤ count → count ≤ buf.length →
      Step near far net (.write count) { net with
        sender := .busy (resume (.ok count))
        outgoing := net.outgoing ++ buf.take count }
  | sent {net : Net} {client : TcpClient} :
      net.sender = .busy (.returned client ()) →
      Step near far net .sent { net with sender := .idle client }
  | transport {net : Net} (count : Nat) :
      Step near far net (.transport count) { net with
        outgoing := net.outgoing.drop count
        incoming := net.incoming ++ net.outgoing.take count }
  | receive {net : Net} {client : TcpClient} (op : Op) (bound : Nat) :
      net.receiver = .idle client → op ≠ .getChar →
      Step near far net (.receive op bound) { net with
        receiver := .busy ((TcpClient.receive op bound client).via (far.implement bound)) }
  | poll {net : Net} {client : TcpClient} {nfds : Int} {set : System.FdSet}
      {resume : Except Nat System.FdSet → Call System.interface Exn Fault TcpClient Value}
      (readFds : System.FdSet) :
      net.receiver = .busy (.asking client (.select nfds set) resume) →
      Step near far net (.poll readFds) { net with receiver := .busy (resume (.ok readFds)) }
  | read {net : Net} {client : TcpClient} {fd : Int} {size : Nat}
      {resume : Except Nat Bytes → Call System.interface Exn Fault TcpClient Value} (count : Nat) :
      net.receiver = .busy (.asking client (.read fd size) resume) →
      1 ≤ count → count ≤ size → count ≤ net.incoming.length →
      Step near far net (.read count) { net with
        incoming := net.incoming.drop count
        receiver := .busy (resume (.ok (net.incoming.take count))) }
  | received {net : Net} {client : TcpClient} {value : Value} :
      net.receiver = .busy (.returned client value) →
      Step near far net .received { net with
        receiver := .idle client
        lines := net.lines ++ lineOf value }

/-- Two clients just connected. -/
def start (fd fd' : FdPtr) : Net where
  passed := []
  sender := .idle (.ofConnection fd)
  outgoing := []
  incoming := []
  receiver := .idle (.ofConnection fd')
  lines := []

/-! ### What each party has to do -/

/-- The sender is to write `unsent`, and nothing else. -/
def Sends (unsent : Bytes) : Party Unit → Prop
  | .idle client => unsent = [] ∧ ∃ fd, client.Connected fd
  | .busy call => call.wp fun h o client => (∃ fd, client.Connected fd) ∧
      ∃ left, System.bytesWritten h ++ left = unsent ∧
        (∀ fd buf, o = .asking (.write fd buf) → buf = left) ∧ (∀ v, o = .returned v → left = [])

/-- The receiver holds `held`, in front of what it has still to read; it returns
counts and lines. -/
def Holds (held : Bytes) : Party Value → Prop
  | .idle client => client.mLineBuffer.Inv ∧ client.mLineBuffer.mBuffer = held
  | .busy call => call.wp fun h o client => client.mLineBuffer.Inv ∧
      consumed o ++ client.mLineBuffer.mBuffer = held ++ System.bytesRead h ∧
      ∀ v, o = .returned v → v.consumed = unlines newline (lineOf v) ∧
        ∀ line ∈ lineOf v, newline ∉ line

theorem sends_sendLine {client : TcpClient} {fd : FdPtr} (connected : client.Connected fd)
    (line : Bytes) (bound : Nat) :
    Sends (line ++ [newline])
      (.busy ((TcpClient.sendLine line client).via (near.implement bound))) := by
  rw [TcpClient.sendLine, TcpClient.sendRaw_apply connected]
  refine Call.wp_andThen.mpr (Call.wp_within.mpr (Call.wp_caught.mpr
    ((StreamFileDescriptor.write_wp (line ++ [newline]) bound).mono ?_)))
  rintro h o _ ⟨left, written⟩
  have moved := written.written
  cases o with
  | returned v =>
      obtain rfl := written.all v rfl
      exact ⟨⟨fd, connected⟩, [], by simpa using moved, by simp, by simp⟩
  | asking q =>
      obtain ⟨rfl, -⟩ := written.offers q rfl
      exact ⟨⟨fd, connected⟩, left, moved, by simp, by simp⟩
  | threw e => exact ⟨⟨fd, connected⟩, left, by simpa using moved, by simp, by simp⟩
  | _ => exact ⟨⟨fd, connected⟩, left, moved, by simp, by simp⟩

theorem consumed_below {o : Outcome System.interface Exn Fault Value}
    {o' : Outcome FileDescriptor.interface Exn Fault Value}
    (below : StreamFileDescriptor.Below o o') : consumed o = consumed o' := by
  cases o with
  | returned v =>
      obtain rfl : o' = .returned v := below
      rfl
  | threw e =>
      obtain rfl : o' = .threw e := below
      rfl
  | _ =>
      cases o' with
      | returned v => exact absurd rfl (below v)
      | _ => rfl

theorem holds_receive {client : TcpClient} {op : Op} (inv : client.mLineBuffer.Inv)
    (noChar : op ≠ .getChar) (bound : Nat) :
    Holds client.mLineBuffer.mBuffer
      (.busy ((TcpClient.receive op bound client).via (far.implement bound))) := by
  apply (StreamFileDescriptor.via_wp (TcpClient.receive_wp inv op bound)).mono
  rintro h o s ⟨h', o', same, ⟨-, post⟩, below⟩
  refine ⟨post.inv, ?_, ?_⟩
  · rw [consumed_below below, post.conserved, same]
  · rintro v rfl
    have returns := post.returns v below
    cases op <;> cases v <;> simp_all [Op.Returns, Value.consumed, lineOf]

section Asking

variable {client : TcpClient} {fd nfds : Int} {buf : Bytes} {set : System.FdSet} {size : Nat}

/-- The sender offers all it has still to write; what is accepted it need not
write again. -/
theorem Sends.write {unsent : Bytes}
    {resume : Except Nat Nat → Call System.interface Exn Fault TcpClient Unit}
    (sends : Sends unsent (.busy (.asking client (.write fd buf) resume))) (count : Nat) :
    unsent = buf.take count ++ buf.drop count ∧
      Sends (buf.drop count) (.busy (resume (.ok count))) := by
  obtain ⟨⟨-, left, whole, offers, -⟩, rest⟩ := sends
  obtain rfl : buf = left := offers fd buf rfl
  obtain rfl : buf = unsent := whole
  refine ⟨(List.take_append_drop count buf).symm, (rest (.ok count)).mono ?_⟩
  rintro h o s ⟨connected, left, moved, offers, all⟩
  refine ⟨connected, left, ?_, offers, all⟩
  rw [System.bytesWritten_cons, List.append_assoc] at moved
  apply (List.append_right_inj (buf.take count)).mp
  rw [List.take_append_drop]
  exact moved

/-- What is read is held from then on. -/
theorem Holds.read {held : Bytes}
    {resume : Except Nat Bytes → Call System.interface Exn Fault TcpClient Value}
    (holds : Holds held (.busy (.asking client (.read fd size) resume))) (chunk : Bytes) :
    Holds (held ++ chunk) (.busy (resume (.ok chunk))) := by
  apply (holds.2 (.ok chunk)).mono
  rintro h o s ⟨inv, conserved, returns⟩
  exact ⟨inv, by simpa [System.read?] using conserved, returns⟩

theorem Holds.poll {held : Bytes}
    {resume : Except Nat System.FdSet → Call System.interface Exn Fault TcpClient Value}
    (holds : Holds held (.busy (.asking client (.select nfds set) resume)))
    (readFds : System.FdSet) : Holds held (.busy (resume (.ok readFds))) := by
  apply (holds.2 (.ok readFds)).mono
  rintro h o s ⟨inv, conserved, returns⟩
  exact ⟨inv, by simpa [System.read?] using conserved, returns⟩

end Asking

/-! ### The account of all bytes -/

/-- Where the bytes of the lines passed to `sendLine` are. -/
structure Inv (net : Net) (held unsent : Bytes) : Prop where
  sends : Sends unsent net.sender
  holds : Holds held net.receiver
  account : unlines newline net.passed =
    unlines newline net.lines ++ held ++ net.incoming ++ net.outgoing ++ unsent
  clean : ∀ line ∈ net.lines, newline ∉ line

theorem inv_start (fd fd' : FdPtr) : Inv (start fd fd') [] [] where
  sends := ⟨rfl, fd, rfl, rfl⟩
  holds := ⟨⟨rfl, fun _ => rfl⟩, rfl⟩
  account := rfl
  clean := by simp [start]

variable {net net' : Net} {action : Action} {actions : List Action}

theorem Step.inv (step : Step near far net action net') {held unsent : Bytes}
    (inv : Inv net held unsent) : ∃ held' unsent', Inv net' held' unsent' := by
  have account := inv.account
  cases step with
  | @sendLine client line bound idle =>
      obtain ⟨rfl, fd, connected⟩ : unsent = [] ∧ ∃ fd, client.Connected fd := by
        have sends := inv.sends
        rwa [idle] at sends
      exact ⟨held, line ++ [newline], sends_sendLine connected line bound, inv.holds,
        by simp [account], inv.clean⟩
  | @write client fd buf resume count asks _ _ =>
      have sends := inv.sends
      rw [asks] at sends
      obtain ⟨whole, rest⟩ := sends.write count
      exact ⟨held, buf.drop count, rest, inv.holds, by rw [account, whole]; simp, inv.clean⟩
  | @sent client finished =>
      have sends := inv.sends
      rw [finished] at sends
      obtain ⟨connected, left, whole, -, all⟩ := sends
      obtain rfl : left = [] := all () rfl
      exact ⟨held, unsent, ⟨whole.symm, connected⟩, inv.holds, account, inv.clean⟩
  | transport count =>
      exact ⟨held, unsent, inv.sends, inv.holds, by rw [account]; simp, inv.clean⟩
  | @receive client op bound idle noChar =>
      have holds := inv.holds
      rw [idle] at holds
      obtain ⟨bufferInv, rfl⟩ := holds
      exact ⟨_, unsent, inv.sends, holds_receive bufferInv noChar bound, account, inv.clean⟩
  | @poll client nfds set resume readFds asks =>
      have holds := inv.holds
      rw [asks] at holds
      exact ⟨held, unsent, inv.sends, holds.poll readFds, account, inv.clean⟩
  | @read client fd size resume count asks _ _ _ =>
      have holds := inv.holds
      rw [asks] at holds
      exact ⟨_, unsent, inv.sends, holds.read (net.incoming.take count), by rw [account]; simp,
        inv.clean⟩
  | @received client value finished =>
      have holds := inv.holds
      rw [finished] at holds
      obtain ⟨bufferInv, conserved, returns⟩ := holds
      obtain ⟨bytes, clean⟩ := returns value rfl
      refine ⟨client.mLineBuffer.mBuffer, unsent, inv.sends, ⟨bufferInv, rfl⟩, ?_, ?_⟩
      · have heldThen : held = unlines newline (lineOf value) ++ client.mLineBuffer.mBuffer := by
          simpa [consumed, bytes] using conserved.symm
        rw [account, heldThen]
        simp
      · intro line mem
        rcases List.mem_append.mp mem with before | now
        · exact inv.clean line before
        · exact clean line now

theorem exists_inv {fd fd' : FdPtr} (run : Run (Step near far) (start fd fd') actions net) :
    ∃ held unsent, Inv net held unsent := by
  refine run.invariant (I := fun net => ∃ held unsent, Inv net held unsent) ?_
    ⟨[], [], inv_start fd fd'⟩
  rintro net action net' ⟨held, unsent, inv⟩ step
  exact step.inv inv

/-- Nobody is in a call, and nothing is held or on its way. -/
structure Settled (net : Net) : Prop where
  sender : ∃ client, net.sender = .idle client
  receiver : ∃ client, net.receiver = .idle client ∧ client.mLineBuffer.mBuffer = []
  outgoing : net.outgoing = []
  incoming : net.incoming = []

theorem Inv.settled {held unsent : Bytes} (inv : Inv net held unsent) (settled : Settled net) :
    unlines newline net.lines = unlines newline net.passed := by
  obtain ⟨sender, idle⟩ := settled.sender
  obtain ⟨receiver, idle', empty⟩ := settled.receiver
  have sends := inv.sends
  have holds := inv.holds
  rw [idle] at sends
  rw [idle'] at holds
  obtain ⟨rfl, -⟩ := sends
  obtain rfl : [] = held := empty.symm.trans holds.2
  simpa [settled.outgoing, settled.incoming] using inv.account.symm

/-- The lines received are the first of the strings sent, one by one; and if
there are newlines in the strings, the first lines of what they make up. When all
is settled they are all of them. -/
theorem lines_isPrefix {fd fd' : FdPtr} (run : Run (Step near far) (start fd fd') actions net) :
    ((∀ line ∈ net.passed, newline ∉ line) → net.lines <+: net.passed) ∧
    net.lines <+: (unlines newline net.passed).splitOn newline ∧
    (Settled net → unlines newline net.lines = unlines newline net.passed ∧
      ((∀ line ∈ net.passed, newline ∉ line) → net.lines = net.passed)) := by
  obtain ⟨held, unsent, inv⟩ := exists_inv run
  have account : unlines newline net.lines ++ (held ++ net.incoming ++ net.outgoing ++ unsent) =
      unlines newline net.passed := by
    rw [inv.account]
    simp
  refine ⟨fun clean => prefix_of_unlines inv.clean clean account, ?_, fun settled => ?_⟩
  · rw [← account]
    exact prefix_splitOn inv.clean _
  · have all := inv.settled settled
    exact ⟨all, fun clean => eq_of_unlines inv.clean clean all⟩

/-- Two clients between their calls. -/
def between (passed lines : List Bytes) (outgoing buffered : Bytes) : Net where
  passed := passed
  sender := .idle (.ofConnection 0)
  outgoing := outgoing
  incoming := []
  receiver := .idle ⟨some 1, ⟨some 1, buffered, buffered.count newline⟩⟩
  lines := lines

def readable : System.FdSet := fun _ => true

/-- Of `"h\n"` the first byte is received before the second is written. -/
def firstByte : List Action :=
  [.sendLine [104] 3, .write 1, .transport 1, .receive .charsReady 0, .poll readable, .read 1,
    .received, .write 1, .sent]

/-- The rest is received together with an empty line. -/
def otherBytes : List Action :=
  [.sendLine [] 3, .receive .getLine 3, .write 1, .transport 2, .read 2, .received, .sent,
    .receive .getLine 3, .received]

theorem run_firstByte : ∃ net, Run (Step ⟨3, by decide⟩ ⟨4, by decide⟩) (start 0 1) firstByte net ∧
    net = between [[104]] [] [10] [104] := by
  refine ⟨_, .cons (.sendLine [104] 3 rfl) (.cons (.write 1 rfl (by decide) (by decide))
    (.cons (.transport 1) (.cons (.receive .charsReady 0 rfl (by decide))
    (.cons (.poll readable rfl) (.cons (.read 1 rfl (by decide) (by decide) (by decide))
    (.cons (.received rfl) (.cons (.write 1 rfl (by decide) (by decide))
    (.single (.sent rfl))))))))), ?_⟩
  rfl

theorem run_otherBytes : ∃ net, Run (Step ⟨3, by decide⟩ ⟨4, by decide⟩)
    (between [[104]] [] [10] [104]) otherBytes net ∧
      net = between [[104], []] [[104], []] [] [] := by
  refine ⟨_, .cons (.sendLine [] 3 rfl) (.cons (.receive .getLine 3 rfl (by decide))
    (.cons (.write 1 rfl (by decide) (by decide)) (.cons (.transport 2)
    (.cons (.read 2 rfl (by decide) (by decide) (by decide)) (.cons (.received rfl)
    (.cons (.sent rfl) (.cons (.receive .getLine 3 rfl (by decide))
    (.single (.received rfl))))))))), ?_⟩
  rfl

theorem lines_isPrefix_pieces : ∃ net : Net,
    Run (Step ⟨3, by decide⟩ ⟨4, by decide⟩) (start 0 1) (firstByte ++ otherBytes) net ∧
      net.passed = [[104], []] ∧ net.lines = net.passed := by
  obtain ⟨_, first, rfl⟩ := run_firstByte
  obtain ⟨_, others, rfl⟩ := run_otherBytes
  have run := first.append others
  refine ⟨_, run, rfl, ((lines_isPrefix run).2.2 ⟨⟨_, rfl⟩, ⟨_, rfl, rfl⟩, rfl, rfl⟩).2 ?_⟩
  decide

end MarathonKit.Core.Framing
