import MarathonKit.Core.Framing.Interrupted
import MarathonKit.Text.Answers

/-!
Two clients that talk to each other.

A program sends and receives with one and the same client, one call at a time.
Seen from one direction, a client that receives is a sender between two calls,
and a client that sends is a receiver between two calls: a step of a conversation
is a step of the sender or of the receiver of one of its two flows
(`Framing.Interrupted`). What must be shown is that the calls of the other
direction leave a flow alone: sending does not touch the buffer, and receiving
keeps the connection (`Steady`).

`replies` is about a server that answers the lines it reads in turn: the lines its
client gets are the answers to the first lines the client has sent.
-/

namespace MarathonKit.Core.Framing.Conversation

open Dialogue Text LineBuffer

inductive Side where
  | client | server
deriving DecidableEq, Repr

def Side.other : Side → Side
  | client => server
  | server => client

/-- A client between two calls, sending, or receiving. -/
inductive Phase where
  | idle (client : TcpClient)
  | sending (call : Call System.interface Exn Fault TcpClient Unit)
  | receiving (call : Call System.interface Exn Fault TcpClient Value)

namespace Phase

def client : Phase → TcpClient
  | idle client => client
  | sending call => call.state
  | receiving call => call.state

def ofSender : Party Unit → Phase
  | .idle client => idle client
  | .busy call => sending call

def ofReceiver : Party Value → Phase
  | .idle client => idle client
  | .busy call => receiving call

/-- The client as a sender: between two calls while it receives. -/
def sender : Phase → Party Unit
  | sending call => .busy call
  | phase => .idle phase.client

/-- The client as a receiver: between two calls while it sends. -/
def receiver : Phase → Party Value
  | receiving call => .busy call
  | phase => .idle phase.client

@[simp] theorem sender_ofSender (party : Party Unit) : (ofSender party).sender = party := by
  cases party <;> rfl

@[simp] theorem receiver_ofReceiver (party : Party Value) :
    (ofReceiver party).receiver = party := by
  cases party <;> rfl

@[simp] theorem receiver_ofSender (party : Party Unit) :
    (ofSender party).receiver = .idle (ofSender party).client := by
  cases party <;> rfl

@[simp] theorem sender_ofReceiver (party : Party Value) :
    (ofReceiver party).sender = .idle (ofReceiver party).client := by
  cases party <;> rfl

end Phase

/-- One end of the connection: the client, what it has sent and what is on its way
from there, and what has arrived there and been received. -/
structure End where
  phase : Phase
  endings : List Interrupted.Ending
  current : Option (Bytes × Bytes)
  outgoing : Bytes
  incoming : Bytes
  lines : List Bytes

abbrev Net := Side → End

/-- What goes from `side` to the other one. -/
def flow (net : Net) (side : Side) : Interrupted.Net where
  endings := (net side).endings
  current := (net side).current
  sender := (net side).phase.sender
  outgoing := (net side).outgoing
  incoming := (net side.other).incoming
  receiver := (net side.other).phase.receiver
  lines := (net side.other).lines

/-- The steps of a sender. -/
def Sends : Interrupted.Action → Prop
  | .sendLine _ _ | .write _ | .writeFailed _ | .sent | .sendThrew => True
  | _ => False

/-- The steps of a receiver. -/
def Receives : Interrupted.Action → Prop
  | .receive _ _ | .poll _ | .pollFailed _ | .read _ | .readFailed _ | .received
  | .receiveThrew => True
  | _ => False

variable {descriptor : Side → StreamFileDescriptor}

/-- One step of the client at `side`, or of the transport from there. A client
begins to send when it is not receiving, and the other way round. -/
inductive Step (descriptor : Side → StreamFileDescriptor) :
    Net → Side × Interrupted.Action → Net → Prop where
  | send {net : Net} {side : Side} (party : Party Unit) {action : Interrupted.Action}
      {next : Interrupted.Net} :
      (net side).phase = .ofSender party → Sends action →
      Interrupted.Step (descriptor side) (descriptor side.other) (flow net side) action next →
      Step descriptor net (side, action) (Function.update net side { net side with
        phase := .ofSender next.sender
        endings := next.endings
        current := next.current
        outgoing := next.outgoing })
  | transport {net : Net} {side : Side} (count : Nat) :
      Step descriptor net (side, .transport count)
        (Function.update (Function.update net side { net side with
          outgoing := (net side).outgoing.drop count }) side.other { net side.other with
          incoming := (net side.other).incoming ++ (net side).outgoing.take count })
  | receive {net : Net} {side : Side} (party : Party Value) {action : Interrupted.Action}
      {next : Interrupted.Net} :
      (net side).phase = .ofReceiver party → Receives action →
      Interrupted.Step (descriptor side.other) (descriptor side) (flow net side.other) action
        next →
      Step descriptor net (side, action) (Function.update net side { net side with
        phase := .ofReceiver next.receiver
        incoming := next.incoming
        lines := next.lines })

/-- Two clients just connected. -/
def start (fd : Side → FdPtr) : Net := fun side =>
  ⟨.idle (.ofConnection (fd side)), [], none, [], [], []⟩

/-! ### What a call leaves alone -/

/-- Sending changes nothing of the client, and receiving keeps its connection. -/
def Steady : Phase → Prop
  | .idle _ => True
  | .sending call => call.wp fun _ _ client => client = call.state
  | .receiving call => call.wp fun _ _ client => ∃ fd, client.Connected fd

section Calls

variable {near far : StreamFileDescriptor} {client : TcpClient} {fd : FdPtr} {held : Bytes}
  {action : Interrupted.Action} {net next : Interrupted.Net}

theorem steady_sending {call : Call System.interface Exn Fault TcpClient Unit}
    (constant : call.wp fun _ _ now => now = client) :
    Steady (.sending call) ∧ call.state = client := by
  have same : call.state = client := constant.reaches (.here call)
  exact ⟨constant.mono fun _ _ _ now => now.trans same.symm, same⟩

theorem sendLine_constant (connected : client.Connected fd) (line : Bytes) (bound : Nat) :
    ((TcpClient.sendLine line client).via (near.implement bound)).wp
      fun _ _ now => now = client := by
  rw [TcpClient.sendLine, TcpClient.sendRaw_apply connected]
  refine Call.wp_andThen.mpr (Call.wp_within.mpr (Call.wp_caught.mpr
    ((StreamFileDescriptor.write_wp (line ++ [newline]) bound).mono ?_)))
  rintro h o _ -
  cases o <;> rfl

theorem receive_connected (inv : client.mLineBuffer.Inv) (connected : client.Connected fd)
    (op : Op) (bound : Nat) :
    ((TcpClient.receive op bound client).via (far.implement bound)).wp
      fun _ _ now => ∃ fd, now.Connected fd := by
  apply (StreamFileDescriptor.via_wp (TcpClient.receive_wp inv op bound)).mono
  rintro h o s ⟨h', o', -, ⟨sameFd, post⟩, -⟩
  exact ⟨fd, sameFd.trans connected.mFd, post.sameFd.trans connected.mLineBuffer⟩

/-- A step of the sender leaves the client as it is. -/
theorem send_steady (step : Interrupted.Step near far net action next) (turn : Sends action)
    (sends : Interrupted.Sends net.current net.sender) (steady : Steady (.ofSender net.sender)) :
    Steady (.ofSender next.sender) ∧
      (Phase.ofSender next.sender).client = (Phase.ofSender net.sender).client := by
  cases step with
  | sendLine line bound idle =>
      rw [idle] at sends ⊢
      obtain ⟨-, fd, connected⟩ := sends
      exact steady_sending (sendLine_constant connected line bound)
  | write count asks _ _ =>
      rw [asks] at steady ⊢
      exact steady_sending (steady.2 (.ok count))
  | writeFailed errno asks =>
      rw [asks] at steady ⊢
      exact steady_sending (steady.2 (.error errno))
  | sent finished _ =>
      rw [finished]
      exact ⟨trivial, rfl⟩
  | sendThrew finished _ =>
      rw [finished]
      exact ⟨trivial, rfl⟩
  | _ => exact turn.elim

/-- A step of the receiver keeps the client connected. -/
theorem receive_steady (step : Interrupted.Step near far net action next) (turn : Receives action)
    (holds : Holds held net.receiver)
    (connected : ∃ fd, (Phase.ofReceiver net.receiver).client.Connected fd)
    (steady : Steady (.ofReceiver net.receiver)) :
    Steady (.ofReceiver next.receiver) ∧
      ∃ fd, (Phase.ofReceiver next.receiver).client.Connected fd := by
  have going {call : Call System.interface Exn Fault TcpClient Value}
      (always : call.wp fun _ _ client => ∃ fd, client.Connected fd) :
      Steady (.receiving call) ∧ ∃ fd, call.state.Connected fd :=
    ⟨always, always.reaches (.here call)⟩
  cases step with
  | receive op bound idle _ =>
      rw [idle] at holds connected
      obtain ⟨fd, connected⟩ := connected
      exact going (receive_connected holds.1 connected op bound)
  | poll readFds asks =>
      rw [asks] at steady
      exact going (steady.2 (.ok readFds))
  | pollFailed errno asks =>
      rw [asks] at steady
      exact going (steady.2 (.error errno))
  | read count asks _ _ =>
      rw [asks] at steady
      exact going (steady.2 (.ok (net.incoming.take count)))
  | readFailed errno asks =>
      rw [asks] at steady
      exact going (steady.2 (.error errno))
  | received finished =>
      rw [finished] at connected
      exact ⟨trivial, connected⟩
  | receiveThrew finished =>
      rw [finished] at connected
      exact ⟨trivial, connected⟩
  | _ => exact turn.elim

/-- A step of the sender changes the flow only at its beginning. -/
theorem eq_of_send (step : Interrupted.Step near far net action next) (turn : Sends action) :
    next = { net with
      endings := next.endings, current := next.current, sender := next.sender
      outgoing := next.outgoing } := by
  cases step <;> first | rfl | exact turn.elim

/-- A step of the receiver changes the flow only at its end. -/
theorem eq_of_receive (step : Interrupted.Step near far net action next)
    (turn : Receives action) :
    next = { net with
      incoming := next.incoming, receiver := next.receiver, lines := next.lines } := by
  cases step <;> first | rfl | exact turn.elim

end Calls

/-! ### Both flows -/

@[simp] theorem other_other (side : Side) : side.other.other = side := by
  cases side <;> rfl

theorem other_ne (side : Side) : side.other ≠ side := by
  cases side <;> simp [Side.other]

theorem eq_or_other (side side' : Side) : side' = side ∨ side' = side.other := by
  cases side <;> cases side' <;> simp [Side.other]

variable {net net' : Net} {side : Side} {now : End} {step : Side × Interrupted.Action}
  {steps : List (Side × Interrupted.Action)}

@[simp] theorem update_other : Function.update net side now side.other = net side.other :=
  Function.update_of_ne (other_ne side) now net

@[simp] theorem update_at_other : Function.update net side.other now side = net side :=
  Function.update_of_ne (other_ne side).symm now net

structure Inv (net : Net) : Prop where
  flows : ∀ side, ∃ held, Interrupted.Inv (flow net side) held
  steady : ∀ side, Steady (net side).phase

theorem inv_start (fd : Side → FdPtr) : Inv (start fd) where
  flows side := ⟨[], Interrupted.inv_start (fd side) (fd side.other)⟩
  steady _ := trivial

/-- A change at one end. -/
theorem Inv.change (inv : Inv net) (steady : Steady now.phase)
    (here : ∃ held, Interrupted.Inv (flow (Function.update net side now) side) held)
    (there : ∃ held, Interrupted.Inv (flow (Function.update net side now) side.other) held) :
    Inv (Function.update net side now) := by
  constructor
  · intro side'
    rcases eq_or_other side side' with rfl | rfl
    · exact here
    · exact there
  · intro side'
    rcases eq_or_other side side' with rfl | rfl
    · simpa using steady
    · simpa using inv.steady side.other

theorem Step.inv (taken : Step descriptor net step net') (inv : Inv net) : Inv net' := by
  cases taken with
  | @send side party action next phase turn once =>
      obtain ⟨held, here⟩ := inv.flows side
      obtain ⟨held', there⟩ := inv.flows side.other
      have sender : (flow net side).sender = party := by simp [flow, phase]
      have before := inv.steady side
      rw [phase, ← sender] at before
      obtain ⟨steady, same⟩ := send_steady once turn here.sends before
      refine inv.change steady ?_ ⟨held', ?_⟩
      · obtain ⟨held, after⟩ := once.inv here
        rw [eq_of_send once turn] at after
        exact ⟨held, by simpa [flow] using after⟩
      · have holds := there.holds
        simp only [flow, other_other, phase, Phase.receiver_ofSender] at holds
        rw [← sender, ← same] at holds
        simpa [flow] using there.receiver holds
  | @transport side count =>
      constructor
      · intro side'
        rcases eq_or_other side side' with rfl | rfl
        · obtain ⟨held, here⟩ := inv.flows side'
          obtain ⟨held', after⟩ :=
            (@Interrupted.Step.transport (descriptor side') (descriptor side') _ count).inv here
          exact ⟨held', by simpa [flow] using after⟩
        · obtain ⟨held, there⟩ := inv.flows side.other
          exact ⟨held, by simpa [flow] using there⟩
      · intro side'
        rcases eq_or_other side side' with rfl | rfl
        · simpa using inv.steady side'
        · simpa using inv.steady side.other
  | @receive side party action next phase turn once =>
      obtain ⟨held, here⟩ := inv.flows side.other
      obtain ⟨held', there⟩ := inv.flows side
      have receiver : (flow net side.other).receiver = party := by simp [flow, phase]
      have before := inv.steady side
      rw [phase, ← receiver] at before
      have sends := there.sends
      simp only [flow, phase, Phase.sender_ofReceiver] at sends
      obtain ⟨quiet, connected⟩ := sends
      rw [← receiver] at connected
      obtain ⟨steady, connected⟩ := receive_steady once turn here.holds connected before
      refine inv.change steady ⟨held', ?_⟩ ?_
      · have sends : Interrupted.Sends (flow net side).current
            (.idle (Phase.ofReceiver next.receiver).client) := ⟨quiet, connected⟩
        have still : ∃ more, (net side).outgoing = (flow net side).outgoing ++ more ∧
            (flow net side).wire = (flow net side).wire ++ more := ⟨[], by simp [flow]⟩
        simpa [flow] using there.sender sends there.sound still
      · obtain ⟨held, after⟩ := once.inv here
        rw [eq_of_receive once turn] at after
        exact ⟨held, by simpa [flow] using after⟩

theorem inv_of_run {fd : Side → FdPtr} (run : Run (Step descriptor) (start fd) steps net) :
    Inv net :=
  run.invariant (I := Inv) (fun _ _ _ inv taken => taken.inv inv) (inv_start fd)

/-- In each direction the lines received are what the calls of `sendLine` in that
direction make up, whatever goes the other way. -/
theorem lines_bothWays {fd : Side → FdPtr} (run : Run (Step descriptor) (start fd) steps net)
    (side : Side) :
    ((∀ line ∈ (flow net side).passed, newline ∉ line) →
      (net side.other).lines <+: mended [] (flow net side).pieces ∧
      ((∀ line written, .threw line written ∈ (net side).endings → written = []) →
        (net side.other).lines <+: wholes (flow net side).pieces)) ∧
    (net side.other).lines <+: (flow net side).wire.splitOn newline := by
  obtain ⟨held, inv⟩ := (inv_of_run run).flows side
  constructor
  · intro clean
    have seen := inv.lines_prefix clean
    refine ⟨seen, fun nothing => ?_⟩
    rwa [Interrupted.Net.mended_pieces nothing] at seen
  · rw [← inv.account_eq]
    exact prefix_splitOn inv.clean _

/-! ### A server that answers in turn -/

/-- How many lines the server has answered: for these `sendLine` has returned or is
under way. -/
def answered (net : Net) : Nat := (wholes (flow net .server).pieces).length

/-- What the server may do next: send the answer to the first line it has not
answered, which may depend on all lines before. -/
def Serves (answer : List Bytes → Bytes) (net : Net) : Side × Interrupted.Action → Prop
  | (.server, .sendLine line _) => answered net < (net .server).lines.length ∧
      line = answer ((net .server).lines.take (answered net + 1))
  | _ => True

/-- A step of a client that does what it wants, or of a server that answers. -/
def Served (descriptor : Side → StreamFileDescriptor) (answer : List Bytes → Bytes) (net : Net)
    (step : Side × Interrupted.Action) (net' : Net) : Prop :=
  Step descriptor net step net' ∧ Serves answer net step

section Answers

variable {answer : List Bytes → Bytes}

/-- What a step of a sender makes of the lines sent: one more when a call begins, and
one less when a call throws. -/
theorem wholes_send {near far : StreamFileDescriptor} {action : Interrupted.Action}
    {net next : Interrupted.Net} (once : Interrupted.Step near far net action next)
    (turn : Sends action) (sends : Interrupted.Sends net.current net.sender) :
    wholes next.pieces <+: wholes net.pieces ∨
      ∃ line bound, action = .sendLine line bound ∧
        wholes next.pieces = wholes net.pieces ++ [line] := by
  cases once with
  | sendLine line bound idle =>
      rw [idle] at sends
      exact .inr ⟨line, bound, rfl, by simp [Interrupted.Net.pieces, sends.1, wholes]⟩
  | write count _ under _ => exact .inl (by simp [Interrupted.Net.pieces, under])
  | writeFailed errno _ => exact .inl List.prefix_rfl
  | sent _ under =>
      exact .inl (by simp [Interrupted.Net.pieces, under, Interrupted.Ending.piece])
  | sendThrew _ under =>
      exact .inl (by simp [Interrupted.Net.pieces, under, Interrupted.Ending.piece, wholes])
  | _ => exact turn.elim

theorem lines_receive {near far : StreamFileDescriptor} {action : Interrupted.Action}
    {net next : Interrupted.Net} (once : Interrupted.Step near far net action next) :
    net.lines <+: next.lines := by
  cases once with
  | received _ => exact List.prefix_append _ _
  | _ => exact List.prefix_rfl

/-- The lines the server sends are the first answers. -/
def InTurn (answer : List Bytes → Bytes) (net : Net) : Prop :=
  wholes (flow net .server).pieces <+: answers answer (net .server).lines

theorem Served.inTurn (served : Served descriptor answer net step net') (inv : Inv net)
    (inTurn : InTurn answer net) : InTurn answer net' := by
  obtain ⟨taken, serves⟩ := served
  cases taken with
  | @send side party action next phase turn once =>
      cases side with
      | client => exact inTurn
      | server =>
          obtain ⟨held, here⟩ := inv.flows .server
          rcases wholes_send once turn here.sends with fewer | ⟨line, bound, rfl, same⟩
          · exact fewer.trans inTurn
          · obtain ⟨unanswered, rfl⟩ := serves
            show wholes next.pieces <+: answers answer (net .server).lines
            rw [same, List.prefix_iff_eq_take.mp inTurn]
            have further := take_answers_succ answer unanswered
            rw [answered] at further
            rw [answered, ← further]
            exact List.take_prefix _ _
  | @transport side count => cases side <;> exact inTurn
  | @receive side party action next phase turn once =>
      cases side with
      | client => exact inTurn
      | server => exact inTurn.trans (answers_isPrefix (lines_receive once))

theorem served_of_run {fd : Side → FdPtr}
    (run : Run (Served descriptor answer) (start fd) steps net) :
    Inv net ∧ InTurn answer net := by
  refine run.invariant (I := fun net => Inv net ∧ InTurn answer net) ?_
    ⟨inv_start fd, List.nil_prefix⟩
  rintro net step net' ⟨inv, inTurn⟩ served
  exact ⟨served.1.inv inv, served.inTurn inv inTurn⟩

/-- No call is under way, nothing is on its way or in a buffer, and every line has
its answer. -/
structure Settled (net : Net) : Prop where
  idle : ∀ side, ∃ client, (net side).phase = .idle client ∧ client.mLineBuffer.mBuffer = []
  outgoing : ∀ side, (net side).outgoing = []
  incoming : ∀ side, (net side).incoming = []
  answered : answered net = (net .server).lines.length

theorem Settled.lines_eq (settled : Settled net) (inv : Inv net) (side : Side)
    (clean : ∀ line ∈ (flow net side).passed, newline ∉ line) :
    (net side.other).lines = mended [] (flow net side).pieces := by
  obtain ⟨held, flows⟩ := inv.flows side
  obtain ⟨sender, idle, -⟩ := settled.idle side
  obtain ⟨receiver, idle', empty⟩ := settled.idle side.other
  have holds := flows.holds
  simp only [flow, idle', Phase.receiver, Phase.client] at holds
  obtain rfl : [] = held := empty.symm.trans holds.2
  have silent : (flow net side).sender = .idle sender := by
    simp [flow, idle, Phase.sender, Phase.client]
  exact flows.lines_eq silent (settled.incoming side.other) (settled.outgoing side) clean

/-- The server reads the lines the client has sent, as far as they go, and the
client the answers to these, in order and each once; when all is quiet, all of
them. A call that failed in the middle of a line spoils the next line of its
client; the calls of the server must not fail there. -/
theorem replies {fd : Side → FdPtr} (run : Run (Served descriptor answer) (start fd) steps net)
    (clean : ∀ side, ∀ line ∈ (flow net side).passed, newline ∉ line)
    (nothing : ∀ line written, .threw line written ∈ (net .server).endings → written = []) :
    (net .server).lines <+: mended [] (flow net .client).pieces ∧
    (net .client).lines <+: answers answer (net .server).lines ∧
    (Settled net → (net .client).lines = answers answer (mended [] (flow net .client).pieces)) := by
  obtain ⟨inv, inTurn⟩ := served_of_run run
  obtain ⟨held, there⟩ := inv.flows .client
  obtain ⟨held', back⟩ := inv.flows .server
  have sent : mended [] (flow net .server).pieces = wholes (flow net .server).pieces :=
    Interrupted.Net.mended_pieces nothing
  refine ⟨there.lines_prefix (clean .client), ?_, fun settled => ?_⟩
  · have seen := back.lines_prefix (clean .server)
    rw [sent] at seen
    exact seen.trans inTurn
  · have asked : (net .server).lines = _ := settled.lines_eq inv .client (clean .client)
    have told : (net .client).lines = _ := settled.lines_eq inv .server (clean .server)
    rw [told, sent, ← asked]
    exact inTurn.eq_of_length (by rw [length_answers]; exact settled.answered)

end Answers

/-! ### A question and its answer -/

/-- The server gives back what it reads. -/
def echo (lines : List Bytes) : Bytes := lines.getLast?.getD []

/-- Two idle clients: what they have sent, what has arrived and what they have read. -/
def quiet (asked told : List Interrupted.Ending) (back there : Bytes) (read heard : List Bytes) :
    Net
  | .client => ⟨.idle (.ofConnection 0), asked, none, [], back, heard⟩
  | .server => ⟨.idle (.ofConnection 0), told, none, [], there, read⟩

/-- A run that comes to a net whose ends are these comes to this net. -/
theorem exists_run_to {before after : Net}
    (run : ∃ net, Run (Served descriptor echo) before steps net ∧ ∀ side, net side = after side) :
    Run (Served descriptor echo) before steps after := by
  obtain ⟨net, run, same⟩ := run
  obtain rfl : net = after := funext same
  exact run

/-- `"h"` is asked. -/
theorem run_asked : Run (Served (fun _ => ⟨3, by decide⟩) echo) (start fun _ => 0)
    [(.client, .sendLine [104] 3), (.client, .write 2), (.client, .sent), (.client, .transport 2)]
    (quiet [.returned [104]] [] [] [104, 10] [] []) :=
  exists_run_to ⟨_, .cons ⟨.send (.idle _) rfl trivial (.sendLine [104] 3 rfl), trivial⟩
    (.cons ⟨.send (.busy _) rfl trivial (.write 2 rfl rfl (by decide)), trivial⟩
    (.cons ⟨.send (.busy _) rfl trivial (.sent rfl rfl), trivial⟩
    (.single ⟨.transport 2, trivial⟩))), fun side => by cases side <;> rfl⟩

theorem run_read : Run (Served (fun _ => ⟨3, by decide⟩) echo)
    (quiet [.returned [104]] [] [] [104, 10] [] [])
    [(.server, .receive .getLine 3), (.server, .read 2), (.server, .received)]
    (quiet [.returned [104]] [] [] [] [[104]] []) :=
  exists_run_to ⟨_,
    .cons ⟨.receive (.idle _) rfl trivial (.receive .getLine 3 rfl (by decide)), trivial⟩
    (.cons ⟨.receive (.busy _) rfl trivial (.read 2 rfl (by decide) (by decide)), trivial⟩
    (.single ⟨.receive (.busy _) rfl trivial (.received rfl), trivial⟩)),
    fun side => by cases side <;> rfl⟩

theorem run_told : Run (Served (fun _ => ⟨3, by decide⟩) echo)
    (quiet [.returned [104]] [] [] [] [[104]] [])
    [(.server, .sendLine [104] 3), (.server, .write 2), (.server, .sent), (.server, .transport 2)]
    (quiet [.returned [104]] [.returned [104]] [104, 10] [] [[104]] []) :=
  exists_run_to ⟨_,
    .cons ⟨.send (.idle _) rfl trivial (.sendLine [104] 3 rfl), by decide, rfl⟩
    (.cons ⟨.send (.busy _) rfl trivial (.write 2 rfl rfl (by decide)), trivial⟩
    (.cons ⟨.send (.busy _) rfl trivial (.sent rfl rfl), trivial⟩
    (.single ⟨.transport 2, trivial⟩))), fun side => by cases side <;> rfl⟩

theorem run_heard : Run (Served (fun _ => ⟨3, by decide⟩) echo)
    (quiet [.returned [104]] [.returned [104]] [104, 10] [] [[104]] [])
    [(.client, .receive .getLine 3), (.client, .read 2), (.client, .received)]
    (quiet [.returned [104]] [.returned [104]] [] [] [[104]] [[104]]) :=
  exists_run_to ⟨_,
    .cons ⟨.receive (.idle _) rfl trivial (.receive .getLine 3 rfl (by decide)), trivial⟩
    (.cons ⟨.receive (.busy _) rfl trivial (.read 2 rfl (by decide) (by decide)), trivial⟩
    (.single ⟨.receive (.busy _) rfl trivial (.received rfl), trivial⟩)),
    fun side => by cases side <;> rfl⟩

/-- A line in each direction. -/
theorem lines_bothWays_heard : ∃ net : Net,
    (net .server).lines = [[104]] ∧ (net .client).lines = [[104]] ∧
    (net .server).lines <+: mended [] (flow net .client).pieces ∧
    (net .client).lines <+: mended [] (flow net .server).pieces := by
  have run := (((run_asked.append run_read).append run_told).append run_heard).mono
    fun _ _ _ served => served.1
  refine ⟨_, rfl, rfl, ((lines_bothWays run .client).1 ?_).1, ((lines_bothWays run .server).1 ?_).1⟩
  · decide
  · decide

/-- `"h"` is asked, answered and heard, and then all is quiet. -/
theorem replies_echo : ∃ net : Net, (net .client).lines = [[104]] ∧
    (net .client).lines = answers echo (mended [] (flow net .client).pieces) := by
  have run := ((run_asked.append run_read).append run_told).append run_heard
  refine ⟨_, rfl, (replies run ?_ ?_).2.2 ⟨?_, ?_, ?_, rfl⟩⟩
  · intro side
    cases side <;> decide
  · intro line written mem
    simp [quiet] at mem
  · intro side
    cases side <;> exact ⟨_, rfl, rfl⟩
  · intro side
    cases side <;> rfl
  · intro side
    cases side <;> rfl

end MarathonKit.Core.Framing.Conversation
