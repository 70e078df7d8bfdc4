import MarathonKit.Core.Framing
import MarathonKit.Text.Torn

/-!
Lines from one client to another, where system calls fail.

A `sendLine` that throws has written a part of its line, and the program may send
on. A poll or a read that fails takes nothing from the stream, and the program
may call again. `lines_mended` says what the receiver makes of it: the lines are
those whose `sendLine` returned, in order, each with what the failed ones before
it have left on the stream in front of it. Nothing a receiver does, and no
failure on its side, loses or moves a byte.

The receiver is described as in the run without failures (`Holds`); the sender
needs a description of its own, as a call that throws is over before everything
is written.
-/

namespace MarathonKit.Core.Framing.Interrupted

open Dialogue Text LineBuffer

/-- How a call of `sendLine` ended: it returned, or it threw with `written` on the
stream. -/
inductive Ending where
  | returned (line : Bytes)
  | threw (line written : Bytes)
deriving DecidableEq, Repr

structure Net where
  /-- the calls of `sendLine` that are over, in order -/
  endings : List Ending
  /-- the line of the call under way, and what it has written -/
  current : Option (Bytes × Bytes)
  sender : Party Unit
  outgoing : Bytes
  incoming : Bytes
  receiver : Party Value
  /-- the lines `getLine` has returned, in order -/
  lines : List Bytes

inductive Action where
  | sendLine (line : Bytes) (bound : Nat)
  | write (count : Nat)
  | writeFailed (errno : Nat)
  | sent
  | sendThrew
  | transport (count : Nat)
  | receive (op : Op) (bound : Nat)
  | poll (readFds : System.FdSet)
  | pollFailed (errno : Nat)
  | read (count : Nat)
  | readFailed (errno : Nat)
  | received
  | receiveThrew

variable {near far : StreamFileDescriptor}

/-- One step: of the sender (the first five), of the transport, or of the
receiver. A client whose call threw is as the exception left it. -/
inductive Step (near far : StreamFileDescriptor) : Net → Action → Net → Prop where
  | sendLine {net : Net} {client : TcpClient} (line : Bytes) (bound : Nat) :
      net.sender = .idle client →
      Step near far net (.sendLine line bound) { net with
        current := some (line, [])
        sender := .busy ((TcpClient.sendLine line client).via (near.implement bound)) }
  | write {net : Net} {client : TcpClient} {fd : Int} {buf line written : Bytes}
      {resume : Except Nat Nat → Call System.interface Exn Fault TcpClient Unit} (count : Nat) :
      net.sender = .busy (.asking client (.write fd buf) resume) →
      net.current = some (line, written) → count ≤ buf.length →
      Step near far net (.write count) { net with
        current := some (line, written ++ buf.take count)
        sender := .busy (resume (.ok count))
        outgoing := net.outgoing ++ buf.take count }
  | writeFailed {net : Net} {client : TcpClient} {fd : Int} {buf : Bytes}
      {resume : Except Nat Nat → Call System.interface Exn Fault TcpClient Unit} (errno : Nat) :
      net.sender = .busy (.asking client (.write fd buf) resume) →
      Step near far net (.writeFailed errno) { net with
        sender := .busy (resume (.error errno)) }
  | sent {net : Net} {client : TcpClient} {line written : Bytes} :
      net.sender = .busy (.returned client ()) → net.current = some (line, written) →
      Step near far net .sent { net with
        endings := net.endings ++ [.returned line]
        current := none
        sender := .idle client }
  | sendThrew {net : Net} {client : TcpClient} {e : Exn} {line written : Bytes} :
      net.sender = .busy (.threw client e) → net.current = some (line, written) →
      Step near far net .sendThrew { net with
        endings := net.endings ++ [.threw line written]
        current := none
        sender := .idle client }
  | transport {net : Net} (count : Nat) :
      Step near far net (.transport count) { net with
        outgoing := net.outgoing.drop count
        incoming := net.incoming ++ net.outgoing.take count }
  | receive {net : Net} {client : TcpClient} (op : Op) (bound : Nat) :
      net.receiver = .idle client → op ≠ .getChar →
      Step near far net (.receive op bound) { net with
        receiver := .busy ((TcpClient.receive op bound client).via (far.implement bound)) }
  | poll {net : Net} {client : TcpClient} {nfds : Int} {set : System.FdSet}
      {resume : Except Nat System.FdSet → Call System.interface Exn Fault TcpClient Value}
      (readFds : System.FdSet) :
      net.receiver = .busy (.asking client (.select nfds set) resume) →
      Step near far net (.poll readFds) { net with receiver := .busy (resume (.ok readFds)) }
  | pollFailed {net : Net} {client : TcpClient} {nfds : Int} {set : System.FdSet}
      {resume : Except Nat System.FdSet → Call System.interface Exn Fault TcpClient Value}
      (errno : Nat) :
      net.receiver = .busy (.asking client (.select nfds set) resume) →
      Step near far net (.pollFailed errno) { net with
        receiver := .busy (resume (.error errno)) }
  | read {net : Net} {client : TcpClient} {fd : Int} {size : Nat}
      {resume : Except Nat Bytes → Call System.interface Exn Fault TcpClient Value} (count : Nat) :
      net.receiver = .busy (.asking client (.read fd size) resume) →
      count ≤ size → count ≤ net.incoming.length →
      Step near far net (.read count) { net with
        incoming := net.incoming.drop count
        receiver := .busy (resume (.ok (net.incoming.take count))) }
  | readFailed {net : Net} {client : TcpClient} {fd : Int} {size : Nat}
      {resume : Except Nat Bytes → Call System.interface Exn Fault TcpClient Value} (errno : Nat) :
      net.receiver = .busy (.asking client (.read fd size) resume) →
      Step near far net (.readFailed errno) { net with
        receiver := .busy (resume (.error errno)) }
  | received {net : Net} {client : TcpClient} {value : Value} :
      net.receiver = .busy (.returned client value) →
      Step near far net .received { net with
        receiver := .idle client
        lines := net.lines ++ lineOf value }
  | receiveThrew {net : Net} {client : TcpClient} {e : Exn} :
      net.receiver = .busy (.threw client e) →
      Step near far net .receiveThrew { net with receiver := .idle client }

/-- Two clients just connected. -/
def start (fd fd' : FdPtr) : Net where
  endings := []
  current := none
  sender := .idle (.ofConnection fd)
  outgoing := []
  incoming := []
  receiver := .idle (.ofConnection fd')
  lines := []

/-! ### What has been written -/

def Ending.line : Ending → Bytes
  | returned line => line
  | threw line _ => line

/-- What a call has left on the stream. -/
def Ending.piece : Ending → Piece Byte
  | returned line => .whole line
  | threw _ written => .torn written

/-- A call that threw has not written everything. -/
def Ending.Sound : Ending → Prop
  | returned _ => True
  | threw line written => ∃ left, left ≠ [] ∧ written ++ left = line ++ [newline]

/-- The lines passed to `sendLine`, in order. -/
def Net.passed (net : Net) : List Bytes :=
  net.endings.map Ending.line ++ net.current.toList.map Prod.fst

/-- What is on the stream, or will be: the call under way may still write
everything. -/
def Net.pieces (net : Net) : List (Piece Byte) :=
  net.endings.map Ending.piece ++ net.current.toList.map fun current => .whole current.1

/-- All bytes written. -/
def Net.wire (net : Net) : Bytes :=
  net.endings.flatMap (fun ending => ending.piece.symbols newline) ++
    net.current.toList.flatMap Prod.snd

/-- The sender has written `current` of its line, and is to write the rest. -/
def Sends (current : Option (Bytes × Bytes)) : Party Unit → Prop
  | .idle client => current = none ∧ ∃ fd, client.Connected fd
  | .busy call => ∃ line written unsent, current = some (line, written) ∧
      written ++ unsent = line ++ [newline] ∧
      call.wp fun h o client => (∃ fd, client.Connected fd) ∧
        ∃ left, System.bytesWritten h ++ left = unsent ∧
          (∀ fd buf, o = .asking (.write fd buf) → buf = left) ∧
          (∀ v, o = .returned v → left = []) ∧ (∀ e, o = .threw e → left ≠ [])

theorem sends_sendLine {client : TcpClient} {fd : FdPtr} (connected : client.Connected fd)
    (line : Bytes) (bound : Nat) :
    Sends (some (line, []))
      (.busy ((TcpClient.sendLine line client).via (near.implement bound))) := by
  refine ⟨line, [], line ++ [newline], rfl, rfl, ?_⟩
  rw [TcpClient.sendLine, TcpClient.sendRaw_apply connected]
  refine Call.wp_andThen.mpr (Call.wp_within.mpr (Call.wp_caught.mpr
    (((StreamFileDescriptor.write_wp (line ++ [newline]) bound).and
      (StreamFileDescriptor.write_threw_wp (line ++ [newline]) bound)).mono ?_)))
  rintro h o _ ⟨⟨left, written⟩, torn⟩
  have moved := written.written
  cases o with
  | returned v =>
      obtain rfl := written.all v rfl
      exact ⟨⟨fd, connected⟩, [], by simpa using moved, by simp, by simp, by simp⟩
  | asking q =>
      obtain ⟨rfl, -⟩ := written.offers q rfl
      exact ⟨⟨fd, connected⟩, left, moved, by simp, by simp, by simp⟩
  | threw e =>
      have something : left ≠ [] := by
        rintro rfl
        have less := torn e rfl
        rw [← moved, List.append_nil] at less
        exact absurd less (Nat.lt_irrefl _)
      exact ⟨⟨fd, connected⟩, left, by simpa using moved, by simp, by simp, fun _ _ => something⟩
  | _ => exact ⟨⟨fd, connected⟩, left, moved, by simp, by simp, by simp⟩

section Asking

variable {client : TcpClient} {fd nfds : Int} {buf line written held : Bytes} {set : System.FdSet}
  {size : Nat} {current : Option (Bytes × Bytes)}

/-- What is accepted need not be written again. -/
theorem Sends.write {resume : Except Nat Nat → Call System.interface Exn Fault TcpClient Unit}
    (sends : Sends current (.busy (.asking client (.write fd buf) resume)))
    (current_eq : current = some (line, written)) (count : Nat) :
    Sends (some (line, written ++ buf.take count)) (.busy (resume (.ok count))) := by
  obtain ⟨line, written, unsent, rfl, whole, ⟨-, left, same, offers, -⟩, rest⟩ := sends
  obtain ⟨rfl, rfl⟩ := Prod.mk.inj (Option.some.inj current_eq)
  obtain rfl : buf = left := offers fd buf rfl
  obtain rfl : buf = unsent := same
  refine ⟨line, _, buf.drop count, rfl, by simpa using whole, (rest (.ok count)).mono ?_⟩
  rintro h o s ⟨connected, left, moved, others⟩
  refine ⟨connected, left, ?_, others⟩
  rw [System.bytesWritten_cons, List.append_assoc] at moved
  apply (List.append_right_inj (buf.take count)).mp
  rw [List.take_append_drop]
  exact moved

theorem Sends.writeFailed
    {resume : Except Nat Nat → Call System.interface Exn Fault TcpClient Unit}
    (sends : Sends current (.busy (.asking client (.write fd buf) resume))) (errno : Nat) :
    Sends current (.busy (resume (.error errno))) := by
  obtain ⟨line, written, unsent, same, whole, -, rest⟩ := sends
  exact ⟨line, written, unsent, same, whole, rest (.error errno)⟩

theorem Holds.pollFailed
    {resume : Except Nat System.FdSet → Call System.interface Exn Fault TcpClient Value}
    (holds : Holds held (.busy (.asking client (.select nfds set) resume))) (errno : Nat) :
    Holds held (.busy (resume (.error errno))) := by
  apply (holds.2 (.error errno)).mono
  rintro h o s ⟨inv, conserved, returns⟩
  exact ⟨inv, by simpa [System.read?] using conserved, returns⟩

theorem Holds.readFailed
    {resume : Except Nat Bytes → Call System.interface Exn Fault TcpClient Value}
    (holds : Holds held (.busy (.asking client (.read fd size) resume))) (errno : Nat) :
    Holds held (.busy (resume (.error errno))) := by
  apply (holds.2 (.error errno)).mono
  rintro h o s ⟨inv, conserved, returns⟩
  exact ⟨inv, by simpa [System.read?] using conserved, returns⟩

end Asking

/-! ### The account of all bytes -/

structure Inv (net : Net) (held : Bytes) : Prop where
  sends : Sends net.current net.sender
  holds : Holds held net.receiver
  account : net.wire = unlines newline net.lines ++ held ++ net.incoming ++ net.outgoing
  sound : ∀ ending ∈ net.endings, ending.Sound
  clean : ∀ line ∈ net.lines, newline ∉ line

theorem inv_start (fd fd' : FdPtr) : Inv (start fd fd') [] where
  sends := ⟨rfl, fd, rfl, rfl⟩
  holds := ⟨⟨rfl, fun _ => rfl⟩, rfl⟩
  account := rfl
  sound := by simp [start]
  clean := by simp [start]

variable {net net' : Net} {action : Action} {actions : List Action} {held : Bytes}

/-- A step of the sender leaves the receiver as it is. -/
theorem Inv.sender (inv : Inv net held) {endings : List Ending}
    {current : Option (Bytes × Bytes)} {sender : Party Unit} {outgoing : Bytes}
    (sends : Sends current sender) (sound : ∀ ending ∈ endings, ending.Sound)
    (wire : ∃ more, outgoing = net.outgoing ++ more ∧
      { net with endings := endings, current := current }.wire = net.wire ++ more) :
    Inv { net with
      endings := endings, current := current, sender := sender, outgoing := outgoing } held where
  sends := sends
  holds := inv.holds
  account := by
    obtain ⟨more, rfl, same⟩ := wire
    have account := inv.account
    simp only [Net.wire] at same account ⊢
    rw [same, account]
    simp
  sound := sound
  clean := inv.clean

/-- A step of the receiver that neither reads nor returns. -/
theorem Inv.receiver (inv : Inv net held) {receiver : Party Value} (holds : Holds held receiver) :
    Inv { net with receiver := receiver } held :=
  ⟨inv.sends, holds, inv.account, inv.sound, inv.clean⟩

theorem Step.inv (step : Step near far net action net') (inv : Inv net held) :
    ∃ held', Inv net' held' := by
  have account := inv.account
  cases step with
  | @sendLine client line bound idle =>
      have sends := inv.sends
      rw [idle] at sends
      obtain ⟨none, fd, connected⟩ := sends
      exact ⟨held, inv.sender (sends_sendLine connected line bound) inv.sound
        ⟨[], by simp, by simp [Net.wire, none]⟩⟩
  | @write client fd buf line written resume count asks under _ =>
      have sends := inv.sends
      rw [asks] at sends
      exact ⟨held, inv.sender (sends.write under count) inv.sound
        ⟨buf.take count, rfl, by simp [Net.wire, under]⟩⟩
  | @writeFailed client fd buf resume errno asks =>
      have sends := inv.sends
      rw [asks] at sends
      exact ⟨held, inv.sender (sends.writeFailed errno) inv.sound ⟨[], by simp, by simp⟩⟩
  | @sent client line written finished under =>
      have sends := inv.sends
      rw [finished] at sends
      obtain ⟨line', written', unsent, same, whole, connected, left, rest, -, all, -⟩ := sends
      obtain ⟨rfl, rfl⟩ := Prod.mk.inj (Option.some.inj (under.symm.trans same))
      obtain rfl : left = [] := all () rfl
      obtain rfl : [] = unsent := rest
      rw [List.append_nil] at whole
      refine ⟨held, inv.sender ⟨rfl, connected⟩ ?_ ⟨[], by simp, ?_⟩⟩
      · exact List.forall_mem_append.mpr ⟨inv.sound, by simp [Ending.Sound]⟩
      · simp [Net.wire, under, Ending.piece, Piece.symbols, whole]
  | @sendThrew client e line written finished under =>
      have sends := inv.sends
      rw [finished] at sends
      obtain ⟨line', written', unsent, same, whole, connected, left, rest, -, -, torn⟩ := sends
      obtain ⟨rfl, rfl⟩ := Prod.mk.inj (Option.some.inj (under.symm.trans same))
      obtain rfl : left = unsent := rest
      refine ⟨held, inv.sender ⟨rfl, connected⟩ ?_ ⟨[], by simp, ?_⟩⟩
      · exact List.forall_mem_append.mpr
          ⟨inv.sound, by simpa [Ending.Sound] using ⟨left, torn e rfl, whole⟩⟩
      · simp [Net.wire, under, Ending.piece, Piece.symbols]
  | transport count =>
      refine ⟨held, inv.sends, inv.holds, ?_, inv.sound, inv.clean⟩
      show net.wire = _
      rw [account]
      simp
  | @receive client op bound idle noChar =>
      have holds := inv.holds
      rw [idle] at holds
      obtain ⟨bufferInv, rfl⟩ := holds
      exact ⟨_, inv.receiver (holds_receive bufferInv noChar bound)⟩
  | @poll client nfds set resume readFds asks =>
      have holds := inv.holds
      rw [asks] at holds
      exact ⟨held, inv.receiver (holds.poll readFds)⟩
  | @pollFailed client nfds set resume errno asks =>
      have holds := inv.holds
      rw [asks] at holds
      exact ⟨held, inv.receiver (Holds.pollFailed holds errno)⟩
  | @read client fd size resume count asks _ _ =>
      have holds := inv.holds
      rw [asks] at holds
      refine ⟨_, inv.sends, holds.read (net.incoming.take count), ?_, inv.sound, inv.clean⟩
      show net.wire = _
      rw [account]
      simp
  | @readFailed client fd size resume errno asks =>
      have holds := inv.holds
      rw [asks] at holds
      exact ⟨held, inv.receiver (Holds.readFailed holds errno)⟩
  | @received client value finished =>
      have holds := inv.holds
      rw [finished] at holds
      obtain ⟨bufferInv, conserved, returns⟩ := holds
      obtain ⟨bytes, clean⟩ := returns value rfl
      refine ⟨client.mLineBuffer.mBuffer, inv.sends, ⟨bufferInv, rfl⟩, ?_, inv.sound,
        List.forall_mem_append.mpr ⟨inv.clean, clean⟩⟩
      have heldThen : held = unlines newline (lineOf value) ++ client.mLineBuffer.mBuffer := by
        simpa [consumed, bytes] using conserved.symm
      show net.wire = _
      rw [account, heldThen]
      simp
  | @receiveThrew client e finished =>
      have holds := inv.holds
      rw [finished] at holds
      obtain ⟨bufferInv, conserved, -⟩ := holds
      refine ⟨held, inv.receiver ⟨bufferInv, ?_⟩⟩
      simpa [consumed] using conserved

theorem exists_inv {fd fd' : FdPtr} (run : Run (Step near far) (start fd fd') actions net) :
    ∃ held, Inv net held := by
  refine run.invariant (I := fun net => ∃ held, Inv net held) ?_ ⟨[], inv_start fd fd'⟩
  rintro net action net' ⟨held, inv⟩ step
  exact step.inv inv

/-! ### What the receiver makes of it -/

/-- What an interrupted call has written is no more than its line. -/
theorem Ending.piece_clean {ending : Ending} (sound : ending.Sound)
    (clean : newline ∉ ending.line) : ending.piece.Clean newline := by
  cases ending with
  | returned line => exact clean
  | threw line written =>
      obtain ⟨left, something, whole⟩ := sound
      have part : written <+: line := by
        rcases List.append_eq_append_iff.mp whole with ⟨more, rfl, -⟩ | ⟨more, rfl, same⟩
        · exact List.prefix_append written more
        · cases more with
          | nil => simp
          | cons ch more => simp [something] at same
      exact fun inside => clean (part.subset inside)

theorem Inv.pieces_clean (inv : Inv net held) (clean : ∀ line ∈ net.passed, newline ∉ line) :
    ∀ piece ∈ net.pieces, piece.Clean newline := by
  obtain ⟨ended, under⟩ := List.forall_mem_append.mp clean
  refine List.forall_mem_append.mpr ⟨?_, ?_⟩
  · intro piece mem
    obtain ⟨ending, inEndings, rfl⟩ := List.mem_map.mp mem
    exact ending.piece_clean (inv.sound ending inEndings)
      (ended _ (List.mem_map_of_mem inEndings))
  · intro piece mem
    obtain ⟨current, inCurrent, rfl⟩ := List.mem_map.mp mem
    exact under _ (List.mem_map_of_mem inCurrent)

/-- The call under way may complete its line. -/
theorem Inv.pieces_eq (inv : Inv net held) : ∃ unsent,
    net.pieces.flatMap (Piece.symbols newline) = net.wire ++ unsent := by
  have sends := inv.sends
  cases under : net.current with
  | none => exact ⟨[], by simp [Net.pieces, Net.wire, under, List.flatMap_map]⟩
  | some current =>
      cases sender : net.sender with
      | idle client =>
          rw [sender] at sends
          exact absurd (under.symm.trans sends.1) (by simp)
      | busy call =>
          rw [sender] at sends
          obtain ⟨line, written, unsent, same, whole, -⟩ := sends
          obtain rfl : current = (line, written) := Option.some.inj (under.symm.trans same)
          exact ⟨unsent, by simp [Net.pieces, Net.wire, under, List.flatMap_map, Piece.symbols,
            ← whole]⟩

theorem Inv.account_eq (inv : Inv net held) :
    unlines newline net.lines ++ (held ++ net.incoming ++ net.outgoing) = net.wire := by
  rw [inv.account]
  simp

/-- The lines received are the first of those that a reader sees in the pieces
written. -/
theorem Inv.lines_prefix (inv : Inv net held) (clean : ∀ line ∈ net.passed, newline ∉ line) :
    net.lines <+: mended [] net.pieces := by
  obtain ⟨unsent, whole⟩ := inv.pieces_eq
  apply prefix_mended (inv.pieces_clean clean) inv.clean
  rw [whole, ← inv.account_eq, List.append_assoc]

/-- When the sender is idle and nothing is on its way or held, they are all. -/
theorem Inv.lines_eq (inv : Inv net []) {client : TcpClient} (idle : net.sender = .idle client)
    (incoming : net.incoming = []) (outgoing : net.outgoing = [])
    (clean : ∀ line ∈ net.passed, newline ∉ line) : net.lines = mended [] net.pieces := by
  have sends := inv.sends
  rw [idle] at sends
  apply eq_mended (inv.pieces_clean clean) inv.clean
  have account := inv.account_eq
  rw [incoming, outgoing] at account
  simpa [Net.wire, Net.pieces, sends.1, List.flatMap_map] using account

/-- If the calls that threw have written nothing, they make no difference. -/
theorem Net.mended_pieces
    (nothing : ∀ line written, .threw line written ∈ net.endings → written = []) :
    mended [] net.pieces = wholes net.pieces := by
  apply mended_eq_wholes
  intro part mem
  rcases List.mem_append.mp mem with ended | under
  · obtain ⟨ending, inEndings, same⟩ := List.mem_map.mp ended
    cases ending with
    | returned line => cases same
    | threw line written =>
        cases same
        exact nothing line part inEndings
  · simp at under

/-- The lines received, if no line has a newline in it: each is a line whose
`sendLine` returned or is under way, with what the calls that failed before it
have written in front; they are just the lines sent if those have written
nothing. In any case they are the first lines of what was written. -/
theorem lines_mended {fd fd' : FdPtr} (run : Run (Step near far) (start fd fd') actions net) :
    ((∀ line ∈ net.passed, newline ∉ line) →
      net.lines <+: mended [] net.pieces ∧
      List.Forall₂ (· <:+ ·) ((wholes net.pieces).take net.lines.length) net.lines ∧
      ((∀ line written, .threw line written ∈ net.endings → written = []) →
        net.lines <+: wholes net.pieces)) ∧
    net.lines <+: net.wire.splitOn newline := by
  obtain ⟨held, inv⟩ := exists_inv run
  constructor
  · intro clean
    have seen := inv.lines_prefix clean
    refine ⟨seen, ?_, fun nothing => ?_⟩
    · have ends := List.forall₂_take net.lines.length (suffix_mended [] net.pieces)
      rwa [← List.prefix_iff_eq_take.mp seen] at ends
    · rwa [Net.mended_pieces nothing] at seen
  · rw [← inv.account_eq]
    exact prefix_splitOn inv.clean _

/-- `"ab"` broken off after the first byte, and `"c"` sent. -/
def torn : Net :=
  ⟨[.threw [97, 98] [97], .returned [99]], none, .idle (.ofConnection 0), [], [97, 99, 10],
    .idle (.ofConnection 1), []⟩

theorem run_torn : Run (Step ⟨3, by decide⟩ ⟨4, by decide⟩) (start 0 1)
    [.sendLine [97, 98] 3, .write 1, .writeFailed 4, .sendThrew, .sendLine [99] 3, .write 2,
      .sent, .transport 3] torn :=
  .cons (.sendLine [97, 98] 3 rfl) (.cons (.write 1 rfl rfl (by decide))
    (.cons (.writeFailed 4 rfl) (.cons (.sendThrew rfl rfl) (.cons (.sendLine [99] 3 rfl)
    (.cons (.write 2 rfl rfl (by decide)) (.cons (.sent rfl rfl) (.single (.transport 3))))))))

/-- The receiver meets an error, calls again, and has `"ac"`. -/
theorem exists_run_torn : ∃ net : Net,
    Run (Step ⟨3, by decide⟩ ⟨4, by decide⟩) torn
      [.receive .getLine 3, .readFailed 4, .receiveThrew, .receive .getLine 3, .read 3,
        .received] net ∧
      net.endings = torn.endings ∧ net.current = none ∧ net.lines = [[97, 99]] := by
  refine ⟨_, .cons (.receive .getLine 3 rfl (by decide)) (.cons (.readFailed 4 rfl)
    (.cons (.receiveThrew rfl) (.cons (.receive .getLine 3 rfl (by decide))
    (.cons (.read 3 rfl (by decide) (by decide)) (.single (.received rfl)))))), rfl, rfl, rfl⟩

theorem lines_mended_torn : ∃ net : Net, net.lines = [[97, 99]] ∧
    net.lines <+: mended [] net.pieces ∧
    List.Forall₂ (· <:+ ·) ((wholes net.pieces).take net.lines.length) net.lines := by
  obtain ⟨net, run, endings, current, lines⟩ := exists_run_torn
  have clean : ∀ line ∈ net.passed, newline ∉ line := by
    rw [Net.passed, endings, current]
    decide
  obtain ⟨seen, ends, -⟩ := (lines_mended (run_torn.append run)).1 clean
  exact ⟨net, lines, seen, ends⟩

end MarathonKit.Core.Framing.Interrupted
