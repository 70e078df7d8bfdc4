import MarathonKit.Core.TcpClient
import MarathonKit.Dialogue.Faults
import MarathonKit.Dialogue.Run
import MarathonKit.Objects.Store

/-!
Who owns which connection.

A world is the `TcpClient`s that are alive and, for each connection there ever
was, how many `shared_ptr`s own it, whether its socket is closed, and what was
read from it and consumed of it. A client holds a connection by two pointers,
its own and its buffer's. `ownership`: in every world reached, whatever was
moved where, each open connection has exactly one holder, who has exactly what
was read of it and not consumed, and it is closed once, when that holder goes. A
`getChar` that finds its buffer empty and reads nothing hands out a byte all the
same; a run ends there (`UntilWrong`), and only there.

Moving only renames clients (`TcpClient.movable_exchanges`), so the invariant is
stated for whoever holds a connection and kept by `Inv.rename`.
-/

namespace MarathonKit.Core

open Dialogue FileDescriptor Objects

namespace TcpClient

def movable : Movable TcpClient := ⟨moveConstruct, moveAssign, swapWith⟩

theorem movable_exchanges : movable.Exchanges empty :=
  ⟨fun _ => rfl, fun _ _ => rfl, fun _ _ => rfl⟩

end TcpClient

namespace Ownership

/-- The objects and pointers of a program that uses `TcpClient`s. Connections are
numbered in the order they are opened. -/
structure World where
  clients : Store TcpClient
  opened : Nat
  /-- how many `shared_ptr`s own the connection -/
  owners : FdPtr → Nat
  /-- the sockets closed so far, in order -/
  closed : List FdPtr
  received : FdPtr → Bytes
  consumed : FdPtr → Bytes

namespace World

def start : World := ⟨Store.none, 0, fun _ => 0, [], fun _ => [], fun _ => []⟩

/-- One more `shared_ptr` owns `p`. -/
def retain (w : World) (p : FdPtr) : World :=
  { w with owners := Function.update w.owners p (w.owners p + 1) }

/-- A `shared_ptr` goes; with the last owner goes the descriptor, whose
destructor closes the socket. -/
def release (w : World) : Option FdPtr → World
  | none => w
  | some p => { w with
      owners := Function.update w.owners p (w.owners p - 1)
      closed := if w.owners p = 1 then w.closed ++ [p] else w.closed }

/-- `TcpClient i(host, service)`: `mFd` owns the new connection, and
`mLineBuffer(mFd)` does. -/
def connect (w : World) (i : Nat) : World :=
  { (w.retain w.opened).retain w.opened with
    clients := w.clients.put i (some (.ofConnection w.opened))
    opened := w.opened + 1 }

/-- `~TcpClient()`: the members go in the reverse of their order. -/
def destroy (w : World) (i : Nat) (client : TcpClient) : World :=
  { (w.release client.mLineBuffer.mFd).release client.mFd with clients := w.clients.put i none }

/-- After a call on the client named `i`. -/
def after (w : World) (i : Nat) (client client' : TcpClient) (h : List (Event interface))
    (taken : Bytes) : World :=
  { w with
    clients := w.clients.put i (some client')
    received := fun p => w.received p ++ readFrom p h
    consumed := fun p => w.consumed p ++ if client.mFd = some p then taken else [] }

end World

inductive Action where
  | construct (i : Nat)
  | connect (i : Nat)
  | connectFailed (i : Nat)
  | transfer (t : Transfer)
  | destroy (i : Nat)
  | send (i : Nat) (data : Bytes) (outcome : Outcome interface Exn Fault Unit)
  /-- a call on the client named `i`, with what was found in its `mBuffer` -/
  | receive (i : Nat) (found : Bytes) (x : LineBuffer.Exchange)

/-- What an action does. A constructor that throws leaves no client behind. A call
may be at any of its points. -/
def Acts (w : World) : Action → World → Prop
  | .construct i, w' =>
      w.clients i = none ∧ w' = { w with clients := w.clients.put i (some .empty) }
  | .connect i, w' => w.clients i = none ∧ w' = w.connect i
  | .connectFailed i, w' => w.clients i = none ∧ w' = w
  | .transfer t, w' =>
      ∃ clients, TcpClient.movable.Step w.clients t clients ∧ w' = { w with clients := clients }
  | .destroy i, w' => ∃ client, w.clients i = some client ∧ w' = w.destroy i client
  | .send i data outcome, w' =>
      ∃ client h call, w.clients i = some client ∧ (TcpClient.sendRaw data client).Reaches h call ∧
        call.outcome = outcome ∧ w' = w.after i client call.state h []
  | .receive i found x, w' =>
      ∃ client bound call, w.clients i = some client ∧ client.mLineBuffer.mBuffer = found ∧
        (TcpClient.receive x.op bound client).Reaches x.history call ∧ call.outcome = x.outcome ∧
        w' = w.after i client call.state x.history x.consumed

/-- A call goes wrong; nothing is known of the program afterwards. -/
def Action.Faulted : Action → Prop
  | .send _ _ outcome => outcome.Faulted
  | .receive _ _ x => x.outcome.Faulted
  | _ => False

/-- One step from one world to another that is known. -/
def Step (w : World) (action : Action) (w' : World) : Prop := Acts w action w' ∧ ¬ action.Faulted

/-- The client named `i` holds the connection `p`. -/
def Holds (clients : Store TcpClient) (i : Nat) (client : TcpClient) (p : FdPtr) : Prop :=
  clients i = some client ∧ client.mFd = some p

/-- What is true of a client by itself. -/
structure Sound (client : TcpClient) : Prop where
  paired : client.mFd = client.mLineBuffer.mFd
  buffer : client.mLineBuffer.Inv

structure Inv (w : World) : Prop where
  sound : w.clients.All Sound
  unique : ∀ i j client client' p, Holds w.clients i client p → Holds w.clients j client' p → i = j
  /-- a connection that is held is open, and nothing of it is lost -/
  held : ∀ i client p, Holds w.clients i client p → p < w.opened ∧ w.owners p = 2 ∧ p ∉ w.closed ∧
    w.consumed p ++ client.mLineBuffer.mBuffer = w.received p
  /-- one that is not held is closed -/
  gone : ∀ p, p < w.opened → (∀ i client, ¬ Holds w.clients i client p) → p ∈ w.closed
  fresh : ∀ p, w.opened ≤ p →
    w.owners p = 0 ∧ p ∉ w.closed ∧ w.received p = [] ∧ w.consumed p = []
  once : w.closed.Nodup

theorem inv_start : Inv World.start where
  sound := Store.All.none
  unique := by
    rintro i j client client' p ⟨alive, -⟩
    simp [World.start] at alive
  held := by
    rintro i client p ⟨alive, -⟩
    simp [World.start] at alive
  gone := fun p impossible => absurd impossible (Nat.not_lt_zero p)
  fresh := fun p _ => ⟨rfl, by simp [World.start], rfl, rfl⟩
  once := List.nodup_nil

variable {w w' : World} {action : Action} {actions : List Action} {i j : Nat}
  {client client' : TcpClient} {clients : Store TcpClient} {p q : FdPtr}

/-- The invariant does not depend on the names of those who hold something. -/
theorem Inv.rename (inv : Inv w) (sound : clients.All Sound) (e : Equiv.Perm Nat)
    (same : ∀ i client p, Holds clients i client p ↔ Holds w.clients (e i) client p) :
    Inv { w with clients := clients } where
  sound := sound
  unique := fun i j client client' p first second =>
    e.injective (inv.unique _ _ client client' p ((same i client p).mp first)
      ((same j client' p).mp second))
  held := fun i client p holds => inv.held _ client p ((same i client p).mp holds)
  gone := fun p isOpen nobody => inv.gone p isOpen fun i client holds =>
    nobody (e.symm i) client ((same _ client p).mpr (by rwa [Equiv.apply_symm_apply]))
  fresh := inv.fresh
  once := inv.once

theorem holds_put : Holds (clients.put i (some client)) j client' p ↔
    (j = i ∧ client' = client ∧ client.mFd = some p) ∨ (j ≠ i ∧ Holds clients j client' p) := by
  by_cases same : j = i
  · subst same
    simp only [Holds, Store.put_same, Option.some.injEq, ne_eq, not_true, false_and, or_false,
      true_and]
    constructor
    · rintro ⟨rfl, points⟩
      exact ⟨rfl, points⟩
    · rintro ⟨rfl, points⟩
      exact ⟨rfl, points⟩
  · simp [Holds, Store.put_of_ne same, same]

/-- A client that holds nothing changes nothing. -/
theorem holds_put_blank (free : clients i = none) (blank : client.mFd = none) :
    Holds (clients.put i (some client)) j client' p ↔ Holds clients j client' p := by
  rw [holds_put]
  constructor
  · rintro (⟨-, -, points⟩ | ⟨-, holds⟩)
    · simp [blank] at points
    · exact holds
  · intro holds
    refine .inr ⟨?_, holds⟩
    rintro rfl
    simp [Holds, free] at holds

theorem sound_empty : Sound .empty := ⟨rfl, rfl, fun _ => rfl⟩

theorem Inv.construct (inv : Inv w) (free : w.clients i = none) :
    Inv { w with clients := w.clients.put i (some .empty) } := by
  refine inv.rename (inv.sound.put ?_) (Equiv.refl Nat) fun j client p => holds_put_blank free rfl
  rintro client ⟨⟩
  exact sound_empty

theorem Inv.transfer (inv : Inv w) {t : Transfer}
    (moved : TcpClient.movable.Step w.clients t clients) : Inv { w with clients := clients } := by
  have sound : clients.All Sound :=
    Movable.Step.all TcpClient.movable_exchanges sound_empty moved inv.sound
  rcases Movable.Step.renames TcpClient.movable_exchanges moved with
    ⟨e, rfl | ⟨i, free, rfl⟩⟩
  · exact inv.rename sound e fun _ _ _ => Iff.rfl
  · exact inv.rename sound e fun _ _ _ => holds_put_blank free rfl

/-! ### Connecting and disconnecting -/

theorem connect_owners :
    (w.connect i).owners q = if q = w.opened then w.owners q + 2 else w.owners q := by
  by_cases same : q = w.opened
  · subst same
    simp [World.connect, World.retain]
  · simp [World.connect, World.retain, same]

theorem holds_connect : Holds (w.connect i).clients j client p ↔
    (j = i ∧ client = .ofConnection w.opened ∧ p = w.opened) ∨
    (j ≠ i ∧ Holds w.clients j client p) := by
  unfold World.connect
  rw [holds_put, TcpClient.ofConnection, Option.some.injEq, eq_comm (a := w.opened)]

theorem Inv.connect (inv : Inv w) (free : w.clients i = none) : Inv (w.connect i) := by
  have notHeld : ∀ j client, ¬ Holds w.clients j client w.opened := fun j client holds =>
    absurd (inv.held j client _ holds).1 (Nat.lt_irrefl _)
  obtain ⟨noOwner, notClosed, noneReceived, noneConsumed⟩ := inv.fresh w.opened (Nat.le_refl _)
  constructor
  · apply inv.sound.put
    rintro client ⟨⟩
    exact ⟨rfl, rfl, fun _ => rfl⟩
  · intro j k client client' p first second
    rcases holds_connect.mp first with ⟨rfl, -, rfl⟩ | ⟨-, first⟩
    · rcases holds_connect.mp second with ⟨rfl, -, -⟩ | ⟨-, second⟩
      · rfl
      · exact absurd second (notHeld k client')
    · rcases holds_connect.mp second with ⟨-, -, rfl⟩ | ⟨-, second⟩
      · exact absurd first (notHeld j client)
      · exact inv.unique j k client client' p first second
  · intro j client p holds
    rcases holds_connect.mp holds with ⟨-, rfl, rfl⟩ | ⟨-, holds⟩
    · refine ⟨Nat.lt_succ_self _, by simp [connect_owners, noOwner], notClosed, ?_⟩
      simpa [TcpClient.ofConnection, LineBuffer.ofFd, noneReceived, World.connect, World.retain]
        using noneConsumed
    · obtain ⟨isOpen, owned, notClosed, balanced⟩ := inv.held j client p holds
      refine ⟨Nat.lt_succ_of_lt isOpen, ?_, notClosed, balanced⟩
      rw [connect_owners, if_neg (Nat.ne_of_lt isOpen), owned]
  · intro p isOpen nobody
    have other : p ≠ w.opened := by
      rintro rfl
      exact nobody i (.ofConnection w.opened) (holds_connect.mpr (.inl ⟨rfl, rfl, rfl⟩))
    apply inv.gone p (Nat.lt_of_le_of_ne (Nat.le_of_lt_succ isOpen) other)
    intro j client holds
    refine nobody j client (holds_connect.mpr (.inr ⟨?_, holds⟩))
    rintro rfl
    simp [Holds, free] at holds
  · intro p later
    have other : p ≠ w.opened := Nat.ne_of_gt later
    obtain ⟨noOwner, rest⟩ := inv.fresh p (Nat.le_of_lt later)
    exact ⟨by rw [connect_owners, if_neg other, noOwner], rest⟩
  · exact inv.once

/-- The two owners of a connection go, and the socket is closed, once. -/
theorem release_release (owned : w.owners p = 2) :
    (w.release (some p)).release (some p) =
      { w with owners := Function.update w.owners p 0, closed := w.closed ++ [p] } := by
  simp [World.release, owned]

theorem destroy_disconnected (sound : Sound client) (blank : client.mFd = none) :
    w.destroy i client = { w with clients := w.clients.put i none } := by
  simp [World.destroy, ← sound.paired, blank, World.release]

theorem destroy_connected (sound : Sound client) (points : client.mFd = some p)
    (owned : w.owners p = 2) :
    w.destroy i client = { w with
      clients := w.clients.put i none
      owners := Function.update w.owners p 0
      closed := w.closed ++ [p] } := by
  simp [World.destroy, ← sound.paired, points, release_release owned]

theorem holds_put_none :
    Holds (clients.put i none) j client p ↔ j ≠ i ∧ Holds clients j client p := by
  by_cases same : j = i
  · simp [Holds, same]
  · simp [Holds, Store.put_of_ne same, same]

theorem Inv.destroy (inv : Inv w) (alive : w.clients i = some client) :
    Inv (w.destroy i client) := by
  have sound : Sound client := inv.sound i client alive
  have rest : (w.clients.put i none).All Sound := inv.sound.put (by simp)
  cases points : client.mFd with
  | none =>
      rw [destroy_disconnected sound points]
      apply inv.rename rest (Equiv.refl Nat)
      intro j other p
      rw [holds_put_none]
      refine ⟨And.right, fun holds => ⟨?_, holds⟩⟩
      rintro rfl
      obtain rfl : client = other := Option.some.inj (alive.symm.trans holds.1)
      simp [Holds, points] at holds
  | some p =>
      have holder : Holds w.clients i client p := ⟨alive, points⟩
      obtain ⟨isOpen, owned, notClosed, -⟩ := inv.held i client p holder
      rw [destroy_connected sound points owned]
      have others : ∀ {j other q}, Holds (w.clients.put i none) j other q →
          Holds w.clients j other q ∧ q ≠ p := by
        intro j other q holds
        obtain ⟨elsewhere, holds⟩ := holds_put_none.mp holds
        refine ⟨holds, ?_⟩
        rintro rfl
        exact elsewhere (inv.unique j i other client q holds holder)
      constructor
      · exact rest
      · intro j k first second q holds holds'
        exact inv.unique j k first second q (others holds).1 (others holds').1
      · intro j other q holds
        obtain ⟨holds, distinct⟩ := others holds
        obtain ⟨isOpen, owned, notClosed, balanced⟩ := inv.held j other q holds
        exact ⟨isOpen, by simp [distinct, owned], by simp [distinct, notClosed], balanced⟩
      · intro q isOpen nobody
        by_cases same : q = p
        · simp [same]
        · refine List.mem_append_left _ (inv.gone q isOpen fun j other holds => ?_)
          refine nobody j other (holds_put_none.mpr ⟨?_, holds⟩)
          rintro rfl
          obtain rfl : client = other := Option.some.inj (alive.symm.trans holds.1)
          exact same (Option.some.inj (holds.2.symm.trans points))
      · intro q later
        have distinct : q ≠ p := by
          rintro rfl
          exact Nat.not_lt.mpr later isOpen
        obtain ⟨noOwner, notClosed, rest⟩ := inv.fresh q later
        exact ⟨by simp [distinct, noOwner], by simp [distinct, notClosed], rest⟩
      · exact List.nodup_append.mpr ⟨inv.once, by simp, by
          rintro a mem b single rfl
          obtain rfl : a = p := by simpa using single
          exact notClosed mem⟩

/-! ### Calling -/

/-- What a call has done to its client: it has moved bytes of the connection
that the client holds, and of no other. -/
structure Effect (client client' : TcpClient) (h : List (Event interface)) (taken : Bytes) :
    Prop where
  mFd : client'.mFd = client.mFd
  sound : Sound client'
  targets : ∀ event ∈ h, event.request.target = client.mFd
  conserved : taken ++ client'.mLineBuffer.mBuffer = client.mLineBuffer.mBuffer ++ bytesRead h

variable {h : List (Event interface)}

theorem effect_receive (sound : Sound client) {op : LineBuffer.Op} {bound : Nat}
    {call : Call interface Exn Fault TcpClient LineBuffer.Value}
    (reached : (TcpClient.receive op bound client).Reaches h call) :
    Effect client call.state h (LineBuffer.consumed call.outcome) := by
  have everywhere := TcpClient.receive_wp sound.buffer op bound
  obtain ⟨sameFd, post⟩ := everywhere.reaches reached
  refine ⟨sameFd, ⟨?_, post.inv⟩, ?_, post.conserved⟩
  · rw [sameFd, post.sameFd, sound.paired]
  · rw [sound.paired]
    exact Call.wp.asked (everywhere.mono fun _ _ _ post => post.2.asks) reached

/-- Sending asks for one `write` of the connection held, or throws. -/
theorem send_wp (sound : Sound client) (data : Bytes) :
    (TcpClient.sendRaw data client).wp fun h o client' => client' = client ∧ bytesRead h = [] ∧
      (∀ q, o = .asking q → q.target = client.mFd) ∧ ∀ f, o ≠ .faulted f := by
  cases points : client.mFd with
  | none =>
      rw [TcpClient.sendRaw_disconnected (by rw [← sound.paired, points])]
      simp
  | some p =>
      rw [TcpClient.sendRaw_apply ⟨points, by rw [← sound.paired, points]⟩]
      refine ⟨by simp [Request.target], fun a => ?_⟩
      cases a with
      | ok _ => simp [bytesRead]
      | error e => simp [bytesRead]

theorem send_noFault (sound : Sound client) (data : Bytes) :
    (TcpClient.sendRaw data client).OnlyFaults fun _ => False :=
  (send_wp sound data).mono fun _ _ _ post x faulted => post.2.2.2 x faulted

theorem effect_send (sound : Sound client) {data : Bytes}
    {call : Call interface Exn Fault TcpClient Unit}
    (reached : (TcpClient.sendRaw data client).Reaches h call) :
    Effect client call.state h [] := by
  have everywhere := send_wp sound data
  obtain ⟨same, nothing, -, -⟩ := everywhere.reaches reached
  refine ⟨by rw [same], by rwa [same], ?_, by simp [same, nothing]⟩
  exact Call.wp.asked (everywhere.mono fun _ _ _ post => post.2.2.1) reached

/-- A call changes no holder. -/
theorem holds_after (alive : w.clients i = some client) {taken : Bytes} {other : TcpClient}
    (effect : Effect client client' h taken) :
    Holds (w.after i client client' h taken).clients j other p ↔
      (j = i ∧ other = client' ∧ Holds w.clients i client p) ∨
      (j ≠ i ∧ Holds w.clients j other p) := by
  unfold World.after
  rw [holds_put, effect.mFd]
  simp only [Holds, alive, true_and]

theorem Inv.after (inv : Inv w) (alive : w.clients i = some client) {taken : Bytes}
    (effect : Effect client client' h taken) : Inv (w.after i client client' h taken) := by
  have moved : ∀ {p}, client.mFd = some p → readFrom p h = bytesRead h := by
    intro p points
    rw [readFrom_of_target effect.targets, if_pos points]
  have unmoved : ∀ {p}, client.mFd ≠ some p → readFrom p h = [] := by
    intro p elsewhere
    rw [readFrom_of_target effect.targets, if_neg elsewhere]
  constructor
  · apply inv.sound.put
    rintro other ⟨⟩
    exact effect.sound
  · intro j k first second p holds holds'
    rcases (holds_after alive effect).mp holds with ⟨rfl, -, before⟩ | ⟨-, before⟩
    · rcases (holds_after alive effect).mp holds' with ⟨rfl, -, -⟩ | ⟨-, before'⟩
      · rfl
      · exact inv.unique _ _ _ _ p before before'
    · rcases (holds_after alive effect).mp holds' with ⟨rfl, -, before'⟩ | ⟨-, before'⟩
      · exact inv.unique _ _ _ _ p before before'
      · exact inv.unique _ _ _ _ p before before'
  · intro j other p holds
    rcases (holds_after alive effect).mp holds with ⟨rfl, rfl, before⟩ | ⟨distinct, before⟩
    · obtain ⟨isOpen, owned, notClosed, balanced⟩ := inv.held _ _ p before
      refine ⟨isOpen, owned, notClosed, ?_⟩
      have points : client.mFd = some p := before.2
      simp only [World.after, points, if_true, moved points, List.append_assoc, effect.conserved,
        ← balanced]
    · obtain ⟨isOpen, owned, notClosed, balanced⟩ := inv.held _ _ p before
      refine ⟨isOpen, owned, notClosed, ?_⟩
      have elsewhere : client.mFd ≠ some p := fun points =>
        distinct (inv.unique _ _ _ _ p before ⟨alive, points⟩)
      simpa [World.after, elsewhere, unmoved elsewhere] using balanced
  · intro p isOpen nobody
    apply inv.gone p isOpen
    intro j other holds
    by_cases same : j = i
    · subst same
      obtain rfl : client = other := Option.some.inj (alive.symm.trans holds.1)
      exact nobody j client' ((holds_after alive effect).mpr (.inl ⟨rfl, rfl, holds⟩))
    · exact nobody j other ((holds_after alive effect).mpr (.inr ⟨same, holds⟩))
  · intro p later
    obtain ⟨noOwner, notClosed, noneReceived, noneConsumed⟩ := inv.fresh p later
    have elsewhere : client.mFd ≠ some p := fun points =>
      absurd (inv.held i client p ⟨alive, points⟩).1 (Nat.not_lt.mpr later)
    refine ⟨noOwner, notClosed, ?_, ?_⟩
    · simp [World.after, noneReceived, unmoved elsewhere]
    · simp [World.after, noneConsumed, elsewhere]
  · exact inv.once

/-! ### Runs -/

theorem Acts.inv (acts : Acts w action w') (inv : Inv w) : Inv w' := by
  cases action with
  | construct i =>
      obtain ⟨free, rfl⟩ := acts
      exact inv.construct free
  | connect i =>
      obtain ⟨free, rfl⟩ := acts
      exact inv.connect free
  | connectFailed i =>
      obtain ⟨-, rfl⟩ := acts
      exact inv
  | transfer t =>
      obtain ⟨clients, moved, rfl⟩ := acts
      exact inv.transfer moved
  | destroy i =>
      obtain ⟨client, alive, rfl⟩ := acts
      exact inv.destroy alive
  | send i data outcome =>
      obtain ⟨client, h, call, alive, reached, -, rfl⟩ := acts
      exact inv.after alive (effect_send (inv.sound i client alive) reached)
  | receive i found x =>
      obtain ⟨client, bound, call, alive, -, reached, outcome, rfl⟩ := acts
      have effect := effect_receive (inv.sound i client alive) reached
      rw [outcome] at effect
      exact inv.after alive effect

theorem Step.inv (step : Step w action w') (inv : Inv w) : Inv w' := step.1.inv inv

theorem inv_of_run (run : Run Step World.start actions w) : Inv w :=
  run.invariant (fun _ _ _ inv step => step.inv inv) inv_start

/-- The sockets an action closes. -/
def closes (w : World) : Action → List FdPtr
  | .destroy i => ((w.clients i).bind TcpClient.mFd).toList
  | _ => []

theorem Step.closed (step : Step w action w') (inv : Inv w) :
    w'.closed = w.closed ++ closes w action := by
  obtain ⟨acts, -⟩ := step
  cases action with
  | destroy i =>
      obtain ⟨client, alive, rfl⟩ := acts
      have sound : Sound client := inv.sound i client alive
      cases points : client.mFd with
      | none => simp [destroy_disconnected sound points, closes, alive, points]
      | some p =>
          obtain ⟨-, owned, -, -⟩ := inv.held i client p ⟨alive, points⟩
          simp [destroy_connected sound points owned, closes, alive, points]
  | transfer t =>
      obtain ⟨clients, -, rfl⟩ := acts
      simp [closes]
  | send i data outcome =>
      obtain ⟨client, h, call, -, -, -, rfl⟩ := acts
      simp [closes, World.after]
  | receive i found x =>
      obtain ⟨client, bound, call, -, -, -, -, rfl⟩ := acts
      simp [closes, World.after]
  | _ =>
      obtain ⟨-, rfl⟩ := acts
      simp [closes, World.connect, World.retain]

/-- The clients are the same under other names, with a blank one if one was
constructed. -/
def Renamed (clients clients' : Store TcpClient) : Prop :=
  ∃ e : Equiv.Perm Nat, clients' = clients ∘ e ∨
    ∃ i, clients i = none ∧ clients' = clients.put i (some .empty) ∘ e

theorem Step.renamed {t : Transfer} (step : Step w (.transfer t) w') :
    Renamed w.clients w'.clients ∧ w' = { w with clients := w'.clients } := by
  obtain ⟨⟨clients, moved, rfl⟩, -⟩ := step
  exact ⟨Movable.Step.renames TcpClient.movable_exchanges moved, rfl⟩

/-- Who owns which connection, and what becomes of them. -/
structure Owned (w : World) : Prop where
  paired : ∀ i client, w.clients i = some client → client.mFd = client.mLineBuffer.mFd
  /-- no `send` dereferences a null pointer, nor goes wrong otherwise -/
  sends : ∀ i client data, w.clients i = some client →
    (TcpClient.sendRaw data client).OnlyFaults fun _ => False
  /-- an open connection has one holder, -/
  holder : ∀ p, p < w.opened → p ∉ w.closed → ∃! i, ∃ client, Holds w.clients i client p
  /-- with what was read of it and not consumed, -/
  conserved : ∀ i client p, Holds w.clients i client p →
    w.consumed p ++ client.mLineBuffer.mBuffer = w.received p
  /-- and is closed once, -/
  once : w.closed.Nodup
  released : ∀ p ∈ w.closed, p < w.opened ∧ ∀ i client, ¬ Holds w.clients i client p
  /-- by the destruction of its holder -/
  closes : ∀ action w', Step w action w' → w'.closed = w.closed ++ closes w action
  renames : ∀ t w', Step w (.transfer t) w' →
    Renamed w.clients w'.clients ∧ w' = { w with clients := w'.clients }

theorem Inv.owned (inv : Inv w) : Owned w where
  paired := fun i client alive => (inv.sound i client alive).paired
  sends := fun i client data alive => send_noFault (inv.sound i client alive) data
  holder := by
    intro p isOpen notClosed
    obtain ⟨i, client, holds⟩ : ∃ i client, Holds w.clients i client p := by
      by_contra nobody
      push Not at nobody
      exact notClosed (inv.gone p isOpen nobody)
    refine ⟨i, ⟨client, holds⟩, ?_⟩
    rintro j ⟨client', holds'⟩
    exact inv.unique j i client' client p holds' holds
  conserved := fun i client p holds => (inv.held i client p holds).2.2.2
  once := inv.once
  released := by
    intro p closed
    refine ⟨?_, fun i client holds => (inv.held i client p holds).2.2.1 closed⟩
    by_contra notOpen
    exact (inv.fresh p (Nat.not_lt.mp notOpen)).2.1 closed
  closes := fun action w' step => step.closed inv
  renames := fun t w' step => step.renamed

/-! ### Where a run goes wrong -/

/-- `getChar` on a client with an empty buffer, whose read returns `""`. -/
def Action.ReadsNothing : Action → Prop
  | .receive _ found x => x.op.ReadsNothing found x.history
  | _ => False

theorem Acts.faulted_iff (acts : Acts w action w') (inv : Inv w) :
    action.Faulted ↔ action.ReadsNothing := by
  cases action with
  | send i data outcome =>
      obtain ⟨client, h, call, alive, reached, rfl, -⟩ := acts
      refine iff_of_false (fun faulted => ?_) id
      obtain ⟨x, same⟩ := Outcome.faulted_iff.mp faulted
      exact ((send_wp (inv.sound i client alive) data).reaches reached).2.2.2 x same
  | receive i found x =>
      obtain ⟨client, bound, call, alive, rfl, reached, outcome, -⟩ := acts
      rw [Action.Faulted, ← outcome]
      exact (TcpClient.receive_faulted (inv.sound i client alive).buffer x.op bound).reaches reached
  | _ => exact Iff.rfl

/-- A call that has gone wrong was made where all that was read is consumed; a
byte more, whichever it is, was not read. -/
theorem Acts.overdrawn (acts : Acts w action w') (inv : Inv w) (faulted : action.Faulted) :
    ∃ i client p, Holds w.clients i client p ∧
      ∀ ch mBuffer, w.consumed p ++ [ch] ++ mBuffer ≠ w'.received p := by
  have nothing := (acts.faulted_iff inv).mp faulted
  cases action with
  | receive i found x =>
      obtain ⟨client, bound, call, alive, rfl, reached, outcome, rfl⟩ := acts
      obtain ⟨f, same⟩ := Outcome.faulted_iff.mp faulted
      have sound := inv.sound i client alive
      have post := ((TcpClient.receive_wp sound.buffer x.op bound).reaches reached).2
      obtain ⟨-, -, isEmpty, p, points, history⟩ := post.faults f (outcome.trans same)
      have holds : Holds w.clients i client p := ⟨alive, sound.paired.trans points⟩
      refine ⟨i, client, p, holds, fun ch mBuffer equal => ?_⟩
      have balanced := (inv.held i client p holds).2.2.2
      rw [isEmpty, List.append_nil] at balanced
      simp [World.after, history, readFrom, balanced, Request.target, bytesRead] at equal
  | _ => exact nothing.elim

variable {reached : Option World}

/-- In every world reached connections are owned as they should be, and a run ends
in a world that is known exactly if no `getChar` of it finds its buffer empty and
reads nothing. Where one does, what is consumed of its connection and whatever is
buffered then are not the bytes that were read. -/
theorem ownership
    (run : Run (UntilWrong Acts Action.Faulted) (some World.start) actions reached) :
    ((∃ w, reached = some w ∧ Owned w) ↔ ∀ action ∈ actions, ¬ action.ReadsNothing) ∧
    (reached = none → ∃ before last w w' i client p, actions = before ++ [last] ∧
      Run Step World.start before w ∧ Acts w last w' ∧ Holds w.clients i client p ∧
      ∀ ch mBuffer, w.consumed p ++ [ch] ++ mBuffer ≠ w'.received p) := by
  have each : ∀ action ∈ actions, action.Faulted ↔ action.ReadsNothing :=
    run.all_acts (fun _ _ _ inv acts => ⟨acts.inv inv, acts.faulted_iff inv⟩) inv_start
  have known : reached.isSome ↔ ∀ action ∈ actions, ¬ action.ReadsNothing :=
    run.isSome_iff.trans (forall₂_congr fun action mem => not_congr (each action mem))
  constructor
  · rw [← known, Option.isSome_iff_exists]
    refine exists_congr fun w => ⟨And.left, ?_⟩
    rintro rfl
    exact ⟨rfl, (inv_of_run (Run.known_iff.mp run)).owned⟩
  · rintro rfl
    obtain ⟨before, last, w, w', rfl, safe, acts, faulted⟩ := Run.ended_iff.mp run
    obtain ⟨i, client, p, holds, more⟩ := acts.overdrawn (inv_of_run safe) faulted
    exact ⟨before, last, w, w', i, client, p, rfl, safe, acts, holds, more⟩

/-- A connection is opened, read to the middle of a line, moved to another
client and written to there; the client moved from is destroyed. -/
theorem exists_run_moved : ∃ w, Run Step World.start [.connect 0,
      .receive 0 [] ⟨.getChar, [⟨.read 0, .ok [104, 10]⟩], .returned (.char 104)⟩,
      .transfer (.construct 1 0), .send 1 [105] (.asking (.write 0 [105])), .destroy 0] w ∧
    w.opened = 1 ∧ w.closed = [] ∧ w.consumed 0 = [104] ∧ w.received 0 = [104, 10] := by
  have reads : Acts (World.start.connect 0)
      (.receive 0 [] ⟨.getChar, [⟨.read 0, .ok [104, 10]⟩], .returned (.char 104)⟩) _ :=
    ⟨.ofConnection 0, 0, _, rfl, rfl, .answer (.here _), rfl, rfl⟩
  refine ⟨_, .cons ⟨⟨rfl, rfl⟩, id⟩ (.cons ⟨reads, id⟩
    (.cons ⟨⟨_, ⟨rfl, _, rfl, rfl⟩, rfl⟩, id⟩ (.cons ⟨⟨_, [], _, rfl, .here _, rfl, rfl⟩, id⟩
    (.single ⟨⟨_, rfl, rfl⟩, id⟩)))), rfl, rfl, rfl, rfl⟩

theorem ownership_moved : ∃ w : World, w.consumed 0 = [104] ∧ w.received 0 = [104, 10] ∧
    ∃! i, ∃ client, Holds w.clients i client 0 := by
  obtain ⟨w, run, opened, closed, consumed, received⟩ := exists_run_moved
  obtain ⟨_, ⟨⟩, owned⟩ := (ownership (Run.known_iff.mpr run)).1.mpr (by
    simp [Action.ReadsNothing, LineBuffer.Op.ReadsNothing])
  refine ⟨w, consumed, received, owned.holder 0 ?_ ?_⟩
  · simp [opened]
  · simp [closed]

/-- The peer has closed, and the client is asked for a character. -/
def endOfStreamRead : LineBuffer.Exchange :=
  ⟨.getChar, [⟨.read 0, .ok []⟩], .faulted .frontOfEmpty⟩

theorem acts_endOfStream : ∃ w w', Run Step World.start [.connect 0] w ∧
    Acts w (.receive 0 [] endOfStreamRead) w' ∧ w.consumed 0 = [] ∧ w'.received 0 = [] :=
  ⟨World.start.connect 0, _, .single ⟨⟨rfl, rfl⟩, id⟩,
    ⟨.ofConnection 0, 0, _, rfl, rfl, .answer (.here _), rfl, rfl⟩, rfl, rfl⟩

theorem ownership_fails :
    (¬ ∀ actions reached, Run (UntilWrong Acts Action.Faulted) (some World.start) actions reached →
      ∃ w, reached = some w ∧ Owned w) ∧
    ∃ w w', Run Step World.start [.connect 0] w ∧ Acts w (.receive 0 [] endOfStreamRead) w' ∧
      ∀ ch mBuffer, w.consumed 0 ++ [ch] ++ mBuffer ≠ w'.received 0 := by
  obtain ⟨w, w', run, acts, consumed, received⟩ := acts_endOfStream
  constructor
  · intro always
    obtain ⟨_, impossible, -⟩ := always _ none
      ((Run.known_iff.mpr run).snoc (.goesWrong acts trivial))
    cases impossible
  · exact ⟨w, w', run, acts, by simp [consumed, received]⟩

end Ownership

end MarathonKit.Core
