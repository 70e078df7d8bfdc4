import MarathonKit.Core.Descriptors
import MarathonKit.Core.Ownership

/-!
The clients of a program and the descriptors of its process.

`Core.Ownership` has connections that are held by pointers and never mixed up;
`Core.Descriptors` has objects with numbers that the kernel uses again. Here both
are one program: a client that connects makes an object of class
`StreamFileDescriptor`, and where the last pointer to a connection goes its object
is destroyed. Besides, the program opens and closes descriptors and has objects
of its own, as in `Core.Descriptors`.

`sockets` says that programs which use `TcpClient`s need not see to anything for
them: the steps of clients are proper steps of the process (`Inv`), so that each
connection held is a socket of its own, and a socket is open no longer than some
client holds it.
-/

namespace MarathonKit.Core.Sockets

open Dialogue FileDescriptor Objects

structure World where
  clients : Ownership.World
  process : Descriptors.World

def start : World := ⟨Ownership.World.start, Descriptors.start⟩

/-- The name of the object behind a connection. -/
def objectOf (p : FdPtr) : Nat := 2 * p

/-- The objects of the program itself have other names. -/
def Own : Descriptors.Action → Prop
  | .createOwnerOf i _ _ | .create i _ | .destroy i => ∀ p, i ≠ objectOf p
  | _ => True

/-- What changes no connection. -/
def Quiet : Ownership.Action → Prop
  | .connect _ | .connectFailed _ | .destroy _ => False
  | _ => True

inductive Action where
  | own (action : Descriptors.Action)
  | connect (i : Nat) (host service : String)
  | destroy (i : Nat)
  | quiet (action : Ownership.Action)

/-- One step, not one that goes wrong: a run ends with such a call, and nothing is
said of what follows it. A client that goes takes the connections with it that have
no other owner. -/
inductive Step (texts : Network.Texts) : World → Action → World → Prop where
  | own {w : World} {action : Descriptors.Action} {process : Descriptors.World} :
      Own action → Descriptors.ProperStep texts w.process action process →
      Step texts w (.own action) ⟨w.clients, process⟩
  | connect {w : World} {i : Nat} {host service : String} {descriptor : Descriptors.Descriptor}
      {k : Descriptors.Kernel} {clients : Ownership.World} :
      Descriptors.Creates texts w.process.kernel (.tcpConnection host service) (.ok descriptor)
        k →
      Ownership.Step w.clients (.connect i) clients →
      Step texts w (.connect i host service)
        ⟨clients, w.process.add (objectOf w.clients.opened) descriptor k⟩
  | connectFailed {w : World} {i : Nat} {host service : String} {e : Exn}
      {k : Descriptors.Kernel} {clients : Ownership.World} :
      Descriptors.Creates texts w.process.kernel (.tcpConnection host service) (.error e) k →
      Ownership.Step w.clients (.connectFailed i) clients →
      Step texts w (.connect i host service) ⟨clients, { w.process with kernel := k }⟩
  | destroy {w : World} {i : Nat} {clients : Ownership.World} {gone : List FdPtr}
      {process : Descriptors.World} :
      Ownership.Step w.clients (.destroy i) clients →
      clients.closed = w.clients.closed ++ gone →
      Run (Descriptors.Step texts) w.process (gone.map fun p => .destroy (objectOf p)) process →
      Step texts w (.destroy i) ⟨clients, process⟩
  | quiet {w : World} {action : Ownership.Action} {clients : Ownership.World} :
      Quiet action → Ownership.Step w.clients action clients →
      Step texts w (.quiet action) ⟨clients, w.process⟩

/-- A connection that is open is an object of the process, and one that is not is
none. -/
structure Inv (w : World) : Prop where
  clients : Ownership.Inv w.clients
  process : Descriptors.Inv w.process
  alive : ∀ p, p < w.clients.opened → p ∉ w.clients.closed →
    ∃ self file, w.process.objects (objectOf p) = some ⟨.stream self, file⟩
  gone : ∀ p, (p < w.clients.opened → p ∈ w.clients.closed) →
    w.process.objects (objectOf p) = none

variable {texts : Network.Texts} {w w' : World} {action : Action} {actions : List Action}
  {p q : FdPtr} {i : Nat}

theorem objectOf_injective (same : objectOf p = objectOf q) : p = q :=
  Nat.eq_of_mul_eq_mul_left Nat.two_pos same

theorem inv_start : Inv start where
  clients := Ownership.inv_start
  process := Descriptors.inv_start
  alive := fun p impossible => absurd impossible (Nat.not_lt_zero p)
  gone := fun _ _ => rfl

/-- What the program does with its own objects leaves those of clients alone. -/
theorem objects_own {process process' : Descriptors.World} {action : Descriptors.Action}
    (own : Own action) (step : Descriptors.Step texts process action process') (p : FdPtr) :
    process'.objects (objectOf p) = process.objects (objectOf p) := by
  cases step with
  | createOwnerOf _ _ => exact Store.put_of_ne (own p).symm
  | create _ _ => exact Store.put_of_ne (own p).symm
  | destroy _ _ _ => exact Store.put_of_ne (own p).symm
  | _ => rfl

theorem same_of_quiet {clients clients' : Ownership.World} {action : Ownership.Action}
    (quiet : Quiet action) (step : Ownership.Step clients action clients') :
    clients'.opened = clients.opened ∧ clients'.closed = clients.closed := by
  obtain ⟨acts, -⟩ := step
  cases action with
  | construct i =>
      obtain ⟨-, rfl⟩ := acts
      exact ⟨rfl, rfl⟩
  | transfer t =>
      obtain ⟨clients, -, rfl⟩ := acts
      exact ⟨rfl, rfl⟩
  | send i data outcome =>
      obtain ⟨client, h, call, -, -, -, rfl⟩ := acts
      exact ⟨rfl, rfl⟩
  | receive i found x =>
      obtain ⟨client, bound, call, -, -, -, -, rfl⟩ := acts
      exact ⟨rfl, rfl⟩
  | _ => exact quiet.elim

theorem stream_of_creates {k k' : Descriptors.Kernel} {host service : String}
    {descriptor : Descriptors.Descriptor}
    (creates : Descriptors.Creates texts k (.tcpConnection host service) (.ok descriptor) k') :
    ∃ self, descriptor = .stream self := by
  generalize made : (Except.ok descriptor : Except Exn Descriptors.Descriptor) = result at creates
  cases creates with
  | tcpConnection exits ran =>
      obtain ⟨self, -, same⟩ := Descriptors.exists_of_map made.symm
      exact ⟨self, same⟩

theorem objects_destroy {process process' : Descriptors.World} {i j : Nat}
    (step : Descriptors.Step texts process (.destroy i) process') :
    process'.objects j = if j = i then none else process.objects j := by
  cases step with
  | destroy _ _ _ =>
      by_cases same : j = i
      · simp [Descriptors.World.remove, same]
      · simp [Descriptors.World.remove, Store.put_of_ne same, same]

/-- The objects behind some connections go, and no others. -/
theorem objects_destroys {process process' : Descriptors.World} {gone : List FdPtr}
    (run : Run (Descriptors.Step texts) process (gone.map fun p => .destroy (objectOf p)) process')
    (inv : Descriptors.Inv process) : Descriptors.Inv process' ∧
      ∀ p, process'.objects (objectOf p) =
        if p ∈ gone then none else process.objects (objectOf p) := by
  induction gone generalizing process with
  | nil =>
      cases run
      exact ⟨inv, by simp⟩
  | cons q gone ih =>
      cases run with
      | cons once rest =>
          obtain ⟨after, objects⟩ := ih rest (once.inv trivial inv)
          refine ⟨after, fun p => ?_⟩
          rw [objects, objects_destroy once]
          by_cases same : p = q
          · simp [same]
          · have other : objectOf p ≠ objectOf q := fun equal => same (objectOf_injective equal)
            simp [same, other]

theorem opened_destroy {clients : Ownership.World} {client : TcpClient} :
    (clients.destroy i client).opened = clients.opened := by
  unfold Ownership.World.destroy
  cases client.mFd <;> cases client.mLineBuffer.mFd <;> rfl

theorem Inv.connect (inv : Inv w) {host service : String} {clients : Ownership.World}
    {descriptor : Descriptors.Descriptor} {k : Descriptors.Kernel}
    (creates : Descriptors.Creates texts w.process.kernel (.tcpConnection host service)
      (.ok descriptor) k)
    (connected : Ownership.Step w.clients (.connect i) clients) :
    Inv ⟨clients, w.process.add (objectOf w.clients.opened) descriptor k⟩ := by
  have free := inv.gone w.clients.opened fun impossible =>
    absurd impossible (Nat.lt_irrefl _)
  have made : Descriptors.Step texts w.process (.create (objectOf w.clients.opened)
      (.tcpConnection host service)) _ := .create free creates
  have clientsInv := connected.inv inv.clients
  obtain ⟨⟨-, rfl⟩, -⟩ := connected
  have others : ∀ {p}, p ≠ w.clients.opened →
      (w.process.add (objectOf w.clients.opened) descriptor k).objects (objectOf p) =
        w.process.objects (objectOf p) := fun other =>
    Store.put_of_ne fun same => other (objectOf_injective same)
  refine ⟨clientsInv, made.inv trivial inv.process, ?_, ?_⟩
  · intro p isOpen notClosed
    by_cases same : p = w.clients.opened
    · subst same
      obtain ⟨self, rfl⟩ := stream_of_creates creates
      exact ⟨self, _, Store.put_same⟩
    · obtain ⟨self, file, alive⟩ :=
        inv.alive p (Nat.lt_of_le_of_ne (Nat.le_of_lt_succ isOpen) same) notClosed
      exact ⟨self, file, (others same).trans alive⟩
  · intro p gone
    have other : p ≠ w.clients.opened := by
      rintro rfl
      exact (inv.clients.fresh _ (Nat.le_refl _)).2.1 (gone (Nat.lt_succ_self _))
    exact (others other).trans (inv.gone p fun isOpen => gone (Nat.lt_succ_of_lt isOpen))

theorem Inv.destroy (inv : Inv w) {clients : Ownership.World} {gone : List FdPtr}
    {process : Descriptors.World} (destroyed : Ownership.Step w.clients (.destroy i) clients)
    (closed : clients.closed = w.clients.closed ++ gone)
    (run : Run (Descriptors.Step texts) w.process (gone.map fun p => .destroy (objectOf p))
      process) : Inv ⟨clients, process⟩ := by
  obtain ⟨processInv, objects⟩ := objects_destroys run inv.process
  have opened : clients.opened = w.clients.opened := by
    obtain ⟨⟨client, -, rfl⟩, -⟩ := destroyed
    exact opened_destroy
  refine ⟨destroyed.inv inv.clients, processInv, ?_, ?_⟩
  · intro p isOpen notClosed
    rw [closed, List.mem_append, not_or] at notClosed
    obtain ⟨self, file, alive⟩ := inv.alive p (opened ▸ isOpen) notClosed.1
    exact ⟨self, file, by rw [objects, if_neg notClosed.2, alive]⟩
  · intro p closedThen
    rw [objects]
    split
    case isTrue => rfl
    case isFalse stays =>
        refine inv.gone p fun isOpen => ?_
        rcases List.mem_append.mp (closed ▸ closedThen (opened.symm ▸ isOpen)) with before | now
        · exact before
        · exact absurd now stays

theorem Step.inv (step : Step texts w action w') (inv : Inv w) : Inv w' := by
  cases step with
  | @own action process own proper =>
      have same := objects_own own proper.1
      refine ⟨inv.clients, proper.1.inv proper.2 inv.process, ?_, ?_⟩
      · simpa only [same] using inv.alive
      · simpa only [same] using inv.gone
  | connect creates connected => exact inv.connect creates connected
  | connectFailed creates failed =>
      obtain ⟨⟨-, rfl⟩, -⟩ := failed
      exact ⟨inv.clients, inv.process.kept creates.created.table, inv.alive, inv.gone⟩
  | destroy destroyed closed run => exact inv.destroy destroyed closed run
  | quiet quiet step =>
      obtain ⟨opened, closed⟩ := same_of_quiet quiet step
      refine ⟨step.inv inv.clients, inv.process, ?_, ?_⟩
      · simpa only [opened, closed] using inv.alive
      · simpa only [opened, closed] using inv.gone

theorem inv_of_run (run : Run (Step texts) start actions w) : Inv w :=
  run.invariant (fun _ _ _ inv step => step.inv inv) inv_start

/-- A request made of `p`. -/
def Of (p : FdPtr) (q : FileDescriptor.Request) : Prop := q.target = some p

/-- What a client asks of descriptors it asks of the one it holds. -/
theorem asks_held {client : TcpClient} (sound : Ownership.Sound client)
    (points : client.mFd = some p) (op : LineBuffer.Op) (bound : Nat) (data : Bytes) :
    (TcpClient.receive op bound client).Asks (Of p) ∧
      (TcpClient.sendRaw data client).Asks (Of p) := by
  have buffer : client.mLineBuffer.mFd = some p := sound.paired.symm.trans points
  constructor
  · exact (TcpClient.receive_wp sound.buffer op bound).mono fun _ _ _ post q asked =>
      (post.2.asks q asked).trans buffer
  · exact (Ownership.send_wp sound data).mono fun _ _ _ post q asked =>
      (post.2.2.1 q asked).trans points

theorem Inv.exists_holder (inv : Inv w) {held : Descriptors.Held}
    (alive : w.process.objects (objectOf p) = some held) :
    ∃ i client, Ownership.Holds w.clients.clients i client p := by
  by_contra nobody
  push Not at nobody
  have gone := inv.gone p fun isOpen => inv.clients.gone p isOpen nobody
  exact absurd (gone.symm.trans alive) (by simp)

/-- The object behind a connection that is held, on the file it was made for. -/
theorem Inv.socket (inv : Inv w) {client : TcpClient}
    (holds : Ownership.Holds w.clients.clients i client p) : ∃ self file,
      w.process.objects (objectOf p) = some ⟨.stream self, some file⟩ ∧
      w.process.kernel.table self.mFd = some file := by
  obtain ⟨isOpen, -, notClosed, -⟩ := inv.clients.held i client p holds
  obtain ⟨self, made, alive⟩ := inv.alive p isOpen notClosed
  obtain ⟨file, rfl, found⟩ := inv.process.sound.file _ _ alive
  exact ⟨self, file, alive, found⟩

/-- A client that holds a connection has a socket of its own: nobody else owns the
descriptor, it is open on the file it was opened on, and whatever the client does
is done to it. A descriptor is open exactly as long as the program, an object of
the program's or some client has it. -/
theorem sockets (run : Run (Step texts) start actions w) :
    (∀ i client p, Ownership.Holds w.clients.clients i client p → ∃ self file,
      w.process.objects (objectOf p) = some ⟨.stream self, some file⟩ ∧
      w.process.kernel.table self.mFd = some file ∧
      w.process.owner self.mFd = some (.object (objectOf p)) ∧
      ∀ op bound data,
        (TcpClient.receive op bound client).Asks (Of p) ∧
        (TcpClient.sendRaw data client).Asks (Of p) ∧
        ((TcpClient.receive op bound client).via (self.implement bound)).Asks
          (System.Request.On self.mFd) ∧
        ((TcpClient.sendRaw data client).via (self.implement bound)).Asks
          (System.Request.On self.mFd)) ∧
    ∀ fd, w.process.kernel.table fd ≠ none ↔
      w.process.owner fd = some .program ∨
      (∃ i held, (∀ p, i ≠ objectOf p) ∧ w.process.objects i = some held ∧
        held.descriptor.mFd = fd) ∨
      ∃ i client p held, Ownership.Holds w.clients.clients i client p ∧
        w.process.objects (objectOf p) = some held ∧ held.descriptor.mFd = fd := by
  have inv := inv_of_run run
  constructor
  · intro i client p holds
    obtain ⟨self, file, alive, found⟩ := inv.socket holds
    refine ⟨self, file, alive, found, inv.process.owner_eq alive, fun op bound data => ?_⟩
    obtain ⟨receives, sends⟩ := asks_held (inv.clients.sound i client holds.1) holds.2 op bound data
    exact ⟨receives, sends, .via (StreamFileDescriptor.implement_asks bound) _,
      .via (StreamFileDescriptor.implement_asks bound) _⟩
  · intro fd
    rw [inv.process.isOpen_iff]
    refine or_congr Iff.rfl ⟨?_, ?_⟩
    · rintro ⟨i, held, alive, same⟩
      by_cases connection : ∃ p, i = objectOf p
      · obtain ⟨p, rfl⟩ := connection
        obtain ⟨j, client, holds⟩ := inv.exists_holder alive
        exact .inr ⟨j, client, p, held, holds, alive, same⟩
      · exact .inl ⟨i, held, not_exists.mp connection, alive, same⟩
    · rintro (⟨i, held, -, alive, same⟩ | ⟨-, -, p, held, -, alive, same⟩)
      · exact ⟨i, held, alive, same⟩
      · exact ⟨objectOf p, held, alive, same⟩

/-- The host has one address, which takes the connection. -/
theorem creates_connected {k : Descriptors.Kernel} (fd : Nat) (free : k.table fd = none) :
    Descriptors.Creates Network.noTexts k (.tcpConnection "a" "9")
      (.ok (.stream ⟨fd, Int.natCast_nonneg fd⟩))
      ⟨Function.update k.table fd (some k.files), k.files + 1⟩ := by
  have exits : (Network.createTcpConnection Network.noTexts "a" "9" ()).Exits
      [⟨.log .info (Network.tcpConnection "a" "9").trying, ()⟩,
        Network.resolved (Network.tcpConnection "a" "9") (.ok [Network.address]),
        ⟨.socket 2 2 17, .ok fd⟩, ⟨.setUp .connect fd [0, 9], .ok ()⟩,
        ⟨.freeaddrinfo [Network.address], ()⟩,
        ⟨.log .info (Network.tcpConnection "a" "9").successful, ()⟩]
      (.ok ⟨fd, Int.natCast_nonneg fd⟩) () :=
    .answer (.answer (.answer (.answer (.answer (.answer (.here _))))))
  exact .tcpConnection exits
    (Descriptors.Kernel.run_singleton.trans (Descriptors.Kernel.apply_opens.mpr ⟨free, rfl⟩))

/-- A connection is moved to another client, the first client destroyed, and a
file opened. -/
theorem exists_run_moved : ∃ w, Run (Step Network.noTexts) start
      [.connect 0 "a" "9", .quiet (.transfer (.construct 1 0)), .destroy 0, .own (.open 4)] w ∧
    Ownership.Holds w.clients.clients 1 (.ofConnection 0) 0 := by
  have nothing (closed : List FdPtr) : closed = closed ++ [] := (List.append_nil closed).symm
  exact ⟨_, .cons (.connect (creates_connected 3 rfl) ⟨⟨rfl, rfl⟩, id⟩)
    (.cons (.quiet trivial ⟨⟨_, ⟨rfl, _, rfl, rfl⟩, rfl⟩, id⟩)
    (.cons (.destroy ⟨⟨_, rfl, rfl⟩, id⟩ (nothing _) (.nil _))
    (.single (.own trivial ⟨.open rfl, trivial⟩)))), ⟨rfl, rfl⟩⟩

theorem sockets_moved : ∃ (w : World) (self : StreamFileDescriptor),
    Ownership.Holds w.clients.clients 1 (.ofConnection 0) 0 ∧
    w.process.owner self.mFd = some (.object (objectOf 0)) ∧
    ∀ data, ((TcpClient.sendRaw data (.ofConnection 0)).via (self.implement 1)).Asks
      (System.Request.On self.mFd) := by
  obtain ⟨w, run, holds⟩ := exists_run_moved
  obtain ⟨self, file, -, -, owned, calls⟩ := (sockets run).1 1 _ 0 holds
  exact ⟨w, self, holds, owned, fun data => (calls .getChar 1 data).2.2.2⟩

end MarathonKit.Core.Sockets
