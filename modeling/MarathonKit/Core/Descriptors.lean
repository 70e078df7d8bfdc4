import MarathonKit.Core.Network.FirstWorking
import MarathonKit.Dialogue.Exits
import MarathonKit.Dialogue.Run
import MarathonKit.Objects.Store

/-!
The descriptors of a process.

A descriptor is a number, and the kernel gives a number that was closed to the
next file. So a `StreamFileDescriptor` or a `MessageFileDescriptor` is only as
good as the number it holds: while it lives nobody else may close that number.
The objects come from the factories of `StreamFileDescriptor.cpp` and
`MessageFileDescriptor.cpp` and from `Network.cpp`; everything else that the
program does with descriptors is opening and closing them.

`sound_iff_proper` says exactly which programs are safe from this: every object
has a descriptor of its own on the file it was made for, as long as
`createOwnerOf` is given descriptors that the program itself has opened and given
to nobody, and the program closes none of an object. `accounted` says that in
those runs nothing is leaked and no destructor closes another's file.
-/

namespace MarathonKit.Core

open Dialogue Dialogue.Method Objects

namespace Descriptors

/-- What the factories and the destructors ask of the kernel. -/
inductive Request where
  | dup (fd : Int)
  /-- `close(fd)`; what it returns is not looked at -/
  | close (fd : Int)
deriving DecidableEq, Repr

@[reducible] def Answer : Request → Type
  | .dup _ => Except Nat Nat
  | .close _ => Unit

abbrev interface : Interface := ⟨Request, Answer⟩

abbrev Method (σ : Type) := Dialogue.Method interface Exn Fault σ

variable {σ δ : Type}

/-- The factories that copy, for a constructor. -/
def createCopy (make : Int → Except Exn δ) (fd : Int) : Method σ δ := do
  match ← ask (I := interface) (.dup fd) with
  | .error errno => throw (.strerror errno)
  | .ok fdCopy => orThrow (make fdCopy)

theorem createCopy_apply {make : Int → Except Exn δ} {fd : Int} {s : σ} :
    createCopy make fd s = .asking s (.dup fd) fun
      | .error errno => .threw s (.strerror errno)
      | .ok fdCopy => orThrow (make fdCopy) s := by
  simp only [createCopy, bind_apply, ask_apply, Call.andThen_returned, Call.andThen_asking]
  congr 1
  funext a
  cases a <;> rfl

/-- The destructors. -/
def closeFd (mFd : Int) : Method σ Unit := ask (I := interface) (.close mFd)

end Descriptors

namespace StreamFileDescriptor

variable {σ : Type}

def createOwnerOf (fd : Int) : Except Exn StreamFileDescriptor := make fd

def createCopyOf (fd : Int) : Descriptors.Method σ StreamFileDescriptor :=
  Descriptors.createCopy make fd

/-- `~StreamFileDescriptor()` -/
def destroy (self : StreamFileDescriptor) : Descriptors.Method σ Unit :=
  Descriptors.closeFd self.mFd

end StreamFileDescriptor

namespace MessageFileDescriptor

variable {σ : Type}

def createOwnerOf (fd : Int) : Except Exn MessageFileDescriptor := make fd

def createCopyOf (fd : Int) : Descriptors.Method σ MessageFileDescriptor :=
  Descriptors.createCopy make fd

/-- `~MessageFileDescriptor()` -/
def destroy (self : MessageFileDescriptor) : Descriptors.Method σ Unit :=
  Descriptors.closeFd self.mFd

end MessageFileDescriptor

namespace Descriptors

/-! ### The kernel -/

/-- The open descriptors with their files, which are numbered as they are opened. -/
structure Kernel where
  table : Int → Option Nat
  files : Nat

/-- What a system call does to the table. -/
inductive Effect where
  | opens (fd : Nat)
  | copies (fd : Int) (fdCopy : Nat)
  | closes (fd : Int)
deriving DecidableEq, Repr

/-- The kernel gives out only numbers that are not in use, and copies only
descriptors that are. -/
def Kernel.apply (k : Kernel) : Effect → Option Kernel
  | .opens fd =>
      if k.table fd = none then
        some ⟨Function.update k.table fd (some k.files), k.files + 1⟩
      else none
  | .copies fd fdCopy =>
      if k.table fd ≠ none ∧ k.table fdCopy = none then
        some { k with table := Function.update k.table fdCopy (k.table fd) }
      else none
  | .closes fd => some { k with table := Function.update k.table fd none }

def Kernel.run (k : Kernel) : List Effect → Option Kernel
  | [] => some k
  | e :: es => (k.apply e).bind fun k => k.run es

def effect? : Event interface → List Effect
  | ⟨.dup fd, .ok fdCopy⟩ => [.copies fd fdCopy]
  | ⟨.close fd, _⟩ => [.closes fd]
  | _ => []

def networkEffect? : Event Network.interface → List Effect
  | ⟨.socket _ _ _, .ok socketFd⟩ => [.opens socketFd]
  | ⟨.close socketFd, _⟩ => [.closes socketFd]
  | _ => []

variable {k k' k'' : Kernel} {es es' : List Effect} {fd : Int} {file : Nat}

theorem Kernel.run_append : k.run (es ++ es') = (k.run es).bind fun k' => k'.run es' := by
  induction es generalizing k with
  | nil => rfl
  | cons e es ih =>
      simp only [List.cons_append, Kernel.run]
      cases k.apply e with
      | none => rfl
      | some k' => exact ih

@[simp] theorem Kernel.run_singleton {e : Effect} : k.run [e] = k.apply e := by
  simp [Kernel.run]

/-- `fd` has been opened on `file`, and nothing else has changed that lasts. -/
structure Kernel.Opened (k : Kernel) (fd : Int) (file : Nat) (k' : Kernel) : Prop where
  free : k.table fd = none
  table : k'.table = Function.update k.table fd (some file)

/-- Nothing has changed that lasts. -/
structure Kernel.Kept (k k' : Kernel) : Prop where
  table : k'.table = k.table
  files : k.files ≤ k'.files

theorem Kernel.Kept.refl : k.Kept k := ⟨rfl, Nat.le_refl _⟩

theorem Kernel.Kept.trans (first : k.Kept k') (rest : k'.Kept k'') : k.Kept k'' :=
  ⟨rest.table.trans first.table, Nat.le_trans first.files rest.files⟩

theorem Kernel.apply_opens {socketFd : Nat} : k.apply (.opens socketFd) = some k' ↔
    k.table socketFd = none ∧
      k' = ⟨Function.update k.table socketFd (some k.files), k.files + 1⟩ := by
  by_cases free : k.table socketFd = none
  · simp [Kernel.apply, free, eq_comm]
  · simp [Kernel.apply, free]

theorem Kernel.apply_copies {fdCopy : Nat} : k.apply (.copies fd fdCopy) = some k' ↔
    (∃ file, k.table fd = some file ∧ k.Opened fdCopy file k') ∧ k'.files = k.files := by
  constructor
  · intro applied
    simp only [Kernel.apply] at applied
    split at applied
    case isTrue possible =>
        obtain rfl := Option.some.inj applied
        obtain ⟨file, same⟩ := Option.ne_none_iff_exists'.mp possible.1
        exact ⟨⟨file, same, possible.2, by simp [same]⟩, rfl⟩
    case isFalse => simp at applied
  · rintro ⟨⟨file, same, free, table⟩, files⟩
    obtain ⟨table', files'⟩ := k'
    obtain rfl : table' = _ := table
    obtain rfl : files' = _ := files
    simp [Kernel.apply, same, free]

/-! ### What a call to the network opens -/

section Sockets

variable {texts : Network.Texts} {endpoint : Network.Endpoint δ} {info : Network.AddrInfo}
  {infos : List Network.AddrInfo} {h : List (Event Network.interface)} {accepted : Option Nat}
  {marks : Bool} {result : Except Exn Nat}

/-- A socket that could not be set up leaves nothing open. -/
theorem kept_of_fails (fails : Network.Fails texts endpoint info h)
    (ran : k.run (h.flatMap networkEffect?) = some k') : k.Kept k' := by
  cases fails with
  | socket errno =>
      obtain rfl := Option.some.inj ran
      exact .refl
  | setUp socketFd errno =>
      obtain ⟨opened, applied, ran⟩ := Option.bind_eq_some_iff.mp ran
      obtain ⟨free, rfl⟩ := Kernel.apply_opens.mp applied
      obtain rfl := Option.some.inj ran
      refine ⟨?_, Nat.le_succ _⟩
      simp [← free]

/-- What the sockets of a call have come to: the accepted one is open, on a new
file. -/
def Accepted (k : Kernel) (k' : Kernel) : Option Nat → Prop
  | none => k.Kept k'
  | some socketFd => ∃ file, k.files ≤ file ∧ k.Opened socketFd file k'

theorem accepted_of_tried (tried : Network.Tried texts endpoint infos h accepted)
    (ran : k.run (h.flatMap networkEffect?) = some k') : Accepted k k' accepted := by
  induction tried generalizing k with
  | none =>
      obtain rfl := Option.some.inj ran
      exact .refl
  | @fails info infos _ _ accepted fails _ ih =>
      rw [List.flatMap_append, Kernel.run_append] at ran
      obtain ⟨between, first, rest⟩ := Option.bind_eq_some_iff.mp ran
      have kept := kept_of_fails fails first
      have after := ih rest
      cases accepted with
      | none => exact kept.trans after
      | some socketFd =>
          obtain ⟨file, isNew, free, table⟩ := after
          exact ⟨file, Nat.le_trans kept.files isNew, kept.table ▸ free, kept.table ▸ table⟩
  | works info infos socketFd =>
      have applied : k.apply (.opens socketFd) = some k' := by
        simpa [Network.works, networkEffect?] using ran
      obtain ⟨free, rfl⟩ := Kernel.apply_opens.mp applied
      exact ⟨k.files, Nat.le_refl _, free, rfl⟩

theorem networkEffect_reports (anyTried : Bool) :
    (Network.reports endpoint anyTried accepted).flatMap networkEffect? = [] := by
  cases anyTried <;> cases accepted <;> rfl

theorem accepted_of_settled (settled : Network.Settled texts endpoint marks h result)
    (ran : k.run (h.flatMap networkEffect?) = some k') : Accepted k k' result.toOption := by
  cases settled with
  | unresolved rc =>
      obtain rfl := Option.some.inj ran
      exact .refl
  | @tried infos attempts accepted tried =>
      have same : (attempts ++ ⟨.freeaddrinfo infos, ()⟩ :: Network.reports endpoint
          (marks && !infos.isEmpty) accepted).flatMap networkEffect? =
            attempts.flatMap networkEffect? := by
        simp [networkEffect?, networkEffect_reports]
      have after : Accepted k k' accepted := accepted_of_tried tried (same ▸ ran)
      cases accepted with
      | none => exact after
      | some socketFd => exact after

end Sockets

/-! ### Objects -/

inductive Descriptor where
  | stream (self : StreamFileDescriptor)
  | message (self : MessageFileDescriptor)

inductive Kind where
  | stream | message
deriving DecidableEq, Repr

def Descriptor.mFd : Descriptor → Int
  | stream self => self.mFd
  | message self => self.mFd

def Descriptor.destroy : Descriptor → Method Unit Unit
  | stream self => self.destroy
  | message self => self.destroy

/-- The virtual functions. -/
def Descriptor.implement : Descriptor → Nat → (q : FileDescriptor.Request) →
    Call System.interface Exn Fault Unit (FileDescriptor.Answer q)
  | stream self => self.implement
  | message self => self.implement

theorem Descriptor.implement_asks (self : Descriptor) (bound : Nat) (q : FileDescriptor.Request) :
    (self.implement bound q).Asks (System.Request.On self.mFd) := by
  cases self with
  | stream self => exact StreamFileDescriptor.implement_asks bound q
  | message self => exact MessageFileDescriptor.implement_asks bound q

def Kind.createOwnerOf : Kind → Int → Except Exn Descriptor
  | stream, fd => (StreamFileDescriptor.createOwnerOf fd).map .stream
  | message, fd => (MessageFileDescriptor.createOwnerOf fd).map .message

def Kind.createCopyOf : Kind → Int → Method Unit Descriptor
  | stream, fd => Descriptor.stream <$> StreamFileDescriptor.createCopyOf fd
  | message, fd => Descriptor.message <$> MessageFileDescriptor.createCopyOf fd

/-- Where an object with a descriptor of its own comes from. -/
inductive Origin where
  | copyOf (kind : Kind) (fd : Int)
  | tcpConnection (host service : String)
  | udpListener (service : String)
deriving DecidableEq, Repr

/-- The call is over, with the table as the system calls have left it. -/
inductive Creates (texts : Network.Texts) (k : Kernel) :
    Origin → Except Exn Descriptor → Kernel → Prop where
  | copyOf {kind : Kind} {fd : Int} {h : List (Event interface)}
      {result : Except Exn Descriptor} {k' : Kernel} :
      (kind.createCopyOf fd ()).Exits h result () → k.run (h.flatMap effect?) = some k' →
      Creates texts k (.copyOf kind fd) result k'
  | tcpConnection {host service : String} {h : List (Event Network.interface)}
      {result : Except Exn StreamFileDescriptor} {k' : Kernel} :
      (Network.createTcpConnection texts host service ()).Exits h result () →
      k.run (h.flatMap networkEffect?) = some k' →
      Creates texts k (.tcpConnection host service) (result.map .stream) k'
  | udpListener {service : String} {h : List (Event Network.interface)}
      {result : Except Exn MessageFileDescriptor} {k' : Kernel} :
      (Network.createUdpListener texts service ()).Exits h result () →
      k.run (h.flatMap networkEffect?) = some k' →
      Creates texts k (.udpListener service) (result.map .message) k'

/-- A copy is on the file of the original, a socket on a new one. -/
def Origin.Yields (k : Kernel) (file : Nat) : Origin → Prop
  | copyOf _ fd => k.table fd = some file
  | tcpConnection _ _ | udpListener _ => k.files ≤ file

variable {texts : Network.Texts} {origin : Origin} {result : Except Exn Descriptor}
  {descriptor : Descriptor} {kind : Kind} {e : Exn}

/-- What has become of the table: one descriptor more if the call returned, and
none if it threw. -/
def Created (k : Kernel) (origin : Origin) (k' : Kernel) : Except Exn Descriptor → Prop
  | .ok descriptor => ∃ file, origin.Yields k file ∧ k.Opened descriptor.mFd file k'
  | .error _ => k.Kept k'

theorem exists_of_map {α : Type} {make : Except Exn α} {f : α → Descriptor}
    (made : make.map f = .ok descriptor) : ∃ self, make = .ok self ∧ descriptor = f self := by
  cases make with
  | error e => simp [Except.map] at made
  | ok self => exact ⟨self, rfl, (Except.ok.inj made).symm⟩

theorem mFd_of_createOwnerOf (made : kind.createOwnerOf fd = .ok descriptor) :
    descriptor.mFd = fd := by
  cases kind with
  | stream =>
      obtain ⟨self, own, rfl⟩ := exists_of_map made
      exact StreamFileDescriptor.mFd_of_make own
  | message =>
      obtain ⟨self, own, rfl⟩ := exists_of_map made
      exact MessageFileDescriptor.mFd_of_make own

theorem nonneg_of_createOwnerOf (made : kind.createOwnerOf fd = .ok descriptor) : 0 ≤ fd := by
  have same := mFd_of_createOwnerOf made
  cases descriptor with
  | stream self => exact same ▸ self.nonneg
  | message self => exact same ▸ self.nonneg

theorem createOwnerOf_natCast (kind : Kind) (fd : Nat) :
    ∃ descriptor, kind.createOwnerOf fd = .ok descriptor := by
  cases kind with
  | stream =>
      exact ⟨.stream ⟨fd, Int.natCast_nonneg fd⟩, congrArg (Except.map Descriptor.stream)
        (StreamFileDescriptor.make_of_nonneg (Int.natCast_nonneg fd))⟩
  | message =>
      exact ⟨.message ⟨fd, Int.natCast_nonneg fd⟩, congrArg (Except.map Descriptor.message)
        (MessageFileDescriptor.make_of_nonneg (Int.natCast_nonneg fd))⟩

theorem createCopyOf_apply : kind.createCopyOf fd () = .asking () (.dup fd) fun
      | .error errno => .threw () (.strerror errno)
      | .ok fdCopy => orThrow (kind.createOwnerOf fdCopy) () := by
  cases kind <;>
  · simp only [Kind.createCopyOf, StreamFileDescriptor.createCopyOf,
      MessageFileDescriptor.createCopyOf, map_apply, createCopy_apply, Call.andThen_asking]
    congr 1
    funext a
    cases a with
    | error errno => rfl
    | ok fdCopy => exact orThrow_map

theorem createCopyOf_exits {h : List (Event interface)} :
    (kind.createCopyOf fd ()).Exits h result () ↔
      (∃ errno, h = [⟨.dup fd, .error errno⟩] ∧ result = .error (.strerror errno)) ∨
      ∃ fdCopy : Nat, h = [⟨.dup fd, .ok fdCopy⟩] ∧ result = kind.createOwnerOf fdCopy := by
  rw [createCopyOf_apply, Call.exits_asking]
  constructor
  · rintro ⟨errno | fdCopy, k, rfl, exits⟩
    · obtain ⟨rfl, rfl, -⟩ := Call.exits_threw.mp exits
      exact .inl ⟨errno, rfl, rfl⟩
    · obtain ⟨rfl, rfl, -⟩ := Call.exits_orThrow.mp exits
      exact .inr ⟨fdCopy, rfl, rfl⟩
  · rintro (⟨errno, rfl, rfl⟩ | ⟨fdCopy, rfl, rfl⟩)
    · exact ⟨.error errno, [], rfl, Call.exits_threw.mpr ⟨rfl, rfl, rfl⟩⟩
    · exact ⟨.ok fdCopy, [], rfl, Call.exits_orThrow.mpr ⟨rfl, rfl, rfl⟩⟩

/-- A call that creates an object opens its descriptor, or else leaves the table
as it was. -/
theorem Creates.created (creates : Creates texts k origin result k') :
    Created k origin k' result := by
  cases creates with
  | @copyOf kind fd h result k' exits ran =>
      rcases createCopyOf_exits.mp exits with ⟨errno, rfl, rfl⟩ | ⟨fdCopy, rfl, rfl⟩
      · obtain rfl := Option.some.inj ran
        exact .refl
      · obtain ⟨descriptor, made⟩ := createOwnerOf_natCast kind fdCopy
        rw [made]
        obtain ⟨⟨file, same, opened⟩, -⟩ :=
          Kernel.apply_copies.mp (Kernel.run_singleton.symm.trans ran)
        exact ⟨file, same, mFd_of_createOwnerOf made ▸ opened⟩
  | @tcpConnection host service h result k' exits ran =>
      have works := Network.createTcpConnection_works texts host service ()
      cases result with
      | error e => exact accepted_of_settled (works.threw h _ exits e rfl).1 ran
      | ok self =>
          obtain ⟨socketFd, same, settled, -⟩ := works.returned h _ exits self rfl
          obtain ⟨file, isNew, opened⟩ := accepted_of_settled settled ran
          refine ⟨file, isNew, ?_⟩
          show k.Opened self.mFd file k'
          rwa [same]
  | @udpListener service h result k' exits ran =>
      have works := Network.createUdpListener_works texts service ()
      cases result with
      | error e => exact accepted_of_settled (works.threw h _ exits e rfl).1 ran
      | ok self =>
          obtain ⟨socketFd, same, settled, -⟩ := works.returned h _ exits self rfl
          obtain ⟨file, isNew, opened⟩ := accepted_of_settled settled ran
          refine ⟨file, isNew, ?_⟩
          show k.Opened self.mFd file k'
          rwa [same]

/-! ### The world -/

/-- An object, and the file it was made for. -/
structure Held where
  descriptor : Descriptor
  file : Option Nat

inductive Owner where
  | program
  | object (i : Nat)
deriving DecidableEq, Repr

/-- A close by a destructor: the file the object was made for, and the one that
its descriptor was on. -/
structure Closing where
  file : Option Nat
  found : Option Nat
deriving DecidableEq, Repr

structure World where
  kernel : Kernel
  objects : Store Held
  /-- who is to close an open descriptor -/
  owner : Int → Option Owner
  /-- the closes by destructors, in order -/
  closings : List Closing

def start : World := ⟨⟨fun _ => none, 0⟩, Store.none, fun _ => none, []⟩

inductive Action where
  /-- the program opens a file, or accepts a connection -/
  | «open» (fd : Nat)
  | close (fd : Int)
  | createOwnerOf (i : Nat) (kind : Kind) (fd : Int)
  | create (i : Nat) (origin : Origin)
  | destroy (i : Nat)
deriving DecidableEq, Repr

namespace World

/-- A new object owns its descriptor. -/
def add (w : World) (i : Nat) (descriptor : Descriptor) (k : Kernel) : World :=
  { w with
    kernel := k
    objects := w.objects.put i (some ⟨descriptor, k.table descriptor.mFd⟩)
    owner := Function.update w.owner descriptor.mFd (some (.object i)) }

def remove (w : World) (i : Nat) (held : Held) (k : Kernel) : World :=
  { w with
    kernel := k
    objects := w.objects.put i none
    owner := Function.update w.owner held.descriptor.mFd none
    closings := w.closings ++ [⟨held.file, w.kernel.table held.descriptor.mFd⟩] }

end World

/-- One step. A call that throws leaves no object behind. -/
inductive Step (texts : Network.Texts) : World → Action → World → Prop where
  | «open» {w : World} {fd : Nat} {k : Kernel} :
      w.kernel.apply (.opens fd) = some k →
      Step texts w (.open fd) { w with
        kernel := k
        owner := Function.update w.owner fd (some .program) }
  | close {w : World} {fd : Int} {k : Kernel} :
      w.kernel.apply (.closes fd) = some k →
      Step texts w (.close fd) { w with
        kernel := k
        owner := Function.update w.owner fd none }
  | createOwnerOf {w : World} {i : Nat} {kind : Kind} {fd : Int} {descriptor : Descriptor} :
      w.objects i = none → kind.createOwnerOf fd = .ok descriptor →
      Step texts w (.createOwnerOf i kind fd) (w.add i descriptor w.kernel)
  | createOwnerOfThrew {w : World} {i : Nat} {kind : Kind} {fd : Int} {e : Exn} :
      kind.createOwnerOf fd = .error e → Step texts w (.createOwnerOf i kind fd) w
  | create {w : World} {i : Nat} {origin : Origin} {descriptor : Descriptor} {k : Kernel} :
      w.objects i = none → Creates texts w.kernel origin (.ok descriptor) k →
      Step texts w (.create i origin) (w.add i descriptor k)
  | createThrew {w : World} {i : Nat} {origin : Origin} {e : Exn} {k : Kernel} :
      Creates texts w.kernel origin (.error e) k →
      Step texts w (.create i origin) { w with kernel := k }
  | destroy {w : World} {i : Nat} {held : Held} {h : List (Event interface)} {k : Kernel} :
      w.objects i = some held → (held.descriptor.destroy ()).Exits h (.ok ()) () →
      w.kernel.run (h.flatMap effect?) = some k →
      Step texts w (.destroy i) (w.remove i held k)

/-- What a program has to see to: it gives away only what it has opened itself,
and it closes nothing of an object. -/
def Proper (w : World) : Action → Prop
  | .createOwnerOf _ _ fd => 0 ≤ fd → w.owner fd = some .program
  | .close fd => ∀ i, w.owner fd ≠ some (.object i)
  | _ => True

/-- The objects have descriptors of their own, each on the file it was made for. -/
structure Sound (w : World) : Prop where
  file : ∀ i held, w.objects i = some held →
    ∃ file, held.file = some file ∧ w.kernel.table held.descriptor.mFd = some file
  distinct : ∀ i j held held', w.objects i = some held → w.objects j = some held' →
    held.descriptor.mFd = held'.descriptor.mFd → i = j

/-- Every open descriptor has an owner, and an object is the owner of just its
own. -/
structure Inv (w : World) : Prop where
  sound : Sound w
  owned : ∀ fd, w.kernel.table fd = none ↔ w.owner fd = none
  object : ∀ fd i, w.owner fd = some (.object i) ↔
    ∃ held, w.objects i = some held ∧ held.descriptor.mFd = fd
  closings : ∀ closing ∈ w.closings, closing.found = closing.file ∧ closing.file ≠ none

variable {w w' : World} {action : Action} {actions : List Action} {i j : Nat} {held : Held}

theorem inv_start : Inv start where
  sound := ⟨by simp [start], by simp [start]⟩
  owned := by simp [start]
  object := by simp [start]
  closings := by simp [start]

/-- The descriptor of an object, and its owner. -/
theorem Inv.owner_eq (inv : Inv w) (alive : w.objects i = some held) :
    w.owner held.descriptor.mFd = some (.object i) :=
  (inv.object _ i).mpr ⟨held, alive, rfl⟩

/-- Whose the open descriptors are. -/
theorem Inv.isOpen_iff (inv : Inv w) (fd : Int) :
    w.kernel.table fd ≠ none ↔ w.owner fd = some .program ∨
      ∃ i held, w.objects i = some held ∧ held.descriptor.mFd = fd := by
  rw [ne_eq, inv.owned]
  constructor
  · intro owned
    obtain ⟨owner, same⟩ := Option.ne_none_iff_exists'.mp owned
    cases owner with
    | program => exact .inl same
    | object i => exact .inr ⟨i, (inv.object fd i).mp same⟩
  · rintro (program | ⟨i, held, alive, rfl⟩)
    · simp [program]
    · simp [inv.owner_eq alive]

/-- Two tables with different files but the same descriptors on them. -/
theorem Inv.kept (inv : Inv w) {k : Kernel} (table : k.table = w.kernel.table) :
    Inv { w with kernel := k } where
  sound := ⟨table ▸ inv.sound.file, inv.sound.distinct⟩
  owned := table ▸ inv.owned
  object := inv.object
  closings := inv.closings

/-- A descriptor that belongs to no object changes hands: to the program, or to
nobody. -/
theorem Inv.change (inv : Inv w) {k : Kernel} {fd : Int} {file : Option Nat}
    {owner : Option Owner} (table : k.table = Function.update w.kernel.table fd file)
    (other : ∀ i, w.owner fd ≠ some (.object i)) (program : ∀ i, owner ≠ some (.object i))
    (both : file = none ↔ owner = none) :
    Inv { w with kernel := k, owner := Function.update w.owner fd owner } := by
  have elsewhere : ∀ {i held}, w.objects i = some held → held.descriptor.mFd ≠ fd := by
    rintro i held alive rfl
    exact other i (inv.owner_eq alive)
  constructor
  · refine ⟨?_, inv.sound.distinct⟩
    intro i held alive
    show ∃ file, held.file = some file ∧ k.table held.descriptor.mFd = some file
    rw [table, Function.update_of_ne (elsewhere alive)]
    exact inv.sound.file i held alive
  · intro fd'
    show k.table fd' = none ↔ _
    rw [table]
    by_cases same : fd' = fd
    · subst same
      simpa using both
    · simpa [same] using inv.owned fd'
  · intro fd' i
    by_cases same : fd' = fd
    · subst same
      simp only [Function.update_self, program i, false_iff]
      rintro ⟨held, alive, same⟩
      exact elsewhere alive same
    · simpa [same] using inv.object fd' i
  · exact inv.closings

/-- A descriptor that belongs to no object is given to a new one. -/
theorem Inv.add (inv : Inv w) {k : Kernel} {descriptor : Descriptor} {file : Nat}
    (free : w.objects i = none)
    (table : k.table = Function.update w.kernel.table descriptor.mFd (some file))
    (other : ∀ i, w.owner descriptor.mFd ≠ some (.object i)) : Inv (w.add i descriptor k) := by
  have elsewhere : ∀ {j held}, w.objects j = some held →
      held.descriptor.mFd ≠ descriptor.mFd := by
    intro j held alive same
    exact other j (same ▸ inv.owner_eq alive)
  have here : k.table descriptor.mFd = some file := by simp [table]
  constructor
  · constructor
    · intro j held alive
      show ∃ file, held.file = some file ∧ k.table held.descriptor.mFd = some file
      rcases Store.put_eq_some.mp alive with ⟨rfl, same⟩ | ⟨-, alive⟩
      · obtain rfl := Option.some.inj same
        exact ⟨file, here, here⟩
      · rw [table, Function.update_of_ne (elsewhere alive)]
        exact inv.sound.file j held alive
    · intro j j' held held' alive alive' same
      rcases Store.put_eq_some.mp alive with ⟨rfl, made⟩ | ⟨-, before⟩
      · obtain rfl := Option.some.inj made
        rcases Store.put_eq_some.mp alive' with ⟨rfl, -⟩ | ⟨-, before'⟩
        · rfl
        · exact absurd same.symm (elsewhere before')
      · rcases Store.put_eq_some.mp alive' with ⟨rfl, made⟩ | ⟨-, before'⟩
        · obtain rfl := Option.some.inj made
          exact absurd same (elsewhere before)
        · exact inv.sound.distinct j j' held held' before before' same
  · intro fd
    show k.table fd = none ↔ _
    rw [table]
    by_cases same : fd = descriptor.mFd
    · subst same
      simp [World.add]
    · simpa [World.add, same] using inv.owned fd
  · intro fd j
    by_cases same : fd = descriptor.mFd
    · subst same
      simp only [World.add, Function.update_self, Option.some.injEq, Owner.object.injEq,
        Store.put_eq_some]
      constructor
      · rintro rfl
        exact ⟨_, .inl ⟨rfl, rfl⟩, rfl⟩
      · rintro ⟨held, ⟨rfl, -⟩ | ⟨-, alive⟩, same⟩
        · rfl
        · exact absurd same (elsewhere alive)
    · simp only [World.add, Function.update_of_ne same, Store.put_eq_some, inv.object]
      constructor
      · rintro ⟨held, alive, rfl⟩
        refine ⟨held, .inr ⟨?_, alive⟩, rfl⟩
        rintro rfl
        simp [free] at alive
      · rintro ⟨held, ⟨rfl, made⟩ | ⟨-, alive⟩, rfl⟩
        · obtain rfl := Option.some.inj made
          exact absurd rfl same
        · exact ⟨held, alive, rfl⟩
  · exact inv.closings

/-- An object goes, and its descriptor with it. -/
theorem Inv.remove (inv : Inv w) {k : Kernel} (alive : w.objects i = some held)
    (table : k.table = Function.update w.kernel.table held.descriptor.mFd none) :
    Inv (w.remove i held k) := by
  have elsewhere : ∀ {j held'}, j ≠ i → w.objects j = some held' →
      held'.descriptor.mFd ≠ held.descriptor.mFd := by
    intro j held' other alive' same
    exact other (inv.sound.distinct j i held' held alive' alive same)
  have others : ∀ {j held'}, (w.remove i held k).objects j = some held' →
      j ≠ i ∧ w.objects j = some held' := by
    intro j held' alive'
    rcases Store.put_eq_some.mp alive' with ⟨-, made⟩ | others
    · cases made
    · exact others
  constructor
  · constructor
    · intro j held' alive'
      obtain ⟨other, alive'⟩ := others alive'
      show ∃ file, held'.file = some file ∧ k.table held'.descriptor.mFd = some file
      rw [table, Function.update_of_ne (elsewhere other alive')]
      exact inv.sound.file j held' alive'
    · intro j j' first second alive₁ alive₂
      exact inv.sound.distinct j j' first second (others alive₁).2 (others alive₂).2
  · intro fd
    show k.table fd = none ↔ _
    rw [table]
    by_cases same : fd = held.descriptor.mFd
    · subst same
      simp [World.remove]
    · simpa [World.remove, same] using inv.owned fd
  · intro fd j
    by_cases same : fd = held.descriptor.mFd
    · subst same
      simp only [World.remove, Function.update_self, false_iff, reduceCtorEq]
      rintro ⟨held', alive', same⟩
      obtain ⟨other, alive'⟩ := others alive'
      exact elsewhere other alive' same
    · simp only [World.remove, Function.update_of_ne same, Store.put_eq_some, inv.object]
      constructor
      · rintro ⟨held', alive', rfl⟩
        refine ⟨held', .inr ⟨?_, alive'⟩, rfl⟩
        rintro rfl
        obtain rfl := Option.some.inj (alive.symm.trans alive')
        exact same rfl
      · rintro ⟨held', ⟨-, made⟩ | ⟨-, alive'⟩, rfl⟩
        · cases made
        · exact ⟨held', alive', rfl⟩
  · obtain ⟨file, made, found⟩ := inv.sound.file i held alive
    refine List.forall_mem_append.mpr ⟨inv.closings, ?_⟩
    simp [made, found]

theorem destroy_exits {h : List (Event interface)} {descriptor : Descriptor} :
    (descriptor.destroy ()).Exits h (.ok ()) () ↔ h = [⟨.close descriptor.mFd, ()⟩] := by
  have asks : descriptor.destroy () = .asking () (.close descriptor.mFd) fun _ =>
      .returned () () := by
    cases descriptor <;> rfl
  rw [asks, Call.exits_asking]
  constructor
  · rintro ⟨-, k, rfl, exits⟩
    obtain ⟨rfl, -⟩ := Call.exits_returned.mp exits
    rfl
  · rintro rfl
    exact ⟨(), [], rfl, Call.exits_returned.mpr ⟨rfl, rfl, rfl⟩⟩

/-- A step that is proper keeps the invariant. -/
theorem Step.inv (step : Step texts w action w') (proper : Proper w action) (inv : Inv w) :
    Inv w' := by
  cases step with
  | @«open» fd k applied =>
      obtain ⟨free, rfl⟩ := Kernel.apply_opens.mp applied
      have nobody : w.owner fd = none := (inv.owned fd).mp free
      exact inv.change rfl (by simp [nobody]) (by simp) (by simp)
  | @close fd k applied =>
      obtain rfl := Option.some.inj applied
      exact inv.change rfl proper (by simp) (by simp)
  | @createOwnerOf i kind fd descriptor free made =>
      obtain rfl : descriptor.mFd = fd := mFd_of_createOwnerOf made
      have program : w.owner descriptor.mFd = some .program :=
        proper (nonneg_of_createOwnerOf made)
      have isOpen : w.kernel.table descriptor.mFd ≠ none := by
        rw [ne_eq, inv.owned, program]
        simp
      obtain ⟨file, same⟩ := Option.ne_none_iff_exists'.mp isOpen
      have table : w.kernel.table =
          Function.update w.kernel.table descriptor.mFd (some file) := by
        rw [← same, Function.update_eq_self]
      exact inv.add free table (by simp [program])
  | createOwnerOfThrew _ => exact inv
  | @create i origin descriptor k free creates =>
      obtain ⟨file, -, closed, table⟩ := creates.created
      have nobody : w.owner descriptor.mFd = none := (inv.owned _).mp closed
      exact inv.add free table (by simp [nobody])
  | @createThrew i origin e k creates => exact inv.kept creates.created.table
  | @destroy i held h k alive exits ran =>
      obtain rfl := destroy_exits.mp exits
      obtain rfl := Option.some.inj ran
      exact inv.remove alive rfl

/-- A step that is not makes an object lose its descriptor, or share it. -/
theorem Step.proper (step : Step texts w action w') (inv : Inv w) (sound : Sound w') :
    Proper w action := by
  cases step with
  | @close fd k applied =>
      intro i object
      obtain rfl := Option.some.inj applied
      obtain ⟨held, alive, rfl⟩ := (inv.object fd i).mp object
      obtain ⟨file, -, found⟩ := sound.file i held alive
      simp at found
  | @createOwnerOf i kind fd descriptor free made =>
      intro _
      obtain rfl : descriptor.mFd = fd := mFd_of_createOwnerOf made
      have here : (w.add i descriptor w.kernel).objects i =
          some ⟨descriptor, w.kernel.table descriptor.mFd⟩ :=
        Store.put_eq_some.mpr (.inl ⟨rfl, rfl⟩)
      cases owned : w.owner descriptor.mFd with
      | none =>
          obtain ⟨file, made, -⟩ := sound.file i _ here
          simp [(inv.owned _).mpr owned] at made
      | some owner =>
          cases owner with
          | program => rfl
          | object j =>
              obtain ⟨held, alive, same⟩ := (inv.object _ j).mp owned
              have other : j ≠ i := by
                rintro rfl
                simp [free] at alive
              exact absurd (sound.distinct j i held _ (Store.put_eq_some.mpr (.inr ⟨other, alive⟩))
                here same) other
  | @createOwnerOfThrew i kind fd e threw =>
      intro nonneg
      obtain ⟨n, rfl⟩ := Int.eq_ofNat_of_zero_le nonneg
      obtain ⟨descriptor, made⟩ := createOwnerOf_natCast kind n
      exact absurd (made.symm.trans threw) (by simp)
  | _ => trivial

/-! ### Every run -/

/-- A step that is proper. -/
def ProperStep (texts : Network.Texts) (w : World) (action : Action) (w' : World) : Prop :=
  Step texts w action w' ∧ Proper w action

theorem inv_of_run (run : Run (ProperStep texts) start actions w) : Inv w :=
  run.invariant (fun _ _ _ inv step => step.1.inv step.2 inv) inv_start

/-- As long as the program has been proper, every object has its descriptor, and
the first step that is not proper is the first after which one has not. -/
theorem sound_iff_proper (run : Run (ProperStep texts) start actions w) :
    Sound w ∧ ∀ action w', Step texts w action w' → (Sound w' ↔ Proper w action) := by
  have inv := inv_of_run run
  refine ⟨inv.sound, fun action w' step => ⟨step.proper inv, fun proper => ?_⟩⟩
  exact (step.inv proper inv).sound

/-- The errors have no texts. -/
def noTexts : Network.Texts := ⟨fun _ => "", fun _ => ""⟩

/-- The number of a descriptor that was given to an object, copied and closed is
used again. -/
theorem exists_run_reused : ∃ w, Run (ProperStep noTexts) start
      [.open 3, .createOwnerOf 0 .stream 3, .create 1 (.copyOf .message 3), .destroy 0,
        .open 3] w ∧
    w.kernel.table 3 = some 1 ∧ w.owner 4 = some (.object 1) ∧
    w.objects 1 = some ⟨.message ⟨4, by decide⟩, some 0⟩ := by
  have copies : Creates noTexts ⟨Function.update (fun _ => none) 3 (some 0), 1⟩
      (.copyOf .message 3) (.ok (.message ⟨4, by decide⟩)) _ :=
    .copyOf (createCopyOf_exits.mpr (.inr ⟨4, rfl, rfl⟩)) rfl
  refine ⟨_, .cons ⟨.open rfl, trivial⟩ (.cons ⟨.createOwnerOf rfl rfl, fun _ => rfl⟩
    (.cons ⟨.create rfl copies, trivial⟩
    (.cons ⟨.destroy rfl (destroy_exits.mpr rfl) rfl, trivial⟩
    (.single ⟨.open rfl, trivial⟩)))), rfl, rfl, rfl⟩

/-- It is not proper to close the copy, and leaves the object without a file. -/
theorem sound_iff_proper_reused : ∃ w w', Sound w ∧ Step noTexts w (.close 4) w' ∧
    ¬ Sound w' := by
  obtain ⟨w, run, -, owner, -⟩ := exists_run_reused
  obtain ⟨sound, iff⟩ := sound_iff_proper run
  refine ⟨w, _, sound, .close rfl, fun sound' => ?_⟩
  exact (iff (.close 4) _ (.close rfl)).mp sound' 1 owner

/-- Nothing is leaked: a descriptor that is open belongs to the program or is the
one of an object. A destructor has only closed the file its object was made for,
and no method of an object makes a system call on anything else. -/
theorem accounted (run : Run (ProperStep texts) start actions w) :
    (∀ fd, w.kernel.table fd ≠ none ↔ w.owner fd = some .program ∨
      ∃ i held, w.objects i = some held ∧ held.descriptor.mFd = fd) ∧
    (∀ closing ∈ w.closings, closing.found = closing.file ∧ closing.file ≠ none) ∧
    ∀ i held, w.objects i = some held →
      w.kernel.table held.descriptor.mFd = held.file ∧
      ∀ bound q h call, (held.descriptor.implement bound q).Reaches h call →
        ∀ event ∈ h, event.request.On held.descriptor.mFd := by
  have inv := inv_of_run run
  refine ⟨inv.isOpen_iff, inv.closings, fun i held alive => ?_⟩
  obtain ⟨file, made, found⟩ := inv.sound.file i held alive
  refine ⟨found.trans made.symm, fun bound q h call reached => ?_⟩
  exact (Descriptor.implement_asks held.descriptor bound q).of_reaches reached

theorem accounted_reused : ∃ w : World, w.kernel.table 3 = some 1 ∧ w.kernel.table 4 = some 0 ∧
    ∀ closing ∈ w.closings, closing.found = closing.file ∧ closing.file ≠ none := by
  obtain ⟨w, run, reused, -, alive⟩ := exists_run_reused
  obtain ⟨-, closings, objects⟩ := accounted run
  exact ⟨w, reused, (objects 1 _ alive).1, closings⟩

end Descriptors

end MarathonKit.Core
