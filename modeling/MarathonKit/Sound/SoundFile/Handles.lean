import MarathonKit.Dialogue.Exits
import MarathonKit.Dialogue.Run
import MarathonKit.Objects.Store
import MarathonKit.Signal.Interleave
import MarathonKit.Sound.SoundFile
import Mathlib.Algebra.Ring.Nat

/-!
Objects of class `SoundFile`, and the handles of libsndfile.

The class has a `unique_ptr` to its handle and three counts, and leaves moving to
the compiler: the handle goes from the source to the target, which closes the one
it had, and the counts are copied. So a source is no longer open but still
reports the counts of its file. `handles_owned` says that under any moves each
open handle has one object, which has the counts of its file, and is closed once,
when that object goes or takes another; `frames_eq_rows` that the frames read of a
handle, by whichever objects had it, are those of its file, in order. libsndfile
is not part of the repository: it reads by a `Reader`, and only the second result
needs `Reader.Documented` of it.
-/

namespace MarathonKit.Sound

open Dialogue Dialogue.Method Objects Signal

namespace Handles

/-- The calls to libsndfile, with the handle they are made with. -/
inductive Request where
  | sfOpen (path : String)
  | sfReadDouble (handle : Option Nat) (items : Int)
  | sfClose (handle : Nat)
deriving DecidableEq, Repr

@[reducible] def Answer (α : Type) : Request → Type
  | .sfOpen _ => Except String (Nat × SfInfo)
  | .sfReadDouble _ _ => List α
  | .sfClose _ => Unit

abbrev interface (α : Type) : Interface := ⟨Request, Answer α⟩

abbrev Method (α σ : Type) := Dialogue.Method (interface α) Exn Fault σ

/-- All members: `mHandle`, and the counts. -/
structure Object where
  mHandle : Option Nat
  file : SoundFile
deriving DecidableEq

namespace Object

variable {α σ : Type} (self : Object)

/-- `SoundFile::SoundFile()` -/
def empty : Object := ⟨none, ⟨0, 0, 0⟩⟩

/-- `SoundFile::SoundFile(const std::string&)` -/
def make (fileName : String) : Method α σ Object := do
  match ← ask (I := interface α) (.sfOpen fileName) with
  | .error text => throw (.runtimeError text)
  | .ok (handle, info) => return ⟨some handle, SoundFile.opened info⟩

def isOpen : Bool := self.mHandle.isSome

/-- `unique_ptr<void, Deleter>`, when its pointer goes -/
def deleter (handle : Option Nat) : Method α σ Unit :=
  match handle with
  | none => pure ()
  | some handle => ask (I := interface α) (.sfClose handle)

/-- `~SoundFile()` -/
def destroy : Method α σ Unit := deleter self.mHandle

/-- What the methods ask of libsndfile is asked with the handle. -/
def viaHandle : (q : Sound.Request) → Call (interface α) Exn Fault Unit (Sound.Answer α q)
  | .sfOpen path => (Except.map Prod.snd <$> ask (I := interface α) (.sfOpen path) :
      Method α Unit (Except String SfInfo)) ()
  | .sfReadDouble items => ask (I := interface α) (.sfReadDouble self.mHandle items) ()
  | .sfClose => self.destroy ()

def getNextFrame [Zero α] : Method α σ (SoundFile.Frame α) := fun s =>
  (self.file.getNextFrame s).via self.viaHandle

/-- `SoundFile(SoundFile&&)`: the new object, and the source -/
def moveConstruct (source : Object) : Object × Object := (source, { source with mHandle := none })

/-- `operator=(SoundFile&&)` on the objects named `target` and `source`, which may
be the same: what the objects are then, and the pointer to go. The source is
released before the target is reset. -/
def moveAssign (objects : Store Object) (target source : Nat) :
    Option (Store Object × Option Nat) := do
  let other ← objects source
  let released := objects.put source (some { other with mHandle := none })
  let self ← released target
  return (released.put target (some ⟨other.mHandle, other.file⟩), self.mHandle)

end Object

/-! ### The world -/

/-- `sf_read_double`: for a handle, the samples of its file that are not yet read and
the number of items asked for, what it stores and what is still not read then. -/
abbrev Reader (α : Type) := Option Nat → List α → Int → List α × List α

/-- What the documentation of libsndfile has on `sf_read_double`. -/
structure Reader.Documented {α : Type} (reader : Reader α) : Prop where
  /-- one read goes on where the last one has stopped -/
  consecutive : ∀ p left items,
    (reader (some p) left items).1 ++ (reader (some p) left items).2 = left
  /-- there is no more than was asked for -/
  atMost : ∀ p left items, (reader (some p) left items).1.length ≤ items.toNat
  /-- and less only at the end of the file -/
  short : ∀ p left items, (reader (some p) left items).1.length < items.toNat →
    (reader (some p) left items).2 = []

/-- The objects of a program, and the files. Handles are numbered in the order
they are opened. -/
structure World (α : Type) where
  objects : Store Object
  opened : Nat
  info : Nat → SfInfo
  /-- the samples of a file, and those not yet read -/
  content : Nat → List α
  left : Nat → List α
  /-- the frames that `getNextFrame` has returned of a handle, in order -/
  frames : Nat → List (List α)
  /-- the handles closed so far, in order -/
  closed : List Nat
  /-- the handles used after they were closed -/
  misused : List Nat

namespace World

variable {α : Type}

def start : World α :=
  ⟨Store.none, 0, fun _ => ⟨0, 0, 0⟩, fun _ => [], fun _ => [], fun _ => [], [], []⟩

/-- A handle is used. -/
def use (w : World α) (p : Nat) : World α :=
  { w with misused := if p ∈ w.closed then w.misused ++ [p] else w.misused }

/-- What a read brings, and the world it leaves behind. -/
def next (reader : Reader α) (w : World α) (items : Int) : Option Nat → List α × World α
  | none => ((reader none [] items).1, w)
  | some p => ((reader (some p) (w.left p) items).1,
      { w.use p with
        left := Function.update w.left p (reader (some p) (w.left p) items).2 })

def answer (reader : Reader α) : (q : Request) → World α → Option (Answer α q × World α)
  | .sfOpen _, _ => none
  | .sfReadDouble handle items, w => some (w.next reader items handle)
  | .sfClose p, w => some ((), { w.use p with closed := w.closed ++ [p] })

/-- A handle is opened for the object named `i`. -/
def add (w : World α) (i : Nat) (o : Object) (info : SfInfo) (content : List α) : World α :=
  { w with
    objects := w.objects.put i (some o)
    opened := w.opened + 1
    info := Function.update w.info w.opened info
    content := Function.update w.content w.opened content
    left := Function.update w.left w.opened content }

/-- A pointer to a handle goes. -/
def reset (w : World α) : Option Nat → World α
  | none => w
  | some p => { w.use p with closed := w.closed ++ [p] }

/-- A frame that was read of a handle is returned. -/
def deliver (w : World α) : Option Nat → List α → World α
  | none, _ => w
  | some p, frame => { w with frames := Function.update w.frames p (w.frames p ++ [frame]) }

end World

inductive Action (α : Type) where
  | construct (i : Nat)
  | «open» (i : Nat) (path : String) (info : SfInfo) (content : List α)
  | openFailed (i : Nat) (path text : String)
  | moveConstruct (target source : Nat)
  | moveAssign (target source : Nat)
  | destroy (i : Nat)
  | getNextFrame (i : Nat)

variable {α : Type}

/-- The call is over in this way, with the world as its requests have left it. -/
def Serves {β : Type} (reader : Reader α) (call : Call (interface α) Exn Fault Unit β)
    (w : World α) (result : Except Exn β) (w' : World α) : Prop :=
  call.serve (World.answer reader) w = (orThrow result (), w')

/-- One step. A constructor that throws leaves no object behind. -/
inductive Step [Zero α] (reader : Reader α) : World α → Action α → World α → Prop where
  | construct {w : World α} {i : Nat} : w.objects i = none →
      Step reader w (.construct i) { w with objects := w.objects.put i (some .empty) }
  | «open» {w : World α} {i : Nat} {path : String} {info : SfInfo} {content : List α}
      {o : Object} : w.objects i = none →
      (Object.make path () : Call (interface α) Exn Fault Unit Object).Exits
        [⟨.sfOpen path, .ok (w.opened, info)⟩] (.ok o) () →
      Step reader w (.open i path info content) (w.add i o info content)
  | openFailed {w : World α} {i : Nat} {path text : String} {e : Exn} :
      (Object.make path () : Call (interface α) Exn Fault Unit Object).Exits
        [⟨.sfOpen path, .error text⟩] (.error e) () →
      Step reader w (.openFailed i path text) w
  | moveConstruct {w : World α} {i j : Nat} {o : Object} : w.objects i = none →
      w.objects j = some o →
      Step reader w (.moveConstruct i j) { w with
        objects := (w.objects.put j (some (Object.moveConstruct o).2)).put i
          (some (Object.moveConstruct o).1) }
  | moveAssign {w w' : World α} {i j : Nat} {objects : Store Object} {handle : Option Nat} :
      Object.moveAssign w.objects i j = some (objects, handle) →
      Serves reader (Object.deleter handle ()) w (.ok ()) w' →
      Step reader w (.moveAssign i j) { w' with objects := objects }
  | destroy {w w' : World α} {i : Nat} {o : Object} : w.objects i = some o →
      Serves reader (o.destroy ()) w (.ok ()) w' →
      Step reader w (.destroy i) { w' with objects := w.objects.put i none }
  | getNextFrame {w w' : World α} {i : Nat} {o : Object} {frame : SoundFile.Frame α} :
      w.objects i = some o → Serves reader (o.getNextFrame ()) w (.ok frame) w' →
      Step reader w (.getNextFrame i) (w'.deliver o.mHandle frame.mSamples)
  | getNextFrameThrew {w w' : World α} {i : Nat} {o : Object} {e : Exn} :
      w.objects i = some o →
      Serves reader (o.getNextFrame () : Call (interface α) Exn Fault Unit _) w (.error e) w' →
      Step reader w (.getNextFrame i) w'

/-! ### Who has which handle -/

/-- The object named `i` has the handle `p`. -/
def Holds (objects : Store Object) (i p : Nat) : Prop :=
  ∃ o, objects i = some o ∧ o.mHandle = some p

structure Handled (w : World α) : Prop where
  unique : ∀ i j p, Holds w.objects i p → Holds w.objects j p → i = j
  /-- a handle that some object has is open, and the counts are those of its file -/
  held : ∀ i o p, w.objects i = some o → o.mHandle = some p →
    p < w.opened ∧ p ∉ w.closed ∧ o.file = SoundFile.opened (w.info p)
  /-- one that no object has is closed -/
  gone : ∀ p, p < w.opened → (∀ i, ¬ Holds w.objects i p) → p ∈ w.closed
  fresh : ∀ p ∈ w.closed, p < w.opened
  once : w.closed.Nodup
  misused : w.misused = []

theorem handled_start : Handled (World.start : World α) where
  unique := by
    rintro i j p ⟨o, alive, -⟩
    simp [World.start] at alive
  held := by simp [World.start]
  gone := fun p impossible => absurd impossible (Nat.not_lt_zero p)
  fresh := by simp [World.start]
  once := List.nodup_nil
  misused := rfl

variable {reader : Reader α} {w w' : World α} {action : Action α} {actions : List (Action α)}
  {i j p : Nat} {o o' : Object} {objects : Store Object}

theorem holds_put {new : Option Object} : Holds (objects.put i new) j p ↔
    (j = i ∧ ∃ o, new = some o ∧ o.mHandle = some p) ∨ (j ≠ i ∧ Holds objects j p) := by
  by_cases same : j = i
  · subst same
    simp [Holds]
  · simp [Holds, Store.put_of_ne same, same]

theorem not_holds (free : objects i = none) : ¬ Holds objects i p := by
  rintro ⟨o, alive, -⟩
  simp [free] at alive

/-- It does not matter under which names the objects have their handles. -/
theorem Handled.rename (handled : Handled w) (e : Equiv.Perm Nat)
    (held : ∀ i o p, objects i = some o → o.mHandle = some p → w.objects (e i) = some o)
    (kept : ∀ i p, Holds w.objects (e i) p → Holds objects i p) :
    Handled { w with objects := objects } where
  unique := by
    rintro i j p ⟨o, alive, points⟩ ⟨o', alive', points'⟩
    exact e.injective (handled.unique _ _ p ⟨o, held i o p alive points, points⟩
      ⟨o', held j o' p alive' points', points'⟩)
  held := fun i o p alive points => handled.held _ o p (held i o p alive points) points
  gone := by
    intro p isOpen nobody
    refine handled.gone p isOpen fun i has => nobody (e.symm i) (kept _ p ?_)
    rwa [Equiv.apply_symm_apply]
  fresh := handled.fresh
  once := handled.once
  misused := handled.misused

/-- An object without a handle comes or goes, or is another. -/
theorem Handled.put (handled : Handled w) (new : Option Object)
    (before : ∀ p, ¬ Holds w.objects i p) (after : ∀ o, new = some o → o.mHandle = none) :
    Handled { w with objects := w.objects.put i new } := by
  apply handled.rename (Equiv.refl Nat)
  · intro j o p alive points
    rcases Store.put_eq_some.mp alive with ⟨-, made⟩ | ⟨-, alive⟩
    · simp [after o made] at points
    · exact alive
  · intro j p has
    refine holds_put.mpr (.inr ⟨?_, has⟩)
    rintro rfl
    exact before p has

/-- The handle of one object goes to another one, which has none. -/
theorem Handled.transfer (handled : Handled w) (alive : w.objects j = some o) (other : i ≠ j)
    (free : ∀ p, ¬ Holds w.objects i p) :
    Handled { w with
      objects := (w.objects.put j (some { o with mHandle := none })).put i (some o) } := by
  apply handled.rename (Equiv.swap i j)
  · intro k o' p alive' points
    rcases Store.put_eq_some.mp alive' with ⟨rfl, same⟩ | ⟨notTarget, alive'⟩
    · obtain rfl := Option.some.inj same
      rwa [Equiv.swap_apply_left]
    · rcases Store.put_eq_some.mp alive' with ⟨rfl, same⟩ | ⟨notSource, alive'⟩
      · obtain rfl := Option.some.inj same
        cases points
      · rwa [Equiv.swap_apply_of_ne_of_ne notTarget notSource]
  · intro k p has
    rcases eq_or_ne k i with rfl | notTarget
    · rw [Equiv.swap_apply_left] at has
      obtain ⟨o', alive', points⟩ := has
      obtain rfl := Option.some.inj (alive.symm.trans alive')
      exact holds_put.mpr (.inl ⟨rfl, o, rfl, points⟩)
    · rcases eq_or_ne k j with rfl | notSource
      · rw [Equiv.swap_apply_right] at has
        exact absurd has (free p)
      · rw [Equiv.swap_apply_of_ne_of_ne notTarget notSource] at has
        exact holds_put.mpr (.inr ⟨notTarget, holds_put.mpr (.inr ⟨notSource, has⟩)⟩)

/-- An object closes its handle. -/
theorem Handled.release (handled : Handled w) (alive : w.objects i = some o)
    (points : o.mHandle = some p) (new : Option Object)
    (after : ∀ o, new = some o → o.mHandle = none) :
    Handled { w.use p with objects := w.objects.put i new, closed := w.closed ++ [p] } := by
  obtain ⟨isOpen, notClosed, -⟩ := handled.held i o p alive points
  have others : ∀ {k o' q}, w.objects.put i new k = some o' → o'.mHandle = some q →
      w.objects k = some o' ∧ q ≠ p := by
    intro k o' q alive' points'
    rcases Store.put_eq_some.mp alive' with ⟨-, made⟩ | ⟨elsewhere, alive'⟩
    · simp [after o' made] at points'
    · refine ⟨alive', ?_⟩
      rintro rfl
      exact elsewhere (handled.unique k i q ⟨o', alive', points'⟩ ⟨o, alive, points⟩)
  constructor
  · rintro k l q ⟨o₁, alive₁, points₁⟩ ⟨o₂, alive₂, points₂⟩
    exact handled.unique k l q ⟨o₁, (others alive₁ points₁).1, points₁⟩
      ⟨o₂, (others alive₂ points₂).1, points₂⟩
  · intro k o' q alive' points'
    obtain ⟨alive', distinct⟩ := others alive' points'
    obtain ⟨isOpen, notClosed, counts⟩ := handled.held k o' q alive' points'
    exact ⟨isOpen, by simp [notClosed, distinct], counts⟩
  · intro q isOpen nobody
    by_cases same : q = p
    · simp [same]
    · refine List.mem_append_left _ (handled.gone q isOpen fun k has => ?_)
      refine nobody k (holds_put.mpr (.inr ⟨?_, has⟩))
      rintro rfl
      obtain ⟨o', alive', points'⟩ := has
      obtain rfl := Option.some.inj (alive.symm.trans alive')
      exact same (Option.some.inj (points'.symm.trans points))
  · intro q mem
    rcases List.mem_append.mp mem with before | here
    · exact handled.fresh q before
    · obtain rfl : q = p := by simpa using here
      exact isOpen
  · exact List.nodup_append.mpr ⟨handled.once, by simp, by
      rintro q mem q' single rfl
      obtain rfl : q = p := by simpa using single
      exact notClosed mem⟩
  · show (w.use p).misused = []
    rw [World.use, if_neg notClosed]
    exact handled.misused

/-! ### Steps -/

theorem serves_deleter {handle : Option Nat} :
    Serves reader (Object.deleter handle ()) w (.ok ()) w' ↔ w' = w.reset handle := by
  cases handle with
  | none => exact ⟨fun served => (congrArg Prod.snd served).symm, by rintro rfl; rfl⟩
  | some p => exact ⟨fun served => (congrArg Prod.snd served).symm, by rintro rfl; rfl⟩

/-- An object closes its handle, if it has one. -/
theorem Handled.reset (handled : Handled w) (alive : w.objects i = some o) (new : Option Object)
    (after : ∀ o, new = some o → o.mHandle = none) :
    Handled { w.reset o.mHandle with objects := w.objects.put i new } := by
  cases points : o.mHandle with
  | none =>
      refine handled.put new ?_ after
      rintro p ⟨o', alive', points'⟩
      obtain rfl := Option.some.inj (alive.symm.trans alive')
      simp [points] at points'
  | some p => exact handled.release alive points new after

theorem moveAssign_cases {objects' : Store Object} {handle : Option Nat}
    (moved : Object.moveAssign objects i j = some (objects', handle)) :
    ∃ other, objects j = some other ∧
      ((i = j ∧ objects' = objects ∧ handle = none) ∨
        (i ≠ j ∧ ∃ self, objects i = some self ∧ handle = self.mHandle ∧ objects' =
          (objects.put j (some { other with mHandle := none })).put i (some other))) := by
  unfold Object.moveAssign at moved
  obtain ⟨other, alive, moved⟩ := Option.bind_eq_some_iff.mp moved
  obtain ⟨self, released, moved⟩ := Option.bind_eq_some_iff.mp moved
  obtain ⟨rfl, rfl⟩ := Prod.mk.inj (Option.some.inj moved)
  refine ⟨other, alive, ?_⟩
  rcases eq_or_ne i j with rfl | distinct
  · obtain rfl : _ = self := Option.some.inj (Store.put_same.symm.trans released)
    refine .inl ⟨rfl, ?_, rfl⟩
    simp [Store.put, ← alive]
  · rw [Store.put_of_ne distinct] at released
    exact .inr ⟨distinct, self, released, rfl, rfl⟩

theorem Handled.moveAssign (handled : Handled w) {objects' : Store Object} {handle : Option Nat}
    (moved : Object.moveAssign w.objects i j = some (objects', handle)) :
    Handled { w.reset handle with objects := objects' } := by
  obtain ⟨other, alive, ⟨rfl, rfl, rfl⟩ | ⟨distinct, self, target, rfl, rfl⟩⟩ :=
    moveAssign_cases moved
  · exact handled
  · have released := handled.reset target (some { self with mHandle := none })
      (by rintro o ⟨⟩; rfl)
    have source : w.objects.put i (some { self with mHandle := none }) j = some other := by
      rw [Store.put_of_ne distinct.symm, alive]
    have free : ∀ p, ¬ Holds (w.objects.put i (some { self with mHandle := none })) i p := by
      rintro p ⟨o, same, points⟩
      obtain rfl := Option.some.inj (Store.put_same.symm.trans same)
      cases points
    have moved := released.transfer source distinct free
    have same : ((w.objects.put i (some { self with mHandle := none })).put j
        (some { other with mHandle := none })).put i (some other) =
          (w.objects.put j (some { other with mHandle := none })).put i (some other) := by
      rw [Store.put, Store.put, Store.put, Function.update_comm distinct, Function.update_idem]
      rfl
    rwa [same] at moved

section Reading

variable [Zero α] {count : Nat} {result : Except Exn (SoundFile.Frame α)}

theorem getNextFrame_apply (channels : o.file.getChannelCount = count) :
    (o.getNextFrame () : Call (interface α) Exn Fault Unit (SoundFile.Frame α)) =
      .asking () (.sfReadDouble o.mHandle o.file.getChannelCount) fun items =>
        if items.length = count then .returned () ⟨items⟩
        else .threw () (.runtimeError "") := by
  rw [Object.getNextFrame, SoundFile.getNextFrame_apply channels]
  show Call.asking (I := interface α) () (.sfReadDouble o.mHandle o.file.getChannelCount) _ = _
  congr 1
  funext items
  show (if items.length = count then .returned () ⟨items⟩ else .threw () (.runtimeError "") :
    Call (Sound.interface α) Exn Fault Unit (SoundFile.Frame α)).via o.viaHandle = _
  by_cases whole : items.length = count
  · rw [if_pos whole, if_pos whole]
    rfl
  · rw [if_neg whole, if_neg whole]
    rfl

/-- A call of `getNextFrame` reads a whole frame and returns it, or throws. -/
theorem getNextFrame_serves (served : Serves reader (o.getNextFrame ()) w result w') :
    (w' = w ∧ result = .error .lengthError) ∨
    ∃ count : Nat, o.file.getChannelCount = count ∧ w' = (w.next reader count o.mHandle).2 ∧
      (((w.next reader count o.mHandle).1.length = count ∧
          result = .ok ⟨(w.next reader count o.mHandle).1⟩) ∨
        ((w.next reader count o.mHandle).1.length ≠ count ∧
          result = .error (.runtimeError ""))) := by
  by_cases negative : o.file.getChannelCount < 0
  · have throws : (o.getNextFrame () : Call (interface α) Exn Fault Unit (SoundFile.Frame α)) =
        .threw () .lengthError := by
      simp [Object.getNextFrame, SoundFile.getNextFrame, negative, Call.via]
    rw [Serves, throws] at served
    obtain ⟨same, rfl⟩ := Prod.mk.inj served
    cases result with
    | ok frame => cases same
    | error e =>
        cases same
        exact .inl ⟨rfl, rfl⟩
  · obtain ⟨count, channels⟩ := Int.eq_ofNat_of_zero_le (Int.not_lt.mp negative)
    rw [Serves, getNextFrame_apply channels, channels] at served
    simp only [Call.serve, World.answer] at served
    refine .inr ⟨count, channels, ?_⟩
    by_cases whole : (w.next reader count o.mHandle).1.length = count
    · rw [if_pos whole] at served
      obtain ⟨same, rfl⟩ := Prod.mk.inj served
      cases result with
      | ok frame =>
          cases same
          exact ⟨rfl, .inl ⟨whole, rfl⟩⟩
      | error e => cases same
    · rw [if_neg whole] at served
      obtain ⟨same, rfl⟩ := Prod.mk.inj served
      cases result with
      | ok frame => cases same
      | error e =>
          cases same
          exact ⟨rfl, .inr ⟨whole, rfl⟩⟩

end Reading

/-! ### The frames of a handle -/

/-- The frames returned of a handle are whole, and are what was read of it, with
what a short read has lost at the end of the file. -/
structure Delivered (w : World α) (p : Nat) : Prop where
  uniform : ∀ frame ∈ w.frames p, frame.length = (w.info p).channels.toInt.toNat
  consumed : ∃ lost, (w.frames p).flatten ++ lost ++ w.left p = w.content p ∧
    (lost ≠ [] → w.left p = [])

theorem Delivered.congr (delivered : Delivered w p) (info : w'.info p = w.info p)
    (content : w'.content p = w.content p) (left : w'.left p = w.left p)
    (frames : w'.frames p = w.frames p) : Delivered w' p where
  uniform := by rw [frames, info]; exact delivered.uniform
  consumed := by rw [frames, left, content]; exact delivered.consumed

section Reading

variable {items rest : List α}

/-- A read that is short is at the end of the file. -/
theorem Delivered.short (delivered : Delivered w p) (consecutive : items ++ rest = w.left p)
    (ended : rest = []) : Delivered { w with left := Function.update w.left p rest } p where
  uniform := delivered.uniform
  consumed := by
    obtain ⟨lost, whole, -⟩ := delivered.consumed
    refine ⟨lost ++ items, ?_, fun _ => ?_⟩
    · rw [← consecutive] at whole
      simpa using whole
    · rw [ended]
      exact Function.update_self _ _ _

theorem Delivered.whole (delivered : Delivered w p) (consecutive : items ++ rest = w.left p)
    (whole : items.length = (w.info p).channels.toInt.toNat) :
    Delivered { w with
      left := Function.update w.left p rest
      frames := Function.update w.frames p (w.frames p ++ [items]) } p where
  uniform := by
    simp only [Function.update_self]
    exact List.forall_mem_append.mpr ⟨delivered.uniform, by simpa using whole⟩
  consumed := by
    obtain ⟨lost, all, ended⟩ := delivered.consumed
    rw [← consecutive] at all ended
    refine ⟨lost, ?_, fun something => ?_⟩
    · rcases eq_or_ne lost [] with rfl | something
      · simpa using all
      · obtain ⟨rfl, rfl⟩ := List.append_eq_nil_iff.mp (ended something)
        simpa using all
    · rw [(List.append_eq_nil_iff.mp (ended something)).2]
      exact Function.update_self _ _ _

end Reading

structure Inv (w : World α) : Prop where
  handled : Handled w
  delivered : ∀ p, Delivered w p
  fresh : ∀ p, w.opened ≤ p → w.frames p = []

theorem inv_start : Inv (World.start : World α) where
  handled := handled_start
  delivered := fun _ => ⟨by simp [World.start], [], rfl, by simp⟩
  fresh := fun _ _ => rfl

theorem Handled.add (handled : Handled w) (free : w.objects i = none) (info : SfInfo)
    (content : List α) :
    Handled (w.add i ⟨some w.opened, SoundFile.opened info⟩ info content) := by
  have notHeld : ∀ j, ¬ Holds w.objects j w.opened := by
    rintro j ⟨o, alive, points⟩
    exact absurd (handled.held j o _ alive points).1 (Nat.lt_irrefl _)
  have open_or : ∀ {j p},
      Holds (w.objects.put i (some ⟨some w.opened, SoundFile.opened info⟩)) j p →
      (j = i ∧ p = w.opened) ∨ (j ≠ i ∧ Holds w.objects j p) := by
    intro j p has
    rcases holds_put.mp has with ⟨rfl, o, same, points⟩ | elsewhere
    · obtain rfl := Option.some.inj same
      exact .inl ⟨rfl, (Option.some.inj points).symm⟩
    · exact .inr elsewhere
  constructor
  · intro j k p first second
    rcases open_or first with ⟨rfl, rfl⟩ | ⟨-, before⟩
    · rcases open_or second with ⟨rfl, -⟩ | ⟨-, before'⟩
      · rfl
      · exact absurd before' (notHeld k)
    · rcases open_or second with ⟨rfl, rfl⟩ | ⟨-, before'⟩
      · exact absurd before (notHeld j)
      · exact handled.unique j k p before before'
  · intro j o p alive points
    rcases Store.put_eq_some.mp alive with ⟨rfl, same⟩ | ⟨-, alive⟩
    · obtain rfl := Option.some.inj same
      obtain rfl := Option.some.inj points
      refine ⟨Nat.lt_succ_self _, fun mem => ?_, by simp [World.add]⟩
      exact absurd (handled.fresh _ mem) (Nat.lt_irrefl _)
    · obtain ⟨isOpen, notClosed, counts⟩ := handled.held j o p alive points
      exact ⟨Nat.lt_succ_of_lt isOpen, notClosed,
        by simpa [World.add, Nat.ne_of_lt isOpen] using counts⟩
  · intro p isOpen nobody
    have other : p ≠ w.opened := by
      rintro rfl
      exact nobody i (holds_put.mpr (.inl ⟨rfl, _, rfl, rfl⟩))
    apply handled.gone p (Nat.lt_of_le_of_ne (Nat.le_of_lt_succ isOpen) other)
    intro j has
    refine nobody j (holds_put.mpr (.inr ⟨?_, has⟩))
    rintro rfl
    exact not_holds free has
  · exact fun p mem => Nat.lt_succ_of_lt (handled.fresh p mem)
  · exact handled.once
  · exact handled.misused

theorem use_of_open (notClosed : p ∉ w.closed) : w.use p = w := by
  rw [World.use, if_neg notClosed]

theorem delivered_reset {handle : Option Nat} (delivered : Delivered w p) :
    Delivered { w.reset handle with objects := objects } p := by
  cases handle <;> exact delivered.congr rfl rfl rfl rfl

theorem make_exits {path : String} {h : List (Event (interface α))}
    {result : Except Exn Object} :
    (Object.make path () : Call (interface α) Exn Fault Unit Object).Exits h result () ↔
      (∃ text, h = [⟨.sfOpen path, .error text⟩] ∧ result = .error (.runtimeError text)) ∨
      ∃ handle info, h = [⟨.sfOpen path, .ok (handle, info)⟩] ∧
        result = .ok ⟨some handle, SoundFile.opened info⟩ := by
  have asks : (Object.make path () : Call (interface α) Exn Fault Unit Object) =
      .asking () (.sfOpen path) fun
        | .error text => .threw () (.runtimeError text)
        | .ok (handle, info) => .returned () ⟨some handle, SoundFile.opened info⟩ := by
    simp only [Object.make, bind_apply, ask_apply, Call.andThen_asking, Call.andThen_returned]
    congr 1
    funext a
    cases a <;> rfl
  rw [asks, Call.exits_asking]
  constructor
  · rintro ⟨text | ⟨handle, info⟩, k, rfl, exits⟩
    · obtain ⟨rfl, rfl, -⟩ := Call.exits_threw.mp exits
      exact .inl ⟨text, rfl, rfl⟩
    · obtain ⟨rfl, rfl, -⟩ := Call.exits_returned.mp exits
      exact .inr ⟨handle, info, rfl, rfl⟩
  · rintro (⟨text, rfl, rfl⟩ | ⟨handle, info, rfl, rfl⟩)
    · exact ⟨.error text, [], rfl, Call.exits_threw.mpr ⟨rfl, rfl, rfl⟩⟩
    · exact ⟨.ok (handle, info), [], rfl, Call.exits_returned.mpr ⟨rfl, rfl, rfl⟩⟩

theorem Handled.next (handled : Handled w) (alive : w.objects i = some o) (reader : Reader α)
    (items : Int) : Handled (w.next reader items o.mHandle).2 := by
  cases points : o.mHandle with
  | none => exact handled
  | some p =>
      rw [World.next, use_of_open (handled.held i o p alive points).2.1]
      exact ⟨handled.unique, handled.held, handled.gone, handled.fresh, handled.once,
        handled.misused⟩

theorem Handled.deliver (handled : Handled w) (handle : Option Nat) (frame : List α) :
    Handled (w.deliver handle frame) := by
  cases handle with
  | none => exact handled
  | some p => exact ⟨handled.unique, handled.held, handled.gone, handled.fresh, handled.once,
      handled.misused⟩

/-- However libsndfile reads. -/
theorem Step.handled [Zero α] (step : Step reader w action w') (handled : Handled w) :
    Handled w' := by
  cases step with
  | construct free =>
      apply handled.put (some .empty) (fun _ => not_holds free)
      rintro o ⟨⟩
      rfl
  | @«open» i path info content o free made =>
      obtain ⟨handle, info', same, made⟩ := (make_exits.mp made).resolve_left (by simp)
      obtain ⟨rfl, rfl⟩ : w.opened = handle ∧ info = info' := by simpa using same
      obtain rfl := Except.ok.inj made
      exact handled.add free info content
  | openFailed _ => exact handled
  | @moveConstruct i j o free alive =>
      refine handled.transfer alive ?_ fun _ => not_holds free
      rintro rfl
      simp [free] at alive
  | @moveAssign w' i j objects handle moved served =>
      obtain rfl := serves_deleter.mp served
      exact handled.moveAssign moved
  | @destroy w' i o alive served =>
      obtain rfl := serves_deleter.mp served
      exact handled.reset alive none (by simp)
  | @getNextFrame w' i o frame alive served =>
      rcases getNextFrame_serves served with ⟨rfl, -⟩ | ⟨count, -, rfl, -⟩
      · exact handled.deliver _ _
      · exact (handled.next alive reader count).deliver _ _
  | @getNextFrameThrew w' i o e alive served =>
      rcases getNextFrame_serves served with ⟨rfl, -⟩ | ⟨count, -, rfl, -⟩
      · exact handled
      · exact handled.next alive reader count

/-- A frame is read by an object that is open. -/
theorem Inv.whole (inv : Inv w) (documented : reader.Documented) {count : Nat}
    (alive : w.objects i = some o) (channels : o.file.getChannelCount = count)
    (whole : (w.next reader count o.mHandle).1.length = count) :
    Inv ((w.next reader count o.mHandle).2.deliver o.mHandle
      (w.next reader count o.mHandle).1) := by
  have handled := (inv.handled.next alive reader count).deliver o.mHandle
    (w.next reader count o.mHandle).1
  cases points : o.mHandle with
  | none => exact inv
  | some p =>
      rw [points] at whole handled
      obtain ⟨isOpen, notClosed, counts⟩ := inv.handled.held i o p alive points
      have same : count = (w.info p).channels.toInt.toNat := by
        rw [counts] at channels
        exact (congrArg Int.toNat channels).symm
      rw [World.next, use_of_open notClosed] at handled ⊢
      refine ⟨handled, fun q => ?_, fun q later => ?_⟩
      · rcases eq_or_ne q p with rfl | other
        · exact (inv.delivered q).whole (documented.consecutive _ _ _) (whole.trans same)
        · exact (inv.delivered q).congr rfl rfl (Function.update_of_ne other _ _)
            (Function.update_of_ne other _ _)
      · have other : q ≠ p := Nat.ne_of_gt (Nat.lt_of_lt_of_le isOpen later)
        exact (Function.update_of_ne other _ _).trans (inv.fresh q later)

theorem Inv.short (inv : Inv w) (documented : reader.Documented) {count : Nat}
    (alive : w.objects i = some o) (short : (w.next reader count o.mHandle).1.length ≠ count) :
    Inv (w.next reader count o.mHandle).2 := by
  have handled := inv.handled.next alive reader count
  cases points : o.mHandle with
  | none => exact inv
  | some p =>
      rw [points] at short handled
      rw [World.next, use_of_open (inv.handled.held i o p alive points).2.1] at handled ⊢
      have less : (reader (some p) (w.left p) count).1.length < count :=
        Nat.lt_of_le_of_ne (documented.atMost p (w.left p) count) short
      refine ⟨handled, fun q => ?_, inv.fresh⟩
      rcases eq_or_ne q p with rfl | other
      · exact (inv.delivered q).short (documented.consecutive _ _ _) (documented.short _ _ _ less)
      · exact (inv.delivered q).congr rfl rfl (Function.update_of_ne other _ _) rfl

theorem Step.inv [Zero α] (step : Step reader w action w') (documented : reader.Documented)
    (inv : Inv w) : Inv w' := by
  have handled := step.handled inv.handled
  cases step with
  | construct _ => exact ⟨handled, fun p => (inv.delivered p).congr rfl rfl rfl rfl, inv.fresh⟩
  | @«open» i path info content o free made =>
      refine ⟨handled, fun p => ?_, fun p later => inv.fresh p (Nat.le_of_succ_le later)⟩
      rcases eq_or_ne p w.opened with rfl | other
      · have none : w.frames w.opened = [] := inv.fresh _ (Nat.le_refl _)
        exact ⟨by simp [World.add, none], [], by simp [World.add, none], by simp⟩
      · exact (inv.delivered p).congr (Function.update_of_ne other _ _)
          (Function.update_of_ne other _ _) (Function.update_of_ne other _ _) rfl
  | openFailed _ => exact inv
  | moveConstruct _ _ =>
      exact ⟨handled, fun p => (inv.delivered p).congr rfl rfl rfl rfl, inv.fresh⟩
  | @moveAssign w' i j objects handle moved served =>
      obtain rfl := serves_deleter.mp served
      refine ⟨handled, fun p => delivered_reset (inv.delivered p), ?_⟩
      cases handle <;> exact inv.fresh
  | @destroy w' i o alive served =>
      obtain rfl := serves_deleter.mp served
      refine ⟨handled, fun p => delivered_reset (inv.delivered p), ?_⟩
      cases o.mHandle <;> exact inv.fresh
  | @getNextFrame w' i o frame alive served =>
      rcases getNextFrame_serves served with
        ⟨-, impossible⟩ | ⟨count, channels, rfl, ⟨whole, same⟩ | ⟨-, impossible⟩⟩
      · cases impossible
      · obtain rfl := Except.ok.inj same
        exact inv.whole documented alive channels whole
      · cases impossible
  | @getNextFrameThrew w' i o e alive served =>
      rcases getNextFrame_serves served with
        ⟨rfl, -⟩ | ⟨count, channels, rfl, ⟨-, impossible⟩ | ⟨short, -⟩⟩
      · exact inv
      · cases impossible
      · exact inv.short documented alive short

/-! ### Every run -/

variable [Zero α]

theorem handled_of_run (run : Run (Step reader) World.start actions w) : Handled w :=
  run.invariant (fun _ _ _ handled step => step.handled handled) handled_start

/-- Under any moves: a handle is open as long as some object has it, which is one
object only, with the counts of its file; it is closed once, and not used any
more. -/
theorem handles_owned (run : Run (Step reader) World.start actions w) :
    (∀ p, p < w.opened → (p ∉ w.closed ↔ ∃ i, Holds w.objects i p)) ∧
    (∀ i j p, Holds w.objects i p → Holds w.objects j p → i = j) ∧
    (∀ i o p, w.objects i = some o → o.mHandle = some p →
      o.file = SoundFile.opened (w.info p)) ∧
    w.closed.Nodup ∧ w.misused = [] := by
  have handled := handled_of_run run
  refine ⟨fun p isOpen => ⟨fun notClosed => ?_, ?_⟩, handled.unique, ?_, handled.once,
    handled.misused⟩
  · by_contra nobody
    exact notClosed (handled.gone p isOpen (not_exists.mp nobody))
  · rintro ⟨i, o, alive, points⟩
    exact (handled.held i o p alive points).2.1
  · exact fun i o p alive points => (handled.held i o p alive points).2.2

/-- The frames that were returned of a handle are the first frames of its file,
one after the other, whichever objects had the handle, and wherever a read was
short. -/
theorem frames_eq_rows (documented : reader.Documented)
    (run : Run (Step reader) World.start actions w) (p : Nat) :
    w.frames p = (List.range (w.frames p).length).map
      (row (w.info p).channels.toInt.toNat (w.content p)) := by
  have inv : Inv w := run.invariant (fun _ _ _ inv step => step.inv documented inv) inv_start
  obtain ⟨uniform, lost, whole, -⟩ := inv.delivered p
  refine eq_rows uniform ⟨lost ++ w.left p, ?_⟩
  rw [← whole, List.append_assoc]

/-- A reader that stores as many samples as there are. -/
def takes : Reader Nat := fun _ left items => (left.take items.toNat, left.drop items.toNat)

theorem documented_takes : takes.Documented where
  consecutive := fun _ left items => List.take_append_drop items.toNat left
  atMost := fun _ left items => List.length_take_le items.toNat left
  short := by
    intro p left items less
    apply List.drop_eq_nil_of_le
    rw [takes, List.length_take] at less
    omega

/-- One frame of a file of two channels. -/
def stereo : SfInfo := ⟨2, 2, 44100⟩

def playing : Object := ⟨some 0, SoundFile.opened stereo⟩

/-- The second object takes over from the first, which cannot read any more. -/
theorem exists_run_moved : ∃ w : World Nat, Run (Step takes) World.start
      [.open 0 "a.wav" stereo [1, 2, 3, 4], .getNextFrame 0, .moveConstruct 1 0, .getNextFrame 0,
        .getNextFrame 1, .destroy 1] w ∧
    w.opened = 1 ∧ w.closed = [0] ∧ w.frames 0 = [[1, 2], [3, 4]] ∧ w.info 0 = stereo := by
  have made : (Object.make "a.wav" () : Call (interface Nat) Exn Fault Unit Object).Exits
      [⟨.sfOpen "a.wav", .ok (0, stereo)⟩] (.ok playing) () :=
    make_exits.mpr (.inr ⟨0, stereo, rfl, rfl⟩)
  exact ⟨_, .cons (.open rfl made) (.cons (.getNextFrame rfl rfl)
    (.cons (.moveConstruct rfl rfl) (.cons (.getNextFrameThrew (e := .runtimeError "") rfl rfl)
    (.cons (.getNextFrame rfl rfl) (.single (.destroy rfl (serves_deleter.mpr rfl))))))),
    rfl, rfl, rfl, rfl⟩

theorem handles_owned_moved : ∃ w : World Nat, w.opened = 1 ∧ (∀ i, ¬ Holds w.objects i 0) ∧
    w.closed.Nodup ∧ w.misused = [] := by
  obtain ⟨w, run, opened, closed, -⟩ := exists_run_moved
  obtain ⟨open_iff, -, -, once, misused⟩ := handles_owned run
  refine ⟨w, opened, fun i has => ?_, once, misused⟩
  exact (open_iff 0 (by rw [opened]; exact Nat.one_pos)).mpr ⟨i, has⟩ (by simp [closed])

theorem frames_eq_rows_moved : ∃ w : World Nat, w.frames 0 = [[1, 2], [3, 4]] ∧
    w.frames 0 = (List.range 2).map (row 2 (w.content 0)) := by
  obtain ⟨w, run, -, -, frames, info⟩ := exists_run_moved
  have rows := frames_eq_rows documented_takes run 0
  rw [info] at rows
  refine ⟨w, frames, rows.trans ?_⟩
  rw [frames]
  rfl

end Handles

end MarathonKit.Sound
