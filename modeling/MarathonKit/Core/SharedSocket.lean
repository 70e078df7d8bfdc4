import MarathonKit.Core.MessageFileDescriptor
import MarathonKit.Dialogue.Run
import Mathlib.Data.List.TakeDrop

/-!
Two `MessageFileDescriptor`s on one socket.

The readers take turns in any order, one `recv` at a time, while datagrams
arrive. A reader sizes its buffer by the datagrams it peeks at and receives into
it afterwards; if in between the other one has removed the datagram peeked at,
the receive meets another, and cuts it off if the buffer is too small.

How large the buffer is follows from how often the reader has peeked
(`read_sizes`), so an `Order`, which knows the datagrams that arrive and the order
of the calls of `recv` and nothing of the readers, tells which receives cut a
datagram off. `whole_iff`: the strings returned are the datagrams removed, each
once and whole, exactly in the runs without such a receive.
-/

namespace MarathonKit.Core.SharedSocket

open Dialogue MessageFileDescriptor

/-- The descriptor made by `createOwnerOf`, and the one made by `createCopyOf`
of its descriptor. -/
inductive Party where
  | owner | copy
deriving DecidableEq, Repr

inductive Reader where
  | idle
  | busy (call : Call System.interface Exn Fault Unit Bytes)

/-- A datagram removed from the socket, by whom, and what that one got of it. -/
structure Receipt where
  party : Party
  datagram : Bytes
  given : Bytes
deriving DecidableEq, Repr

structure State where
  /-- the datagrams in the socket, the oldest first -/
  queue : List Bytes
  reader : Party → Reader
  /-- all datagrams removed so far, in order -/
  receipts : List Receipt
  /-- the strings returned by the reads of each party, in order -/
  results : Party → List Bytes

def start : State := ⟨[], fun _ => .idle, [], fun _ => []⟩

inductive Action where
  | arrive (datagram : Bytes)
  | call (p : Party) (bound : Nat)
  /-- the next `recv` of the read under way, with `MSG_PEEK` and without -/
  | peek (p : Party)
  | receive (p : Party)
  | returned (p : Party)
deriving DecidableEq, Repr

/-- A party's read goes on from an answer. -/
def State.proceed (s : State) (p : Party) (call : Call System.interface Exn Fault Unit Bytes) :
    State :=
  { s with reader := Function.update s.reader p (.busy call) }

/-- `recv` brings the oldest datagram, as far as it fits; a peek leaves it. With no
datagram `recv` blocks. -/
def State.peek (s : State) (p : Party) : Option State :=
  match s.reader p, s.queue with
  | .busy (.asking _ (.recv _ size true) resume), datagram :: _ =>
      some (s.proceed p (resume (.ok (datagram.take size))))
  | _, _ => none

/-- A receive removes all of the datagram. -/
def State.receive (s : State) (p : Party) : Option State :=
  match s.reader p, s.queue with
  | .busy (.asking _ (.recv _ size false) resume), datagram :: rest =>
      some { s.proceed p (resume (.ok (datagram.take size))) with
        queue := rest
        receipts := s.receipts ++ [⟨p, datagram, datagram.take size⟩] }
  | _, _ => none

def State.call (s : State) (p : Party) (descriptor : MessageFileDescriptor) (bound : Nat) :
    Option State :=
  match s.reader p with
  | .idle => some (s.proceed p (descriptor.read bound ()))
  | .busy _ => none

def State.returned (s : State) (p : Party) : Option State :=
  match s.reader p with
  | .busy (.returned _ value) => some { s with
      reader := Function.update s.reader p .idle
      results := Function.update s.results p (s.results p ++ [value]) }
  | _ => none

def step (descriptor : Party → MessageFileDescriptor) (s : State) : Action → Option State
  | .arrive datagram => some { s with queue := s.queue ++ [datagram] }
  | .call p bound => s.call p (descriptor p) bound
  | .peek p => s.peek p
  | .receive p => s.receive p
  | .returned p => s.returned p

def Step (descriptor : Party → MessageFileDescriptor) (s : State) (action : Action) (s' : State) :
    Prop :=
  step descriptor s action = some s'

/-- What the actions say of the datagrams in the socket, how often the read of a party
has peeked, and whether a datagram was removed since. -/
structure Order where
  queue : List Bytes
  peeks : Party → Nat
  overtaken : Party → Bool

namespace Order

def start : Order := ⟨[], fun _ => 0, fun _ => false⟩

def after (order : Order) : Action → Order
  | .arrive datagram => { order with queue := order.queue ++ [datagram] }
  | .call p _ => { order with peeks := Function.update order.peeks p 0 }
  | .peek p => { order with
      peeks := Function.update order.peeks p (order.peeks p + 1)
      overtaken := Function.update order.overtaken p false }
  | .receive _ => { order with queue := order.queue.tail, overtaken := fun _ => true }
  | .returned _ => order

/-- The action is a receive, a datagram was removed since the party peeked, and the
oldest one is longer than a buffer that has grown with each peek but the last. -/
def CutsOff (order : Order) : Action → Prop
  | .receive p => order.overtaken p = true ∧
      sizeAfter (order.peeks p) < (order.queue.headD []).length
  | _ => False

instance (order : Order) (action : Action) : Decidable (order.CutsOff action) := by
  cases action <;> unfold CutsOff <;> infer_instance

/-- No receive cuts a datagram off. -/
def Undisturbed (order : Order) : List Action → Prop
  | [] => True
  | action :: actions => ¬ order.CutsOff action ∧ (order.after action).Undisturbed actions

instance decidableUndisturbed :
    (order : Order) → (actions : List Action) → Decidable (order.Undisturbed actions)
  | _, [] => isTrue trivial
  | order, action :: actions =>
      have := decidableUndisturbed (order.after action) actions
      inferInstanceAs (Decidable (_ ∧ _))

end Order

/-- The string a party has received and is about to return. -/
def inHand : Reader → List Bytes
  | .busy (.returned _ value) => [value]
  | _ => []

/-- The datagrams a party has removed, and what it got of them. -/
def removedBy (p : Party) (receipts : List Receipt) : List Bytes :=
  (receipts.filter fun receipt => receipt.party = p).map Receipt.datagram

def givenTo (p : Party) (receipts : List Receipt) : List Bytes :=
  (receipts.filter fun receipt => receipt.party = p).map Receipt.given

/-- Every string returned is a whole datagram, and every datagram removed is
returned once: what each party has returned, with what it is about to return,
are the datagrams it has removed. -/
def Whole (s : State) : Prop :=
  ∀ p, s.results p ++ inHand (s.reader p) = removedBy p s.receipts

variable {descriptor : Party → MessageFileDescriptor} {s s' : State} {order : Order}
  {action : Action} {actions : List Action}

/-! ### The readers -/

/-- The state of one reader: it has received `got` in the read under way, and
its last peek filled the buffer as `before` says. -/
def Reads (got : List Bytes) (before : Option (Nat × Nat)) : Reader → Prop
  | .idle => got = []
  | .busy call => call.wp fun h o _ => Reading got before h o

theorem Reads.inHand {got : List Bytes} {before : Option (Nat × Nat)} {reader : Reader}
    (reads : Reads got before reader) : inHand reader = got := by
  cases reader with
  | idle => exact reads.symm
  | busy call =>
      cases call with
      | returned _ value => simpa [SharedSocket.inHand] using (reads.returns value rfl).symm
      | asking _ q resume => simpa [SharedSocket.inHand] using (reads.1.nothing (by simp)).symm
      | threw _ e => simpa [SharedSocket.inHand] using (reads.nothing (by simp)).symm
      | faulted _ x => simpa [SharedSocket.inHand] using (reads.nothing (by simp)).symm
      | running _ => simpa [SharedSocket.inHand] using (reads.nothing (by simp)).symm

/-- A reader that has peeked `k` times receives with a buffer of the size that says. -/
def Sized (k : Nat) : Reader → Prop
  | .idle => True
  | .busy call => call.wp fun h o _ =>
      ∀ fd size, o = .asking (.recv fd size false) → size = sizeAfter (k + peeks h)

section Asking

variable {got : List Bytes} {before : Option (Nat × Nat)} {fd : Int} {size : Nat}
  {resume : Except Nat Bytes → Call System.interface Exn Fault Unit Bytes}

/-- After a peek. -/
theorem Reads.peek (reads : Reads got before (.busy (.asking () (.recv fd size true) resume)))
    (buf : Bytes) : Reads got (some (size, buf.length)) (.busy (resume (.ok buf))) :=
  (reads.2 (.ok buf)).mono fun _ _ _ point => ⟨point.returns, point.nothing, point.room⟩

/-- After a receive. -/
theorem Reads.receive (reads : Reads got before (.busy (.asking () (.recv fd size false) resume)))
    (buf : Bytes) : Reads (got ++ [buf]) before (.busy (resume (.ok buf))) := by
  apply (reads.2 (.ok buf)).mono
  rintro h o s point
  exact ⟨by simpa [received?] using point.returns, by simpa [received?] using point.nothing,
    point.room⟩

/-- After a call of `recv` that failed. -/
theorem Reads.failed {peek : Bool}
    (reads : Reads got before (.busy (.asking () (.recv fd size peek) resume))) (errno : Nat) :
    Reads got before (.busy (resume (.error errno))) := by
  apply (reads.2 (.error errno)).mono
  rintro h o s point
  cases peek <;> exact ⟨by simpa [received?] using point.returns,
    by simpa [received?] using point.nothing, point.room⟩

theorem Reads.room (reads : Reads got before (.busy (.asking () (.recv fd size false) resume))) :
    got = [] ∧ ∃ filled, before = some (size, filled) ∧ filled < size :=
  ⟨by simpa using reads.1.nothing (by simp), reads.1.room fd size rfl⟩

theorem Sized.peek {k : Nat} (sized : Sized k (.busy (.asking () (.recv fd size true) resume)))
    (buf : Bytes) : Sized (k + 1) (.busy (resume (.ok buf))) := by
  apply (sized.2 (.ok buf)).mono
  intro h o s known fd size asks
  rw [known fd size asks, peeks, List.countP_cons_of_pos rfl, peeks, Nat.add_assoc, Nat.add_comm 1]

theorem Sized.receive {k : Nat} (sized : Sized k (.busy (.asking () (.recv fd size false) resume)))
    (buf : Bytes) : Sized k (.busy (resume (.ok buf))) := by
  apply (sized.2 (.ok buf)).mono
  intro h o s known fd size asks
  rw [known fd size asks, peeks, List.countP_cons_of_neg (by simp [isPeek]), peeks]

end Asking

/-! ### Steps -/

theorem peek_cases {p : Party} (step : s.peek p = some s') :
    ∃ fd size resume datagram rest, s.queue = datagram :: rest ∧
      s.reader p = .busy (.asking () (.recv fd size true) resume) ∧
      s' = s.proceed p (resume (.ok (datagram.take size))) := by
  unfold State.peek at step
  split at step
  case h_1 _ fd size resume datagram rest reading queued =>
      exact ⟨fd, size, resume, datagram, rest, queued, reading, (Option.some.inj step).symm⟩
  case h_2 => simp at step

theorem receive_cases {p : Party} (step : s.receive p = some s') :
    ∃ fd size resume datagram rest, s.queue = datagram :: rest ∧
      s.reader p = .busy (.asking () (.recv fd size false) resume) ∧
      s' = { s.proceed p (resume (.ok (datagram.take size))) with
        queue := rest
        receipts := s.receipts ++ [⟨p, datagram, datagram.take size⟩] } := by
  unfold State.receive at step
  split at step
  case h_1 _ fd size resume datagram rest reading queued =>
      exact ⟨fd, size, resume, datagram, rest, queued, reading, (Option.some.inj step).symm⟩
  case h_2 => simp at step

theorem call_cases {p : Party} {self : MessageFileDescriptor} {bound : Nat}
    (step : s.call p self bound = some s') :
    s.reader p = .idle ∧ s' = s.proceed p (self.read bound ()) := by
  unfold State.call at step
  split at step
  case h_1 idle => exact ⟨idle, (Option.some.inj step).symm⟩
  case h_2 => simp at step

theorem returned_cases {p : Party} (step : s.returned p = some s') :
    ∃ value, s.reader p = .busy (.returned () value) ∧ s' = { s with
      reader := Function.update s.reader p .idle
      results := Function.update s.results p (s.results p ++ [value]) } := by
  unfold State.returned at step
  split at step
  case h_1 _ value finished => exact ⟨value, finished, (Option.some.inj step).symm⟩
  case h_2 => simp at step

/-- The account of one party. As long as nothing was removed since it peeked,
the datagram it peeked at is the oldest one. -/
structure Account (s : State) (order : Order) (p : Party) (got : List Bytes)
    (before : Option (Nat × Nat)) : Prop where
  reads : Reads got before (s.reader p)
  sized : Sized (order.peeks p) (s.reader p)
  given : s.results p ++ got = givenTo p s.receipts
  oldest : order.overtaken p = false → ∀ size filled, before = some (size, filled) →
    ∃ datagram rest, s.queue = datagram :: rest ∧ filled = (datagram.take size).length

/-- The order has the same datagrams in the socket, and each party has its account. -/
structure Inv (s : State) (order : Order) : Prop where
  queue : order.queue = s.queue
  account : ∀ p, ∃ got before, Account s order p got before

theorem inv_start : Inv start .start where
  queue := rfl
  account := fun _ => ⟨[], none, rfl, trivial, rfl, by simp⟩

variable {p q : Party} {got : List Bytes} {before : Option (Nat × Nat)}

theorem Account.arrive (account : Account s order p got before) (datagram : Bytes) :
    Account { s with queue := s.queue ++ [datagram] } (order.after (.arrive datagram)) p got
      before where
  reads := account.reads
  sized := account.sized
  given := account.given
  oldest := by
    intro current size filled last
    obtain ⟨first, rest, queued, filling⟩ := account.oldest current size filled last
    exact ⟨first, rest ++ [datagram], by simp [queued], filling⟩

theorem givenTo_snoc {receipts : List Receipt} {receipt : Receipt} :
    givenTo p (receipts ++ [receipt]) =
      givenTo p receipts ++ if receipt.party = p then [receipt.given] else [] := by
  by_cases same : receipt.party = p
  · simp [givenTo, same]
  · simp [givenTo, same]

/-- What another party does leaves one's account as it is. -/
theorem Account.congr (account : Account s order p got before) {order' : Order}
    (reader : s'.reader p = s.reader p) (results : s'.results p = s.results p)
    (receipts : s'.receipts = s.receipts) (queue : s'.queue = s.queue)
    (peeks : order'.peeks p = order.peeks p) (overtaken : order'.overtaken p = order.overtaken p) :
    Account s' order' p got before where
  reads := reader ▸ account.reads
  sized := by rw [peeks, reader]; exact account.sized
  given := by rw [results, receipts, account.given]
  oldest := by rw [overtaken, queue]; exact account.oldest

/-- Once another has removed a datagram, it is not known any more which one is
the oldest. -/
theorem Account.removed (account : Account s order p got before) (other : q ≠ p) {reader : Reader}
    {queue : List Bytes} {datagram given : Bytes} :
    Account { s with
      reader := Function.update s.reader q reader
      queue := queue
      receipts := s.receipts ++ [⟨q, datagram, given⟩] } (order.after (.receive q)) p got
      before where
  reads := by simpa [Function.update_of_ne other.symm] using account.reads
  sized := by simpa [Function.update_of_ne other.symm, Order.after] using account.sized
  given := by simpa [givenTo_snoc, other] using account.given
  oldest := by simp [Order.after]

section Turn

variable {fd : Int} {size : Nat} {datagram : Bytes} {rest : List Bytes}
  {resume : Except Nat Bytes → Call System.interface Exn Fault Unit Bytes}

/-- After its own peek a party knows the oldest datagram. -/
theorem Account.peek (account : Account s order p got before)
    (reading : s.reader p = .busy (.asking () (.recv fd size true) resume))
    (queued : s.queue = datagram :: rest) :
    Account (s.proceed p (resume (.ok (datagram.take size)))) (order.after (.peek p)) p got
      (some (size, (datagram.take size).length)) where
  reads := by
    have reads := account.reads
    rw [reading] at reads
    simpa [State.proceed] using reads.peek (datagram.take size)
  sized := by
    have sized := account.sized
    rw [reading] at sized
    simpa [State.proceed, Order.after] using sized.peek (datagram.take size)
  given := account.given
  oldest := by
    rintro - size' filled ⟨⟩
    exact ⟨datagram, rest, queued, rfl⟩

/-- After its own receive it has one string more. -/
theorem Account.receive (account : Account s order p got before)
    (reading : s.reader p = .busy (.asking () (.recv fd size false) resume)) :
    Account { s.proceed p (resume (.ok (datagram.take size))) with
      queue := rest
      receipts := s.receipts ++ [⟨p, datagram, datagram.take size⟩] } (order.after (.receive p)) p
      (got ++ [datagram.take size]) before where
  reads := by
    have reads := account.reads
    rw [reading] at reads
    simpa [State.proceed] using reads.receive (datagram.take size)
  sized := by
    have sized := account.sized
    rw [reading] at sized
    simpa [State.proceed, Order.after] using sized.receive (datagram.take size)
  given := by simp [State.proceed, givenTo_snoc, ← account.given]
  oldest := by simp [Order.after]

/-- What a read returns is what it has received. -/
theorem Account.returned (account : Account s order p got before) {value : Bytes}
    (finished : s.reader p = .busy (.returned () value)) :
    Account { s with
      reader := Function.update s.reader p .idle
      results := Function.update s.results p (s.results p ++ [value]) } order p [] before := by
  have reads := account.reads
  rw [finished] at reads
  obtain rfl : got = [value] := by simpa using reads.returns value rfl
  exact ⟨by simp [Reads], by simp [Sized], by simpa using account.given, account.oldest⟩

/-- A read that begins has received nothing. -/
theorem Account.begin (account : Account s order p got before) (idle : s.reader p = .idle)
    {self : MessageFileDescriptor} (bound : Nat) :
    Account (s.proceed p (self.read bound ())) (order.after (.call p bound)) p [] none where
  reads := by simpa [State.proceed, Reads] using read_wp bound
  sized := by simpa [State.proceed, Sized, Order.after] using read_sizes bound
  given := by
    have reads := account.reads
    rw [idle] at reads
    obtain rfl : got = [] := reads
    exact account.given
  oldest := by simp

end Turn

theorem Step.inv (step : Step descriptor s action s') (inv : Inv s order) :
    Inv s' (order.after action) := by
  cases action with
  | arrive datagram =>
      obtain rfl := Option.some.inj step
      refine ⟨congrArg (· ++ [datagram]) inv.queue, fun q => ?_⟩
      obtain ⟨got, before, account⟩ := inv.account q
      exact ⟨got, before, account.arrive datagram⟩
  | call p bound =>
      obtain ⟨idle, rfl⟩ := call_cases step
      refine ⟨inv.queue, fun q => ?_⟩
      obtain ⟨got, before, account⟩ := inv.account q
      by_cases same : q = p
      · subst same
        exact ⟨[], none, account.begin idle bound⟩
      · exact ⟨got, before, account.congr (by simp [State.proceed, same]) rfl rfl rfl
          (by simp [Order.after, same]) rfl⟩
  | peek p =>
      obtain ⟨fd, size, resume, datagram, rest, queued, reading, rfl⟩ := peek_cases step
      refine ⟨inv.queue, fun q => ?_⟩
      obtain ⟨got, before, account⟩ := inv.account q
      by_cases same : q = p
      · subst same
        exact ⟨got, _, account.peek reading queued⟩
      · exact ⟨got, before, account.congr (by simp [State.proceed, same]) rfl rfl rfl
          (by simp [Order.after, same]) (by simp [Order.after, same])⟩
  | receive p =>
      obtain ⟨fd, size, resume, datagram, rest, queued, reading, rfl⟩ := receive_cases step
      refine ⟨by simp [Order.after, inv.queue, queued], fun q => ?_⟩
      obtain ⟨got, before, account⟩ := inv.account q
      by_cases same : q = p
      · subst same
        exact ⟨_, before, account.receive reading⟩
      · exact ⟨got, before, account.removed (Ne.symm same)⟩
  | returned p =>
      obtain ⟨value, finished, rfl⟩ := returned_cases step
      refine ⟨inv.queue, fun q => ?_⟩
      obtain ⟨got, before, account⟩ := inv.account q
      by_cases same : q = p
      · subst same
        exact ⟨[], before, account.returned finished⟩
      · exact ⟨got, before, account.congr (by simp [same]) (by simp [same]) rfl rfl rfl rfl⟩

/-! ### What is whole -/

/-- Each datagram removed was given whole. -/
def AllGiven (s : State) : Prop := ∀ receipt ∈ s.receipts, receipt.given = receipt.datagram

theorem whole_iff_allGiven (inv : Inv s order) : Whole s ↔ AllGiven s := by
  have given : ∀ p, s.results p ++ inHand (s.reader p) = givenTo p s.receipts := by
    intro p
    obtain ⟨got, before, account⟩ := inv.account p
    rw [account.reads.inHand, account.given]
  unfold Whole
  simp only [given, givenTo, removedBy, List.map_inj_left, List.mem_filter, decide_eq_true_eq]
  constructor
  · intro same receipt mem
    exact same receipt.party receipt ⟨mem, rfl⟩
  · rintro all p receipt ⟨mem, -⟩
    exact all receipt mem

/-- A receive gives the whole datagram unless it is one that cuts it off. -/
theorem take_eq_iff {fd : Int} {size : Nat} {datagram : Bytes} {rest : List Bytes}
    {resume : Except Nat Bytes → Call System.interface Exn Fault Unit Bytes} (inv : Inv s order)
    (reading : s.reader p = .busy (.asking () (.recv fd size false) resume))
    (queued : s.queue = datagram :: rest) :
    datagram.take size = datagram ↔ ¬ order.CutsOff (.receive p) := by
  obtain ⟨got, before, account⟩ := inv.account p
  have reads := account.reads
  have sized := account.sized
  rw [reading] at reads sized
  obtain ⟨-, filled, last, notFull⟩ := reads.room
  have known : size = sizeAfter (order.peeks p) := sized.1 fd size rfl
  have head : order.queue.headD [] = datagram := by rw [inv.queue, queued, List.headD_cons]
  rw [List.take_eq_self_iff, Order.CutsOff, head, ← known]
  constructor
  · rintro fits ⟨-, longer⟩
    omega
  · intro whole
    by_contra tooLong
    refine whole ⟨?_, by omega⟩
    -- a datagram that is still the one peeked at does not fill the buffer
    by_contra current
    obtain ⟨datagram', rest', queued', filling⟩ :=
      account.oldest (Bool.eq_false_iff.mpr current) size filled last
    rw [queued] at queued'
    cases queued'
    rw [List.length_take] at filling
    omega

theorem Step.allGiven (step : Step descriptor s action s') (inv : Inv s order) :
    AllGiven s' ↔ AllGiven s ∧ ¬ order.CutsOff action := by
  cases action with
  | arrive datagram =>
      obtain rfl := Option.some.inj step
      simp [AllGiven, Order.CutsOff]
  | call p bound =>
      obtain ⟨-, rfl⟩ := call_cases step
      simp [AllGiven, Order.CutsOff, State.proceed]
  | peek p =>
      obtain ⟨fd, size, resume, datagram, rest, -, -, rfl⟩ := peek_cases step
      simp [AllGiven, Order.CutsOff, State.proceed]
  | receive p =>
      obtain ⟨fd, size, resume, datagram, rest, queued, reading, rfl⟩ := receive_cases step
      rw [← take_eq_iff inv reading queued]
      simp only [AllGiven, List.mem_append, List.mem_singleton, or_imp, forall_and, forall_eq]
  | returned p =>
      obtain ⟨value, -, rfl⟩ := returned_cases step
      simp [AllGiven, Order.CutsOff]

/-- The induction is on the run; the order goes along with the state. -/
theorem allGiven_iff (run : Run (Step descriptor) s actions s') (inv : Inv s order) :
    (AllGiven s' ↔ AllGiven s ∧ order.Undisturbed actions) ∧ ∃ order', Inv s' order' := by
  induction run generalizing order with
  | nil s => exact ⟨(and_iff_left trivial).symm, order, inv⟩
  | @cons s s₁ s' action actions step _ ih =>
      obtain ⟨rest, last⟩ := ih (step.inv inv)
      refine ⟨?_, last⟩
      rw [rest, step.allGiven inv, and_assoc]
      rfl

/-- The strings returned are the datagrams removed, each once and whole, if and
only if no receive of the run meets, after a datagram was removed, one that is
longer than its buffer after that many peeks. -/
theorem whole_iff (run : Run (Step descriptor) start actions s) :
    Whole s ↔ Order.start.Undisturbed actions := by
  obtain ⟨given, order, inv⟩ := allGiven_iff run inv_start
  have none : AllGiven start := by simp [AllGiven, start]
  rw [whole_iff_allGiven inv, given, and_iff_right none]

def descriptors : Party → MessageFileDescriptor
  | .owner => ⟨3, by decide⟩
  | .copy => ⟨4, by decide⟩

/-- The owner peeks twice at a datagram of 33 bytes, the copy removes it, and the
owner receives one of 40 into its buffer of 128. -/
def overtakes : List Action :=
  [.arrive (List.replicate 33 7), .arrive (List.replicate 40 8), .call .owner 3, .peek .owner,
    .peek .owner, .call .copy 3, .peek .copy, .peek .copy, .receive .copy, .returned .copy,
    .receive .owner, .returned .owner]

theorem exists_run_overtakes : ∃ s, Run (Step descriptors) start overtakes s ∧
    s.results .owner = [List.replicate 40 8] ∧ s.results .copy = [List.replicate 33 7] :=
  ⟨_, .cons rfl (.cons rfl (.cons rfl (.cons rfl (.cons rfl (.cons rfl (.cons rfl (.cons rfl
    (.cons rfl (.cons rfl (.cons rfl (.single rfl))))))))))), rfl, rfl⟩

theorem whole_iff_overtakes : ∃ s, s.results .owner = [List.replicate 40 8] ∧
    s.results .copy = [List.replicate 33 7] ∧ Whole s := by
  obtain ⟨s, run, owner, copy⟩ := exists_run_overtakes
  exact ⟨s, owner, copy, (whole_iff run).mpr (by decide)⟩

/-- The owner peeks at a short datagram, the copy peeks at it and receives it,
and the owner receives a long one into a buffer of 32 bytes. -/
theorem exists_run_cutOff : ∃ s, Run (Step descriptors) start [.arrive [1],
      .arrive (List.replicate 33 7), .call .owner 2, .peek .owner, .call .copy 2, .peek .copy,
      .receive .copy, .receive .owner] s ∧
    inHand (s.reader .owner) = [List.replicate 32 7] ∧
    s.results .owner = [] ∧ removedBy .owner s.receipts = [List.replicate 33 7] :=
  ⟨_, .cons rfl (.cons rfl (.cons rfl (.cons rfl (.cons rfl (.cons rfl (.cons rfl
    (.single rfl))))))), rfl, rfl, rfl⟩

theorem whole_fails : ¬ ∀ descriptor actions s,
    Run (Step descriptor) start actions s → Whole s := by
  intro always
  obtain ⟨s, run, hand, results, removed⟩ := exists_run_cutOff
  have whole := always descriptors _ s run .owner
  rw [hand, results, removed] at whole
  revert whole
  decide

end MarathonKit.Core.SharedSocket
