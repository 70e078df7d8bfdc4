import MarathonKit.Core.Network

/-!
Which address a connection is made to, and what becomes of the sockets.

`Settled` is the whole history of a call of `createTcpConnection` or of
`createUdpListener` that is over: the resolver, then the addresses one by one
(`Tried`) until a socket could be set up, then the log. Both functions come to
it, except for what they remember of having tried anything; the counting of
sockets and the reports on the log are read off it.
-/

namespace MarathonKit.Core.Network

open Dialogue Dialogue.Method

variable {σ δ : Type} {texts : Texts} {endpoint : Endpoint δ}

/-- The call to the resolver, with its answer. -/
def resolved (endpoint : Endpoint δ) (answer : Except Int (List AddrInfo)) : Event interface :=
  ⟨.getaddrinfo (if endpoint.host = "" then none else some endpoint.host) endpoint.service
    (hints .any endpoint.protocol endpoint.mode), answer⟩

/-- An address that fails: there is no socket for it, or there is one that cannot
be set up and is closed. -/
inductive Fails (texts : Texts) (endpoint : Endpoint δ) (info : AddrInfo) :
    List (Event interface) → Prop where
  | socket (errno : Nat) : Fails texts endpoint info
      [⟨.socket info.aiFamily info.aiSocktype info.aiProtocol, .error errno⟩,
        ⟨.log .warn (endpoint.failed ++ [texts.strerror errno]), ()⟩]
  | setUp (socketFd errno : Nat) : Fails texts endpoint info
      [⟨.socket info.aiFamily info.aiSocktype info.aiProtocol, .ok socketFd⟩,
        ⟨.setUp endpoint.setUp socketFd info.aiAddr, .error errno⟩,
        ⟨.log .warn (endpoint.failed ++ [texts.strerror errno]), ()⟩,
        ⟨.close socketFd, ()⟩]

/-- An address that works. -/
def works (endpoint : Endpoint δ) (info : AddrInfo) (socketFd : Nat) : List (Event interface) :=
  [⟨.socket info.aiFamily info.aiSocktype info.aiProtocol, .ok socketFd⟩,
    ⟨.setUp endpoint.setUp socketFd info.aiAddr, .ok ()⟩]

/-- The addresses in their order, up to the first one that works, with the
socket accepted. -/
inductive Tried (texts : Texts) (endpoint : Endpoint δ) :
    List AddrInfo → List (Event interface) → Option Nat → Prop where
  | none : Tried texts endpoint [] [] none
  | fails {info : AddrInfo} {infos : List AddrInfo} {k h : List (Event interface)}
      {accepted : Option Nat} : Fails texts endpoint info k →
      Tried texts endpoint infos h accepted →
      Tried texts endpoint (info :: infos) (k ++ h) accepted
  | works (info : AddrInfo) (infos : List AddrInfo) (socketFd : Nat) :
      Tried texts endpoint (info :: infos) (works endpoint info socketFd) (some socketFd)

/-- What is logged at the end. -/
def reports (endpoint : Endpoint δ) (anyTried : Bool) (accepted : Option Nat) :
    List (Event interface) :=
  (if anyTried then [] else [⟨.log .err endpoint.unknown, ()⟩]) ++
    (if accepted.isSome then [⟨.log .info endpoint.successful, ()⟩] else [])

/-- A call that is over: its history, and the socket it returns or its
exception. `marks` says whether the callback notes that it was called. -/
inductive Settled (texts : Texts) (endpoint : Endpoint δ) (marks : Bool) :
    List (Event interface) → Except Exn Nat → Prop where
  | unresolved (rc : Int) : Settled texts endpoint marks
      [⟨.log .info endpoint.trying, ()⟩, resolved endpoint (.error rc)]
      (.error (.runtimeError (texts.gaiStrerror rc)))
  | tried {infos : List AddrInfo} {attempts : List (Event interface)} {accepted : Option Nat} :
      Tried texts endpoint infos attempts accepted → Settled texts endpoint marks
        (⟨.log .info endpoint.trying, ()⟩ :: resolved endpoint (.ok infos) ::
          (attempts ++ ⟨.freeaddrinfo infos, ()⟩ ::
            reports endpoint (marks && !infos.isEmpty) accepted))
        (accepted.elim (.error (.runtimeError endpoint.impossible)) .ok)

/-! ### Both functions settle -/

/-- The constructor of the descriptor admits every socket. -/
def Admits (endpoint : Endpoint δ) (own : Nat → δ) : Prop :=
  ∀ socketFd : Nat, endpoint.createOwnerOf socketFd = .ok (own socketFd)

/-- The callback tries the address, and notes that it was called if `marks`. -/
def Calls (texts : Texts) (endpoint : Endpoint δ) (marks : Bool)
    (callback : AddrInfo → Method Exn (Local δ) LoopControl) : Prop :=
  ∀ info s, callback info s = tryAddress texts endpoint info ⟨s.fd, s.anyTried || marks⟩

variable {own : Nat → δ} {marks : Bool} {info : AddrInfo} {infos : List AddrInfo}
  {callback : AddrInfo → Method Exn (Local δ) LoopControl} {s : Local δ}

theorem tryAddress_wp (admits : Admits endpoint own) :
    (tryAddress texts endpoint info s).wp (Call.Ends
      (fun h control s' => match control with
        | .continue => Fails texts endpoint info h ∧ s' = s
        | .break => ∃ socketFd, h = works endpoint info socketFd ∧
            s' = { s with fd := some (own socketFd) })
      fun _ _ _ => False) := by
  unfold tryAddress
  refine ⟨trivial, ?_⟩
  rintro (errno | socketFd)
  · exact ⟨trivial, fun _ => ⟨.socket errno, rfl⟩⟩
  · refine ⟨trivial, ?_⟩
    rintro (errno | _)
    · exact ⟨trivial, fun _ => ⟨trivial, fun _ => ⟨.setUp socketFd errno, rfl⟩⟩⟩
    · simp only [admits socketFd, bind_apply, orThrow_ok, update_apply, pure_apply,
        Call.andThen_returned]
      exact ⟨socketFd, rfl, rfl⟩

theorem visit_wp (admits : Admits endpoint own) (calls : Calls texts endpoint marks callback) :
    (visit callback info s).wp (Call.Ends
      (fun h goesOn s' => if goesOn then
          Fails texts endpoint info h ∧ s' = ⟨s.fd, s.anyTried || marks⟩
        else ∃ socketFd, h = works endpoint info socketFd ∧
          s' = ⟨some (own socketFd), s.anyTried || marks⟩)
      fun _ _ _ => False) := by
  unfold visit
  rw [bind_apply, calls info s]
  refine Call.wp_andThen_ends (tryAddress_wp admits) (fun _ _ _ => id) ?_
  intro h control s' after
  cases control with
  | «continue» => simpa [Call.Ends] using after
  | «break» => simpa [Call.Ends] using after

/-- The loop stands before `rest`, with every address before it failed: what is
tried of `rest` is then tried of all. -/
structure AllFailed (texts : Texts) (endpoint : Endpoint δ) (marks : Bool) (infos : List AddrInfo)
    (rest : List AddrInfo) (h : List (Event interface)) (s : Local δ) : Prop where
  fd : s.fd = none
  anyTried : (s.anyTried || (marks && !rest.isEmpty)) = (marks && !infos.isEmpty)
  tried : ∀ k accepted, Tried texts endpoint rest k accepted →
    Tried texts endpoint infos (h ++ k) accepted

theorem AllFailed.fails {h k : List (Event interface)} {rest : List AddrInfo}
    (before : AllFailed texts endpoint marks infos (info :: rest) h s)
    (fails : Fails texts endpoint info k) :
    AllFailed texts endpoint marks infos rest (h ++ k) ⟨s.fd, s.anyTried || marks⟩ where
  fd := before.fd
  anyTried := by
    rw [← before.anyTried]
    cases s.anyTried <;> cases marks <;> simp
  tried := by
    intro k' accepted after
    rw [List.append_assoc]
    exact before.tried _ _ (.fails fails after)

theorem forEach_wp (admits : Admits endpoint own) (calls : Calls texts endpoint marks callback)
    (infos : List AddrInfo) :
    (forEach (visit callback) infos ⟨none, false⟩).wp (Call.Ends
      (fun h _ s => ∃ accepted, Tried texts endpoint infos h accepted ∧
        s = ⟨accepted.map own, marks && !infos.isEmpty⟩)
      fun _ _ _ => False) := by
  apply wp_forEach (AllFailed texts endpoint marks infos)
  · exact ⟨rfl, by simp, fun _ _ tried => tried⟩
  · intro h s before
    refine ⟨none, by simpa using before.tried [] none .none, ?_⟩
    obtain ⟨fd, anyTried⟩ := s
    have noFd : fd = none := before.fd
    have same : anyTried = (marks && !infos.isEmpty) := by simpa using before.anyTried
    rw [noFd, same]
    rfl
  · intro info rest h s before
    apply (visit_wp admits calls).mono
    intro k o s' visited
    cases o with
    | returned goesOn =>
        cases goesOn with
        | true =>
            obtain ⟨fails, rfl⟩ : _ ∧ _ := visited
            exact before.fails fails
        | false =>
            obtain ⟨socketFd, rfl, rfl⟩ : ∃ _, _ := visited
            refine ⟨some socketFd, before.tried _ _ (.works info rest socketFd), ?_⟩
            have same : (s.anyTried || marks) = (marks && !infos.isEmpty) := by
              simpa using before.anyTried
            rw [same]
            rfl
    | asking q => trivial
    | _ => exact visited.elim

theorem forEachAddressInfo_wp (admits : Admits endpoint own)
    (calls : Calls texts endpoint marks callback) :
    (forEachAddressInfo texts .runtimeError endpoint.host endpoint.service .any endpoint.protocol
      endpoint.mode callback ⟨none, false⟩).wp (Call.Ends
        (fun h _ s => ∃ infos attempts accepted, Tried texts endpoint infos attempts accepted ∧
          h = resolved endpoint (.ok infos) :: (attempts ++ [⟨.freeaddrinfo infos, ()⟩]) ∧
          s = ⟨accepted.map own, marks && !infos.isEmpty⟩)
        fun h e _ => ∃ rc, h = [resolved endpoint (.error rc)] ∧
          e = .runtimeError (texts.gaiStrerror rc)) := by
  rw [forEachAddressInfo_apply]
  refine ⟨trivial, ?_⟩
  rintro (rc | infos)
  · exact ⟨rc, rfl, rfl⟩
  · have tried := Call.wp_caught_ends (forEach_wp admits calls infos)
    refine Call.wp_andThen_ends tried (fun _ _ _ => False.elim) ?_
    intro h result s after
    refine ⟨trivial, fun _ => ?_⟩
    cases result with
    | error e => exact after.elim
    | ok _ =>
        obtain ⟨accepted, tried, rfl⟩ := after
        exact ⟨infos, h, accepted, tried, rfl, rfl⟩

theorem conclude_wp (accepted : Option Nat) (anyTried : Bool) :
    (conclude endpoint ⟨accepted.map own, anyTried⟩).wp (Call.Ends
      (fun h fd _ => h = reports endpoint anyTried accepted ∧
        ∃ socketFd, accepted = some socketFd ∧ fd = own socketFd)
      fun h e _ => h = reports endpoint anyTried accepted ∧ accepted = none ∧
        e = .runtimeError endpoint.impossible) := by
  unfold conclude
  cases accepted with
  | none =>
      cases anyTried with
      | true => exact ⟨rfl, rfl, rfl⟩
      | false => exact ⟨trivial, fun _ => ⟨rfl, rfl, rfl⟩⟩
  | some socketFd =>
      cases anyTried with
      | true => exact ⟨trivial, fun _ => ⟨rfl, socketFd, rfl, rfl⟩⟩
      | false => exact ⟨trivial, fun _ => ⟨trivial, fun _ => ⟨rfl, socketFd, rfl, rfl⟩⟩⟩

theorem create_wp (admits : Admits endpoint own) (calls : Calls texts endpoint marks callback) :
    (create texts endpoint callback ⟨none, false⟩).wp (Call.Ends
      (fun h fd _ => ∃ socketFd, Settled texts endpoint marks h (.ok socketFd) ∧
        fd = own socketFd)
      fun h e _ => Settled texts endpoint marks h (.error e)) := by
  unfold create
  refine ⟨trivial, fun _ => ?_⟩
  simp only [Call.andThen_returned]
  refine Call.wp_andThen_ends (forEachAddressInfo_wp admits calls) ?_ ?_
  · rintro h e s ⟨rc, rfl, rfl⟩
    exact .unresolved rc
  · rintro h _ s ⟨infos, attempts, accepted, tried, rfl, rfl⟩
    apply (conclude_wp accepted (marks && !infos.isEmpty)).mono
    intro k o s ends
    have settled : Settled texts endpoint marks _ _ := .tried tried
    apply ends.imp
    · rintro fd ⟨rfl, socketFd, rfl, rfl⟩
      exact ⟨socketFd, by simpa using settled, rfl⟩
    · rintro e ⟨rfl, rfl, rfl⟩
      simpa using settled

/-! ### The sockets -/

/-- The sockets that are open after an event, with `before` open before it. -/
def openAfter (before : List Nat) : Event interface → List Nat
  | ⟨.socket _ _ _, .ok socketFd⟩ => socketFd :: before
  | ⟨.close socketFd, _⟩ => before.erase socketFd
  | _ => before

def openSockets (before : List Nat) (h : List (Event interface)) : List Nat :=
  h.foldl openAfter before

variable {h k : List (Event interface)} {accepted : Option Nat} {result : Except Exn Nat}

theorem openSockets_append (before : List Nat) :
    openSockets before (h ++ k) = openSockets (openSockets before h) k :=
  List.foldl_append

theorem Fails.openSockets (fails : Fails texts endpoint info h) (before : List Nat) :
    openSockets before h = before := by
  cases fails with
  | socket errno => rfl
  | setUp socketFd errno => exact List.erase_cons_head ..

theorem Tried.openSockets (tried : Tried texts endpoint infos h accepted) (before : List Nat) :
    openSockets before h = accepted.toList ++ before := by
  induction tried with
  | none => rfl
  | fails fails _ ih => rw [openSockets_append, fails.openSockets, ih]
  | works => rfl

theorem openSockets_reports (anyTried : Bool) (before : List Nat) :
    Network.openSockets before (reports endpoint anyTried accepted) = before := by
  cases anyTried <;> cases accepted <;> rfl

/-- A call leaves the socket open that it returns, and none otherwise. -/
theorem Settled.openSockets (settled : Settled texts endpoint marks h result)
    (before : List Nat) : openSockets before h = result.toOption.toList ++ before := by
  cases settled with
  | unresolved rc => rfl
  | @tried infos attempts accepted tried =>
      have after : Network.openSockets before (attempts ++ ⟨.freeaddrinfo infos, ()⟩ ::
          reports endpoint (marks && !infos.isEmpty) accepted) = accepted.toList ++ before := by
        rw [openSockets_append, tried.openSockets]
        exact openSockets_reports _ _
      cases accepted with
      | none => exact after
      | some socketFd => exact after

/-- A call opens the first address that works. -/
structure FirstWorking (texts : Texts) (endpoint : Endpoint δ) (marks : Bool) (mFd : δ → Int)
    (call : Call interface Exn Fault σ δ) : Prop where
  returned : ∀ h c, call.Reaches h c → ∀ fd, c.outcome = .returned fd → ∃ socketFd : Nat,
    mFd fd = socketFd ∧ Settled texts endpoint marks h (.ok socketFd) ∧
    ∀ before, openSockets before h = socketFd :: before
  threw : ∀ h c, call.Reaches h c → ∀ e, c.outcome = .threw e →
    Settled texts endpoint marks h (.error e) ∧ ∀ before, openSockets before h = before
  finished : ∀ (ε : Type) (env : (q : Request) → ε → Option (Answer q × ε)),
    (∀ q e, (env q e).isSome) → ∀ e, (call.serve env e).1.outcome.Finished

theorem firstWorking_create {mFd : δ → Int} (admits : Admits endpoint own)
    (owns : ∀ socketFd, mFd (own socketFd) = socketFd)
    (calls : Calls texts endpoint marks callback) (s : σ) :
    FirstWorking texts endpoint marks mFd
      ((create texts endpoint callback ⟨none, false⟩).within fun _ => s) := by
  have ends : ((create texts endpoint callback ⟨none, false⟩).within fun _ => s).wp (Call.Ends
      (fun h fd _ => ∃ socketFd, Settled texts endpoint marks h (.ok socketFd) ∧
        fd = own socketFd)
      fun h e _ => Settled texts endpoint marks h (.error e)) :=
    Call.wp_within.mpr ((create_wp admits calls).mono fun _ _ _ ends =>
      ends.imp (fun _ => id) fun _ => id)
  constructor
  · intro h c reached fd outcome
    have here := ends.reaches reached
    rw [outcome] at here
    obtain ⟨socketFd, settled, rfl⟩ := here
    exact ⟨socketFd, owns socketFd, settled, settled.openSockets⟩
  · intro h c reached e outcome
    have here := ends.reaches reached
    rw [outcome] at here
    exact ⟨here, here.openSockets⟩
  · intro ε env total e
    exact Call.serve_finished ends total e

theorem tcpConnection_calls (host service : String) :
    Calls texts (tcpConnection host service) true (fun info => do
      update fun vars => { vars with anyTried := true }
      tryAddress texts (tcpConnection host service) info) := by
  intro info s
  simp

theorem udpListener_calls (service : String) :
    Calls texts (udpListener service) false (tryAddress texts (udpListener service)) := by
  intro info s
  simp

theorem createTcpConnection_works (texts : Texts) (host service : String) (s : σ) :
    FirstWorking texts (tcpConnection host service) true StreamFileDescriptor.mFd
      (createTcpConnection texts host service s) := by
  have admits : Admits (tcpConnection host service)
      fun socketFd => ⟨socketFd, Int.natCast_nonneg socketFd⟩ := by
    intro socketFd
    show StreamFileDescriptor.make socketFd = _
    exact StreamFileDescriptor.make_of_nonneg _
  exact firstWorking_create admits (fun _ => rfl) (tcpConnection_calls host service) s

theorem createUdpListener_works (texts : Texts) (service : String) (s : σ) :
    FirstWorking texts (udpListener service) false MessageFileDescriptor.mFd
      (createUdpListener texts service s) := by
  have admits : Admits (udpListener service)
      fun socketFd => ⟨socketFd, Int.natCast_nonneg socketFd⟩ := by
    intro socketFd
    show MessageFileDescriptor.make socketFd = _
    exact MessageFileDescriptor.make_of_nonneg _
  exact firstWorking_create admits (fun _ => rfl) (udpListener_calls service) s

/-- Both functions: the addresses in their order, the first one that works is
returned as the owner of its socket, every other socket is closed again, and the
call comes to an end. -/
theorem firstWorking (texts : Texts) (s : σ) :
    (∀ host service, FirstWorking texts (tcpConnection host service) true
      StreamFileDescriptor.mFd (createTcpConnection texts host service s)) ∧
    ∀ service, FirstWorking texts (udpListener service) false
      MessageFileDescriptor.mFd (createUdpListener texts service s) :=
  ⟨fun host service => createTcpConnection_works texts host service s,
    fun service => createUdpListener_works texts service s⟩

/-! ### The log -/

/-- The log says that the host, or the service port, is unknown. -/
def Reported (endpoint : Endpoint δ) (h : List (Event interface)) : Prop :=
  ⟨.log .err endpoint.unknown, ()⟩ ∈ h

/-- What is asked on account of an address. -/
def Request.OfAttempt : Request → Prop
  | .socket _ _ _ | .setUp _ _ _ | .close _ | .log .warn _ => True
  | _ => False

theorem Fails.ofAttempt (fails : Fails texts endpoint info h) :
    ∀ event ∈ h, event.request.OfAttempt := by
  cases fails <;> simp [Request.OfAttempt]

theorem Tried.ofAttempt (tried : Tried texts endpoint infos h accepted) :
    ∀ event ∈ h, event.request.OfAttempt := by
  induction tried with
  | none => simp
  | fails fails _ ih =>
      intro event mem
      rcases List.mem_append.mp mem with mem | mem
      · exact fails.ofAttempt event mem
      · exact ih event mem
  | works => simp [Network.works, Request.OfAttempt]

theorem reported_reports (anyTried : Bool) :
    Reported endpoint (reports endpoint anyTried accepted) ↔ anyTried = false := by
  cases anyTried <;> cases accepted <;> simp [Reported, reports]

theorem resolved_not_mem_reports (answer : Except Int (List AddrInfo)) (anyTried : Bool) :
    resolved endpoint answer ∉ reports endpoint anyTried accepted := by
  cases anyTried <;> cases accepted <;> simp [resolved, reports]

/-- It is said if the callback does not note its calls, or was not called. -/
theorem Settled.reported (settled : Settled texts endpoint marks h result)
    (mem : resolved endpoint (.ok infos) ∈ h) :
    Reported endpoint h ↔ (marks && !infos.isEmpty) = false := by
  cases settled with
  | unresolved rc => simp [resolved] at mem
  | @tried infos' attempts accepted tried =>
      have said : Reported endpoint (reports endpoint (marks && !infos'.isEmpty) accepted) ↔
          (marks && !infos'.isEmpty) = false := reported_reports _
      have notBefore : ¬ Reported endpoint attempts := fun mem => tried.ofAttempt _ mem
      obtain rfl : infos = infos' := by
        simp only [List.mem_cons, List.mem_append] at mem
        rcases mem with log | same | attempt | free | report
        · simp [resolved] at log
        · simpa [resolved] using same
        · exact absurd (tried.ofAttempt _ attempt) id
        · simp [resolved] at free
        · exact absurd report (resolved_not_mem_reports _ _)
      unfold Reported at notBefore said ⊢
      simpa [notBefore, resolved] using said

theorem FirstWorking.reported {mFd : δ → Int} {call c : Call interface Exn Fault σ δ}
    (works : FirstWorking texts endpoint marks mFd call) (reached : call.Reaches h c)
    (finished : c.outcome.Finished) (mem : resolved endpoint (.ok infos) ∈ h) :
    Reported endpoint h ↔ (marks && !infos.isEmpty) = false := by
  cases outcome : c.outcome with
  | returned fd =>
      obtain ⟨socketFd, -, settled, -⟩ := works.returned h c reached fd outcome
      exact settled.reported mem
  | threw e =>
      obtain ⟨settled, -⟩ := works.threw h c reached e outcome
      exact settled.reported mem
  | _ =>
      rw [outcome] at finished
      exact finished.elim

/-- Whether the report is right: of `createTcpConnection` always, of
`createUdpListener` only if there was no address. -/
theorem reported_iff (texts : Texts) (s : σ) :
    (∀ host service h c infos, (createTcpConnection texts host service s).Reaches h c →
      c.outcome.Finished → resolved (tcpConnection host service) (.ok infos) ∈ h →
      (Reported (tcpConnection host service) h ↔ infos = [])) ∧
    ∀ service h c infos, (createUdpListener texts service s).Reaches h c →
      c.outcome.Finished → resolved (udpListener service) (.ok infos) ∈ h →
      ((Reported (udpListener service) h ↔ infos = []) ↔ infos = []) := by
  constructor
  · intro host service h c infos reached finished mem
    have said := (createTcpConnection_works texts host service s).reported reached finished mem
    simpa using said
  · intro service h c infos reached finished mem
    have said := (createUdpListener_works texts service s).reported reached finished mem
    have always : Reported (udpListener service) h := said.mpr rfl
    simp [always]

/-- No address for the host. -/
def unknownHost : List (Event interface) :=
  [⟨.log .info (tcpConnection "a" "9").trying, ()⟩, resolved (tcpConnection "a" "9") (.ok []),
    ⟨.freeaddrinfo [], ()⟩, ⟨.log .err (tcpConnection "a" "9").unknown, ()⟩]

/-- One address for the listener, which works. -/
def address : AddrInfo := ⟨1, 2, 2, 17, [0, 9]⟩

def listening : List (Event interface) :=
  [⟨.log .info (udpListener "9").trying, ()⟩, resolved (udpListener "9") (.ok [address]),
    ⟨.socket 2 2 17, .ok 3⟩, ⟨.setUp .bind 3 [0, 9], .ok ()⟩, ⟨.freeaddrinfo [address], ()⟩,
    ⟨.log .err (udpListener "9").unknown, ()⟩, ⟨.log .info (udpListener "9").successful, ()⟩]

def noTexts : Texts := ⟨fun _ => "", fun _ => ""⟩

theorem createTcpConnection_unknownHost : (createTcpConnection noTexts "a" "9" ()).Reaches
    unknownHost (.threw () (.runtimeError "Could not connect to a:9")) :=
  .answer (.answer (.answer (.answer (.here _))))

theorem createUdpListener_listening : (createUdpListener noTexts "9" ()).Reaches
    listening (.returned () ⟨3, by decide⟩) :=
  .answer (.answer (.answer (.answer (.answer (.answer (.answer (.here _)))))))

theorem reported_iff_listening : Reported (tcpConnection "a" "9") unknownHost ∧
    ¬ (Reported (udpListener "9") listening ↔ [address] = []) := by
  obtain ⟨tcp, udp⟩ := reported_iff noTexts ()
  constructor
  · exact (tcp "a" "9" unknownHost _ [] createTcpConnection_unknownHost trivial
      (by simp [unknownHost])).mpr rfl
  · intro right
    exact absurd ((udp "9" listening _ [address] createUdpListener_listening trivial
      (by simp [listening])).mp right) (by simp)

/-- The listener is there, and the log says that the service port is unknown. -/
theorem reported_fails : ¬ ∀ (texts : Texts) service h c infos,
    (createUdpListener texts service ()).Reaches h c → c.outcome.Finished →
    resolved (udpListener service) (.ok infos) ∈ h →
    (Reported (udpListener service) h ↔ infos = []) := by
  intro always
  have right := always noTexts "9" listening _ [address] createUdpListener_listening trivial
    (by simp [listening])
  have said : Reported (udpListener "9") listening := by simp [Reported, listening]
  exact absurd (right.mp said) (by simp)

end MarathonKit.Core.Network
