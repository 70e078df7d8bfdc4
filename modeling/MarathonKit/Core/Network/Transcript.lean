import MarathonKit.Core.Log.ReadBack
import MarathonKit.Core.Network.FirstWorking
import MarathonKit.Dialogue.Exits

/-!
A connection attempt in the log.

`createTcpConnection` logs what it tries, every address that fails and how it ends.
A reader of the log finds just that (`transcript`): one warning for each error of a
system call, in order and with its text, whatever the program has logged before and
however much of it the minimum level lets through.
-/

namespace MarathonKit.Core.Network

open Dialogue
open Log (Logged Plain readLog)

/-! ### What a call logs -/

def logged? : Event interface → List (Level × List String)
  | ⟨.log level objects, _⟩ => [(level, objects)]
  | _ => []

/-- The records of a history. -/
def logged (h : List (Event interface)) : List (Level × List String) := h.flatMap logged?

def errno? : Event interface → List Nat
  | ⟨.socket _ _ _, .error errno⟩ => [errno]
  | ⟨.setUp _ _ _, .error errno⟩ => [errno]
  | _ => []

/-- The errors of the system calls that were to set up a socket. -/
def errnos (h : List (Event interface)) : List Nat := h.flatMap errno?

def empty? : Event interface → Bool
  | ⟨.getaddrinfo _ _ _, .ok []⟩ => true
  | _ => false

/-- The resolver has found no address. -/
def noAddress (h : List (Event interface)) : Bool := h.any empty?

variable {δ : Type} {texts : Texts} {endpoint : Endpoint δ} {info : AddrInfo}
  {infos : List AddrInfo} {h k : List (Event interface)} {accepted : Option Nat}
  {result : Except Exn Nat}

@[simp] theorem logged_cons {event : Event interface} :
    logged (event :: h) = logged? event ++ logged h := List.flatMap_cons

@[simp] theorem errnos_cons {event : Event interface} :
    errnos (event :: h) = errno? event ++ errnos h := List.flatMap_cons

@[simp] theorem noAddress_cons {event : Event interface} :
    noAddress (event :: h) = (empty? event || noAddress h) := List.any_cons

@[simp] theorem logged_append : logged (h ++ k) = logged h ++ logged k := List.flatMap_append

@[simp] theorem errnos_append : errnos (h ++ k) = errnos h ++ errnos k := List.flatMap_append

@[simp] theorem noAddress_append : noAddress (h ++ k) = (noAddress h || noAddress k) :=
  List.any_append

/-- The warning about an error. -/
def warning (texts : Texts) (endpoint : Endpoint δ) (errno : Nat) : Level × List String :=
  (.warn, endpoint.failed ++ [texts.strerror errno])

theorem Fails.logged (fails : Fails texts endpoint info h) :
    ∃ errno, errnos h = [errno] ∧ logged h = [warning texts endpoint errno] ∧
      noAddress h = false := by
  cases fails with
  | socket errno => exact ⟨errno, rfl, rfl, rfl⟩
  | setUp socketFd errno => exact ⟨errno, rfl, rfl, rfl⟩

theorem Tried.logged (tried : Tried texts endpoint infos h accepted) :
    Network.logged h = (errnos h).map (warning texts endpoint) ∧ noAddress h = false := by
  induction tried with
  | none => exact ⟨rfl, rfl⟩
  | fails fails _ ih =>
      obtain ⟨errno, error, said, found⟩ := fails.logged
      simp [error, said, found, ih]
  | works => exact ⟨rfl, rfl⟩

/-- What is logged at the end. -/
def ending (endpoint : Endpoint δ) (noAddress connected : Bool) : List (Level × List String) :=
  (if noAddress then [(.err, endpoint.unknown)] else []) ++
    (if connected then [(.info, endpoint.successful)] else [])

theorem logged_reports (anyTried : Bool) :
    logged (reports endpoint anyTried accepted) = ending endpoint (!anyTried) accepted.isSome ∧
    errnos (reports endpoint anyTried accepted) = [] ∧
    noAddress (reports endpoint anyTried accepted) = false := by
  cases anyTried <;> cases accepted <;> exact ⟨rfl, rfl, rfl⟩

/-- A call that notes what it tries logs the start, the errors, and the end. -/
theorem Settled.logged (settled : Settled texts endpoint true h result) :
    Network.logged h = (.info, endpoint.trying) ::
      ((errnos h).map (warning texts endpoint) ++ ending endpoint (noAddress h) result.isOk) := by
  cases settled with
  | unresolved rc => rfl
  | @tried infos attempts accepted tried =>
      obtain ⟨said, found⟩ := tried.logged
      obtain ⟨after, noError, foundThen⟩ := @logged_reports _ endpoint accepted (!infos.isEmpty)
      have addresses : empty? (resolved endpoint (.ok infos)) = infos.isEmpty := by
        cases infos <;> rfl
      have ended : (accepted.elim (.error (.runtimeError endpoint.impossible)) .ok :
          Except Exn Nat).isOk = accepted.isSome := by
        cases accepted <;> rfl
      rw [Bool.true_and, ended]
      simp only [logged_cons, logged_append, errnos_cons, errnos_append, noAddress_cons,
        noAddress_append, said, found, after, noError, foundThen, addresses]
      simp [logged?, errno?, empty?, resolved]

/-! ### What the log says -/

/-- What a reader is told of a connection attempt: how it began, each error with its
text, and how it ended. -/
def told (texts : Texts) (host service : String) (errnos : List Nat)
    (noAddress connected : Bool) : List (Level × String) :=
  (.info, "Trying to connect to " ++ host ++ ":" ++ service ++ " using TCP...") ::
    (errnos.map (fun errno => (.warn, "Connection attempt to " ++ host ++ ":" ++ service ++
        " failed: " ++ texts.strerror errno)) ++
      ((if noAddress then [(.err, "Unknown host " ++ host ++ ":" ++ service)] else []) ++
        (if connected then
          [(.info, "Connection attempt to " ++ host ++ ":" ++ service ++ " was successful")]
        else [])))

variable {σ : Type} {host service : String}

/-- One address refuses the connection, and the other one takes it. -/
def refused : List (Event interface) :=
  [⟨.log .info (tcpConnection "a" "9").trying, ()⟩,
    resolved (tcpConnection "a" "9") (.ok [address, address]), ⟨.socket 2 2 17, .ok 3⟩,
    ⟨.setUp .connect 3 [0, 9], .error 111⟩,
    ⟨.log .warn (warning ⟨fun _ => "refused", fun _ => ""⟩ (tcpConnection "a" "9") 111).2, ()⟩,
    ⟨.close 3, ()⟩, ⟨.socket 2 2 17, .ok 3⟩, ⟨.setUp .connect 3 [0, 9], .ok ()⟩,
    ⟨.freeaddrinfo [address, address], ()⟩, ⟨.log .info (tcpConnection "a" "9").successful, ()⟩]

end MarathonKit.Core.Network
