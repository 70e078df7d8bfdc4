import MarathonKit.Core.Log
import MarathonKit.Core.MessageFileDescriptor
import MarathonKit.Core.StreamFileDescriptor

/-!
`Core/Network.cpp`: sockets that are connected, or bound, to the first address
that takes them.

The calls to the resolver, to the sockets and to the log are requests. What
`getaddrinfo` returns is a list; the texts of its errors and of `errno` belong to
the C library and are parameters.
-/

namespace MarathonKit.Core.Network

open Dialogue Dialogue.Method

inductive Family where
  | any | ipV4 | ipV6
deriving DecidableEq, Repr

inductive Protocol where
  | tcp | udp
deriving DecidableEq, Repr

inductive Mode where
  | active | passive
deriving DecidableEq, Repr

inductive LoopControl where
  | «continue» | «break»
deriving DecidableEq, Repr

/-- `getAiFamily`: `PF_UNSPEC`, `AF_INET` and `AF_INET6` -/
def getAiFamily : Family → Int
  | .any => 0
  | .ipV4 => 2
  | .ipV6 => 10

/-- `getAiSocketType`: `SOCK_STREAM` and `SOCK_DGRAM` -/
def getAiSocketType : Protocol → Int
  | .tcp => 1
  | .udp => 2

/-- `getAiProtocol`: `IPPROTO_TCP` and `IPPROTO_UDP` -/
def getAiProtocol : Protocol → Int
  | .tcp => 6
  | .udp => 17

/-- `getAiFlags`: none, or `AI_PASSIVE` -/
def getAiFlags : Mode → Int
  | .active => 0
  | .passive => 1

/-- `struct addrinfo`, without the link to the next one; the address with its
length. -/
structure AddrInfo where
  aiFlags : Int
  aiFamily : Int
  aiSocktype : Int
  aiProtocol : Int
  aiAddr : Bytes
deriving DecidableEq, Repr

/-- The call that puts a new socket to its use. -/
inductive SetUp where
  | connect | bind
deriving DecidableEq, Repr

inductive Request where
  /-- `getaddrinfo(node, service, &hints, &infos)` -/
  | getaddrinfo (node : Option String) (service : String) (hints : AddrInfo)
  | freeaddrinfo (infos : List AddrInfo)
  | socket (domain type protocol : Int)
  /-- `connect(fd, addr, addrlen)` or `bind(fd, addr, addrlen)` -/
  | setUp (call : SetUp) (fd : Nat) (addr : Bytes)
  /-- `close(fd)`; what it returns is not looked at -/
  | close (fd : Nat)
  /-- `LOGI`, `LOGW` or `LOGE` of these objects -/
  | log (level : Level) (objects : List String)
deriving DecidableEq, Repr

@[reducible] def Answer : Request → Type
  | .getaddrinfo _ _ _ => Except Int (List AddrInfo)
  | .socket _ _ _ => Except Nat Nat
  | .setUp _ _ _ => Except Nat Unit
  | .freeaddrinfo _ | .close _ | .log _ _ => Unit

abbrev interface : Interface := ⟨Request, Answer⟩

abbrev Method (E σ : Type) := Dialogue.Method interface E Fault σ

/-- The texts of errors. -/
structure Texts where
  strerror : Nat → String
  gaiStrerror : Int → String

variable {E σ δ : Type}

def freeaddrinfo (infos : List AddrInfo) : Method E σ Unit :=
  ask (I := interface) (Request.freeaddrinfo infos)

def close (fd : Nat) : Method E σ Unit := ask (I := interface) (Request.close fd)

def log (level : Level) (objects : List String) : Method E σ Unit :=
  ask (I := interface) (Request.log level objects)

/-- `hints`; the other fields are zero. -/
def hints (family : Family) (protocol : Protocol) (mode : Mode) : AddrInfo where
  aiFlags := getAiFlags mode
  aiFamily := getAiFamily family
  aiSocktype := getAiSocketType protocol
  aiProtocol := getAiProtocol protocol
  aiAddr := []

/-- One round of the loop over the addresses: `false` to break out of it. -/
def visit (callback : AddrInfo → Method E σ LoopControl) (info : AddrInfo) : Method E σ Bool := do
  let loopControl ← callback info
  return loopControl ≠ .break

/-- `forEachAddressInfo`. The callback may throw anything; `runtimeError` is how
the function itself throws. -/
def forEachAddressInfo (texts : Texts) (runtimeError : String → E) (host service : String)
    (family : Family) (protocol : Protocol) (mode : Mode)
    (callback : AddrInfo → Method E σ LoopControl) : Method E σ Unit := do
  match ← ask (I := interface) (.getaddrinfo (if host = "" then none else some host) service
      (hints family protocol mode)) with
  | .error rc => throw (runtimeError (texts.gaiStrerror rc))
  | .ok infos =>
      match ← attempt (forEach (visit callback) infos) with
      | .error e =>
          freeaddrinfo infos
          throw e
      | .ok () => freeaddrinfo infos

/-- The list is freed once, and then the loop is over as it was before. -/
theorem forEachAddressInfo_apply {texts : Texts} {runtimeError : String → E}
    {host service : String} {family : Family} {protocol : Protocol} {mode : Mode}
    {callback : AddrInfo → Method E σ LoopControl} {s : σ} :
    forEachAddressInfo texts runtimeError host service family protocol mode callback s =
      .asking s (.getaddrinfo (if host = "" then none else some host) service
        (hints family protocol mode)) fun
        | .error rc => .threw s (runtimeError (texts.gaiStrerror rc))
        | .ok infos => (forEach (visit callback) infos s).caught.andThen fun s result =>
            .asking s (.freeaddrinfo infos) fun _ => orThrow result s := by
  simp only [forEachAddressInfo, bind_apply, ask_apply, Call.andThen_asking,
    Call.andThen_returned]
  congr 1
  funext answer
  cases answer with
  | error rc => rfl
  | ok infos =>
      simp only [bind_apply, attempt_apply]
      congr 1
      funext s result
      cases result <;> rfl

/-- What `createTcpConnection` and `createUdpListener` differ in. -/
structure Endpoint (δ : Type) where
  host : String
  service : String
  protocol : Protocol
  mode : Mode
  setUp : SetUp
  createOwnerOf : Int → Except Exn δ
  /-- the objects logged at the start, with every failure, if nothing was tried,
  and at the end -/
  trying : List String
  failed : List String
  unknown : List String
  successful : List String
  /-- the text of the exception -/
  impossible : String

/-- The variables that the callbacks capture by reference. -/
structure Local (δ : Type) where
  fd : Option δ
  anyTried : Bool

/-- The callbacks, as far as they agree. -/
def tryAddress (texts : Texts) (endpoint : Endpoint δ) (info : AddrInfo) :
    Method Exn (Local δ) LoopControl := do
  match ← ask (I := interface) (.socket info.aiFamily info.aiSocktype info.aiProtocol) with
  | .error errno =>
      log .warn (endpoint.failed ++ [texts.strerror errno])
      return .continue
  | .ok socketFd =>
      match ← ask (I := interface) (.setUp endpoint.setUp socketFd info.aiAddr) with
      | .error errno =>
          log .warn (endpoint.failed ++ [texts.strerror errno])
          close socketFd
          return .continue
      | .ok () =>
          let fd ← orThrow (endpoint.createOwnerOf socketFd)
          update fun vars => { vars with fd := some fd }
          return .break

/-- After the loop. -/
def conclude (endpoint : Endpoint δ) : Method Exn (Local δ) δ := do
  if !(← this).anyTried then
    log .err endpoint.unknown
  match (← this).fd with
  | none => throw (.runtimeError endpoint.impossible)
  | some fd =>
      log .info endpoint.successful
      return fd

/-- What stands around the callback. -/
def create (texts : Texts) (endpoint : Endpoint δ)
    (callback : AddrInfo → Method Exn (Local δ) LoopControl) : Method Exn (Local δ) δ := do
  log .info endpoint.trying
  forEachAddressInfo texts .runtimeError endpoint.host endpoint.service .any endpoint.protocol
    endpoint.mode callback
  conclude endpoint

def tcpConnection (host service : String) : Endpoint StreamFileDescriptor where
  host := host
  service := service
  protocol := .tcp
  mode := .active
  setUp := .connect
  createOwnerOf := StreamFileDescriptor.make
  trying := ["Trying to connect to ", host, ":", service, " using TCP..."]
  failed := ["Connection attempt to ", host, ":", service, " failed: "]
  unknown := ["Unknown host ", host, ":", service]
  successful := ["Connection attempt to ", host, ":", service, " was successful"]
  impossible := "Could not connect to " ++ host ++ ":" ++ service

def udpListener (service : String) : Endpoint MessageFileDescriptor where
  host := ""
  service := service
  protocol := .udp
  mode := .passive
  setUp := .bind
  createOwnerOf := MessageFileDescriptor.make
  trying := ["Trying to listen for UDP datagrams on service port ", service, "..."]
  failed := ["Listening on service port ", service, " failed: "]
  unknown := ["Unknown service port ", service]
  successful := ["Successfully listening on service port ", service]
  impossible := "Could not listen on service port " ++ service

/-- `Network::createTcpConnection`. Its callback notes that it was called. -/
def createTcpConnection (texts : Texts) (host service : String) :
    Method Exn σ StreamFileDescriptor := fun s =>
  (create texts (tcpConnection host service) (fun info => do
    update fun vars => { vars with anyTried := true }
    tryAddress texts (tcpConnection host service) info) ⟨none, false⟩).within fun _ => s

/-- `Network::createUdpListener`. Its callback does not. -/
def createUdpListener (texts : Texts) (service : String) :
    Method Exn σ MessageFileDescriptor := fun s =>
  (create texts (udpListener service) (tryAddress texts (udpListener service))
    ⟨none, false⟩).within fun _ => s

end MarathonKit.Core.Network
