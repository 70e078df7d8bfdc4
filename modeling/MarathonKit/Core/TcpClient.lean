import MarathonKit.Core.LineBuffer.Spec

/-!
`Core/TcpClient.cpp`: a connection and the buffer that reads from it.
-/

namespace MarathonKit.Core

open Dialogue Dialogue.Method FileDescriptor

structure TcpClient where
  mFd : Option FdPtr
  mLineBuffer : LineBuffer
deriving DecidableEq, Repr

namespace TcpClient

abbrev Method := Dialogue.Method FileDescriptor.interface Exn Fault TcpClient

/-- `TcpClient::TcpClient()` -/
def empty : TcpClient := ⟨none, .empty⟩

/-- `TcpClient::TcpClient(host, service)`, once `createTcpConnection` has returned
the connection. -/
def ofConnection (fd : FdPtr) : TcpClient := ⟨some fd, .ofFd (some fd)⟩

/-- The two clients after `client.swapWith(other)`. -/
def swapWith (client other : TcpClient) : TcpClient × TcpClient :=
  let buffers := client.mLineBuffer.swapWith other.mLineBuffer
  (⟨other.mFd, buffers.1⟩, ⟨client.mFd, buffers.2⟩)

/-- `TcpClient::TcpClient(TcpClient&&)`: the new client and the one moved from. -/
def moveConstruct (other : TcpClient) : TcpClient × TcpClient := empty.swapWith other

/-- `operator = (TcpClient&&)` is a swap. -/
def moveAssign (client other : TcpClient) : TcpClient × TcpClient := client.swapWith other

def isConnected (client : TcpClient) : Bool := client.mLineBuffer.isInitialized

def sendRaw (data : Bytes) : Method Unit := do
  if !(← this).isConnected then
    throw (.runtimeError "send called on a disconnected TcpSocket")
  write (← deref (← this).mFd) data

def sendLine (line : Bytes) : Method Unit := sendRaw (line ++ [newline])

/-- The receiving methods are those of `mLineBuffer`. -/
def receive (op : LineBuffer.Op) (bound : Nat) : Method LineBuffer.Value :=
  on mLineBuffer (fun client buffer => { client with mLineBuffer := buffer }) (op.call bound)

def charsReady : Method LineBuffer.Value := receive .charsReady 0

def linesReady (bound : Nat) : Method LineBuffer.Value := receive .linesReady bound

def getChar : Method LineBuffer.Value := receive .getChar 0

def getLine (bound : Nat) : Method LineBuffer.Value := receive .getLine bound

/-- The client is connected to `fd`: both its pointers point there. -/
structure Connected (client : TcpClient) (fd : FdPtr) : Prop where
  mFd : client.mFd = some fd
  mLineBuffer : client.mLineBuffer.mFd = some fd

variable {client : TcpClient} {fd : FdPtr}

/-- Sending on a connected client is one `write`. -/
theorem sendRaw_apply (connected : client.Connected fd) (data : Bytes) :
    sendRaw data client = .asking client (.write fd data) fun a => orThrow a client := by
  simp [sendRaw, isConnected, LineBuffer.isInitialized, connected.mFd, connected.mLineBuffer]

theorem sendRaw_disconnected (disconnected : client.mLineBuffer.mFd = none) (data : Bytes) :
    sendRaw data client =
      .threw client (.runtimeError "send called on a disconnected TcpSocket") := by
  simp [sendRaw, isConnected, LineBuffer.isInitialized, disconnected]

/-- A receiving method does to the client what it does to its buffer. -/
theorem receive_wp (inv : client.mLineBuffer.Inv) (op : LineBuffer.Op) (bound : Nat) :
    (receive op bound client).wp fun h o s =>
      s.mFd = client.mFd ∧ op.Post client.mLineBuffer h o s.mLineBuffer :=
  Call.wp_within.mpr ((LineBuffer.call_wp inv op bound).mono fun _ _ _ post => ⟨rfl, post⟩)

theorem receive_faulted (inv : client.mLineBuffer.Inv) (op : LineBuffer.Op) (bound : Nat) :
    (receive op bound client).wp fun h o _ =>
      o.Faulted ↔ op.ReadsNothing client.mLineBuffer.mBuffer h :=
  Call.wp_within.mpr (LineBuffer.call_faults inv op bound)

end TcpClient

end MarathonKit.Core
