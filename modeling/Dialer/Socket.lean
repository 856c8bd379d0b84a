import Dialer.Address.SocketAddress
import Dialer.Fault

/-!
# Sockets

The system answers a request for a connection in three steps: it makes a socket, lets it work
without blocking, and takes the connect. A connect that is under way answers with an error too;
which errors mean that is decided here. Later the socket is looked at: its pending error tells of a
failure and is taken away by looking, its peer tells of success, and a socket with neither is still
connecting.
-/

namespace Dialer

open Address (SocketAddress)

/-- The system's answers to a request for a connection, a fault for each step that went wrong. A
step is only asked for when those before it went well. -/
structure Reply where
  creation : Option Fault := none
  nonblocking : Option Fault := none
  connect : Option Fault := none
  /-- The answer to the registration of a socket whose handshake is under way. -/
  registration : Option Fault := none
  /-- The answer to setting up a connected socket for its new owner. -/
  preparation : Option Fault := none
  deriving DecidableEq

/-- The system's answers when a socket is let go that was waited for. -/
structure Release where
  /-- The answer to giving up the interest in it. -/
  removal : Option Fault := none
  /-- The answer to setting it up for its new owner, if it is connected. -/
  preparation : Option Fault := none
  deriving DecidableEq

/-- How a request for a connection begins. -/
inductive Dialled where
  | established
  | inProgress
  | unmade (fault : Fault)
  /-- There was a socket, which is closed again. -/
  | rejected (fault : Fault)

/-- Whether the answer to a connect says that the handshake is under way. -/
def Fault.isInProgress (fault : Fault) : Bool :=
  fault.code? = some 115 || fault.kind = .wouldBlock || fault.kind = .interrupted

/-- What the answers come to. -/
def Reply.dialled (reply : Reply) : Dialled :=
  match reply.creation, reply.nonblocking, reply.connect with
  | some fault, _, _ => .unmade fault
  | none, some fault, _ => .rejected fault
  | none, none, none => .established
  | none, none, some fault => if fault.isInProgress then .inProgress else .rejected fault

inductive Verdict where
  | connected
  | pending
  | failed (fault : Fault)
  deriving DecidableEq

/-- Judges a socket by its pending error and by the answer to the question for its peer. -/
def Verdict.ofAnswers (error : Except Fault (Option Fault)) (peer : Except Fault SocketAddress) :
    Verdict :=
  match error with
  | .error fault => .failed fault
  | .ok (some fault) => .failed fault
  | .ok none =>
    match peer with
    | .ok _ => .connected
    | .error fault => if fault.kind = .notConnected then .pending else .failed fault

structure Socket where
  /-- The error that the next look takes away. -/
  error : Option Fault := none
  /-- The other end, once there is one. -/
  peer : Option SocketAddress := none
  /-- Whether small packets are sent at once. -/
  nodelay : Bool := false
  deriving DecidableEq

namespace Socket

def probe (s : Socket) : Verdict × Socket :=
  let peer := match s.peer with
    | some peer => .ok peer
    | none => .error Fault.notConnected
  (.ofAnswers (.ok s.error) peer, { s with error := none })

def isSettled (s : Socket) : Bool := s.error.isSome || s.peer.isSome

def handOff (s : Socket) (nodelay : Bool) : Socket :=
  { s with nodelay := s.nodelay || nodelay }

/-- A second look finds no error. -/
theorem probe_probe (s : Socket) (fault : Fault) : s.probe.2.probe.1 ≠ .failed fault := by
  cases h : s.peer <;> simp [probe, h, Verdict.ofAnswers, Fault.notConnected, Fault.kind,
    Fault.systemKind, Fault.systemTable]

end Socket

end Dialer
