import Dialer.Socket

/-!
# A closed network

A network that has nothing but this host. At an open listener a connect succeeds, at a full one it
never ends, and at any other address of this host it is refused; all three are under way when the
connect returns, and only the second is not settled by then. Every other address is out of reach
and fails at once; so does the address that means all hosts of the network, because nobody can be
connected to all of them. Descriptors can be forbidden, and then nothing can be opened.
-/

namespace Dialer.Simulation

open Address (IPv4 IPv6 SocketAddress)

structure Listener where
  address : SocketAddress
  /-- Whether it can take no more connects. -/
  full : Bool

/-- The network and the sockets made in it, numbered in the order they were made. -/
structure Network where
  listeners : List Listener := []
  descriptors : Bool := true
  sockets : Array Socket := #[]

inductive Network.Destination where
  /-- To this host: the address listeners are looked up by, and the other end as a socket shows
  it. -/
  | here (listener peer : SocketAddress)
  | nowhere (fault : Fault)

namespace Network

/-- The host that a connect to an address of version 4 leads to, if there is one. -/
def host? (ip : IPv4) : Option IPv4 :=
  if ip = .unspecified then some .loopback
  else if ip.isLoopback ∧ ip ≠ .loopbackBroadcast then some ip
  else none

/-- Where a connect to an address of version 4 leads. -/
def destinationV4 (ip : IPv4) (port : UInt16) : Destination :=
  match host? ip with
  | some host => .here (.v4 host port) (.v4 host port)
  | none => .nowhere .networkUnreachable

/-- Where a connect to an address of version 6 leads. -/
def destinationV6 (ip : IPv6) (port : UInt16) (scope : UInt32) : Destination :=
  let ip := if ip = .unspecified then .loopback else ip
  match ip.mapped? with
  | some v4 =>
    match host? v4 with
    | some host => .here (.v4 host port) (.v6 (.ofMapped host) port 0 0)
    | none => .nowhere .networkUnreachable
  | none =>
    if ip = .loopback then .here (.v6 ip port 0 0) (.v6 ip port 0 0)
    else if ip.isLinkLocal && scope = 0 then .nowhere .invalidArgument
    else .nowhere .networkUnreachable

def destination : SocketAddress → Destination
  | .v4 ip port => destinationV4 ip port
  | .v6 ip port _ scope => destinationV6 ip port scope

def listener? (n : Network) (address : SocketAddress) : Option Listener :=
  n.listeners.find? (·.address.withoutFlow = address)

/-- How a connect that leads to this host ends. -/
def outcome (n : Network) (listener peer : SocketAddress) : Socket :=
  match n.listener? listener with
  | none => { error := some .connectionRefused }
  | some l => if l.full then {} else { peer := some peer }

/-- Makes a socket and asks for a connection. -/
def dial (n : Network) (address : SocketAddress) : Reply × Network :=
  if n.descriptors then
    match destination address with
    | .nowhere fault =>
      ({ connect := some fault }, { n with sockets := n.sockets.push {} })
    | .here listener peer =>
      ({ connect := some .nowInProgress },
        { n with sockets := n.sockets.push (n.outcome listener peer) })
  else ({ creation := some .tooManyOpenFiles }, n)

def isSettled (n : Network) (serial : Nat) : Bool :=
  (n.sockets[serial]?.map Socket.isSettled).getD false

def probe (n : Network) (serial : Nat) : Verdict × Network :=
  match n.sockets[serial]? with
  | some s =>
    let (verdict, s) := s.probe
    (verdict, { n with sockets := n.sockets.setIfInBounds serial s })
  | none => (.pending, n)

def probeAll (n : Network) : List Nat → List Verdict × Network
  | [] => ([], n)
  | serial :: rest =>
    let (verdict, n) := n.probe serial
    let (verdicts, n) := n.probeAll rest
    (verdict :: verdicts, n)

def peer? (n : Network) (serial : Nat) : Option SocketAddress :=
  n.sockets[serial]?.bind Socket.peer

end Network

end Dialer.Simulation
