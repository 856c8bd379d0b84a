import Dialer.Simulation.Names
import Dialer.Simulation.Network

/-!
# Dialling in the closed network

Sockets held under names. A step asks for a connection, looks at a socket or hands it over to a new
owner, who sees its other end and how it is set up.
-/

namespace Dialer.Simulation

open Address (SocketAddress)

/-- A socket as its new owner sees it. -/
structure Stream where
  peer : Option SocketAddress
  nodelay : Bool

def Network.stream (n : Network) (serial : Nat) (nodelay : Bool) : Stream :=
  ⟨n.peer? serial, nodelay⟩

structure Dialling where
  network : Network
  held : List (String × Nat) := []

inductive Dialling.Step where
  | connect (name : String) (address : SocketAddress)
  | probe (name : String)
  | handOff (name : String) (nodelay : Bool)

inductive Dialling.Answer where
  | dialled (d : Dialled)
  | verdict (v : Verdict)
  | stream (s : Stream)
  | missing

namespace Dialling

def step (d : Dialling) : Step → Answer × Dialling
  | .connect name address =>
    let serial := d.network.sockets.size
    let (reply, network) := d.network.dial address
    match reply.dialled with
    | .inProgress =>
      (.dialled .inProgress, { network := network, held := Names.put d.held name serial })
    | dialled => (.dialled dialled, { d with network := network })
  | .probe name =>
    match d.held.lookup name with
    | some serial =>
      let (verdict, network) := d.network.probe serial
      (.verdict verdict, { d with network := network })
    | none => (.missing, d)
  | .handOff name nodelay =>
    match d.held.lookup name with
    | some serial =>
      (.stream (d.network.stream serial nodelay), { d with held := Names.drop d.held name })
    | none => (.missing, d)

end Dialling

end Dialer.Simulation
