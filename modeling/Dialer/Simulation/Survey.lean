import Dialer.InFlight.Step
import Dialer.Simulation.Network

/-!
# The closed network answers a table of attempts

The network is asked for a connection only if a request is complete and its target usable, and its
sockets are looked at only when a report names them.
-/

namespace Dialer.Simulation.Network

open Readiness (Token)

variable {κ τ : Type}

/-- Answers a request. -/
def replyTo (n : Network) (request : Request κ) : Reply × Network :=
  match request.continuations?, Target.ofRequest request.address request.port with
  | some _, .ok target => n.dial target.address
  | _, _ => ({}, n)

/-- Looks at the sockets of the attempts under the given tokens. -/
def look (table : InFlight.State κ τ) : List Token → Network → List (Token × Verdict) × Network
  | [], n => ([], n)
  | token :: rest, n =>
    match table.entry? token with
    | some entry =>
      let (verdict, n) := n.probe entry.socket
      let (looks, n) := look table rest n
      ((token, verdict) :: looks, n)
    | none => look table rest n

/-- Takes one report for a table and looks at the sockets it names. -/
def survey (n : Network) (table : InFlight.State κ τ) :
    List (Token × Verdict) × InFlight.State κ τ × Network :=
  let (tokens, watch) := table.watch.report
  let (looks, n) := look table (watch.heard tokens) n
  (looks, { table with watch := watch }, n)

/-- Whether a socket that was just made is ready at once: it is watched, and its handshake is
over. -/
def isReadyIn (n : Network) (table : InFlight.State κ τ) (serial : Nat) : Bool :=
  n.isSettled serial && (table.watch.selector.token? serial).isSome

end Dialer.Simulation.Network
