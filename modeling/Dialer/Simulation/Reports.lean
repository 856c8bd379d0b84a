import Dialer.Readiness
import Dialer.Simulation.Names
import Dialer.Simulation.Network

/-!
# Reports of readiness in the closed network

A watch with named streams and with named handles on its task queue. A socket whose handshake is
over becomes ready when interest in it is taken up. After the watch is gone the handles remain and
get their tasks back.
-/

namespace Dialer.Simulation

open Address (SocketAddress)
open Readiness (Token Watch)

/-- A watch, the sockets it may wait for and the handles on its queue. -/
structure Reports where
  network : Network
  watch : Watch String
  alive : Bool := true
  queues : List String := ["q"]
  streams : List (String × Nat) := []

/-- One use of the watch, of a stream or of a queue handle. -/
inductive Reports.Step where
  | enqueue (queue task : String)
  | cloneQueue (queue as : String)
  | dropQueue (queue : String)
  | dropWatch
  | nextTask
  | openStream (name : String) (address : SocketAddress)
  | closeStream (name : String)
  | add (name : String) (token : Token)
  | remove (name : String) (token : Token)
  | isRegistered (token : Token)
  /-- Takes a report, and more until that many sockets were heard of or none is left. -/
  | poll (expected : Nat)
  | pollTimes (calls : Nat)

inductive Reports.Answer where
  | flag (b : Bool)
  | accepted
  | returned (task : String)
  | task (t : Option String)
  | dialled (d : Dialled)
  | registration (fault : Option Fault)
  | tokens (ts : List Token)
  | counts (ns : List Nat) (ts : List Token)
  | missing

namespace Reports

def pollOnce (r : Reports) : List Token × Reports :=
  let (tokens, watch) := r.watch.report
  (watch.heard tokens, { r with watch := watch })

/-- Takes reports until `expected` sockets were heard of; every edge is reported once, so their
number bounds the reports. -/
def pollUntil (expected : Nat) : Nat → List Token → Reports → List Token × Reports
  | 0, found, r => (found, r)
  | bound + 1, found, r =>
    if found.length < expected then
      let (tokens, r) := r.pollOnce
      pollUntil expected bound (found ++ tokens) r
    else (found, r)

def pollTimes : Nat → Reports → List (List Token) × Reports
  | 0, r => ([], r)
  | calls + 1, r =>
    let (tokens, r) := r.pollOnce
    let (rest, r) := pollTimes calls r
    (tokens :: rest, r)

def dropWatch (r : Reports) : Reports :=
  { r with watch := r.watch.close, alive := false }

/-- Starts to wait for a socket, which is ready at once if its handshake is over. -/
def add (r : Reports) (serial : Nat) (token : Token) : Option Fault × Reports :=
  match r.watch.add serial token with
  | .error fault => (some fault, r)
  | .ok watch =>
    let watch := if r.network.isSettled serial then
        { watch with selector := watch.selector.becomeReady serial }
      else watch
    (none, { r with watch := watch })

def dropQueue (r : Reports) (queue : String) : Reports :=
  let queues := r.queues.filter (· ≠ queue)
  { r with queues := queues, watch := if queues.isEmpty then r.watch.abandon else r.watch }

/-- A stream goes, and its socket with it. -/
def closeStream (r : Reports) (name : String) : Reports :=
  match r.streams.lookup name with
  | some serial => { r with
      streams := Names.drop r.streams name
      watch := { r.watch with selector := r.watch.selector.forget serial } }
  | none => r

def step (r : Reports) : Step → Answer × Reports
  | .enqueue queue task =>
    if queue ∈ r.queues then
      match r.watch.enqueue task with
      | .ok watch => (.accepted, { r with watch := watch })
      | .error task => (.returned task, r)
    else (.missing, r)
  | .cloneQueue queue as =>
    if queue ∈ r.queues then (.flag true, { r with queues := Names.hold r.queues as })
    else (.flag false, r)
  | .dropQueue queue => (.flag (queue ∈ r.queues), r.dropQueue queue)
  | .dropWatch => (.flag r.alive, if r.alive then r.dropWatch else r)
  | .nextTask =>
    if r.alive then
      match r.watch.nextTask? with
      | some (task, watch) => (.task (some task), { r with watch := watch })
      | none => (.task none, r)
    else (.task none, r)
  | .openStream name address =>
    let serial := r.network.sockets.size
    let (reply, network) := r.network.dial address
    match reply.dialled with
    | .inProgress =>
      let r := r.closeStream name
      (.dialled .inProgress, { r with
        network := network, streams := Names.put r.streams name serial })
    | dialled => (.dialled dialled, { r with network := network })
  | .closeStream name => (.flag (r.streams.lookup name).isSome, r.closeStream name)
  | .add name token =>
    match r.alive, r.streams.lookup name with
    | true, some serial =>
      let (fault, r) := r.add serial token
      (.registration fault, r)
    | _, _ => (.missing, r)
  | .remove name token =>
    match r.alive, r.streams.lookup name with
    | true, some serial =>
      let (fault, watch) := r.watch.remove serial token none
      (.registration fault, { r with watch := watch })
    | _, _ => (.missing, r)
  | .isRegistered token => (.flag (token ∈ r.watch.registered), r)
  | .poll expected =>
    let (tokens, r) := r.pollOnce
    let (tokens, r) := pollUntil expected r.watch.selector.ready.length tokens r
    (.tokens tokens, r)
  | .pollTimes calls =>
    let (batches, r) := pollTimes calls r
    (.counts (batches.map List.length) batches.flatten, r)

end Reports

end Dialer.Simulation
