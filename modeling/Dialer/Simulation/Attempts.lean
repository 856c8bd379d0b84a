import Dialer.Settings
import Dialer.Simulation.Clock
import Dialer.Simulation.Dialling
import Dialer.Simulation.Survey

/-!
# Attempts in the closed network

One table of attempts whose requests, tasks and continuations follow scripts. The network answers
each connect and says which sockets are ready; time passes only where a step lets it. What every
continuation was called with, and what every task brought about, is put on record in the order it
happened, and so are the lines of the log. Only where many attempts resolve at once is their order
not determined; there the records are put in the order of the numbers that the attempts carry, and
the lines in the order of their texts.
-/

namespace Dialer.Simulation

open InFlight (Call Outcome)
open Readiness (Token)
open Time (Duration Instant)

/-- What a continuation does when it is called. -/
structure Reaction where
  id : Nat
  /-- The receiver that it empties. -/
  drains : Option String := none
  panics : Option Panic := none

structure Plan where
  address : String
  port : UInt16
  timeout : Duration
  onSuccess : Bool := true
  onFailure : Bool := true
  reaction : Reaction

def Plan.request (p : Plan) : Request Reaction where
  address := p.address
  port := p.port
  timeout := p.timeout
  onSuccess := if p.onSuccess then some p.reaction else none
  onFailure := if p.onFailure then some p.reaction else none

inductive Script where
  | attempt (plan : Plan)
  | abort
  /-- Lets attempts expire by a clock that many nanoseconds ahead. -/
  | expire (ahead : Int)
  /-- Asks how many attempts there are and whether events are published. -/
  | inquire
  | enqueue (inner : Script)
  | drain
  | unwatch
  | panic (text : String)

/-- The number of tasks in a script. -/
def Script.size : Script → Nat
  | .enqueue inner => inner.size + 1
  | _ => 1

inductive Record where
  | resolved (id : Nat) (outcome : Except Failure Stream) (drained : Option (List Event))
  | attempted (token : Option Token)
  | aborted (count : Nat)
  | expired (count : Nat)
  | inquired (pending : Nat) (monitored : Bool)
  | enqueued (accepted : Bool)
  | drained (count : Nat)

def Record.id : Record → Nat
  | .resolved id _ _ => id
  | _ => 0

/-- A table of attempts, the network, and the receivers of its events under names. -/
structure Attempts where
  network : Network
  table : InFlight.State Reaction Script
  receivers : List (String × Nat) := []
  clock : Instant := .origin
  records : List Record := []
  lines : List Log.Line := []
  /-- How much of the table's history was put into lines. -/
  read : Nat := 0
  /-- A bound on what happens in one step. -/
  bound : Nat

/-- One use of the table, of its queue or of a receiver. -/
inductive Attempts.Step where
  | attempt (plan : Plan)
  /-- Takes reports until that many attempts resolved, but at least one. -/
  | poll (expected : Nat)
  | pollTimes (calls : Nat)
  | expire
  | expireAhead (ahead : Int)
  | abort
  | drain
  | isPending (token : Token)
  | describe
  | watch (name : String)
  | unwatch
  | cloneReceiver (name as : String)
  | dropReceiver (name : String)
  | receive (name : String)
  | drainReceiver (name : String)
  | enqueue (script : Script)
  | queue
  | sleep (span : Nat)
  | descriptors (allowed : Bool)
  | drop

inductive Attempts.Answer where
  | nothing
  | token (t : Option Token)
  | count (n : Nat)
  | counts (ns : List Nat)
  | flag (b : Bool)
  | text (t : String)
  | event (e : Option Event)
  | events (es : List Event) (disconnected : Bool)
  | queue (connected : Bool) (shown : String)
  | dropped
  | missing

namespace Attempts

def isAlive (a : Attempts) : Bool := !a.table.isClosed

def record (a : Attempts) (r : Record) : Attempts :=
  { a with records := a.records ++ [r] }

/-- Puts into lines what happened to the table since that was done last. -/
def log (a : Attempts) : Attempts :=
  let fresh := a.table.history.take (a.table.history.length - a.read)
  { a with
    lines := a.lines ++ fresh.reverse.filterMap (·.line?)
    read := a.table.history.length }

structure Mark where
  records : Nat
  lines : Nat

def mark (a : Attempts) : Mark := ⟨a.records.length, a.log.lines.length⟩

/-- Puts in order what came after a mark: records by their numbers, lines by their texts. -/
def sortFrom (a : Attempts) (start : Mark) : Attempts :=
  let a := a.log
  { a with
    records := a.records.take start.records ++
      (a.records.drop start.records).mergeSort fun x y => decide (x.id ≤ y.id)
    lines := a.lines.take start.lines ++ Log.sorted (a.lines.drop start.lines) }

def clear (a : Attempts) : Attempts := { a.log with records := [], lines := [] }

def act (a : Attempts) (action : InFlight.Action Reaction Script) : Attempts :=
  { a with table := a.table.after action }

/-- Takes what is queued on a channel. -/
def drainChannel (a : Attempts) (id : Nat) : List Event × Attempts :=
  let events := (a.table.channels[id]?.map (·.queue)).getD []
  (events, events.foldl (fun a _ => a.act (.receive id)) a)

def drainReceiver (a : Attempts) (name : String) : List Event × Attempts :=
  match a.receivers.lookup name with
  | some id => a.drainChannel id
  | none => ([], a)

def attempt (a : Attempts) (plan : Plan) : Option Token × Attempts :=
  let serial := a.network.sockets.size
  let (reply, network) := a.network.replyTo plan.request
  let (token, table) := a.table.attempt plan.request reply a.clock
  let a := { a with network := network, table := table }
  (token, if network.isReadyIn table serial then a.act (.becomeReady serial) else a)

def poll (a : Attempts) : Nat × Attempts :=
  let (looks, table, network) := a.network.survey a.table
  let (count, table) := table.poll (.ok looks)
  (count, { a with table := table, network := network })

/-- A continuation is called: it puts on record what it was called with. -/
def react (a : Attempts) (call : Call Reaction) : Attempts :=
  let reaction := call.continuation
  let outcome := call.outcome.map fun handed => a.network.stream handed.socket handed.nodelay
  let (drained, a) := match reaction.drains with
    | some name => let (events, a) := a.drainReceiver name; (some events, a)
    | none => (none, a)
  (a.record (.resolved reaction.id outcome drained)).act (.leave reaction.panics)

def lastDrained (a : Attempts) : Nat :=
  match a.table.history with
  | .drained count :: _ => count
  | _ => 0

/-- Goes on until no more than `depth` frames are left. -/
def goOn : Nat → Nat → Attempts → Attempts
  | 0, _, a => a
  | bound + 1, depth, a =>
    if a.table.frames.length ≤ depth then a
    else
      match a.table.frames with
      | .calling call :: _ => goOn bound depth (a.react call)
      | .task script :: _ =>
        let start := a.mark
        let within := goOn bound a.table.frames.length
        let a := match script with
          | .attempt plan =>
            let (token, a) := a.attempt plan
            ((within a).record (.attempted token)).act (.leave none)
          | .abort =>
            let (count, table) := a.table.abort []
            (((within { a with table := table }).sortFrom start).record (.aborted count)).act
              (.leave none)
          | .expire ahead =>
            let (count, table) := a.table.expire ((nextReading a.clock).shift ahead) []
            (((within { a with table := table }).sortFrom start).record (.expired count)).act
              (.leave none)
          | .inquire =>
            (a.record (.inquired a.table.entries.length a.table.isMonitored)).act (.leave none)
          | .enqueue inner =>
            let accepted := (a.table.enqueue inner).isOk
            ((a.act (.enqueue inner)).record (.enqueued accepted)).act (.leave none)
          | .drain =>
            let a := within (a.act .drain)
            (a.record (.drained a.lastDrained)).act (.leave none)
          | .unwatch => (a.act (.watchOn none)).act (.leave none)
          | .panic text => a.act (.leave (some (.plain text)))
        goOn bound depth a
      | _ => goOn bound depth (a.act (.advance {}))

def finish (a : Attempts) : Attempts := goOn a.bound 0 a

/-- Takes reports until `expected` attempts resolved; every edge is reported once, so their number
bounds the reports. -/
def pollUntil (expected : Nat) : Nat → Nat → Attempts → Nat × Attempts
  | 0, found, a => (found, a)
  | bound + 1, found, a =>
    if found < expected then
      let (count, a) := a.poll
      pollUntil expected bound (found + count) a.finish
    else (found, a)

def pollTimes : Nat → Attempts → List Nat × Attempts
  | 0, a => ([], a)
  | calls + 1, a =>
    let (count, a) := a.poll
    let (counts, a) := pollTimes calls a.finish
    (count :: counts, a)

def dropReceiver (a : Attempts) (name : String) : Attempts :=
  match a.receivers.lookup name with
  | some id => { a with receivers := Names.drop a.receivers name }.act (.dropReceiver id)
  | none => a

/-- Publishes events on a new channel, whose receiver is held under a name. -/
def watch (a : Attempts) (name : String) : Attempts :=
  let id := a.table.channels.length
  let a := (a.act .openChannel).act (.watchOn (some id))
  let a := a.dropReceiver name
  { a with receivers := Names.put a.receivers name id }

def onTable (a : Attempts) : Step → Answer × Attempts
  | .attempt plan =>
    let (token, a) := a.attempt plan
    (.token token, a.finish)
  | .poll expected =>
    let start := a.mark
    let (count, a) := a.poll
    let a := a.finish
    let (count, a) := pollUntil expected a.table.watch.selector.ready.length count a
    (.count count, a.sortFrom start)
  | .pollTimes calls =>
    let start := a.mark
    let (counts, a) := a.pollTimes calls
    (.counts counts, a.sortFrom start)
  | .expire =>
    let start := a.mark
    let (count, table) := a.table.expire (nextReading a.clock) []
    (.count count, ({ a with table := table }.finish).sortFrom start)
  | .expireAhead ahead =>
    let start := a.mark
    let (count, table) := a.table.expire ((nextReading a.clock).shift ahead) []
    (.count count, ({ a with table := table }.finish).sortFrom start)
  | .abort =>
    let start := a.mark
    let (count, table) := a.table.abort []
    (.count count, ({ a with table := table }.finish).sortFrom start)
  | .drain =>
    let a := (a.act .drain).finish
    (.count a.lastDrained, a)
  | .isPending token => (.flag (a.table.isPending token), a)
  | .describe => (.text a.table.shown.compact, a)
  | .watch name => (.nothing, a.watch name)
  | .unwatch => (.nothing, a.act (.watchOn none))
  | .drop =>
    let start := a.mark
    (.flag true, ((a.act (.close [])).finish).sortFrom start)
  | _ => (.nothing, a)

/-- Carries out a step, of which not everything is in the log yet. -/
def stepNow (a : Attempts) : Step → Answer × Attempts
  | .cloneReceiver name as =>
    match a.receivers.lookup name with
    | some id =>
      let isFree := (a.receivers.lookup as).isNone
      let a := (a.act (.addReceiver id)).dropReceiver as
      (.flag isFree, { a with receivers := Names.put a.receivers as id })
    | none => (.flag false, a)
  | .dropReceiver name => (.flag (a.receivers.lookup name).isSome, a.dropReceiver name)
  | .receive name =>
    match a.receivers.lookup name with
    | some id =>
      let event := (a.table.channels[id]?.bind Channel.take?).map (·.1)
      (.event event, a.act (.receive id))
    | none => (.event none, a)
  | .drainReceiver name =>
    match a.receivers.lookup name with
    | some id =>
      let (events, a) := a.drainChannel id
      (.events events (a.table.monitor ≠ some id), a)
    | none => (.missing, a)
  | .enqueue script => (.flag (a.table.enqueue script).isOk, a.act (.enqueue script))
  | .queue => (.queue a.isAlive a.table.watch.shownQueue.compact, a)
  | .sleep span => (.nothing, { a with clock := a.clock.shift span })
  | .descriptors allowed =>
    (.nothing, { a with network := { a.network with descriptors := allowed } })
  | step => if a.isAlive then a.onTable step else (.dropped, a)

def step (a : Attempts) (s : Step) : Answer × Attempts :=
  let (answer, a) := a.stepNow s
  (answer, a.log)

/-- The number of tasks and attempts that a step brings in. -/
def Step.size : Step → Nat
  | .enqueue script => script.size + 1
  | _ => 1

/-- A table with the given settings in a network, for the given steps. Every operation goes through
each attempt once, and there are no more operations and no more attempts than the steps bring
in. -/
def create (network : Network) (settings : Settings) (steps : List Step) : Attempts :=
  let size := steps.foldl (fun n s => n + s.size) 2
  { network := network, bound := 4 * size * size,
    table := .initial settings.eventCapacity settings.nodelay }

end Attempts

end Dialer.Simulation
