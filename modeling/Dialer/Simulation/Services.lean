import Dialer.Completion
import Dialer.Service.Step
import Dialer.Simulation.Clock
import Dialer.Simulation.Dialling
import Dialer.Simulation.Survey

/-!
# Services in the closed network

Services under names, called by one thread besides their workers. A worker goes on until it has
nothing to do but wait. Time passes only while the calling thread waits: then the clock moves to the
next moment at which some worker, back from its bounded wait, finds an attempt whose time is over.
Workers wait in a rhythm of their own, so that moment is a whole number of waits after the worker
last had something to do. The calling thread also waits while a worker that it stops waits for the
lock before giving up. What continuations were called with is put on record, and some of them call
their service themselves.
-/

namespace Dialer.Simulation

open InFlight (Outcome)
open Readiness (Token)
open Service (Answers Grant Job Label Lifecycle Result Tagged Thread)
open Time (Duration Instant)

/-- What a continuation does besides putting itself on record; `α` is what it may do with its
service. -/
structure Errand (α : Type) where
  id : Nat
  act : Option α := none
  /-- Whether it holds its service until it is over. -/
  hold : Bool := false
  panics : Option Panic := none

structure Submission (α : Type) where
  address : String
  port : UInt16
  timeout : Duration
  onSuccess : Bool := true
  onFailure : Bool := true
  errand : Errand α

inductive Act where
  | query
  | stop
  | start
  | submit (s : Submission Act)
  | watch (name : String)
  /-- Waits until the gate is open. -/
  | gate

/-- The number of requests that an act brings in. -/
def Act.weight : Act → Nat
  | .submit ⟨_, _, _, _, _, ⟨_, some inner, _, _⟩⟩ => inner.weight + 1
  | .submit _ => 1
  | _ => 0

/-- The number of requests that a request with this errand brings in, itself included. -/
def Errand.weight (e : Errand Act) : Nat := ((e.act.map Act.weight).getD 0) + 1

inductive Acted where
  /-- Nobody held the service any more. -/
  | gone
  | asked (running : Bool) (lifecycle : Lifecycle)
  | stopped (running : Bool)
  | returned (r : Result)
  | watching (b : Bool)
  | passed

inductive Continuation where
  | errand (e : Errand Act)
  /-- One end of a completion. -/
  | complete (number : Nat) (side : Side)

/-- What a continuation put on record. -/
structure Report where
  id : Nat
  outcome : Except Failure Stream
  thread : String
  acted : Option Acted

/-- A service, the moment since which its worker waits, and how much of its log was read. -/
structure Hosted where
  service : Service.State Continuation
  parked : Option Instant := none
  readTable : Nat := 0
  readService : Nat := 0

/-- The services of a simulation and everything that goes with them. -/
structure Services where
  network : Network
  hosted : Array Hosted := #[]
  names : List (String × Nat) := []
  clock : Instant := .origin
  reports : Array Report := #[]
  completions : Array (Completion Stream) := #[]
  handles : List (String × Nat) := []
  /-- Receivers: a service and a channel of it. -/
  receivers : List (String × Nat × Nat) := []
  gateOpen : Bool := false
  /-- A bound on what a worker does in one go. -/
  bound : Nat

namespace Services

def onHosted (w : Services) (n : Nat) (change : Hosted → Hosted) : Services :=
  { w with hosted := w.hosted.modify n change }

def act (w : Services) (n : Nat) (label : Label Continuation) : Services :=
  w.onHosted n fun h => { h with service := h.service.after label }

def ask {α : Type} (w : Services) (n : Nat) (fallback : α)
    (question : Service.State Continuation → α) : α :=
  (w.hosted[n]?.map fun h => question h.service).getD fallback

def lastResult (w : Services) (n : Nat) : Result :=
  w.ask n .done fun s => match s.history with
    | .returned _ result :: _ => result
    | _ => .done

def grant (w : Services) : Grant :=
  { descriptors := if w.network.descriptors then none else some .tooManyOpenFiles }

/-- A job that nobody took is dropped: a completion loses both ends, and a continuation lets go of
its service. -/
def discard (n : Nat) (w : Services) (job : Job Continuation) : Services :=
  match job with
  | .dial request =>
    match request.onSuccess with
    | some ⟨_, .complete number _⟩ =>
      let drop (c : Completion Stream) := (c.discard.release).release
      { w with completions := w.completions.modify number drop }
    | some ⟨_, .errand e⟩ => if e.hold then w.act n (.begin (.caller 1) .release) else w
    | none => w
  | _ => w

/-- Lets a step of a service happen, and drops the jobs that cannot be taken any more after it. -/
def carryOut (w : Services) (n : Nat) (label : Label Continuation) : Services :=
  let jobs := w.ask n [] (·.table.watch.tasks.queue)
  let w := w.act n label
  if w.ask n false fun s => s.table.isClosed && s.table.watch.tasks.queue.isEmpty then
    jobs.foldl (discard n) w
  else w

/-- A worker gives up waiting for the lock, which it does not do before one bounded wait is over. -/
def giveUp (w : Services) (n : Nat) : Services :=
  let wait := w.ask n 0 (·.settings.pollInterval.nanos)
  { w with clock := w.clock.shift wait }.act n .giveUp

/-- More steps than anything takes. -/
def forever : Nat := 4611686018427387904

/-- On a worker's own thread a call goes on, or gives up, until it returns. If it can do neither it
waits, and nobody comes to let it in: the calling thread waits for this one. -/
def insist (n : Nat) : Nat → Services → Services
  | 0, w => w
  | bound + 1, w =>
    if w.ask n true (fun s => (s.point? .worker).isNone) then w
    else if w.ask n false (·.canProceed .worker) then
      insist n bound (w.act n (.proceed .worker w.grant))
    else if w.ask n false (·.canGiveUp) then insist n bound (w.giveUp n)
    else insist n bound w

def callBack (w : Services) (n : Nat) (call : Service.Call Continuation) : Result × Services :=
  let w := insist n forever (w.act n (.begin .worker call))
  (w.lastResult n, w)

def requestOf (s : Submission Act) : Request Continuation where
  address := s.address
  port := s.port
  timeout := s.timeout
  onSuccess := if s.onSuccess then some (.errand s.errand) else none
  onFailure := if s.onFailure then some (.errand s.errand) else none

/-- Makes a submission by the given way of calling. If its continuations hold the service they do
so from the beginning, and no longer if the submission is refused. -/
def submitBy (w : Services) (n : Nat) (s : Submission Act)
    (call : Services → Nat → Service.Call Continuation → Result × Services) :
    Result × Services :=
  let w := if s.errand.hold then (call w n .retain).2 else w
  let (result, w) := call w n (.submit (requestOf s))
  let w := if s.errand.hold && result != .done then (call w n .release).2 else w
  (result, w)

def dropReceiver (w : Services) (name : String) : Services :=
  match w.receivers.lookup name with
  | some (n, channel) =>
    { w with receivers := Names.drop w.receivers name }.act n (.dropReceiver channel)
  | none => w

/-- Holds the receiver that a call returned under a name. -/
def holdReceiver (w : Services) (n : Nat) (name : String) (result : Result) : Bool × Services :=
  match result with
  | .receiver (some channel) =>
    let w := w.dropReceiver name
    (true, { w with receivers := Names.put w.receivers name (n, channel) })
  | _ => (false, w)

def foundRunning : Result → Bool
  | .running b => b
  | _ => false

def foundLifecycle : Result → Lifecycle
  | .lifecycle l => l
  | _ => .stopped

def perform (w : Services) (n : Nat) : Act → Acted × Services
  | .query =>
    let (running, w) := w.callBack n .isRunning
    let (lifecycle, w) := w.callBack n .lifecycle
    (.asked (foundRunning running) (foundLifecycle lifecycle), w)
  | .stop =>
    let (_, w) := w.callBack n .stop
    let (running, w) := w.callBack n .isRunning
    (.stopped (foundRunning running), w)
  | .start =>
    let (result, w) := w.callBack n .start
    (.returned result, w)
  | .submit s =>
    let (result, w) := w.submitBy n s callBack
    (.returned result, w)
  | .watch name =>
    let (result, w) := w.callBack n .monitor
    let (watching, w) := w.holdReceiver n name result
    (.watching watching, w)
  | .gate => (.passed, w)

/-- Whether a continuation stands before the closed gate. -/
def isBlocked (w : Services) (e : Errand Act) : Bool :=
  match e.act with
  | some .gate => !w.gateOpen
  | _ => false

def runErrand (w : Services) (n : Nat) (e : Errand Act) (outcome : Except Failure Stream) :
    Services :=
  let (acted, w) := match e.act with
    | none => (none, w)
    | some act =>
      if w.ask n 0 (·.handles) = 0 then (some Acted.gone, w)
      else let (acted, w) := w.perform n act; (some acted, w)
  let thread := w.ask n "" (·.settings.threadName)
  let w := { w with reports := w.reports.push ⟨e.id, outcome, thread, acted⟩ }
  let w := if e.hold then (w.callBack n .release).2 else w
  w.carryOut n (.leave e.panics)

/-- A continuation fills a completion; both ends are released when it is over. -/
def runComplete (w : Services) (n number : Nat) (side : Side) (outcome : Except Failure Stream) :
    Services :=
  let fill (c : Completion Stream) := ((c.resolve side outcome).release).release
  { w with completions := w.completions.modify number fill }.carryOut n (.leave none)

/-- What a continuation is called with, as it sees it. -/
def seen (w : Services) (outcome : Outcome) : Except Failure Stream :=
  outcome.map fun handed => w.network.stream handed.socket handed.nodelay

def workStep (w : Services) (n : Nat) (h : Hosted) (worker : Service.Worker) : Services :=
  let w := w.onHosted n fun h => { h with parked := none }
  let table := h.service.table
  match table.frames with
  | [] =>
    if (worker.stage = .wait ∨ worker.stage = .reconcile) ∧ ¬ worker.entered then
      let (looks, table, network) := w.network.survey table
      let w := { w with network := network }.onHosted n fun h =>
        { h with service := { h.service with table := table } }
      w.act n (.work { report := .ok looks, now := w.clock })
    else w.carryOut n (.work { now := nextReading w.clock })
  | .task (.dial request) :: _ =>
    if worker.begun then w.act n (.work { now := w.clock })
    else
      let serial := w.network.sockets.size
      let (reply, network) := w.network.replyTo request
      let w := { w with network := network }.act n (.work { reply := reply, now := w.clock })
      if w.ask n false (fun s => network.isReadyIn s.table serial) then
        w.act n (.becomeReady serial)
      else w
  | _ => w.carryOut n (.work { now := w.clock })

/-- Whether a worker is at its bounded wait and nothing is ready. -/
def isIdle (s : Service.State Continuation) (worker : Service.Worker) : Bool :=
  worker.stage = .wait && !worker.entered && s.table.frames.isEmpty &&
    s.table.watch.selector.ready.isEmpty

/-- A worker goes on until it waits, is gone, or stands before the gate. -/
def runWorker (n : Nat) : Nat → Services → Services
  | 0, w => w
  | bound + 1, w =>
    match w.hosted[n]? with
    | none => w
    | some h =>
      match h.service.worker with
      | none => w
      | some worker =>
        match h.service.table.frames with
        | .calling call :: _ =>
          match call.continuation.continuation with
          | .complete number side =>
            runWorker n bound (w.runComplete n number side (w.seen call.outcome))
          | .errand e =>
            if w.isBlocked e then w
            else runWorker n bound (w.runErrand n e (w.seen call.outcome))
        | _ =>
          if worker.stage = .gone ∨ worker.stage = .dead then w
          else if isIdle h.service worker then
            w.onHosted n fun h => { h with parked := some (h.parked.getD w.clock) }
          else runWorker n bound (w.workStep n h worker)

def settle (w : Services) : Services :=
  (List.range w.hosted.size).foldl (fun w n => runWorker n w.bound w) w

/-- The calling thread's call goes on until it returns; while it waits for a worker that one goes
on. -/
def pursue (n : Nat) : Nat → Services → Services
  | 0, w => w
  | bound + 1, w =>
    let me := Thread.caller 0
    if w.ask n true (fun s => (s.point? me).isNone) then w
    else if w.ask n false (·.canProceed me) then
      pursue n bound (w.carryOut n (.proceed me w.grant))
    else pursue n bound (runWorker n w.bound w)

/-- The calling thread calls a service. A call takes at most five steps and waits at most once. -/
def call (w : Services) (n : Nat) (call : Service.Call Continuation) : Result × Services :=
  let w := pursue n 8 (w.act n (.begin (.caller 0) call))
  (w.lastResult n, w)

/-- When a worker that waits will next find an attempt whose time is over: after the least whole
number of waits, at least one, that reaches the first such moment. -/
def wakeTime? (h : Hosted) : Option Int := do
  let parked ← h.parked
  let dues := h.service.table.entries.map fun e => e.2.started.nanos + (e.2.timeout.nanos : Int)
  let due ← dues.min?
  let interval : Int := h.service.settings.pollInterval.nanos
  return parked.nanos + interval * max 1 ((due - parked.nanos + interval - 1) / interval)

/-- The next moment at which a worker has something to do, and the worker. -/
def nextWake? (w : Services) : Option (Int × Nat) :=
  (List.range w.hosted.size).foldl (fun best n =>
    match w.hosted[n]?.bind wakeTime?, best with
    | some time, some (least, m) => if time < least then some (time, n) else some (least, m)
    | some time, none => some (time, n)
    | none, best => best) none

def wake (w : Services) (n : Nat) : Services :=
  match w.hosted[n]? with
  | none => w
  | some h =>
    match h.service.worker with
    | none => w
    | some worker => runWorker n w.bound (w.workStep n h worker)

/-- Workers that had something to do while the clock moved on do it, each at its time. -/
def catchUp : Nat → Services → Services
  | 0, w => w
  | bound + 1, w =>
    match w.nextWake? with
    | some (time, n) =>
      if time ≤ w.clock.nanos then
        let v := ({ w with clock := .ofNanos time }.wake n).settle
        catchUp bound { v with clock := w.clock }
      else w
    | none => w

/-- The calling thread waits until something is so, at most until the deadline. -/
def waitUntil (isSo : Services → Bool) (deadline : Option Instant) : Nat → Services → Services
  | 0, w => w
  | bound + 1, w =>
    if isSo w then w
    else
      let late (time : Int) := (deadline.map fun d => decide (d.nanos < time)).getD false
      match w.nextWake? with
      | some (time, n) =>
        if late time then { w with clock := deadline.getD w.clock }
        else waitUntil isSo deadline bound ({ w with clock := .ofNanos time }.wake n).settle
      | none => { w with clock := deadline.getD w.clock }

def await (w : Services) (isSo : Services → Bool) : Services := waitUntil isSo none w.bound w

def awaitFor (w : Services) (span : Nat) (isSo : Services → Bool) : Services :=
  waitUntil isSo (some (w.clock.shift span)) w.bound w

def reportsOf (w : Services) (id : Nat) : List Report :=
  w.reports.toList.filter (·.id = id)

def haveReports (ids : List Nat) (w : Services) : Bool :=
  ids.all fun id => w.reports.any (·.id = id)

def ordered (ids : List Nat) : List Nat :=
  (ids.mergeSort fun a b => decide (a ≤ b)).eraseDups

def askCompletion (w : Services) (number : Nat) : Option (Except Failure Stream) × Services :=
  match w.completions[number]? with
  | some c =>
    let (answer, c) := c.ask
    (answer, { w with completions := w.completions.setIfInBounds number c })
  | none => (none, w)

def wouldAnswer (number : Nat) (w : Services) : Bool :=
  ((w.completions[number]?.map fun c => c.ask.1.isSome)).getD true

def dropHandle (w : Services) (name : String) : Services :=
  match w.handles.lookup name with
  | some number => { w with
      handles := Names.drop w.handles name
      completions := w.completions.modify number Completion.dropHandle }
  | none => w

def queued (w : Services) (n channel : Nat) : List Event :=
  w.ask n [] fun s => (s.table.channels[channel]?.map (·.queue)).getD []

def takeEvents (w : Services) (n channel count : Nat) : List Event × Services :=
  let events := (w.queued n channel).take count
  (events, events.foldl (fun w _ => w.act n (.receive channel)) w)

def isDetached (n channel : Nat) (w : Services) : Bool :=
  w.ask n true fun s => !s.isAttached channel

/-- The alarming lines that were not read yet, in the order of their texts. -/
def readLog (w : Services) : List Log.Line × Services :=
  let fresh {α : Type} (history : List α) (read : Nat) := history.take (history.length - read)
  let lines := (List.range w.hosted.size).flatMap fun n =>
    (w.hosted[n]?.map fun h =>
      (fresh h.service.table.history h.readTable).filterMap (·.line?) ++
        (fresh h.service.history h.readService).filterMap (·.line? (n + 1))).getD []
  let read (h : Hosted) := { h with
    readTable := h.service.table.history.length
    readService := h.service.history.length }
  (Log.sorted (lines.filter (·.level.isAlarming)), { w with hosted := w.hosted.map read })

inductive Step where
  | create (name : String) (settings : Settings)
  | start (name : String)
  | stop (name : String)
  | state (name : String)
  | settings (name : String)
  | describe (name : String) (spread : Bool)
  | submit (name : String) (s : Submission Act)
  /-- Submissions under the numbers from the first on. -/
  | burst (name : String) (s : Submission Act) (count : Nat)
  | connect (name handle : String) (s : Submission Act)
  | wait (handle : String)
  | waitFor (handle : String) (span : Nat)
  | glance (handle : String)
  | dropHandle (handle : String)
  | reports (ids : List Nat)
  | tally (ids : List Nat)
  | counts
  | watch (name receiver : String)
  | cloneReceiver (receiver as : String)
  | dropReceiver (receiver : String)
  /-- Takes so many events, or as many as there are until nobody can publish any more. -/
  | events (receiver : String) (count : Option Nat)
  | drop (name : String)
  | dropAndOpenGate (name : String)
  | descriptors (allowed : Bool)
  | sleep (span : Nat)
  | log
  | nothing

inductive Answer where
  | nothing
  | flag (b : Bool)
  | returned (r : Result)
  | state (l : Lifecycle) (running : Bool)
  | text (t : String)
  | count (n : Nat)
  | outcome (o : Option (Except Failure Stream))
  | reports (rs : List (Nat × List Report))
  | counts (ns : List (Nat × Nat))
  | events (es : List Event) (left : Nat) (disconnected : Bool)
  | log (lines : List Log.Line)
  | noService
  | noHandle
  | noReceiver

/-- Runs a step on the service under a name, if there is one. -/
def withService (w : Services) (name : String) (f : Nat → Answer × Services) :
    Answer × Services :=
  match w.names.lookup name with
  | some n => f n
  | none => (.noService, w)

/-- Runs a step on the completion under a name, if there is one. -/
def withHandle (w : Services) (handle : String) (f : Nat → Answer × Services) :
    Answer × Services :=
  match w.handles.lookup handle with
  | some number => f number
  | none => (.noHandle, w)

def drop (w : Services) (n : Nat) : Services := (w.call n .release).2

/-- Submits under one number after the other, and counts what is accepted. -/
def burst (n : Nat) (s : Submission Act) : Nat → Nat → Services → Nat × Services
  | 0, accepted, w => (accepted, w)
  | count + 1, accepted, w =>
    let (result, w) := w.submitBy n s call
    let next := { s with errand := { s.errand with id := s.errand.id + 1 } }
    burst n next count (if result = .done then accepted + 1 else accepted) w

/-- Submits a request whose outcome goes to a completion. -/
def connect (w : Services) (n : Nat) (handle : String) (s : Submission Act) : Answer × Services :=
  let number := w.completions.size
  let w := { w with completions := w.completions.push {} }
  let request : Request Continuation := {
    address := s.address
    port := s.port
    timeout := s.timeout
    onSuccess := some (.complete number .success)
    onFailure := some (.complete number .failure) }
  let (result, w) := w.call n (.submit request)
  if result = .done then
    let isFree := (w.handles.lookup handle).isNone
    let w := w.dropHandle handle
    (.flag isFree, { w with handles := Names.put w.handles handle number })
  else (.returned result, w)

def state (w : Services) (n : Nat) : Answer × Services :=
  let (lifecycle, w) := w.call n .lifecycle
  let (running, w) := w.call n .isRunning
  (.state (foundLifecycle lifecycle) (foundRunning running), w)

def describe (w : Services) (n : Nat) (spread : Bool) : Answer × Services :=
  let (lifecycle, w) := w.call n .lifecycle
  let shown := w.ask n (.atom "") (·.shown (n + 1) (foundLifecycle lifecycle))
  (.text (if spread then shown.spread else shown.compact), w)

/-- Makes a service; one that had its name before is let go. -/
def create (w : Services) (name : String) (settings : Settings) : Answer × Services :=
  let n := w.hosted.size
  let w := { w with hosted := w.hosted.push { service := .initial settings } }
  match w.names.lookup name with
  | some old => (.flag false, { w with names := Names.put w.names name n }.drop old)
  | none => (.flag true, { w with names := Names.put w.names name n })

def events (w : Services) (receiver : String) (count : Option Nat) : Answer × Services :=
  match w.receivers.lookup receiver with
  | none => (.noReceiver, w)
  | some (n, channel) =>
    let w := match count with
      | some count => w.await fun w => count ≤ (w.queued n channel).length || isDetached n channel w
      | none => w.await (isDetached n channel)
    let available := (w.queued n channel).length
    let (events, w) := w.takeEvents n channel (count.getD available)
    (.events events (available - events.length) (isDetached n channel w), w)

/-- Carries out a step, before the workers go on. -/
def stepNow (w : Services) : Step → Answer × Services
  | .create name settings => w.create name settings
  | .start name => w.withService name fun n =>
    let (result, w) := w.call n .start
    (.returned result, w)
  | .stop name => w.withService name fun n => (.nothing, (w.call n .stop).2)
  | .state name => w.withService name w.state
  | .settings name => w.withService name fun n =>
    (.text (w.ask n "" (·.settings.shown.compact)), w)
  | .describe name spread => w.withService name (w.describe · spread)
  | .submit name s => w.withService name fun n =>
    let (result, w) := w.submitBy n s call
    (.returned result, w)
  | .burst name s count => w.withService name fun n =>
    let (accepted, w) := burst n s count 0 w
    (.count accepted, w)
  | .connect name handle s => w.withService name (w.connect · handle s)
  | .wait handle => w.withHandle handle fun number =>
    let w := w.await (wouldAnswer number)
    let (answer, w) := w.askCompletion number
    (.outcome answer, w.dropHandle handle)
  | .waitFor handle span => w.withHandle handle fun number =>
    let w := w.awaitFor span (wouldAnswer number)
    let (answer, w) := w.askCompletion number
    (.outcome answer, w)
  | .glance handle => w.withHandle handle fun number =>
    let (answer, w) := w.askCompletion number
    (.outcome answer, w)
  | .dropHandle handle => (.flag (w.handles.lookup handle).isSome, w.dropHandle handle)
  | .reports ids =>
    let w := w.await (haveReports ids)
    (.reports ((ordered ids).map fun id => (id, w.reportsOf id)), w)
  | .tally ids =>
    let w := w.await (haveReports ids)
    (.reports (ids.map fun id => (id, w.reportsOf id)), w)
  | .counts =>
    let ids := ordered (w.reports.toList.map (·.id))
    (.counts (ids.map fun id => (id, (w.reportsOf id).length)), w)
  | .watch name receiver => w.withService name fun n =>
    let (result, w) := w.call n .monitor
    let (watching, w) := w.holdReceiver n receiver result
    (.flag watching, w)
  | .cloneReceiver receiver as =>
    match w.receivers.lookup receiver with
    | none => (.noReceiver, w)
    | some (n, channel) =>
      let isFree := (w.receivers.lookup as).isNone
      let w := (w.act n (.addReceiver channel)).dropReceiver as
      (.flag isFree, { w with receivers := Names.put w.receivers as (n, channel) })
  | .dropReceiver receiver =>
    (.flag (w.receivers.lookup receiver).isSome, w.dropReceiver receiver)
  | .events receiver count => w.events receiver count
  | .drop name => w.withService name fun n =>
    (.nothing, { w with names := Names.drop w.names name }.drop n)
  | .dropAndOpenGate name => w.withService name fun n =>
    (.nothing, { ({ w with names := Names.drop w.names name }.drop n) with gateOpen := true })
  | .descriptors allowed =>
    (.nothing, { w with network := { w.network with descriptors := allowed } })
  | .sleep span => (.nothing, w.awaitFor span fun _ => false)
  | .log => let (lines, w) := w.readLog; (.log lines, w)
  | .nothing => (.nothing, w)

/-- Carries out a step; then the workers go on. -/
def step (w : Services) (s : Step) : Answer × Services :=
  let (answer, w) := w.stepNow s
  (answer, (catchUp w.bound w).settle)

/-- The number of requests that a step brings in, and one more. -/
def Step.weight : Step → Nat
  | .submit _ s => s.errand.weight + 1
  | .burst _ s count => s.errand.weight * count + 1
  | .connect _ _ _ => 2
  | _ => 1

/-- No services yet, in a network, for the given steps. A worker looks at each attempt in each pass
of its loop, and there are no more passes with something to do than jobs and sockets. -/
def start (network : Network) (steps : List Step) : Services :=
  let size := steps.foldl (fun n s => n + s.weight) 4
  { network := network, bound := 16 * size * size }

end Services

end Dialer.Simulation
