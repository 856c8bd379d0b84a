import Dialer.Service.State

/-!
# Calls of the service

A call begins outside the lock, gets its side of it, looks and acts, perhaps leaves a job, and lets
go. On the worker's own thread nobody can wait for the worker: a stop is ignored there, and waiting
for the shared side is given up after a while, because who holds the exclusive side may be waiting
for this very thread.
-/

namespace Dialer.Service

inductive Call (κ : Type) where
  | submit (request : Request κ)
  | monitor
  | lifecycle
  | isRunning
  | start
  | stop
  | retain
  /-- One handle less; the last one stops the service. -/
  | release

structure Grant where
  descriptors : Option Fault := none
  spawn : Option Fault := none

namespace State

variable {κ : Type}

def tag (submission : Nat) (request : Request κ) : Request (Tagged κ) where
  address := request.address
  port := request.port
  timeout := request.timeout
  onSuccess := request.onSuccess.map (⟨submission, ·⟩)
  onFailure := request.onFailure.map (⟨submission, ·⟩)

/-- The last handle goes. On the worker's own thread the worker is only told to come to an end, and
nobody can leave a job for it any more. -/
def releaseLast (s : State κ) (thread : Thread) : State κ :=
  match thread with
  | .worker =>
    let s := if s.lifecycle = .running then
        ({ s with lifecycle := .stopped }.onWorker fun w => { w with flag := false }).onWatch
          Readiness.Watch.abandon
      else s
    { s with slot := none }.returns thread .done
  | .caller _ => s.moveTo thread (.wanting .stop)

def begin (s : State κ) (thread : Thread) : Call κ → State κ
  | .submit request =>
    let submission := s.submissions
    let s := { s with submissions := submission + 1 }
    match request.refusal? with
    | some failure => (s.note (.refused submission)).returns thread (.refused failure)
    | none => s.moveTo thread (.wanting (.submit submission (tag submission request)))
  | .monitor =>
    if s.settings.monitor then
      let channel := s.table.channels.length
      { s with table := s.table.after .openChannel }.moveTo thread (.wanting (.monitor channel))
    else s.returns thread (.receiver none)
  | .lifecycle => s.moveTo thread (.wanting .lifecycle)
  | .isRunning => s.moveTo thread (.wanting .isRunning)
  | .start => s.moveTo thread (.wanting .start)
  | .stop =>
    if thread = .worker then (s.note .ignoredStop).returns thread .done
    else s.moveTo thread (.wanting .stop)
  | .retain => { s with handles := s.handles + 1 }.returns thread .done
  | .release =>
    let s := { s with handles := s.handles - 1 }
    if s.handles = 0 then s.releaseLast thread else s.returns thread .done

/-- An empty table for the next worker, which publishes on the channel that the service keeps. -/
def freshTable (s : State κ) : Table κ :=
  { s.table with
    watch := .ofCapacity s.settings.eventCapacity
    entries := []
    next := 0
    nodelay := s.settings.nodelay
    monitor := s.slot
    frames := [] }

/-- Makes a worker and publishes it together with the lifecycle. -/
def launch (s : State κ) : State κ :=
  { s with
    table := s.freshTable
    worker := some { generation := s.generations }
    generations := s.generations + 1
    lifecycle := .running }

/-- The name of a thread must not hold the character that ends names in the system. -/
def hasBadName (s : State κ) : Bool := s.settings.threadName.toList.contains '\x00'

/-- What a start comes to when there is no worker. -/
def tryLaunch (s : State κ) (grant : Grant) : Result × State κ :=
  match grant.descriptors with
  | some fault => (.refused (.socketCreateFailed fault), s)
  | none =>
    if s.hasBadName || !s.settings.fitsMemory then (.panicked, s)
    else match grant.spawn with
      | some fault => (.refused (.workerSpawn fault), s)
      | none => (.done, s.launch)

/-- With the lock held, a call looks at the lifecycle. -/
def look (s : State κ) (thread : Thread) (grant : Grant) : Operation κ → State κ
  | .submit submission request =>
    if s.lifecycle = .running ∧ s.flag then s.moveTo thread (.sending (.submit submission request))
    else (s.note (.refused submission)).moveTo thread (.leaving .shared (.refused .notRunning))
  | .monitor channel =>
    let s := { s with slot := some channel }
    if s.lifecycle = .running then s.moveTo thread (.sending (.monitor channel))
    else s.moveTo thread (.leaving .shared (.receiver (some channel)))
  | .lifecycle => s.moveTo thread (.leaving .shared (.lifecycle s.lifecycle))
  | .isRunning =>
    s.moveTo thread (.leaving .shared (.running (s.lifecycle = .running && s.flag)))
  | .start =>
    if s.lifecycle = .running then s.moveTo thread (.leaving .exclusive .done)
    else
      let (result, s) := s.tryLaunch grant
      s.moveTo thread (.leaving .exclusive result)
  | .stop =>
    if s.lifecycle = .running then
      { s with lifecycle := .stopped }.moveTo thread (.sending .stop)
    else s.moveTo thread (.leaving .exclusive .done)

def send (s : State κ) (thread : Thread) : Operation κ → State κ
  | .submit submission request =>
    match s.enqueue (.dial request) with
    | .ok s =>
      (s.note (.accepted submission s.generation)).moveTo thread (.leaving .shared .done)
    | .error _ =>
      ((s.note .queueClosed).note (.refused submission)).moveTo thread
        (.leaving .shared (.refused .notRunning))
  | .monitor channel =>
    ((s.enqueue (.watchOn channel)).toOption.getD s).moveTo thread
      (.leaving .shared (.receiver (some channel)))
  | .stop =>
    match s.enqueue .halt with
    | .ok s => s.moveTo thread .joining
    | .error _ => (s.onWorker fun w => { w with flag := false }).moveTo thread .joining
  | _ => s

/-- The worker is gone: its queue goes with what is left in it. -/
def join (s : State κ) (thread : Thread) : State κ :=
  let s := match s.worker with
    | some w => s.note (.joined w.generation w.panicked)
    | none => s
  s.dropJobs.moveTo thread (.leaving .exclusive .done)

/-- A call lets go of the lock and returns. With the last handle the kept channel goes too. -/
def finish (s : State κ) (thread : Thread) (result : Result) : State κ :=
  let s := if s.handles = 0 then { s with slot := none } else s
  s.returns thread result

/-- A thread's call goes on by one step; `grant` is what the system answers to a start. -/
def proceed (s : State κ) (thread : Thread) (grant : Grant) : State κ :=
  match s.point? thread with
  | none => s
  | some (.wanting op) => s.moveTo thread (.holding op)
  | some (.holding op) => s.look thread grant op
  | some (.sending op) => s.send thread op
  | some .joining => s.join thread
  | some (.leaving _ result) => s.finish thread result

def canProceed (s : State κ) (thread : Thread) : Bool :=
  match s.point? thread with
  | none => false
  | some (.wanting op) => s.isFree op.access
  | some .joining => s.isWorkerGone
  | some _ => true

/-- The worker's own thread gives up waiting for the shared side. To the call the service counts as
stopped; a monitor is still kept for the next start. -/
def giveUp (s : State κ) : State κ :=
  match s.point? .worker with
  | some (.wanting (.submit submission _)) =>
    (s.note (.refused submission)).returns .worker (.refused .notRunning)
  | some (.wanting (.monitor channel)) =>
    { s with slot := some channel }.returns .worker (.receiver (some channel))
  | some (.wanting .lifecycle) => s.returns .worker (.lifecycle .stopped)
  | some (.wanting .isRunning) => s.returns .worker (.running false)
  | _ => s

/-- Whether the worker's own thread can give up waiting: it is for the shared side, and somebody
holds the exclusive side or waits for it. -/
def canGiveUp (s : State κ) : Bool :=
  match s.point? .worker with
  | some (.wanting op) => op.access = .shared && (!s.isFree .shared || s.isAwaited)
  | _ => false

end State

end Dialer.Service
