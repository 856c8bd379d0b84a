import Dialer.Service.Worker
import Dialer.Settings

/-!
# The service

A service owns a table of attempts and one worker, the only thread that works on the table. Other
threads, and the continuations that the worker runs, call the service: they leave jobs in the
table's queue, start and stop the worker, and ask. What a call may look at and change is guarded by
a lock with a shared side and an exclusive side; which calls hold it is told by the points they have
reached. The lock guards the lifecycle together with the worker that belongs to it.
-/

namespace Dialer.Service

open Time (Instant)

/-- Who calls the service. -/
inductive Thread where
  | caller (n : Nat)
  /-- A continuation, on the worker's own thread. -/
  | worker
  deriving DecidableEq

/-- What the lock guards. -/
inductive Lifecycle where
  | fresh
  | running
  | stopped
  deriving DecidableEq

def Lifecycle.name : Lifecycle → String
  | .fresh => "NotStarted"
  | .running => "Running"
  | .stopped => "Stopped"

inductive Access where
  | shared
  | exclusive
  deriving DecidableEq

/-- A call of the service, past what it does before it needs the lock. -/
inductive Operation (κ : Type) where
  | submit (submission : Nat) (request : Request (Tagged κ))
  | monitor (channel : Nat)
  | lifecycle
  | isRunning
  | start
  | stop
  deriving DecidableEq

def Operation.access {κ : Type} : Operation κ → Access
  | .start => .exclusive
  | .stop => .exclusive
  | _ => .shared

inductive Result where
  | done
  | refused (failure : Failure)
  | receiver (channel : Option Nat)
  | lifecycle (l : Lifecycle)
  | running (b : Bool)
  | panicked
  deriving DecidableEq

/-- How far a call has come. -/
inductive Point (κ : Type) where
  /-- It waits for its side of the lock. -/
  | wanting (op : Operation κ)
  /-- It got its side of the lock. -/
  | holding (op : Operation κ)
  /-- It is about to leave a job. -/
  | sending (op : Operation κ)
  /-- It waits for the worker to be gone. -/
  | joining
  /-- It is about to let go of the lock and to return. -/
  | leaving (access : Access) (result : Result)
  deriving DecidableEq

/-- The side of the lock that is held at a point. -/
def Point.held? {κ : Type} : Point κ → Option Access
  | .wanting _ => none
  | .holding op => some op.access
  | .sending op => some op.access
  | .joining => some .exclusive
  | .leaving access _ => some access

inductive Happening where
  | returned (thread : Thread) (result : Result)
  /-- The submission was accepted for the worker of that generation. -/
  | accepted (submission generation : Nat)
  | refused (submission : Nat)
  /-- A continuation asked to stop the worker it ran on. -/
  | ignoredStop
  | queueClosed
  /-- A stop found the worker of that generation gone, perhaps ended by a panic. -/
  | joined (generation : Nat) (panicked : Bool)
  deriving DecidableEq

/-- What the log says of it; `id` is the number of the service. -/
def Happening.line? (id : Nat) : Happening → Option Log.Line
  | .ignoredStop => some ⟨.error,
      "stop() called from the connector's own dispatcher thread; ignored",
      [("connector", Text.decimal id)]⟩
  | .queueClosed => some ⟨.warn, "dispatcher queue closed", [("connector", Text.decimal id)]⟩
  | .joined _ true => some ⟨.error, "connector dispatcher thread panicked", []⟩
  | _ => none

/-- A service over continuations `κ`. -/
structure State (κ : Type) where
  settings : Settings
  lifecycle : Lifecycle := .fresh
  /-- The channel that the next start publishes on. -/
  slot : Option Nat := none
  table : Table κ
  /-- The latest worker. -/
  worker : Option Worker := none
  /-- The calls that have not returned, one for a thread. -/
  calls : List (Thread × Point κ) := []
  /-- How many hold the service. -/
  handles : Nat := 1
  submissions : Nat := 0
  generations : Nat := 0
  /-- The latest comes first. -/
  history : List Happening := []

namespace State

variable {κ : Type}

def initial (settings : Settings) : State κ :=
  { settings := settings, table := (InFlight.State.initial 1 false).shut }

def note (s : State κ) (h : Happening) : State κ :=
  { s with history := h :: s.history }

def point? (s : State κ) (thread : Thread) : Option (Point κ) := s.calls.lookup thread

def moveTo (s : State κ) (thread : Thread) (point : Point κ) : State κ :=
  { s with calls := s.calls.filter (·.1 ≠ thread) ++ [(thread, point)] }

def returns (s : State κ) (thread : Thread) (result : Result) : State κ :=
  { s with calls := s.calls.filter (·.1 ≠ thread) }.note (.returned thread result)

def held (s : State κ) : List Access := s.calls.filterMap (·.2.held?)

/-- Whether a side of the lock can be had. -/
def isFree (s : State κ) : Access → Bool
  | .shared => Access.exclusive ∉ s.held
  | .exclusive => s.held.isEmpty

def isAwaited (s : State κ) : Bool :=
  s.calls.any fun c => match c.2 with
    | .wanting op => op.access = .exclusive
    | _ => false

/-- Whether the worker's loop is to go on. -/
def flag (s : State κ) : Bool := (s.worker.map (·.flag)).getD false

def generation (s : State κ) : Nat := (s.worker.map (·.generation)).getD 0

def onWorker (s : State κ) (change : Worker → Worker) : State κ :=
  { s with worker := s.worker.map change }

def onWatch (s : State κ) (change : Readiness.Watch (Job κ) → Readiness.Watch (Job κ)) : State κ :=
  { s with table := { s.table with watch := change s.table.watch } }

def dropJobs (s : State κ) : State κ :=
  s.onWatch fun watch => { watch with tasks := { watch.tasks with queue := [] } }

/-- Does something with the worker and its table, if there is one. Jobs that are left when the
table is given up are kept as long as somebody holds the service. -/
def onDuty (s : State κ) (change : Duty κ → Duty κ) : State κ :=
  match s.worker with
  | none => s
  | some w =>
    let d := change ⟨s.table, w⟩
    let s := { s with table := d.table, worker := some d.worker }
    if s.handles = 0 ∧ s.table.isClosed then s.dropJobs else s

def isForeign (s : State κ) : Bool :=
  match s.worker with
  | none => false
  | some w => (Duty.mk s.table w).isForeign

/-- Whether there is a worker and it goes on by itself. -/
def canWork (s : State κ) : Bool :=
  match s.worker with
  | none => false
  | some w => (Duty.mk s.table w).canWork

/-- Whether the worker is gone, or there never was one. -/
def isWorkerGone (s : State κ) : Bool :=
  match s.worker with
  | none => true
  | some w => w.stage = .gone

/-- Whether the process ended with its worker. -/
def isDead (s : State κ) : Bool :=
  match s.worker with
  | none => false
  | some w => w.stage = .dead

def enqueue (s : State κ) (job : Job κ) : Except (Job κ) (State κ) :=
  (s.table.enqueue job).map fun table => { s with table := table }

/-- Whether somebody can still publish on a channel: the service keeps it for the next start, the
table publishes on it, or it is on its way to the table. -/
def isAttached (s : State κ) (channel : Nat) : Bool :=
  s.slot = some channel || s.table.monitor = some channel ||
    s.table.watch.tasks.queue.any (fun job => match job with
      | .watchOn c => c = channel
      | _ => false) ||
    s.calls.any (fun c => match c.2 with
      | .wanting (.monitor c) | .holding (.monitor c) | .sending (.monitor c) => c = channel
      | _ => false)

/-- The service as a value, once its lifecycle is known; `id` is its number. -/
def shown (s : State κ) (id : Nat) (lifecycle : Lifecycle) : Text.Shown :=
  .record "Connector" [
    ("id", .atom (Text.decimal id)),
    ("state", .atom lifecycle.name),
    ("options", s.settings.shown)]

end State

end Dialer.Service
