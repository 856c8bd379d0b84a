import Dialer.InFlight.Step

/-!
# The worker

The worker goes through its loop as long as its flag is up: it waits for ready sockets, carries out
the jobs left for it, looks at ready sockets once more without waiting, and lets attempts expire.
After the loop it carries out what was left meanwhile, aborts every attempt and gives the table up.
A panic that nothing contains ends it; the table is given up then too. A second one while the table
is given up for the first ends the whole process.
-/

namespace Dialer.Service

open Readiness (Token)
open Time (Instant)

/-- A continuation and the submission it came with. -/
structure Tagged (κ : Type) where
  submission : Nat
  continuation : κ
  deriving DecidableEq

inductive Job (κ : Type) where
  | dial (request : Request (Tagged κ))
  | watchOn (channel : Nat)
  | halt

abbrev Table (κ : Type) := InFlight.State (Tagged κ) (Job κ)

/-- Where the worker is. The first five are the loop, in their order; the next three follow it. A
worker that is dead took the whole process with it. -/
inductive Stage where
  | head
  | wait
  | serve
  | reconcile
  | expire
  | lastServe
  | abort
  | close
  | gone
  | dead
  deriving DecidableEq

def Stage.following (flag : Bool) : Stage → Stage
  | .head => if flag then .wait else .lastServe
  | .wait => .serve
  | .serve => .reconcile
  | .reconcile => .expire
  | .expire => .head
  | .lastServe => .abort
  | .abort => .close
  | .close => .gone
  | .gone => .gone
  | .dead => .dead

structure Worker where
  generation : Nat := 0
  /-- Whether the loop is to go on. -/
  flag : Bool := true
  stage : Stage := .head
  /-- Whether the operation of the stage was begun. -/
  entered : Bool := false
  /-- Whether the job in hand was carried out. -/
  begun : Bool := false
  panicked : Bool := false

/-- What the system says to the worker in one step, and the order in which the table is walked over
if it is. -/
structure Answers where
  report : Except Fault (List (Token × Verdict)) := .ok []
  reply : Reply := {}
  now : Instant := .origin
  order : List Token := []
  release : Release := {}

structure Duty (κ : Type) where
  table : Table κ
  worker : Worker := {}

namespace Duty

variable {κ : Type}

def enter (table : Table κ) (answers : Answers) : Stage → Table κ
  | .wait => (table.poll answers.report).2
  | .serve => table.drain
  | .reconcile => (table.poll answers.report).2
  | .expire => (table.expire answers.now answers.order).2
  | .lastServe => table.drain
  | .abort => (table.abort answers.order).2
  | .close => table.close answers.order
  | .head => table
  | .gone => table
  | .dead => table

/-- Between two operations on the table. -/
def workBetween (d : Duty κ) (answers : Answers) : Duty κ :=
  let w := d.worker
  if w.stage = .gone ∨ w.stage = .dead then d
  else if w.stage = .head ∨ w.entered then
    { d with worker := { w with stage := w.stage.following w.flag, entered := false } }
  else { table := enter d.table answers w.stage, worker := { w with entered := true } }

/-- The loop is not to go on. -/
def lower (d : Duty κ) : Duty κ := { d with worker := { d.worker with flag := false } }

def perform (d : Duty κ) (answers : Answers) : Job κ → Duty κ
  | .dial request =>
    { d with table := (d.table.attempt request answers.reply answers.now).2 }
  | .watchOn channel => { d with table := d.table.watchOn (some channel) }
  | .halt => d.lower

def setBegun (d : Duty κ) (begun : Bool) : Duty κ :=
  { d with worker := { d.worker with begun := begun } }

/-- The worker goes on by one step, unless it is in foreign code. -/
def work (d : Duty κ) (answers : Answers) : Duty κ :=
  match d.table.frames with
  | [] => d.workBetween answers
  | .task job :: _ =>
    if d.worker.begun then { d with table := d.table.leave none }.setBegun false
    else (d.perform answers job).setBegun true
  | .calling _ :: _ => d
  | _ => { d with table := d.table.advance answers.release }

def isForeign (d : Duty κ) : Bool :=
  match d.table.frames with
  | .calling _ :: _ => true
  | _ => false

/-- Whether the worker goes on by itself: it is not in foreign code, and if it has a request to
issue there is a token for it. -/
def canWork (d : Duty κ) : Bool :=
  match d.table.frames with
  | .calling _ :: _ => false
  | .task (.dial _) :: _ => d.worker.begun || d.table.hasRoom
  | _ => true

def hasJob (d : Duty κ) : Bool :=
  match d.table.frames with
  | .task _ :: _ => true
  | _ => false

/-- Whether the latest panic was not contained. -/
def hasEscaped (d : Duty κ) : Bool :=
  match d.table.history with
  | .escaped _ :: _ => true
  | _ => false

/-- Where a panic that nothing contains leaves the worker: it gives its table up, unless it is doing
so for an earlier one already. -/
def Stage.afterPanic (panicked : Bool) : Stage := if panicked then .dead else .close

/-- The foreign code that the worker runs is over. A panic that takes the job in hand with it, or
that nothing contains, is noted. -/
def leave (d : Duty κ) (panic : Option Panic) : Duty κ :=
  let d := { d with table := d.table.leave panic }
  let d := d.setBegun (d.worker.begun && d.hasJob)
  if panic.isSome && d.hasEscaped then
    { d with worker := { d.worker with
        stage := Stage.afterPanic d.worker.panicked
        entered := false
        panicked := true } }
  else d

inductive Action (κ : Type) where
  | work (answers : Answers)
  | leave (panic : Option Panic)
  | enqueue (job : Job κ)
  /-- Nobody holds the service any more. -/
  | lower

def Enabled (d : Duty κ) : Action κ → Prop
  | .work _ => d.canWork
  | .leave _ => d.isForeign
  | .enqueue _ => True
  | .lower => True

instance (d : Duty κ) (a : Action κ) : Decidable (d.Enabled a) := by
  cases a <;> unfold Enabled <;> infer_instance

def after (d : Duty κ) : Action κ → Duty κ
  | .work answers => d.work answers
  | .leave panic => d.leave panic
  | .enqueue job => { d with table := (d.table.enqueue job).toOption.getD d.table }
  | .lower => d.lower

end Duty

end Dialer.Service
