import Dialer.InFlight.Operations

/-!
# Steps of the table of attempts

Whatever happens to a table is a sequence of actions. Operations come from its owner or from a
running task, foreign code ends by returning or in a panic, tasks come from any thread at any time,
the table itself goes on in its loops, and receivers of events come and go. An action may carry what
the system answers, or the order in which the table is walked over, so that a sequence of actions
fixes a run; `Enabled` says which actions can happen in a state.
-/

namespace Dialer.InFlight

open Readiness (Token)
open Time (Instant)

/-- One thing that happens to a table over continuations `κ` and tasks `τ`. -/
inductive Action (κ τ : Type) where
  | attempt (request : Request κ) (reply : Reply) (now : Instant)
  | poll (report : Except Fault (List (Token × Verdict)))
  | expire (now : Instant) (order : List Token)
  | abort (order : List Token)
  | drain
  | watchOn (monitor : Option Nat)
  | close (order : List Token)
  /-- The innermost loop goes on. -/
  | advance (release : Release)
  /-- The innermost foreign code is over. -/
  | leave (panic : Option Panic)
  | enqueue (task : τ)
  /-- A task is taken by whoever may call operations, and not run. -/
  | takeTask
  /-- The system makes a watched socket ready. -/
  | becomeReady (socket : Nat)
  | openChannel
  | addReceiver (channel : Nat)
  | dropReceiver (channel : Nat)
  | receive (channel : Nat)

namespace State

variable {κ τ : Type}

/-- Whether operations can be called: nothing runs, or a task does. -/
def isFree (s : State κ τ) : Bool :=
  match s.frames with
  | [] => true
  | .task _ :: _ => true
  | _ => false

def isForeign (s : State κ τ) : Bool :=
  match s.frames with
  | .task _ :: _ => true
  | .calling _ :: _ => true
  | _ => false

def onChannel (s : State κ τ) (id : Nat) (change : Channel Event → Channel Event) : State κ τ :=
  { s with channels := s.channels.modify id change }

end State

namespace Action

variable {κ τ : Type}

/-- What can happen to a table that was not given up. Giving up is the owner's part alone, and an
attempt comes to an end only if there is a token for it. -/
def Enabled (s : State κ τ) : Action κ τ → Prop
  | .attempt _ _ _ => s.isFree ∧ ¬ s.isClosed ∧ s.hasRoom
  | .poll _ => s.isFree ∧ ¬ s.isClosed
  | .expire _ _ => s.isFree ∧ ¬ s.isClosed
  | .abort _ => s.isFree ∧ ¬ s.isClosed
  | .drain => s.isFree ∧ ¬ s.isClosed
  | .watchOn _ => s.isFree ∧ ¬ s.isClosed
  | .close _ => s.frames.isEmpty ∧ ¬ s.isClosed
  | .advance _ => ¬ s.frames.isEmpty ∧ ¬ s.isForeign
  | .leave _ => s.isForeign
  | .enqueue _ => True
  | .takeTask => s.isFree ∧ ¬ s.isClosed
  | .becomeReady socket => (s.watch.selector.token? socket).isSome
  | .openChannel => True
  | .addReceiver id => (s.channels[id]?.map (·.receivers)).getD 0 ≠ 0
  | .dropReceiver id => (s.channels[id]?.map (·.receivers)).getD 0 ≠ 0
  | .receive id => (s.channels[id]?.map (·.receivers)).getD 0 ≠ 0

instance (s : State κ τ) (a : Action κ τ) : Decidable (a.Enabled s) := by
  cases a <;> unfold Enabled <;> infer_instance

end Action

namespace State

variable {κ τ : Type}

def after (s : State κ τ) : Action κ τ → State κ τ
  | .attempt request reply now => (s.attempt request reply now).2
  | .poll report => (s.poll report).2
  | .expire now order => (s.expire now order).2
  | .abort order => (s.abort order).2
  | .drain => s.drain
  | .watchOn monitor => s.watchOn monitor
  | .close order => s.close order
  | .advance release => s.advance release
  | .leave panic => s.leave panic
  | .enqueue task => (s.enqueue task).toOption.getD s
  | .takeTask => s.takeTask.2
  | .becomeReady socket =>
    { s with watch := { s.watch with selector := s.watch.selector.becomeReady socket } }
  | .openChannel => { s with channels := s.channels ++ [{}] }
  | .addReceiver id => s.onChannel id Channel.addReceiver
  | .dropReceiver id => s.onChannel id Channel.dropReceiver
  | .receive id => s.onChannel id fun c => (c.take?.map (·.2)).getD c

def run (s : State κ τ) (actions : List (Action κ τ)) : State κ τ :=
  actions.foldl after s

/-- Each action of a sequence can happen where it does. -/
def Possible (s : State κ τ) : List (Action κ τ) → Prop
  | [] => True
  | a :: rest => a.Enabled s ∧ (s.after a).Possible rest

instance decidablePossible (s : State κ τ) :
    (actions : List (Action κ τ)) → Decidable (s.Possible actions)
  | [] => .isTrue trivial
  | a :: rest =>
    haveI := decidablePossible (s.after a) rest
    inferInstanceAs (Decidable (a.Enabled s ∧ (s.after a).Possible rest))

/-- A table with nothing in it. -/
def initial (capacity : Nat) (nodelay : Bool) : State κ τ :=
  { watch := .ofCapacity capacity, nodelay := nodelay }

/-- What a table can come to. -/
inductive Reachable : State κ τ → Prop
  | initial (capacity : Nat) (nodelay : Bool) : Reachable (initial capacity nodelay)
  | step {s : State κ τ} {a : Action κ τ} (hs : Reachable s) (ha : a.Enabled s) :
      Reachable (s.after a)

theorem run_append (s : State κ τ) (xs ys : List (Action κ τ)) :
    s.run (xs ++ ys) = (s.run xs).run ys := by
  simp [run]

/-- What a possible sequence of actions leads to can be reached. -/
theorem Reachable.run {s : State κ τ} (hs : Reachable s) {actions : List (Action κ τ)}
    (ha : s.Possible actions) : Reachable (s.run actions) := by
  induction actions generalizing s with
  | nil => exact hs
  | cons a rest ih => exact ih (hs.step ha.1) ha.2

end State

end Dialer.InFlight
