import Dialer.Service.Calls

/-!
# Steps of the service

A run of the service is a sequence of steps of its threads in any order: a thread makes a call, its
call goes on, the worker goes on, foreign code on the worker ends. Receivers of events come and go
at any time. `Enabled` says which steps can happen in a state.
-/

namespace Dialer.Service

inductive Label (κ : Type) where
  | begin (thread : Thread) (call : Call κ)
  | proceed (thread : Thread) (grant : Grant)
  /-- The worker's own thread gives up waiting for the lock. -/
  | giveUp
  | work (answers : Answers)
  | leave (panic : Option Panic)
  | becomeReady (socket : Nat)
  | addReceiver (channel : Nat)
  | dropReceiver (channel : Nat)
  | receive (channel : Nat)

namespace State

variable {κ : Type}

/-- Whether a thread can make a call: it is in no other, and on the worker foreign code runs. -/
def canCall (s : State κ) (thread : Thread) : Bool :=
  (s.point? thread).isNone && (thread != .worker || s.isForeign)

/-- What a thread or the system can do while the process lives. A call needs a handle on the
service, so the last one does not go while a call is under way. -/
def Allows (s : State κ) : Label κ → Prop
  | .begin thread call => s.canCall thread ∧ s.handles ≠ 0 ∧
      match call with
      | .release => s.handles = 1 → s.calls = []
      | _ => True
  | .proceed thread _ => s.canProceed thread
  | .giveUp => s.canGiveUp
  | .work _ => s.canWork
  | .leave _ => s.isForeign ∧ (s.point? .worker).isNone
  | .becomeReady socket => (InFlight.Action.becomeReady socket).Enabled s.table
  | .addReceiver channel => (InFlight.Action.addReceiver channel).Enabled s.table
  | .dropReceiver channel => (InFlight.Action.dropReceiver channel).Enabled s.table
  | .receive channel => (InFlight.Action.receive channel).Enabled s.table

def Enabled (s : State κ) (l : Label κ) : Prop := ¬ s.isDead ∧ s.Allows l

instance (s : State κ) (l : Label κ) : Decidable (s.Allows l) := by
  cases l with
  | begin thread call => cases call <;> unfold Allows <;> infer_instance
  | _ => unfold Allows; infer_instance

instance (s : State κ) (l : Label κ) : Decidable (s.Enabled l) :=
  inferInstanceAs (Decidable (_ ∧ _))

def after (s : State κ) : Label κ → State κ
  | .begin thread call => s.begin thread call
  | .proceed thread grant => s.proceed thread grant
  | .giveUp => s.giveUp
  | .work answers => s.onDuty (·.work answers)
  | .leave panic => s.onDuty (·.leave panic)
  | .becomeReady socket => { s with table := s.table.after (.becomeReady socket) }
  | .addReceiver channel => { s with table := s.table.after (.addReceiver channel) }
  | .dropReceiver channel => { s with table := s.table.after (.dropReceiver channel) }
  | .receive channel => { s with table := s.table.after (.receive channel) }

/-- What a service can come to. -/
inductive Reachable : State κ → Prop
  | initial (settings : Settings) : Reachable (initial settings)
  | step {s : State κ} {l : Label κ} (hs : Reachable s) (hl : s.Enabled l) :
      Reachable (s.after l)

def run (s : State κ) (labels : List (Label κ)) : State κ := labels.foldl after s

/-- Each step of a sequence can happen where it does. -/
def Possible (s : State κ) : List (Label κ) → Prop
  | [] => True
  | l :: rest => s.Enabled l ∧ (s.after l).Possible rest

instance decidablePossible (s : State κ) :
    (labels : List (Label κ)) → Decidable (s.Possible labels)
  | [] => .isTrue trivial
  | l :: rest =>
    haveI := decidablePossible (s.after l) rest
    inferInstanceAs (Decidable (s.Enabled l ∧ (s.after l).Possible rest))

theorem Reachable.run {s : State κ} (hs : Reachable s) {labels : List (Label κ)}
    (hl : s.Possible labels) : Reachable (s.run labels) := by
  induction labels generalizing s with
  | nil => exact hs
  | cons l rest ih => exact ih (hs.step hl.1) hl.2

end State

end Dialer.Service
