import Dialer.Channel
import Dialer.Fault
import Dialer.Text.Record

/-!
# Readiness

The system keeps, for every socket somebody is interested in, the token to report it under, and the
edges that were not reported yet in the order they came. An edge is a socket that became ready or
the call to look at the task queue; each is reported once, and one call to report takes only so
many. On its side the program keeps the set of tokens it wants to hear of, and passes over reports
under any other token.
-/

namespace Dialer.Readiness

abbrev Token := UInt64

/-- The largest token: the one that the task queue is reported under. -/
def wakeToken : Token := 0xffffffffffffffff

inductive Edge where
  | wake
  | socket (serial : Nat)
  deriving DecidableEq

/-- The system's side: who is interested in what, and what is still to be reported. -/
structure Selector where
  interests : List (Nat × Token) := []
  ready : List Edge := []

namespace Selector

def token? (s : Selector) (serial : Nat) : Option Token :=
  s.interests.lookup serial

/-- Takes up an interest in a socket; there is at most one for each. -/
def register (s : Selector) (serial : Nat) (token : Token) : Except Fault Selector :=
  if (s.token? serial).isSome then .error .alreadyRegistered
  else .ok { s with interests := s.interests ++ [(serial, token)] }

def forget (s : Selector) (serial : Nat) : Selector :=
  { interests := s.interests.filter (·.1 ≠ serial), ready := s.ready.filter (· ≠ .socket serial) }

/-- Gives up the interest in a socket. If the system refuses, it keeps the interest. -/
def deregister (s : Selector) (serial : Nat) (refusal : Option Fault) : Except Fault Selector :=
  match refusal with
  | some fault => .error fault
  | none => if (s.token? serial).isSome then .ok (s.forget serial) else .error .notRegistered

/-- An edge comes; one that is still to be reported is not repeated. -/
def raise (s : Selector) (edge : Edge) : Selector :=
  if edge ∈ s.ready then s else { s with ready := s.ready ++ [edge] }

/-- A socket becomes ready, of which only those interested hear. -/
def becomeReady (s : Selector) (serial : Nat) : Selector :=
  if (s.token? serial).isSome then s.raise (.socket serial) else s

/-- Forgets the call to look at the task queue, if it is still to be reported. -/
def forgetWake (s : Selector) : Selector :=
  { s with ready := s.ready.filter (· ≠ .wake) }

def tokenOf? (s : Selector) : Edge → Option Token
  | .wake => some wakeToken
  | .socket serial => s.token? serial

def report (s : Selector) (n : Nat) : List Token × Selector :=
  ((s.ready.take n).filterMap s.tokenOf?, { s with ready := s.ready.drop n })

end Selector

/-- The program's side: the tokens it wants to hear of, how many edges it takes at once, and the
tasks that other threads leave for it. -/
structure Watch (τ : Type) where
  selector : Selector := {}
  registered : List Token := []
  capacity : Nat := 1
  tasks : Channel τ := {}

namespace Watch

variable {τ : Type}

/-- A watch that takes at most `n` edges at once, and at least one. -/
def ofCapacity (n : Nat) : Watch τ := { capacity := max n 1 }

/-- Starts to wait for a socket. If the system refuses nothing changes. -/
def add (w : Watch τ) (serial : Nat) (token : Token) : Except Fault (Watch τ) := do
  let selector ← w.selector.register serial token
  return { w with
    selector := selector
    registered := if token ∈ w.registered then w.registered else w.registered ++ [token] }

/-- Stops waiting for a socket. The token is given up even if the system refuses. -/
def remove (w : Watch τ) (serial : Nat) (token : Token) (refusal : Option Fault) :
    Option Fault × Watch τ :=
  let w := { w with registered := w.registered.filter (· ≠ token) }
  match w.selector.deregister serial refusal with
  | .ok selector => (none, { w with selector := selector })
  | .error fault => (some fault, w)

def heard (w : Watch τ) (tokens : List Token) : List Token :=
  tokens.filter fun token => token ≠ wakeToken ∧ token ∈ w.registered

def report (w : Watch τ) : List Token × Watch τ :=
  let (tokens, selector) := w.selector.report w.capacity
  (tokens, { w with selector := selector })

/-- Leaves a task and calls to look at the queue, or gives the task back when nobody takes tasks. -/
def enqueue (w : Watch τ) (task : τ) : Except τ (Watch τ) :=
  (w.tasks.send task).map fun tasks =>
    { w with tasks := tasks, selector := w.selector.raise .wake }

/-- Nobody can leave tasks any more: with the last who could, the call to look at the queue goes,
though not what is queued. -/
def abandon (w : Watch τ) : Watch τ :=
  { w with selector := w.selector.forgetWake }

def nextTask? (w : Watch τ) : Option (τ × Watch τ) :=
  w.tasks.take?.map fun (task, tasks) => (task, { w with tasks := tasks })

/-- No more tasks are taken and nobody is interested in any socket. -/
def close (w : Watch τ) : Watch τ :=
  { w with selector := {}, registered := [], tasks := w.tasks.dropReceiver }

/-- The watch as a value: two counts. -/
def shown (w : Watch τ) : Text.Shown :=
  .record "Poller" [
    ("registered", .atom (Text.decimal w.registered.length)),
    ("queued_tasks", .atom (Text.decimal w.tasks.queue.length))]

/-- The queue of tasks as a value: its length. -/
def shownQueue (w : Watch τ) : Text.Shown :=
  .record "TaskQueue" [("queued", .atom (Text.decimal w.tasks.queue.length))]

end Watch

end Dialer.Readiness
