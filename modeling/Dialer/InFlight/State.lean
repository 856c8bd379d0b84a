import Dialer.InFlight.History
import Dialer.Panic
import Dialer.Socket
import Dialer.Time.Instant

/-!
# The table of attempts in flight

The table owns every attempt that has not resolved, under a token of its own, and the watch that
waits for their sockets. What it is doing is a stack of frames: foreign code (a task or a
continuation) is one frame, and below it stand the loops that called it. Channels for events are
numbered; at most one of them is published on.
-/

namespace Dialer.InFlight

open Address (SocketAddress)
open Readiness (Token Watch wakeToken)
open Time (Duration Instant)

/-- An attempt waiting for its handshake. -/
structure Entry (κ : Type) where
  ticket : Nat
  socket : Nat
  address : SocketAddress
  started : Instant
  timeout : Duration
  continuations : Continuations κ

/-- Why an attempt resolves. -/
inductive Cause where
  | established
  | broken (fault : Fault)
  | timedOut
  | aborted
  deriving DecidableEq

/-- What a look at a socket is a cause for. -/
def Cause.ofVerdict? : Verdict → Option Cause
  | .connected => some .established
  | .pending => none
  | .failed fault => some (.broken fault)

/-- Something the table is in the middle of. -/
inductive Frame (κ τ : Type) where
  /-- Attempts are resolved one after the other; these are left. -/
  | settling (rest : List (Token × Cause))
  /-- Queued tasks are run until none is left; so many were taken. -/
  | draining (taken : Nat)
  | task (task : τ)
  | calling (call : Call κ)
  /-- The table is given up once the frames above are done. -/
  | closing

/-- A table of attempts over continuations `κ` and tasks `τ`. -/
structure State (κ τ : Type) where
  watch : Watch τ
  entries : List (Token × Entry κ) := []
  /-- Where the search for a free token starts. -/
  next : Token := 0
  nodelay : Bool := false
  /-- The channel that events are published on. -/
  monitor : Option Nat := none
  channels : List (Channel Event) := []
  /-- The number of sockets opened so far. -/
  sockets : Nat := 0
  /-- The number of requests issued so far. -/
  tickets : Nat := 0
  /-- The innermost frame comes first. -/
  frames : List (Frame κ τ) := []
  /-- The latest comes first. -/
  history : List (Happening κ τ) := []

namespace State

variable {κ τ : Type}

def note (s : State κ τ) (h : Happening κ τ) : State κ τ :=
  { s with history := h :: s.history }

def push (s : State κ τ) (frame : Frame κ τ) : State κ τ :=
  { s with frames := frame :: s.frames }

def entry? (s : State κ τ) (token : Token) : Option (Entry κ) :=
  s.entries.lookup token

def isPending (s : State κ τ) (token : Token) : Bool := (s.entry? token).isSome

def tokens (s : State κ τ) : List Token := s.entries.map (·.1)

def isMonitored (s : State κ τ) : Bool := s.monitor.isSome

/-- Whether the table was given up. -/
def isClosed (s : State κ τ) : Bool := s.watch.tasks.receivers == 0

/-- Publishes an event on the channel, and lets go of a channel without receivers. -/
def publish (s : State κ τ) (event : Event) : State κ τ :=
  match s.monitor with
  | none => s
  | some id =>
    match s.channels[id]?.bind fun c => (c.send event).toOption with
    | some channel =>
      { s with channels := s.channels.set id channel }.note (.published id event)
    | none => { s with monitor := none }.note .detached

/-- The system makes the next socket. -/
def openSocket (s : State κ τ) (ticket : Nat) : State κ τ :=
  { s with sockets := s.sockets + 1 }.note (.opened ticket s.sockets)

/-- Closes a socket, of which the system then forgets everything. -/
def closeSocket (s : State κ τ) (socket : Nat) : State κ τ :=
  { s with watch := { s.watch with selector := s.watch.selector.forget socket } }.note
    (.closed socket)

def call (s : State κ τ) (call : Call κ) : State κ τ :=
  (s.push (.calling call)).note (.called call)

def fail (s : State κ τ) (ticket : Nat) (continuations : Continuations κ)
    (address : Option SocketAddress) (failure : Failure) : State κ τ :=
  (s.publish (.failed address failure.kind)).call
    ⟨ticket, continuations.select (.error failure : Outcome), .error failure⟩

/-- Sets up a connected socket for its new owner; `preparation` is the system's answer. -/
def prepare (s : State κ τ) (address : SocketAddress) (preparation : Option Fault) :
    Bool × State κ τ :=
  if s.nodelay then
    match preparation with
    | none => (true, s)
    | some fault => (false, s.note (.unprepared address fault))
  else (false, s)

def handOff (s : State κ τ) (ticket : Nat) (continuations : Continuations κ)
    (address : SocketAddress) (socket : Nat) (preparation : Option Fault) : State κ τ :=
  let (nodelay, s) := s.prepare address preparation
  let outcome : Outcome := .ok ⟨socket, nodelay⟩
  (s.publish (.connected address)).call ⟨ticket, continuations.select outcome, outcome⟩

/-- The token that the search tries after this one. -/
def following (token : Token) : Token := (token + 1) % wakeToken

/-- The first token in a circle from `token` on that is not used, within `bound` steps. -/
def freeToken (used : Token → Bool) : Nat → Token → Token
  | 0, token => token
  | bound + 1, token =>
    if used token then freeToken used bound (following token) else token

/-- Whether there is a token for one more attempt. Without one the search would never end. -/
def hasRoom (s : State κ τ) : Bool := s.entries.length < wakeToken.toNat

/-- A token for one more attempt. As many tokens are used as there are attempts, so one more than
that need be tried. -/
def allocate (s : State κ τ) : Token × State κ τ :=
  let token := freeToken s.isPending s.entries.length s.next
  (token, { s with next := following token })

/-- Gives up an attempt's place in the table and the wait for its socket. -/
def untrack (s : State κ τ) (token : Token) (entry : Entry κ) (removal : Option Fault) :
    State κ τ :=
  let (fault, watch) := s.watch.remove entry.socket token removal
  let s := { s with entries := s.entries.filter (·.1 ≠ token), watch := watch }
  match fault with
  | none => s
  | some fault => s.note (.unwatched token fault)

/-- Gives up whatever the table still owns. -/
def shut (s : State κ τ) : State κ τ :=
  let s := s.entries.foldl (fun s e => s.closeSocket e.2.socket) s
  { s with entries := [], watch := s.watch.close, monitor := none }

/-- A panic unwinds the frames up to the first that holds foreign code. There it is contained and
put down in the log; if getting rid of it throws again, that panic goes on from there. -/
def unwind (panic : Panic) : List (Frame κ τ) → State κ τ → State κ τ
  | [], s => { s with frames := [] }.note (.escaped panic.message)
  | .settling _ :: rest, s => unwind panic rest s
  | .draining _ :: rest, s => unwind panic rest s
  | .closing :: rest, s => unwind panic rest s.shut
  | .task _ :: rest, s =>
    let s := s.note (.panicked "task" panic.message)
    match panic.next? with
    | none => { s with frames := rest }
    | some next => unwind next rest s
  | .calling call :: rest, s =>
    let s := s.note (.panicked call.site panic.message)
    match panic.next? with
    | none => { s with frames := rest }
    | some next => unwind next rest s

end State

end Dialer.InFlight
