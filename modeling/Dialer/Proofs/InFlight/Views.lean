import Dialer.InFlight.Step
import Mathlib.Data.List.Basic

/-!
# What the small steps of a table leave alone

Calls, issued requests and opened sockets are read off the history. The simp lemmas say what the
steps from which the operations are put together do to these views and to the fields of a table;
anything that is not said stays as it was.
-/

namespace Dialer.InFlight

open Address (SocketAddress)
open Readiness (Token)

variable {κ τ : Type}

namespace Happening

@[simp] def call? : Happening κ τ → Option (Call κ)
  | .called call => some call
  | _ => none

@[simp] def issue? : Happening κ τ → Option (Nat × Request κ)
  | .issued ticket request => some (ticket, request)
  | _ => none

@[simp] def opening? : Happening κ τ → Option (Nat × Nat)
  | .opened ticket socket => some (ticket, socket)
  | _ => none

@[simp] def refusal? : Happening κ τ → Option Token
  | .unwatched token _ => some token
  | _ => none

end Happening

namespace State

variable {s : State κ τ}

/-- The calls that were made, the latest first. -/
@[simp] def calls (s : State κ τ) : List (Call κ) := s.history.filterMap Happening.call?

/-- The requests that were issued, each with its ticket. -/
@[simp] def issues (s : State κ τ) : List (Nat × Request κ) := s.history.filterMap Happening.issue?

/-- The tickets that sockets were opened for, each with its socket. -/
@[simp] def openings (s : State κ τ) : List (Nat × Nat) := s.history.filterMap Happening.opening?

/-- The tokens under which the system refused to give up its interest in a socket. -/
@[simp] def refusals (s : State κ τ) : List Token := s.history.filterMap Happening.refusal?

theorem refusals_note (s : State κ τ) (h : Happening κ τ) :
    s.refusals.Sublist (s.note h).refusals :=
  (List.sublist_cons_self h s.history).filterMap _

section Note

variable (h : Happening κ τ)

@[simp] theorem note_history : (s.note h).history = h :: s.history := rfl
@[simp] theorem note_watch : (s.note h).watch = s.watch := rfl
@[simp] theorem note_entries : (s.note h).entries = s.entries := rfl
@[simp] theorem note_next : (s.note h).next = s.next := rfl
@[simp] theorem note_sockets : (s.note h).sockets = s.sockets := rfl
@[simp] theorem note_tickets : (s.note h).tickets = s.tickets := rfl
@[simp] theorem note_frames : (s.note h).frames = s.frames := rfl

end Note

section Push

variable (frame : Frame κ τ)

@[simp] theorem push_history : (s.push frame).history = s.history := rfl
@[simp] theorem push_watch : (s.push frame).watch = s.watch := rfl
@[simp] theorem push_entries : (s.push frame).entries = s.entries := rfl
@[simp] theorem push_next : (s.push frame).next = s.next := rfl
@[simp] theorem push_sockets : (s.push frame).sockets = s.sockets := rfl
@[simp] theorem push_tickets : (s.push frame).tickets = s.tickets := rfl
@[simp] theorem push_frames : (s.push frame).frames = frame :: s.frames := rfl

end Push

section Publish

variable (event : Event)

theorem publish_cases (s : State κ τ) (event : Event) :
    s.publish event = s ∨
      (∃ id channel, s.publish event =
        { s with channels := s.channels.set id channel }.note (.published id event)) ∨
      s.publish event = { s with monitor := none }.note .detached := by
  unfold publish
  split
  · exact .inl rfl
  · split
    · exact .inr (.inl ⟨_, _, rfl⟩)
    · exact .inr (.inr rfl)

@[simp] theorem publish_watch : (s.publish event).watch = s.watch := by
  rcases publish_cases s event with h | ⟨_, _, h⟩ | h <;> simp [h]

@[simp] theorem publish_entries : (s.publish event).entries = s.entries := by
  rcases publish_cases s event with h | ⟨_, _, h⟩ | h <;> simp [h]

@[simp] theorem publish_next : (s.publish event).next = s.next := by
  rcases publish_cases s event with h | ⟨_, _, h⟩ | h <;> simp [h]

@[simp] theorem publish_sockets : (s.publish event).sockets = s.sockets := by
  rcases publish_cases s event with h | ⟨_, _, h⟩ | h <;> simp [h]

@[simp] theorem publish_tickets : (s.publish event).tickets = s.tickets := by
  rcases publish_cases s event with h | ⟨_, _, h⟩ | h <;> simp [h]

@[simp] theorem publish_frames : (s.publish event).frames = s.frames := by
  rcases publish_cases s event with h | ⟨_, _, h⟩ | h <;> simp [h]

@[simp] theorem publish_calls :
    (s.publish event).history.filterMap Happening.call? = s.history.filterMap Happening.call? := by
  rcases publish_cases s event with h | ⟨_, _, h⟩ | h <;> simp [h, List.filterMap_cons]

@[simp] theorem publish_issues :
    (s.publish event).history.filterMap Happening.issue? =
      s.history.filterMap Happening.issue? := by
  rcases publish_cases s event with h | ⟨_, _, h⟩ | h <;> simp [h, List.filterMap_cons]

@[simp] theorem publish_openings :
    (s.publish event).history.filterMap Happening.opening? =
      s.history.filterMap Happening.opening? := by
  rcases publish_cases s event with h | ⟨_, _, h⟩ | h <;> simp [h, List.filterMap_cons]

@[simp] theorem publish_refusals :
    (s.publish event).history.filterMap Happening.refusal? =
      s.history.filterMap Happening.refusal? := by
  rcases publish_cases s event with h | ⟨_, _, h⟩ | h <;> simp [h, List.filterMap_cons]

end Publish

section Socket

variable (ticket socket : Nat)

@[simp] theorem openSocket_history :
    (s.openSocket ticket).history = .opened ticket s.sockets :: s.history := rfl
@[simp] theorem openSocket_watch : (s.openSocket ticket).watch = s.watch := rfl
@[simp] theorem openSocket_entries : (s.openSocket ticket).entries = s.entries := rfl
@[simp] theorem openSocket_next : (s.openSocket ticket).next = s.next := rfl
@[simp] theorem openSocket_sockets : (s.openSocket ticket).sockets = s.sockets + 1 := rfl
@[simp] theorem openSocket_tickets : (s.openSocket ticket).tickets = s.tickets := rfl
@[simp] theorem openSocket_frames : (s.openSocket ticket).frames = s.frames := rfl

@[simp] theorem closeSocket_history :
    (s.closeSocket socket).history = .closed socket :: s.history := rfl
@[simp] theorem closeSocket_watch : (s.closeSocket socket).watch =
    { s.watch with selector := s.watch.selector.forget socket } := rfl
@[simp] theorem closeSocket_entries : (s.closeSocket socket).entries = s.entries := rfl
@[simp] theorem closeSocket_next : (s.closeSocket socket).next = s.next := rfl
@[simp] theorem closeSocket_sockets : (s.closeSocket socket).sockets = s.sockets := rfl
@[simp] theorem closeSocket_tickets : (s.closeSocket socket).tickets = s.tickets := rfl
@[simp] theorem closeSocket_frames : (s.closeSocket socket).frames = s.frames := rfl

end Socket

section Call

variable (call : Call κ)

@[simp] theorem call_history : (s.call call).history = .called call :: s.history := rfl
@[simp] theorem call_watch : (s.call call).watch = s.watch := rfl
@[simp] theorem call_entries : (s.call call).entries = s.entries := rfl
@[simp] theorem call_next : (s.call call).next = s.next := rfl
@[simp] theorem call_sockets : (s.call call).sockets = s.sockets := rfl
@[simp] theorem call_tickets : (s.call call).tickets = s.tickets := rfl
@[simp] theorem call_frames : (s.call call).frames = .calling call :: s.frames := rfl

end Call

/-- The call in which a failure of a request ends. -/
abbrev failureCall (ticket : Nat) (continuations : Continuations κ) (failure : Failure) : Call κ :=
  ⟨ticket, continuations.select (.error failure : Outcome), .error failure⟩

/-- The call that hands a connected socket over. -/
abbrev successCall (ticket : Nat) (continuations : Continuations κ) (handed : Handed) : Call κ :=
  ⟨ticket, continuations.select (.ok handed : Outcome), .ok handed⟩

theorem fail_eq (ticket : Nat) (continuations : Continuations κ) (address : Option SocketAddress)
    (failure : Failure) :
    s.fail ticket continuations address failure =
      (s.publish (.failed address failure.kind)).call
        (failureCall ticket continuations failure) := rfl

theorem handOff_eq (ticket : Nat) (continuations : Continuations κ) (address : SocketAddress)
    (socket : Nat) (preparation : Option Fault) :
    ∃ (nodelay : Bool) (t : State κ τ), (t = s ∨ ∃ fault, t = s.note (.unprepared address fault)) ∧
      s.handOff ticket continuations address socket preparation =
        (t.publish (.connected address)).call
          (successCall ticket continuations ⟨socket, nodelay⟩) := by
  cases hn : s.nodelay with
  | false => exact ⟨_, s, .inl rfl, by simp only [handOff, prepare, hn]; rfl⟩
  | true =>
    cases preparation with
    | none => exact ⟨_, s, .inl rfl, by simp only [handOff, prepare, hn]; rfl⟩
    | some fault => exact ⟨_, _, .inr ⟨fault, rfl⟩, by simp only [handOff, prepare, hn]; rfl⟩

end State

end Dialer.InFlight
