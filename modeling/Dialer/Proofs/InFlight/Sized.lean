import Dialer.Proofs.InFlight.Queue

/-!
# Tables that take more or fewer edges at once

How many edges a table takes at once is fixed when it is made. No operation changes it or looks at
it, only the taking of a report does: of two tables to which the same happens, and that differ in
this alone, the same becomes.
-/

namespace Dialer.InFlight

open Address (SocketAddress)
open Readiness (Token)
open Time (Duration Instant)

namespace State

variable {κ τ : Type}

/-- The same table, but that it takes `c` edges at once. -/
def sized (s : State κ τ) (c : Nat) : State κ τ :=
  { s with watch := { s.watch with capacity := c } }

section Small

variable (s : State κ τ) (c : Nat)

@[simp] theorem sized_entries : (s.sized c).entries = s.entries := rfl
@[simp] theorem sized_frames : (s.sized c).frames = s.frames := rfl
@[simp] theorem sized_monitor : (s.sized c).monitor = s.monitor := rfl
@[simp] theorem sized_channels : (s.sized c).channels = s.channels := rfl
@[simp] theorem sized_nodelay : (s.sized c).nodelay = s.nodelay := rfl
@[simp] theorem sized_tickets : (s.sized c).tickets = s.tickets := rfl
@[simp] theorem sized_sockets : (s.sized c).sockets = s.sockets := rfl
@[simp] theorem sized_watch : (s.sized c).watch = { s.watch with capacity := c } := rfl

theorem initial_sized (capacity : Nat) (nodelay : Bool) :
    (initial capacity nodelay : State κ τ).sized (max c 1) = initial c nodelay := rfl

theorem sized_note (h : Happening κ τ) : (s.note h).sized c = (s.sized c).note h := rfl

theorem sized_push (f : Frame κ τ) : (s.push f).sized c = (s.sized c).push f := rfl

theorem sized_call (call : Call κ) : (s.call call).sized c = (s.sized c).call call := rfl

theorem sized_issue (request : Request κ) :
    (s.issue request).sized c = (s.sized c).issue request := rfl

theorem sized_openSocket (ticket : Nat) :
    (s.openSocket ticket).sized c = (s.sized c).openSocket ticket := rfl

theorem sized_closeSocket (socket : Nat) :
    (s.closeSocket socket).sized c = (s.sized c).closeSocket socket := rfl

theorem sized_publish (event : Event) :
    (s.publish event).sized c = (s.sized c).publish event := by
  simp only [publish, sized_monitor, sized_channels]
  cases s.monitor with
  | none => rfl
  | some id =>
    dsimp only
    cases s.channels[id]?.bind fun c => (c.send event).toOption <;> rfl

theorem sized_fail (ticket : Nat) (k : Continuations κ) (address : Option SocketAddress)
    (failure : Failure) :
    (s.fail ticket k address failure).sized c = (s.sized c).fail ticket k address failure := by
  rw [fail_eq, sized_call, sized_publish, fail_eq]

theorem sized_prepare (address : SocketAddress) (preparation : Option Fault) :
    (s.sized c).prepare address preparation =
      ((s.prepare address preparation).1, (s.prepare address preparation).2.sized c) := by
  unfold prepare
  cases hn : s.nodelay with
  | false => simp [hn]
  | true =>
    cases preparation with
    | none => simp [hn]
    | some fault => simp [hn, sized_note]

theorem sized_handOff (ticket : Nat) (k : Continuations κ) (address : SocketAddress)
    (socket : Nat) (preparation : Option Fault) :
    (s.handOff ticket k address socket preparation).sized c =
      (s.sized c).handOff ticket k address socket preparation := by
  simp only [handOff, sized_prepare, sized_call, sized_publish]

theorem sized_allocate :
    (s.sized c).allocate = (s.allocate.1, s.allocate.2.sized c) := rfl

end Small

theorem Watch.add_sized (w : Readiness.Watch τ) (c socket : Nat) (token : Token) :
    ({ w with capacity := c } : Readiness.Watch τ).add socket token =
      (w.add socket token).map ({ · with capacity := c }) := by
  simp only [Readiness.Watch.add]
  cases w.selector.register socket token <;> rfl

theorem Watch.remove_sized (w : Readiness.Watch τ) (c socket : Nat) (token : Token)
    (refusal : Option Fault) :
    ({ w with capacity := c } : Readiness.Watch τ).remove socket token refusal =
      ((w.remove socket token refusal).1,
        { (w.remove socket token refusal).2 with capacity := c }) := by
  simp only [Readiness.Watch.remove]
  cases w.selector.deregister socket refusal <;> rfl

/-! ### The operations -/

section Operations

variable (s : State κ τ) (c : Nat)

theorem sized_track (ticket : Nat) (k : Continuations κ) (address : SocketAddress)
    (timeout : Duration) (socket : Nat) (registration : Option Fault) (now : Instant) :
    (s.track ticket k address timeout socket registration now).2.sized c =
      ((s.sized c).track ticket k address timeout socket registration now).2 := by
  cases registration with
  | some fault =>
    simp only [track_refused, sized_allocate, sized_fail, sized_closeSocket, sized_note]
  | none =>
    simp only [track, sized_allocate, sized_watch, Watch.add_sized]
    cases s.allocate.2.watch.add socket s.allocate.1 with
    | error fault => simp only [Except.map, sized_fail, sized_closeSocket, sized_note]
    | ok watch => rfl

theorem sized_dial (ticket : Nat) (k : Continuations κ) (address : SocketAddress)
    (timeout : Duration) (reply : Reply) (now : Instant) :
    (s.dial ticket k address timeout reply now).2.sized c =
      ((s.sized c).dial ticket k address timeout reply now).2 := by
  simp only [dial, ← sized_publish]
  generalize s.publish (.attempting address) = s
  cases reply.dialled with
  | unmade fault => simp only [sized_fail, sized_note]
  | rejected fault =>
    simp only [sized_fail, sized_note, sized_closeSocket, sized_openSocket, sized_sockets]
  | established => simp only [sized_handOff, sized_note, sized_openSocket, sized_sockets]
  | inProgress => simp only [sized_track, sized_openSocket, sized_sockets]

theorem sized_attempt (request : Request κ) (reply : Reply) (now : Instant) :
    (s.attempt request reply now).2.sized c = ((s.sized c).attempt request reply now).2 := by
  cases hc : request.continuations? with
  | none => simp only [attempt_incomplete hc, sized_note]
  | some k =>
    cases ht : Target.ofRequest request.address request.port with
    | error error =>
      simp only [attempt_unusable hc ht, sized_fail, sized_note, sized_issue, sized_tickets]
    | ok target => simp only [attempt_usable hc ht, sized_dial, sized_issue, sized_tickets]

theorem sized_untrack (token : Token) (e : Entry κ) (removal : Option Fault) :
    (s.untrack token e removal).sized c = (s.sized c).untrack token e removal := by
  simp only [untrack, sized_watch, Watch.remove_sized]
  cases (s.watch.remove e.socket token removal).1 <;> rfl

theorem sized_resolve (token : Token) (cause : Cause) (release : Release) :
    (s.resolve token cause release).sized c = (s.sized c).resolve token cause release := by
  have he : State.entry? (s.sized c) token = s.entry? token := rfl
  simp only [resolve, he]
  cases s.entry? token with
  | none => rfl
  | some e =>
    cases cause <;>
      simp only [sized_handOff, sized_fail, sized_closeSocket, sized_note, sized_untrack]

theorem sized_foldl {α : Type} (xs : List α) {f : State κ τ → α → State κ τ}
    (hf : ∀ s x, (f s x).sized c = f (s.sized c) x) :
    (xs.foldl f s).sized c = xs.foldl f (s.sized c) := by
  induction xs generalizing s with
  | nil => rfl
  | cons x xs ih => rw [List.foldl_cons, ih, hf, List.foldl_cons]

theorem sized_shut : s.shut.sized c = (s.sized c).shut := by
  have hfold := sized_foldl s c s.entries (f := fun s e => s.closeSocket e.2.socket) fun _ _ => rfl
  simp only [shut, sized_entries, ← hfold]
  rfl

theorem sized_poll (report : Except Fault (List (Token × Verdict))) :
    (s.poll report).2.sized c = ((s.sized c).poll report).2 := by
  cases report with
  | ok report =>
    simp only [poll, sized_push]
    rw [sized_foldl s c _ fun _ _ => rfl]
    rfl
  | error fault =>
    simp only [poll]
    split <;> rfl

theorem sized_abort (order : List Token) :
    (s.abort order).2.sized c = ((s.sized c).abort order).2 := by
  have ht : (s.sized c).tokens = s.tokens := rfl
  simp only [abort, sized_push, ht]
  split <;> rfl

theorem sized_close (order : List Token) :
    (s.close order).sized c = (s.sized c).close order := by
  by_cases hs : s.entries.isEmpty
  · simp only [close, push_entries, sized_entries, hs, ↓reduceIte, sized_push]
  · simp only [close, push_entries, sized_entries, hs, Bool.false_eq_true, ↓reduceIte, sized_push,
      sized_abort]

theorem sized_unwind (panic : Panic) (frames : List (Frame κ τ)) :
    (unwind panic frames s).sized c = unwind panic frames (s.sized c) := by
  induction frames generalizing panic s with
  | nil => rfl
  | cons f rest ih =>
    cases f with
    | settling batch => exact ih s panic
    | draining taken => exact ih s panic
    | closing => exact (ih s.shut panic).trans (by rw [sized_shut]; rfl)
    | task job =>
      cases panic with
      | plain text => rfl
      | volatile text next => exact ih (s.note _) next
    | calling call =>
      cases panic with
      | plain text => rfl
      | volatile text next => exact ih (s.note _) next

theorem sized_leave (panic : Option Panic) :
    (s.leave panic).sized c = (s.sized c).leave panic := by
  cases panic with
  | none => rfl
  | some panic => exact sized_unwind s c panic s.frames

theorem sized_takeTask :
    (s.sized c).takeTask = (s.takeTask.1, s.takeTask.2.sized c) := by
  cases hq : s.queue with
  | nil => rw [takeTask_of_nil hq, takeTask_of_nil (s := s.sized c) hq]
  | cons task tasks =>
    rw [takeTask_eq hq, takeTask_eq (s := s.sized c) hq]
    rfl

theorem sized_advance (release : Release) :
    (s.advance release).sized c = (s.sized c).advance release := by
  unfold advance
  rw [sized_frames]
  split
  · rfl
  · exact sized_resolve _ _ _ _ _
  · rw [sized_takeTask]
    cases s.takeTask with
    | mk task t => cases task <;> rfl
  · rename_i rest _
    exact congrArg ({ · with frames := rest }) (sized_shut s c)
  · rfl

/-- Whatever happens to a table, it takes as many edges at once as before, and what becomes of it is
otherwise the same however many these are. -/
theorem sized_after (a : Action κ τ) : (s.after a).sized c = (s.sized c).after a := by
  cases a with
  | attempt request reply now => exact sized_attempt s c request reply now
  | poll report => exact sized_poll s c report
  | expire now order => rfl
  | abort order => exact sized_abort s c order
  | drain => rfl
  | watchOn monitor => rfl
  | close order => exact sized_close s c order
  | advance release => exact sized_advance s c release
  | leave panic => exact sized_leave s c panic
  | enqueue task =>
    simp only [State.after, enqueue, Readiness.Watch.enqueue, sized_watch]
    cases s.watch.tasks.send task <;> rfl
  | takeTask =>
    simp only [State.after, sized_takeTask]
  | becomeReady socket => rfl
  | openChannel => rfl
  | addReceiver id => rfl
  | dropReceiver id => rfl
  | receive id => rfl

theorem enabled_sized (a : Action κ τ) : a.Enabled (s.sized c) ↔ a.Enabled s := by
  cases a <;> rfl

end Operations

variable {s : State κ τ} {c : Nat} {actions : List (Action κ τ)}

theorem sized_run (s : State κ τ) (c : Nat) (actions : List (Action κ τ)) :
    (s.run actions).sized c = (s.sized c).run actions := by
  induction actions generalizing s with
  | nil => rfl
  | cons a actions ih => exact (ih (s.after a)).trans (congrArg (run · actions) (sized_after s c a))

theorem possible_sized : (s.sized c).Possible actions ↔ s.Possible actions := by
  induction actions generalizing s with
  | nil => rfl
  | cons a actions ih =>
    rw [Possible, Possible, enabled_sized, ← sized_after, ih]

theorem after_capacity (s : State κ τ) (a : Action κ τ) :
    (s.after a).watch.capacity = s.watch.capacity :=
  congrArg (·.watch.capacity) (sized_after s s.watch.capacity a).symm

theorem run_capacity (s : State κ τ) (actions : List (Action κ τ)) :
    (s.run actions).watch.capacity = s.watch.capacity :=
  congrArg (·.watch.capacity) (sized_run s s.watch.capacity actions).symm

/-- Of tables to which the same happens the same becomes, however many edges they take at once. -/
theorem run_initial_sized (capacity c : Nat) (nodelay : Bool) (actions : List (Action κ τ)) :
    (initial c nodelay).run actions = ((initial capacity nodelay).run actions).sized (max c 1) := by
  rw [sized_run, initial_sized]

end State

end Dialer.InFlight
