import Dialer.Proofs.InFlight.Listener
import Dialer.Proofs.InFlight.Queue

/-!
# A table without its listeners

What is left of a table when everything that concerns listeners is left out: the channels and the
one that is published on, and the tasks that only attach a channel, in the queue and in the
history. No operation looks at any of that: what is left after it is what the operation does to what
was left before.
-/

namespace Dialer

open Address (SocketAddress)
open Readiness (Token)
open Time (Duration Instant)

/-- A watch without the tasks that only attach a channel. What became ready and was not reported yet
is left out too: it is for the system to say what it reports. -/
def Readiness.Watch.hushed {τ : Type} (attaches : τ → Bool) (w : Readiness.Watch τ) :
    Readiness.Watch τ :=
  { w with
    selector := { w.selector with ready := [] }
    tasks := { w.tasks with queue := w.tasks.queue.filter (!attaches ·) } }

namespace InFlight

variable {κ τ : Type} (attaches : τ → Bool)

/-- Whether a frame is a task that only attaches a channel. -/
def Frame.isAttaching : Frame κ τ → Bool
  | .task job => attaches job
  | _ => false

/-- A frame, whatever the number of tasks that were taken. -/
def Frame.uncounted : Frame κ τ → Frame κ τ
  | .draining _ => .draining 0
  | f => f

/-- Whether something that happened is not for listeners alone. How many tasks were taken is left
out with the tasks. -/
@[simp] def Happening.isOther : Happening κ τ → Bool
  | .published _ _ => false
  | .detached => false
  | .drained _ => false
  | .accepted task => !attaches task
  | .taken task => !attaches task
  | .started task => !attaches task
  | _ => true

namespace State

def hushed (s : State κ τ) : State κ τ :=
  { s with
    watch := s.watch.hushed attaches
    monitor := none
    channels := []
    frames := s.frames.map Frame.uncounted
    history := s.history.filter (Happening.isOther attaches) }

section Small

variable (s : State κ τ)

@[simp] theorem hushed_entries : (s.hushed attaches).entries = s.entries := rfl
@[simp] theorem hushed_next : (s.hushed attaches).next = s.next := rfl
@[simp] theorem hushed_sockets : (s.hushed attaches).sockets = s.sockets := rfl
@[simp] theorem hushed_tickets : (s.hushed attaches).tickets = s.tickets := rfl
@[simp] theorem hushed_watch : (s.hushed attaches).watch = s.watch.hushed attaches := rfl
@[simp] theorem hushed_frames :
    (s.hushed attaches).frames = s.frames.map Frame.uncounted := rfl

@[simp] theorem hushed_note (h : Happening κ τ) :
    (s.note h).hushed attaches =
      if h.isOther attaches then (s.hushed attaches).note h else s.hushed attaches := by
  cases ho : h.isOther attaches <;> simp [hushed, note, ho, -Happening.isOther]

@[simp] theorem hushed_publish (event : Event) :
    (s.publish event).hushed attaches = s.hushed attaches := by
  rcases publish_cases s event with h | ⟨_, _, h⟩ | h <;> rw [h]
  · exact hushed_note attaches { s with channels := _ } _
  · exact hushed_note attaches { s with monitor := none } _

@[simp] theorem publish_hushed (event : Event) :
    (s.hushed attaches).publish event = s.hushed attaches := rfl

@[simp] theorem publish_hushed_note (h : Happening κ τ) (event : Event) :
    ((s.hushed attaches).note h).publish event = (s.hushed attaches).note h := rfl

@[simp] theorem hushed_push (f : Frame κ τ) :
    (s.push f).hushed attaches = (s.hushed attaches).push f.uncounted := rfl

@[simp] theorem hushed_call (call : Call κ) :
    (s.call call).hushed attaches = (s.hushed attaches).call call := rfl

@[simp] theorem hushed_issue (request : Request κ) :
    (s.issue request).hushed attaches = (s.hushed attaches).issue request := rfl

@[simp] theorem hushed_openSocket (ticket : Nat) :
    (s.openSocket ticket).hushed attaches = (s.hushed attaches).openSocket ticket := rfl

@[simp] theorem hushed_closeSocket (socket : Nat) :
    (s.closeSocket socket).hushed attaches = (s.hushed attaches).closeSocket socket := rfl

theorem hushed_allocate :
    (s.hushed attaches).allocate = (s.allocate.1, s.allocate.2.hushed attaches) := rfl

@[simp] theorem hushed_fail (ticket : Nat) (c : Continuations κ) (address : Option SocketAddress)
    (failure : Failure) :
    (s.fail ticket c address failure).hushed attaches =
      (s.hushed attaches).fail ticket c address failure := by
  simp [fail_eq]

@[simp] theorem hushed_handOff (ticket : Nat) (c : Continuations κ) (address : SocketAddress)
    (socket : Nat) (preparation : Option Fault) :
    (s.handOff ticket c address socket preparation).hushed attaches =
      (s.hushed attaches).handOff ticket c address socket preparation := by
  have hn : (s.hushed attaches).nodelay = s.nodelay := rfl
  simp only [handOff, prepare, hn]
  cases s.nodelay with
  | false => simp
  | true => cases preparation <;> simp

end Small

theorem Watch.add_hushed (w : Readiness.Watch τ) (socket : Nat) (token : Token) :
    (w.hushed attaches).add socket token = (w.add socket token).map (·.hushed attaches) := by
  have ht : (w.hushed attaches).selector.token? socket = w.selector.token? socket := rfl
  simp only [Readiness.Watch.add, Readiness.Selector.register, ht]
  cases (w.selector.token? socket).isSome <;> rfl

theorem Watch.remove_hushed (w : Readiness.Watch τ) (socket : Nat) (token : Token)
    (refusal : Option Fault) :
    (w.hushed attaches).remove socket token refusal =
      ((w.remove socket token refusal).1, (w.remove socket token refusal).2.hushed attaches) := by
  have ht : (w.hushed attaches).selector.token? socket = w.selector.token? socket := rfl
  simp only [Readiness.Watch.remove, Readiness.Selector.deregister, ht]
  cases refusal with
  | some fault => rfl
  | none => cases (w.selector.token? socket).isSome <;> rfl

/-! ### The operations -/

section Operations

variable (s : State κ τ)

section Attempt

variable (ticket : Nat) (c : Continuations κ) (address : SocketAddress) (timeout : Duration)
  (socket : Nat) (registration : Option Fault) (reply : Reply) (now : Instant)

theorem hushed_track :
    (s.hushed attaches).track ticket c address timeout socket registration now =
      ((s.track ticket c address timeout socket registration now).1,
        (s.track ticket c address timeout socket registration now).2.hushed attaches) := by
  cases registration with
  | some fault => simp [track_refused, hushed_allocate]
  | none =>
    simp only [track, hushed_allocate, hushed_watch, Watch.add_hushed]
    cases s.allocate.2.watch.add socket s.allocate.1 with
    | error fault => simp [Except.map]
    | ok watch => rfl

theorem hushed_dial :
    (s.hushed attaches).dial ticket c address timeout reply now =
      ((s.dial ticket c address timeout reply now).1,
        (s.dial ticket c address timeout reply now).2.hushed attaches) := by
  simp only [dial, publish_hushed]
  rw [← hushed_publish attaches s (.attempting address)]
  generalize s.publish (.attempting address) = s
  cases reply.dialled with
  | unmade fault => simp
  | rejected fault => simp
  | established => simp
  | inProgress =>
    simp only [← hushed_openSocket]
    exact hushed_track attaches _ _ _ _ _ _ _ _

theorem hushed_attempt (request : Request κ) :
    (s.hushed attaches).attempt request reply now =
      ((s.attempt request reply now).1, (s.attempt request reply now).2.hushed attaches) := by
  cases hc : request.continuations? with
  | none => simp [attempt_incomplete hc]
  | some c =>
    cases ht : Target.ofRequest request.address request.port with
    | error error => simp [attempt_unusable hc ht]
    | ok target =>
      simp only [attempt_usable hc ht, hushed_tickets, ← hushed_issue]
      exact hushed_dial attaches _ _ _ _ _ _ _

end Attempt

@[simp] theorem hushed_untrack (token : Token) (e : Entry κ) (removal : Option Fault) :
    (s.untrack token e removal).hushed attaches =
      (s.hushed attaches).untrack token e removal := by
  simp only [untrack, hushed_watch, Watch.remove_hushed]
  cases (s.watch.remove e.socket token removal).1 with
  | none => rfl
  | some fault => exact hushed_note attaches _ (.unwatched token fault)

@[simp] theorem hushed_resolve (token : Token) (cause : Cause) (release : Release) :
    (s.resolve token cause release).hushed attaches =
      (s.hushed attaches).resolve token cause release := by
  have he : State.entry? (s.hushed attaches) token = s.entry? token := rfl
  simp only [resolve, he]
  cases s.entry? token with
  | none => rfl
  | some e => cases cause <;> simp

@[simp] theorem hushed_shut : s.shut.hushed attaches = (s.hushed attaches).shut := by
  have hfold : ∀ (entries : List (Token × Entry κ)) (t : State κ τ),
      (entries.foldl (fun s e => s.closeSocket e.2.socket) t).hushed attaches =
        entries.foldl (fun s e => s.closeSocket e.2.socket) (t.hushed attaches) := by
    intro entries
    induction entries with
    | nil => exact fun _ => rfl
    | cons e entries ih => exact fun t => ih (t.closeSocket e.2.socket)
  simp only [shut, hushed_entries, ← hfold]
  rfl

theorem hushed_poll (report : Except Fault (List (Token × Verdict))) :
    (s.poll report).2.hushed attaches = ((s.hushed attaches).poll report).2 := by
  cases report with
  | ok report =>
    have hfold : ∀ (tokens : List Token) (t : State κ τ),
        (tokens.foldl (fun s token => s.note (.spurious token)) t).hushed attaches =
          tokens.foldl (fun s token => s.note (.spurious token)) (t.hushed attaches) := by
      intro tokens
      induction tokens with
      | nil => exact fun _ => rfl
      | cons token tokens ih =>
        intro t
        rw [List.foldl_cons, List.foldl_cons, ih, hushed_note]
        rfl
    simp only [poll, hushed_push, hfold]
    rfl
  | error fault =>
    simp only [poll]
    split
    · rfl
    · simp

@[simp] theorem hushed_abort (order : List Token) :
    (s.abort order).2.hushed attaches = ((s.hushed attaches).abort order).2 := by
  have ht : (s.hushed attaches).tokens = s.tokens := rfl
  simp only [abort, hushed_push, ht]
  split
  · rfl
  · simp
    rfl

theorem hushed_close (order : List Token) :
    (s.close order).hushed attaches = (s.hushed attaches).close order := by
  by_cases hs : s.entries = []
  · simp [close, hs, Frame.uncounted]
  · simp only [close, push_entries, hushed_entries, List.isEmpty_iff, hs, if_false]
    exact hushed_abort attaches (s.push .closing) order

theorem hushed_unwind (panic : Panic) (frames : List (Frame κ τ)) :
    (unwind panic frames s).hushed attaches =
      unwind panic (frames.map Frame.uncounted) (s.hushed attaches) := by
  induction frames generalizing panic s with
  | nil => exact hushed_note attaches { s with frames := [] } _
  | cons f rest ih =>
    cases f with
    | settling batch => exact ih s panic
    | draining taken => exact ih s panic
    | closing => exact (ih s.shut panic).trans (by rw [hushed_shut]; rfl)
    | task job =>
      cases panic with
      | plain text => exact hushed_note attaches { s with frames := rest } _
      | volatile text next => exact (ih (s.note _) next).trans (by simp; rfl)
    | calling call =>
      cases panic with
      | plain text => exact hushed_note attaches { s with frames := rest } _
      | volatile text next => exact (ih (s.note _) next).trans (by simp; rfl)

theorem hushed_leave (panic : Option Panic) :
    (s.leave panic).hushed attaches = (s.hushed attaches).leave panic := by
  cases panic with
  | none => simp [leave, hushed]
  | some panic => exact hushed_unwind attaches s panic s.frames

end Operations

/-! ### The queue -/

section Queue

variable {attaches} {s : State κ τ} {task : τ} {tasks : List τ}

theorem hushed_queue (s : State κ τ) :
    (s.hushed attaches).queue = s.queue.filter (!attaches ·) := rfl

/-- A task that only attaches a channel is taken without any trace. -/
theorem hushed_takeTask_of_attaches (hq : s.queue = task :: tasks) (ha : attaches task) :
    s.takeTask.2.hushed attaches = s.hushed attaches := by
  have hw : s.watch.tasks.queue = task :: tasks := hq
  rw [takeTask_eq hq, hushed_note, if_neg (by simp [ha])]
  simp [hushed, Readiness.Watch.hushed, hw, ha]

theorem hushed_takeTask (hhead : s.queue.head?.any attaches = false) :
    (s.hushed attaches).takeTask = (s.takeTask.1, s.takeTask.2.hushed attaches) := by
  cases hq : s.queue with
  | nil =>
    rw [takeTask_of_nil hq, takeTask_of_nil (by rw [hushed_queue, hq]; rfl)]
  | cons task tasks =>
    have ha : attaches task = false := by simpa [hq] using hhead
    have hq' : (s.hushed attaches).queue = task :: tasks.filter (!attaches ·) := by
      rw [hushed_queue, hq, List.filter_cons_of_pos (by simp [ha])]
    rw [takeTask_eq hq, takeTask_eq hq']
    simp [ha, hushed, Readiness.Watch.hushed, note]

end Queue

end State

end InFlight

end Dialer
