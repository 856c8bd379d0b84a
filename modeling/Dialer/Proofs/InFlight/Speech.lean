import Dialer.Proofs.InFlight.Record

/-!
# What a table says on its channels

To whoever listens, all that goes on in a table is that one event after the other is published, and
that at some point the table may let go of its channel. Only its owner attaches another channel.
What was published on a channel is queued there, in order, until it is received.
-/

namespace Dialer.InFlight

open Address (SocketAddress)
open Readiness (Token)
open Time (Duration Instant)

variable {κ τ : Type}

@[simp] def Happening.delivery? : Happening κ τ → Option (Nat × Event)
  | .published id event => some (id, event)
  | _ => none

/-- Whether an action is about channels and their receivers alone. -/
def Action.isReceiving : Action κ τ → Bool
  | .openChannel => true
  | .addReceiver _ => true
  | .dropReceiver _ => true
  | .receive _ => true
  | _ => false

/-- The events for one channel. -/
def heardOn (id : Nat) (deliveries : List (Nat × Event)) : List Event :=
  deliveries.filterMap fun d => if d.1 = id then some d.2 else none

namespace State

variable {s t u : State κ τ}

/-- The events that were published, each with the channel it went to, the latest first. -/
def deliveries (s : State κ τ) : List (Nat × Event) := s.history.filterMap Happening.delivery?

/-- The events that were published, in order. -/
def published (s : State κ τ) : List (Nat × Event) := s.deliveries.reverse

/-- What is queued in a channel and not received yet. -/
def backlog (s : State κ τ) (id : Nat) : List Event := (s.channels[id]?.map (·.queue)).getD []

/-- What listeners are concerned with. -/
def outlook (s : State κ τ) : Option Nat × List (Channel Event) × Bool × List (Nat × Event) :=
  (s.monitor, s.channels, s.isClosed, s.deliveries)

/-- What a table does without its owner, as far as listeners are concerned. -/
inductive Speaks : State κ τ → State κ τ → Prop
  | same {s t : State κ τ} (h : t.outlook = s.outlook) : Speaks s t
  | publish (s : State κ τ) (event : Event) : Speaks s (s.publish event)
  | letsGo {s t : State κ τ} (hm : t.monitor = none) (hc : t.channels = s.channels)
      (hd : t.deliveries = s.deliveries) : Speaks s t
  | trans {s t u : State κ τ} (h : Speaks s t) (h' : Speaks t u) : Speaks s u

namespace Speaks

theorem of_outlook (h : Speaks t u) (ht : t.outlook = s.outlook) : Speaks s u := .trans (.same ht) h

theorem monitor (h : Speaks s t) : t.monitor = s.monitor ∨ t.monitor = none := by
  induction h with
  | same h => exact .inl (Prod.mk.inj h).1
  | publish s event =>
    rcases publish_cases s event with hp | ⟨_, _, hp⟩ | hp <;> rw [hp]
    · exact .inl rfl
    · exact .inl rfl
    · exact .inr rfl
  | letsGo hm => exact .inr hm
  | trans _ _ ih ih' =>
    rcases ih' with hu | hu
    · exact ih.imp hu.trans hu.trans
    · exact .inr hu

theorem silent (h : Speaks s t) (hs : s.isClosed → s.monitor = none) :
    t.isClosed → t.monitor = none := by
  induction h with
  | same h =>
    obtain ⟨hm, -, hk, -⟩ : _ ∧ _ ∧ _ ∧ _ := by simpa [outlook] using h
    rwa [hm, hk]
  | publish s event =>
    intro hk
    have hclosed : (s.publish event).isClosed = s.isClosed := by simp [isClosed]
    exact (Speaks.publish s event).monitor.elim (·.trans (hs (hclosed ▸ hk))) id
  | letsGo hm => exact fun _ => hm
  | trans _ _ ih ih' => exact ih' (ih hs)

theorem queued (h : Speaks s t) : ∃ news, t.deliveries = news ++ s.deliveries ∧
    ∀ id, t.backlog id = s.backlog id ++ heardOn id news.reverse := by
  induction h with
  | same h =>
    obtain ⟨-, hc, -, hd⟩ : _ ∧ _ ∧ _ ∧ _ := by simpa [outlook] using h
    exact ⟨[], hd, fun id => by simp [backlog, hc, heardOn]⟩
  | publish s event =>
    cases hl : s.listener? with
    | some id =>
      obtain ⟨channel, hc, hp⟩ := publish_of_listener s event hl
      obtain ⟨hlt, -⟩ := List.getElem?_eq_some_iff.mp hc
      refine ⟨[(id, event)], by rw [hp]; rfl, fun other => ?_⟩
      have hset : (s.publish event).channels =
          s.channels.set id ⟨channel.queue ++ [event], channel.receivers⟩ := by rw [hp]; rfl
      rw [backlog, hset]
      by_cases hk : id = other
      · subst hk
        simp [List.getElem?_set_self hlt, backlog, hc, heardOn]
      · simp [List.getElem?_set_ne hk, backlog, heardOn, hk]
    | none =>
      rcases publish_of_none s event hl with hp | hp <;> rw [hp] <;>
        exact ⟨[], rfl, fun id => (List.append_nil _).symm⟩
  | letsGo _ hc hd => exact ⟨[], hd, fun id => by simp [backlog, hc, heardOn]⟩
  | trans _ _ ih ih' =>
    obtain ⟨news, hd, hb⟩ := ih
    obtain ⟨more, hd', hb'⟩ := ih'
    refine ⟨more ++ news, by rw [hd', hd, List.append_assoc], fun id => ?_⟩
    rw [hb', hb, List.append_assoc, List.reverse_append, heardOn, heardOn, heardOn,
      List.filterMap_append]

end Speaks

/-! ### Every action of the table itself -/

theorem speaks_fail (s : State κ τ) (ticket : Nat) (c : Continuations κ)
    (address : Option SocketAddress) (failure : Failure) :
    Speaks s (s.fail ticket c address failure) :=
  .trans (.publish s _) (.same rfl)

theorem speaks_handOff (s : State κ τ) (ticket : Nat) (c : Continuations κ)
    (address : SocketAddress) (socket : Nat) (preparation : Option Fault) :
    Speaks s (s.handOff ticket c address socket preparation) := by
  obtain ⟨nodelay, t, ht, heq⟩ := handOff_eq (s := s) ticket c address socket preparation
  have hsame : t.outlook = s.outlook := by rcases ht with rfl | ⟨fault, rfl⟩ <;> rfl
  rw [heq]
  exact .of_outlook (.trans (.publish t _) (.same rfl)) hsame

theorem speaks_track (s : State κ τ) (ticket : Nat) (c : Continuations κ) (address : SocketAddress)
    (timeout : Duration) (socket : Nat) (registration : Option Fault) (now : Instant) :
    Speaks s (s.track ticket c address timeout socket registration now).2 := by
  cases registration with
  | some fault => exact (speaks_fail (closeSocket _ _) _ _ _ _).of_outlook rfl
  | none =>
    simp only [track, Readiness.Watch.add]
    cases s.allocate.2.watch.selector.register socket s.allocate.1 with
    | error fault => exact (speaks_fail (closeSocket _ _) _ _ _ _).of_outlook rfl
    | ok selector => exact .same rfl

/-- What is said first while a socket is connected is that it is tried. -/
theorem speaks_dial (s : State κ τ) (ticket : Nat) (c : Continuations κ) (address : SocketAddress)
    (timeout : Duration) (reply : Reply) (now : Instant) :
    Speaks (s.publish (.attempting address)) (s.dial ticket c address timeout reply now).2 := by
  rw [dial]
  cases reply.dialled with
  | unmade fault => exact (speaks_fail (note _ _) _ _ _ _).of_outlook rfl
  | rejected fault => exact (speaks_fail (note _ _) _ _ _ _).of_outlook rfl
  | established => exact (speaks_handOff (note _ _) _ _ _ _ _).of_outlook rfl
  | inProgress => exact (speaks_track (openSocket _ _) _ _ _ _ _ _ _).of_outlook rfl

theorem speaks_attempt (s : State κ τ) (request : Request κ) (reply : Reply) (now : Instant) :
    Speaks s (s.attempt request reply now).2 := by
  cases hc : request.continuations? with
  | none => exact .same (by rw [attempt_incomplete hc]; rfl)
  | some c =>
    cases ht : Target.ofRequest request.address request.port with
    | error error =>
      rw [attempt_unusable hc ht]
      exact (speaks_fail (note _ _) _ _ _ _).of_outlook rfl
    | ok target =>
      rw [attempt_usable hc ht]
      have hp : Speaks s ((s.issue request).publish (.attempting target.address)) :=
        (Speaks.publish (s.issue request) _).of_outlook rfl
      exact hp.trans (speaks_dial _ _ _ _ _ _ _)

theorem speaks_resolve (s : State κ τ) (token : Token) (cause : Cause)
    (release : Release) : Speaks s (s.resolve token cause release) := by
  cases he : s.entry? token with
  | none => exact .same (by rw [resolve_missing he])
  | some e =>
    have hu : (s.untrack token e release.removal).outlook = s.outlook := by
      simp only [untrack, Readiness.Watch.remove]
      cases s.watch.selector.deregister e.socket release.removal <;> rfl
    simp only [resolve, he]
    cases cause with
    | established => exact (speaks_handOff (note _ _) _ _ _ _ _).of_outlook hu
    | broken fault => exact (speaks_fail (closeSocket _ _) _ _ _ _).of_outlook hu
    | timedOut => exact (speaks_fail (closeSocket _ _) _ _ _ _).of_outlook hu
    | aborted => exact (speaks_fail (closeSocket _ _) _ _ _ _).of_outlook hu

theorem speaks_shut (s : State κ τ) : Speaks s s.shut := by
  have hfold := @foldl_closeSocket κ τ _ (fun s => (s.channels, s.deliveries)) (fun _ _ => rfl)
    s.entries s
  exact .letsGo rfl (Prod.mk.inj hfold).1 (Prod.mk.inj hfold).2

theorem speaks_unwind (panic : Panic) (frames : List (Frame κ τ)) (s : State κ τ) :
    Speaks s (unwind panic frames s) := by
  induction frames generalizing panic s with
  | nil => exact .same rfl
  | cons f rest ih =>
    cases f with
    | settling batch => exact ih panic s
    | draining taken => exact ih panic s
    | closing => exact (speaks_shut s).trans (ih panic s.shut)
    | task job =>
      cases panic with
      | plain text => exact .same rfl
      | volatile text next => exact (ih next (s.note _)).of_outlook rfl
    | calling call =>
      cases panic with
      | plain text => exact .same rfl
      | volatile text next => exact (ih next (s.note _)).of_outlook rfl

theorem speaks_after (s : State κ τ) {a : Action κ τ} (hw : ∀ monitor, a ≠ .watchOn monitor)
    (hr : a.isReceiving = false) : Speaks s (s.after a) := by
  cases a with
  | attempt request reply now => exact speaks_attempt s request reply now
  | poll report =>
    cases report with
    | ok report =>
      exact .same (@foldl_spurious κ τ _ outlook (fun _ _ => rfl) (s.spurious report) s)
    | error fault =>
      simp only [State.after, State.poll]
      split <;> exact .same rfl
  | abort order =>
    simp only [State.after, State.abort]
    split <;> exact .same rfl
  | watchOn monitor => exact absurd rfl (hw monitor)
  | close order =>
    simp only [State.after, State.close, State.abort]
    split
    · exact .same rfl
    · split <;> exact .same rfl
  | advance release =>
    simp only [State.after, State.advance]
    split
    · exact .same rfl
    · exact (speaks_resolve { s with frames := _ } _ _ _).of_outlook rfl
    · unfold takeTask Readiness.Watch.nextTask? Channel.take?
      cases s.watch.tasks.queue <;> exact .same rfl
    · exact (speaks_shut s).trans (.same rfl)
    · exact .same rfl
  | leave panic =>
    cases panic with
    | none => exact .same rfl
    | some panic => exact speaks_unwind panic s.frames s
  | enqueue task =>
    simp only [State.after, State.enqueue, Readiness.Watch.enqueue, Channel.send]
    split <;> exact .same rfl
  | takeTask =>
    simp only [State.after, takeTask, Readiness.Watch.nextTask?, Channel.take?]
    cases s.watch.tasks.queue <;> exact .same rfl
  | openChannel => simp [Action.isReceiving] at hr
  | addReceiver k => simp [Action.isReceiving] at hr
  | dropReceiver k => simp [Action.isReceiving] at hr
  | receive k => simp [Action.isReceiving] at hr
  | _ => exact .same rfl

end State

end Dialer.InFlight
