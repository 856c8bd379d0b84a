import Dialer.Proofs.InFlight.Speech

/-!
# Who listens

Only who attaches a channel, or drops the last receiver of the one that is attached, changes where
events go. Otherwise a channel that is listened to stays so until the table is given up.
-/

namespace Dialer.InFlight

namespace State

open Address (SocketAddress)
open Readiness (Token)
open Time (Duration Instant)

variable {κ τ : Type} {s t : State κ τ}

/-- Where events go, and who receives from the channels there are. -/
def audience (s : State κ τ) : Option Nat × (Nat → Nat) × Nat :=
  (s.listener?, s.receivers, s.channels.length)

section Small

variable (s : State κ τ) (h : Happening κ τ) (event : Event) (ticket socket : Nat)

@[simp] theorem note_audience : (s.note h).audience = s.audience := rfl
@[simp] theorem push_audience (frame : Frame κ τ) : (s.push frame).audience = s.audience := rfl
@[simp] theorem openSocket_audience : (s.openSocket ticket).audience = s.audience := rfl
@[simp] theorem closeSocket_audience : (s.closeSocket socket).audience = s.audience := rfl
@[simp] theorem call_audience (call : Call κ) : (s.call call).audience = s.audience := rfl
@[simp] theorem issue_audience (request : Request κ) :
    (s.issue request).audience = s.audience := rfl

@[simp] theorem publish_audience : (s.publish event).audience = s.audience := by
  obtain ⟨-, hl, hr, hc⟩ := publish_spec s event
  rw [audience, hl, hr, hc, audience]

end Small

@[simp] theorem fail_audience (ticket : Nat) (c : Continuations κ) (address : Option SocketAddress)
    (failure : Failure) : (s.fail ticket c address failure).audience = s.audience := by
  simp [fail_eq]

@[simp] theorem handOff_audience (ticket : Nat) (c : Continuations κ) (address : SocketAddress)
    (socket : Nat) (preparation : Option Fault) :
    (s.handOff ticket c address socket preparation).audience = s.audience := by
  obtain ⟨nodelay, t, ht, heq⟩ := handOff_eq (s := s) ticket c address socket preparation
  rw [heq]
  rcases ht with rfl | ⟨fault, rfl⟩ <;> simp

theorem track_audience (ticket : Nat) (c : Continuations κ) (address : SocketAddress)
    (timeout : Duration) (socket : Nat) (registration : Option Fault) (now : Instant) :
    (s.track ticket c address timeout socket registration now).2.audience = s.audience := by
  cases registration with
  | some fault => rw [track_refused]; simp; rfl
  | none =>
    cases hadd : s.allocate.2.watch.add socket s.allocate.1 with
    | error fault => simp [track, hadd]; rfl
    | ok watch => simp [track, hadd]; rfl

theorem attempt_audience (s : State κ τ) (request : Request κ) (reply : Reply) (now : Instant) :
    (s.attempt request reply now).2.audience = s.audience := by
  cases hc : request.continuations? with
  | none => simp [attempt_incomplete hc]
  | some c =>
    cases ht : Target.ofRequest request.address request.port with
    | error error => simp [attempt_unusable hc ht]
    | ok target =>
      rw [attempt_usable hc ht, dial]
      cases reply.dialled <;> simp [track_audience]

theorem untrack_audience (s : State κ τ) (token : Token) (e : Entry κ) (removal : Option Fault) :
    (s.untrack token e removal).audience = s.audience := by
  simp only [untrack]
  split <;> rfl

theorem resolve_audience (s : State κ τ) (token : Token) (cause : Cause)
    (release : Release) :
    (s.resolve token cause release).audience = s.audience := by
  cases he : s.entry? token with
  | none => rw [resolve_missing he]
  | some e =>
    cases cause <;> simp [resolve, he, untrack_audience]

theorem shut_audience (s : State κ τ) : s.shut.audience.2 = s.audience.2 := by
  have hfold := @foldl_closeSocket κ τ _ audience (fun _ _ => rfl) s.entries s
  have hsame := congrArg Prod.snd hfold
  exact hsame

/-- A panic lets go of the channel only with the whole table. -/
theorem unwind_audience (panic : Panic) (frames : List (Frame κ τ)) (s : State κ τ)
    (hlast : ∀ pre post, frames = pre ++ .closing :: post → post = []) :
    (unwind panic frames s).audience.2 = s.audience.2 ∧
      ((unwind panic frames s).audience = s.audience ∨
        .closing ∈ frames ∧ (unwind panic frames s).frames = []) := by
  have hrest := @unwind_overlooked κ τ _ (fun s => s.audience.2) (fun _ _ _ => rfl)
    (fun _ _ => rfl) (fun _ _ => rfl) shut_audience panic frames s
  exact ⟨hrest, @unwind_overlooked_or κ τ _ audience (fun _ _ _ => rfl) (fun _ _ => rfl)
    (fun _ _ => rfl) panic frames s hlast⟩

theorem Lawful.leave_audience (h : Lawful s) (panic : Option Panic) :
    (s.leave panic).audience.2 = s.audience.2 ∧
      ((s.leave panic).audience = s.audience ∨ (s.leave panic).isClosed) := by
  cases panic with
  | none => exact ⟨rfl, .inl rfl⟩
  | some panic =>
    have hlast : ∀ pre post, s.frames = pre ++ .closing :: post → post = [] :=
      fun pre post => h.ordered.stacked.closing_last
    refine (unwind_audience panic s.frames s hlast).imp_right (Or.imp_right ?_)
    exact fun ⟨hm, hnil⟩ => (emptied_of_unwind hlast hm hnil).isClosed h

theorem Lawful.advance_audience (h : Lawful s) (release : Release) :
    (s.advance release).audience.2 = s.audience.2 ∧
      ((s.advance release).audience = s.audience ∨ (s.advance release).isClosed) := by
  have hsame : ∀ {t : State κ τ}, t.audience = s.audience →
      t.audience.2 = s.audience.2 ∧ (t.audience = s.audience ∨ t.isClosed) :=
    fun ht => ⟨congrArg Prod.snd ht, .inl ht⟩
  cases hs : s.frames with
  | nil => exact hsame (by simp only [State.advance, hs])
  | cons f rest =>
    cases f with
    | settling batch =>
      cases batch with
      | nil => exact hsame (by simp only [State.advance, hs]; rfl)
      | cons item batch =>
        obtain ⟨token, cause⟩ := item
        refine hsame ?_
        simp only [State.advance, hs]
        exact resolve_audience _ token cause release
    | draining taken =>
      refine hsame ?_
      simp only [State.advance, hs, takeTask]
      cases s.watch.nextTask? <;> rfl
    | closing =>
      refine ⟨?_, .inr (h.closed_advance hs release)⟩
      simp only [State.advance, hs]
      exact shut_audience s
    | task job => exact hsame (by simp only [State.advance, hs])
    | calling call => exact hsame (by simp only [State.advance, hs])

/-- An action of its own, of whoever runs it or of foreign code changes nothing about who receives;
and where events go changes only with the table given up. -/
theorem Lawful.audience_after (hs : Lawful s) {a : Action κ τ}
    (hw : ∀ monitor, a ≠ .watchOn monitor) (hr : a.isReceiving = false) :
    (s.after a).audience.2 = s.audience.2 ∧
      ((s.after a).audience = s.audience ∨ (s.after a).isClosed) := by
  have hsame : (s.after a).audience = s.audience → (s.after a).audience.2 = s.audience.2 ∧
      ((s.after a).audience = s.audience ∨ (s.after a).isClosed) :=
    fun heq => ⟨congrArg Prod.snd heq, .inl heq⟩
  cases a with
  | attempt request reply now => exact hsame (attempt_audience s request reply now)
  | poll report =>
    refine hsame ?_
    cases report with
    | ok report => exact @foldl_spurious κ τ _ audience (fun _ _ => rfl) (s.spurious report) s
    | error fault =>
      simp only [State.after, State.poll]
      split <;> rfl
  | expire now order => exact hsame rfl
  | abort order =>
    refine hsame ?_
    simp only [State.after, State.abort]
    split <;> rfl
  | drain => exact hsame rfl
  | watchOn monitor => exact absurd rfl (hw monitor)
  | close order =>
    refine hsame ?_
    simp only [State.after, State.close, State.abort]
    split
    · rfl
    · split <;> rfl
  | advance release => exact hs.advance_audience release
  | leave panic => exact hs.leave_audience panic
  | enqueue task =>
    refine hsame ?_
    simp only [State.after, State.enqueue]
    cases s.watch.enqueue task <;> rfl
  | takeTask =>
    refine hsame ?_
    simp only [State.after, takeTask]
    cases s.watch.nextTask? <;> rfl
  | becomeReady socket => exact hsame rfl
  | openChannel => simp [Action.isReceiving] at hr
  | addReceiver k => simp [Action.isReceiving] at hr
  | dropReceiver k => simp [Action.isReceiving] at hr
  | receive k => simp [Action.isReceiving] at hr

theorem Lawful.channels_le (hs : Lawful s) (a : Action κ τ) :
    s.channels.length ≤ (s.after a).channels.length := by
  by_cases hr : a.isReceiving
  · cases a <;> simp [Action.isReceiving] at hr <;> simp [State.after, onChannel]
  · by_cases hw : ∃ monitor, a = .watchOn monitor
    · obtain ⟨monitor, rfl⟩ := hw
      exact Nat.le_refl _
    · have hsnd := (hs.audience_after (fun monitor heq => hw ⟨monitor, heq⟩) (by simpa using hr)).1
      exact Nat.le_of_eq (Prod.mk.inj hsnd).2.symm

/-! ### Who goes on listening -/

theorem monitor_of_isReceiving (s : State κ τ) {a : Action κ τ} (hr : a.isReceiving) :
    (s.after a).monitor = s.monitor ∧ (s.after a).isClosed = s.isClosed := by
  cases a <;> first | exact ⟨rfl, rfl⟩ | cases hr

/-- Nobody but its owner has a table publish on another channel. -/
theorem monitor_cases (s : State κ τ) {a : Action κ τ} (hw : ∀ monitor, a ≠ .watchOn monitor) :
    (s.after a).monitor = s.monitor ∨ (s.after a).monitor = none := by
  cases hr : a.isReceiving with
  | false => exact (speaks_after s hw hr).monitor
  | true => exact .inl (monitor_of_isReceiving s hr).1

theorem receivers_onChannel (s : State κ τ) (k id : Nat) (change : Channel Event → Channel Event) :
    (s.onChannel k change).receivers id =
      if k = id then ((s.channels[id]?.map change).map (·.receivers)).getD 0
      else s.receivers id := by
  rw [receivers, onChannel, List.getElem?_modify]
  split <;> simp_all [receivers]

theorem Lawful.receivers_after (hs : Lawful s) {a : Action κ τ}
    (ha : a.isReceiving → a.Enabled s) {id : Nat} (hlt : id < s.channels.length)
    (hne : (s.after a).receivers id ≠ 0) : s.receivers id ≠ 0 := by
  have hchange : ∀ k change, (s.channels[k]?.map (·.receivers)).getD 0 ≠ 0 →
      (s.onChannel k change).receivers id ≠ 0 → s.receivers id ≠ 0 := by
    intro k change hk hne
    rw [receivers_onChannel] at hne
    split at hne
    · rename_i heq
      exact heq ▸ hk
    · exact hne
  cases hr : a.isReceiving with
  | false =>
    by_cases hw : ∃ monitor, a = .watchOn monitor
    · obtain ⟨monitor, rfl⟩ := hw
      exact hne
    · obtain ⟨hsnd, -⟩ := hs.audience_after (fun monitor heq => hw ⟨monitor, heq⟩) hr
      rwa [(Prod.mk.inj hsnd).1] at hne
  | true =>
    cases a with
    | openChannel => rwa [receivers, State.after, List.getElem?_append_left hlt] at hne
    | addReceiver k => exact hchange k _ (ha rfl) hne
    | dropReceiver k => exact hchange k _ (ha rfl) hne
    | receive k => exact hchange k _ (ha rfl) hne
    | _ => cases hr

/-- No channel lost its receivers. -/
def HasReceivers (s : State κ τ) : Prop := ∀ id < s.channels.length, s.receivers id ≠ 0

theorem HasReceivers.congr (h : HasReceivers s) (hc : s.channels = t.channels) :
    HasReceivers t := by
  intro id hlt
  rw [receivers, ← hc]
  exact h id (hc ▸ hlt)

theorem Lawful.hasReceivers_of_after (hs : Lawful s) {a : Action κ τ}
    (ha : a.isReceiving → a.Enabled s) (h : HasReceivers (s.after a)) : HasReceivers s :=
  fun id hlt => hs.receivers_after ha hlt (h id (Nat.lt_of_lt_of_le hlt (hs.channels_le a)))

/-- A channel that is attached, and listened to as long as it has a receiver and the table is there.
-/
structure Attached (s : State κ τ) (id : Nat) : Prop where
  opened : id < s.channels.length
  listens : s.receivers id ≠ 0 → s.isClosed ∨ s.listener? = some id

theorem listener?_of_monitor {id : Nat} (hm : s.monitor = some id) (hr : s.receivers id ≠ 0) :
    s.listener? = some id := by
  rw [listener?, hm, Option.filter_some, if_pos (decide_eq_true hr)]

theorem Attached.after {id : Nat} (h : Attached s id) (hs : Lawful s) {a : Action κ τ}
    (ha : a.Enabled s) (hw : ∀ monitor, a ≠ .watchOn monitor) : Attached (s.after a) id := by
  refine ⟨Nat.lt_of_lt_of_le h.opened (hs.channels_le a), fun hne => ?_⟩
  have hlistens := h.listens (hs.receivers_after (fun _ => ha) h.opened hne)
  cases hr : a.isReceiving with
  | false =>
    obtain ⟨-, hl | hl⟩ := hs.audience_after hw hr
    · rw [show (s.after a).listener? = s.listener? from (Prod.mk.inj hl).1]
      exact hlistens.imp_left (hs.after ha).2.isClosed
    · exact .inl hl
  | true =>
    obtain ⟨hm, hk⟩ := monitor_of_isReceiving s hr
    rw [hk]
    refine hlistens.imp_right fun hl => listener?_of_monitor ?_ hne
    exact hm.trans ((listener?_eq_some s).mp hl).1

/-- While the channel that is published on has a receiver, it stays the one. -/
theorem Lawful.monitor_after (hs : Lawful s) {a : Action κ τ} (ha : a.Enabled s)
    (hw : ∀ monitor, a ≠ .watchOn monitor)
    (hopened : ∀ id, s.monitor = some id → id < s.channels.length)
    (hopen : ¬ (s.after a).isClosed)
    (hkept : ∀ id, s.monitor = some id → (s.after a).receivers id ≠ 0) :
    (s.after a).monitor = s.monitor := by
  cases hm : s.monitor with
  | none => exact (monitor_cases s hw).elim (·.trans hm) id
  | some id =>
    have hne := hkept id hm
    have hatt : Attached s id := ⟨hopened id hm, fun hne => .inr (listener?_of_monitor hm hne)⟩
    have hl := ((hatt.after hs ha hw).listens hne).resolve_left hopen
    exact ((listener?_eq_some _).mp hl).1

end State

end Dialer.InFlight
