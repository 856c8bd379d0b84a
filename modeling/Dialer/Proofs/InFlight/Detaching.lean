import Dialer.Proofs.InFlight.Listener
import Dialer.Proofs.InFlight.Queue
import Dialer.Proofs.InFlight.Resolution
import Dialer.Proofs.InFlight.Sockets
import Dialer.Proofs.InFlight.Tidings

/-!
# A channel that nobody receives from

A channel that lost its receivers stays attached as long as there is nothing to tell. The first
event that there is occasion for lets go of it, and then no channel is attached until the owner of
the table attaches one.
-/

namespace Dialer.InFlight.State

open Address (SocketAddress)
open Readiness (Token)
open Time (Duration Instant)

variable {κ τ : Type} {s t : State κ τ} {a : Action κ τ} {id : Nat}

/-! ### Publishing to nobody -/

theorem publish_monitor (hl : s.listener? = none) (event : Event) :
    (s.publish event).monitor = none := by
  unfold publish
  split
  · assumption
  · rename_i id hm
    split
    · rename_i channel hsend
      obtain ⟨c, hc, hsend⟩ := Option.bind_eq_some_iff.mp hsend
      have hr : c.receivers ≠ 0 := fun h => by simp [Channel.send, h, Except.toOption] at hsend
      rw [(listener?_eq_some s).mpr ⟨hm, c, hc, hr⟩] at hl
      cases hl
    · rfl

theorem fail_monitor (hl : s.listener? = none) (ticket : Nat) (c : Continuations κ)
    (address : Option SocketAddress) (failure : Failure) :
    (s.fail ticket c address failure).monitor = none := publish_monitor hl _

theorem handOff_monitor (hl : s.listener? = none) (ticket : Nat) (c : Continuations κ)
    (address : SocketAddress) (socket : Nat) (preparation : Option Fault) :
    (s.handOff ticket c address socket preparation).monitor = none := by
  obtain ⟨nodelay, t, ht, heq⟩ := handOff_eq (s := s) ticket c address socket preparation
  have hlt : t.listener? = none := by rcases ht with rfl | ⟨fault, rfl⟩ <;> exact hl
  rw [heq]
  exact publish_monitor hlt _

theorem attempt_monitor (hl : s.listener? = none) {request : Request κ} {c : Continuations κ}
    (hc : request.continuations? = some c) (reply : Reply) (now : Instant) :
    (s.attempt request reply now).2.monitor = none := by
  cases ht : Target.ofRequest request.address request.port with
  | error error =>
    rw [attempt_unusable hc ht]
    refine fail_monitor ?_ _ _ _ _
    exact hl
  | ok target =>
    have hp := publish_monitor (s := s.issue request) hl (.attempting target.address)
    rw [attempt_usable hc ht]
    exact (speaks_dial _ _ _ _ _ _ _).monitor.elim (·.trans hp) (fun h => h)

theorem resolve_monitor (hl : s.listener? = none) {token : Token} {e : Entry κ}
    (he : s.entry? token = some e) (cause : Cause) (release : Release) :
    (s.resolve token cause release).monitor = none := by
  have hu : (s.untrack token e release.removal).listener? = none :=
    (Prod.mk.inj (untrack_audience s token e release.removal)).1.trans hl
  simp only [resolve, he]
  cases cause with
  | established => exact handOff_monitor (s := note _ _) hu _ _ _ _ _
  | broken fault => exact fail_monitor (s := closeSocket (note _ _) _) hu _ _ _ _
  | timedOut => exact fail_monitor (s := closeSocket (note _ _) _) hu _ _ _ _
  | aborted => exact fail_monitor (s := closeSocket _ _) hu _ _ _ _

/-! ### What is known of every table -/

theorem Reachable.addressed (h : Reachable s) : Addressed s := by
  induction h with
  | initial capacity nodelay => exact fun p hp => absurd hp List.not_mem_nil
  | step hs ha ih => exact (hs.lawful.recorded ha).addressed ih

theorem Reachable.reports (h : Reachable s) (ha : a.Enabled s) :
    ∃ news, Reports s a news (s.after a) :=
  (h.lawful.recorded ha).reports h.addressed h.conserved.1

theorem Reachable.silent (h : Reachable s) : s.isClosed → s.monitor = none := by
  induction h with
  | initial capacity nodelay => exact fun _ => rfl
  | @step s a _ ha ih =>
    by_cases hw : ∃ monitor, a = .watchOn monitor
    · obtain ⟨monitor, rfl⟩ := hw
      exact fun hc => absurd hc ha.2
    · cases hr : a.isReceiving with
      | false => exact (speaks_after s (fun monitor heq => hw ⟨monitor, heq⟩) hr).silent ih
      | true =>
        obtain ⟨hm, hc⟩ := monitor_of_isReceiving s hr
        rwa [hm, hc]

/-! ### A step and a run -/

/-- What is attached, whether the table is there, and what there were occasions to tell. -/
def stance (s : State κ τ) : Option Nat × Bool × List Event := (s.monitor, s.isClosed, s.occasions)

/-- What comes of a channel without receivers: it stays attached while there is nothing to tell. -/
inductive Lapses (s t : State κ τ) : Prop
  | stays (h : t.stance = s.stance)
  | told (hm : t.monitor = none) (h : s.occasions.length < t.occasions.length)
  | closed (hm : t.monitor = none) (h : t.isClosed)

theorem Reports.lapses {news : List Event} (h : Reports s a news t) (hne : news ≠ [])
    (hm : t.monitor = none) : Lapses s t := by
  refine .told hm ?_
  rw [h.occasions, List.length_append]
  exact Nat.lt_add_of_pos_right (List.length_pos_iff.mpr hne)

theorem Reachable.lapses_attempt (h : Reachable s) (hl : s.listener? = none)
    {request : Request κ} {reply : Reply} {now : Instant}
    (ha : (Action.attempt request reply now : Action κ τ).Enabled s) :
    Lapses s (s.attempt request reply now).2 := by
  cases hc : request.continuations? with
  | none =>
    rw [attempt_incomplete hc]
    exact .stays rfl
  | some c =>
    obtain ⟨news, hr⟩ := h.reports ha
    obtain ⟨event, hhead, -⟩ := hr.opening request (by simp [Action.request?, hc])
    refine hr.lapses ?_ (attempt_monitor hl hc reply now)
    rintro rfl
    cases hhead

theorem Reachable.lapses_resolve (h : Reachable s) (hl : s.listener? = none) {token : Token}
    {e : Entry κ} (he : s.entry? token = some e) {cause : Cause} {batch : List (Token × Cause)}
    {rest : List (Frame κ τ)} (release : Release) :
    Lapses s ({ s with frames := .settling batch :: rest }.resolve token cause release) := by
  let u : State κ τ := { s with frames := .settling batch :: rest }
  have hu : Registered u := (Quiet.withFrames s _).registered_of h.lawful.registered
  obtain ⟨call, hcon, hrec⟩ := hu.resolve_recorded he cause release
  have haim : aim? s.record call.ticket = some e.address :=
    hcon.ticket ▸ h.addressed.aim? h.conserved.1 (mem_entries_of_lookup he)
  obtain ⟨event, hevent⟩ := event?_some e.address call.outcome
  have htold : (u.resolve token cause release).occasions = s.occasions ++ [event] := by
    have hrecord : u.record = s.record := rfl
    rw [occasions, hrec, tidings_resolution, hrecord, haim, hevent]
    exact List.reverse_cons
  exact .told (resolve_monitor (s := u) hl he cause release) (by simp [u, htold])

theorem Reachable.lapses_advance (h : Reachable s) (hl : s.listener? = none)
    (release : Release) : Lapses s (s.advance release) := by
  cases hs : s.frames with
  | nil => exact .stays (by simp only [State.advance, hs])
  | cons f rest =>
    cases f with
    | settling batch =>
      cases batch with
      | nil => exact .stays (by simp only [State.advance, hs]; rfl)
      | cons item batch =>
        obtain ⟨token, cause⟩ := item
        simp only [State.advance, hs]
        cases he : s.entry? token with
        | none =>
          refine .stays ?_
          rw [resolve_missing]
          · rfl
          · exact he
        | some e => exact h.lapses_resolve hl he release
    | draining taken =>
      refine .stays ?_
      cases hq : s.queue with
      | nil => simp only [State.advance, hs, takeTask_of_nil hq]; rfl
      | cons task tasks => simp only [State.advance, hs, takeTask_eq hq]; rfl
    | closing =>
      have hc := h.lawful.closed_advance hs release
      refine .closed ?_ hc
      simp only [State.advance, hs]
      rfl
    | task job => exact .stays (by simp only [State.advance, hs])
    | calling call => exact .stays (by simp only [State.advance, hs])

theorem Reachable.lapses_leave (h : Reachable s) (panic : Option Panic) :
    Lapses s (s.leave panic) := by
  cases panic with
  | none => exact .stays rfl
  | some panic =>
    have hlast : ∀ pre post, s.frames = pre ++ .closing :: post → post = [] :=
      fun pre post => h.lawful.ordered.stacked.closing_last
    rcases @unwind_overlooked_or κ τ _ stance (fun _ _ _ => rfl) (fun _ _ => rfl)
      (fun _ _ => rfl) panic s.frames s hlast with hsame | ⟨hm, hnil⟩
    · exact .stays hsame
    · have hc := (emptied_of_unwind hlast hm hnil).isClosed h.lawful
      exact .closed ((speaks_unwind panic s.frames s).silent h.silent hc) hc

/-- One step: without receivers, what is attached changes exactly when something is told. -/
theorem Reachable.lapses_after (h : Reachable s) (ha : a.Enabled s)
    (hw : ∀ monitor, a ≠ .watchOn monitor) (hl : s.listener? = none) : Lapses s (s.after a) := by
  cases a with
  | attempt request reply now => exact h.lapses_attempt hl ha
  | poll report =>
    refine .stays ?_
    cases report with
    | ok report => exact @foldl_spurious κ τ _ stance (fun _ _ => rfl) (s.spurious report) s
    | error fault =>
      simp only [State.after, State.poll]
      split <;> rfl
  | abort order =>
    simp only [State.after, State.abort]
    split <;> exact .stays rfl
  | watchOn monitor => exact absurd rfl (hw monitor)
  | close order =>
    simp only [State.after, State.close, State.abort]
    split
    · exact .stays rfl
    · split <;> exact .stays rfl
  | advance release => exact h.lapses_advance hl release
  | leave panic => exact h.lapses_leave panic
  | enqueue task =>
    simp only [State.after, State.enqueue, Readiness.Watch.enqueue, Channel.send]
    split <;> exact .stays rfl
  | takeTask =>
    refine .stays ?_
    simp only [State.after]
    cases hq : s.queue with
    | nil => rw [takeTask_of_nil hq]
    | cons task tasks => rw [takeTask_eq hq]; rfl
  | _ => exact .stays rfl

theorem Lapses.after (h : Lapses s t) (ht : Reachable t) (ha : a.Enabled t)
    (hw : ∀ monitor, a ≠ .watchOn monitor) (hl : t.monitor = s.monitor → t.listener? = none) :
    Lapses s (t.after a) := by
  cases h with
  | stays hst =>
    obtain ⟨hm, hc, ho⟩ : _ ∧ _ ∧ _ := by simpa [stance] using hst
    cases ht.lapses_after ha hw (hl hm) with
    | stays hst' => exact .stays (hst'.trans hst)
    | told hm' hlt => exact .told hm' (ho ▸ hlt)
    | closed hm' hc' => exact .closed hm' hc'
  | told hm hlt =>
    obtain ⟨news, hr⟩ := ht.reports ha
    refine .told ((monitor_cases t hw).elim (·.trans hm) (fun h => h)) ?_
    rw [hr.occasions, List.length_append]
    exact Nat.lt_add_right _ hlt
  | closed hm hc =>
    exact .closed ((monitor_cases t hw).elim (·.trans hm) (fun h => h))
      ((ht.lawful.after ha).2.isClosed hc)

/-- A run: a channel without receivers is attached until something is told. -/
theorem Reachable.lapses_run (h : Reachable s) {rest : List (Action κ τ)} (hp : s.Possible rest)
    (hm : s.monitor = some id) (hlt : id < s.channels.length) (hr : s.receivers id = 0)
    (hw : ∀ monitor, .watchOn monitor ∉ rest) : Lapses s (s.run rest) := by
  have hrun : id < (s.run rest).channels.length ∧ (s.run rest).receivers id = 0 ∧
      Lapses s (s.run rest) := by
    induction rest using List.reverseRecOn with
    | nil => exact ⟨hlt, hr, .stays rfl⟩
    | append_singleton rest a ih =>
      obtain ⟨hp, ha, -⟩ := possible_append.mp hp
      obtain ⟨hlt, hr, hlapse⟩ := ih hp fun monitor hmem => hw monitor (by simp [hmem])
      have ht := h.run hp
      rw [run_snoc]
      refine ⟨Nat.lt_of_lt_of_le hlt (ht.lawful.channels_le a), ?_, hlapse.after ht ha ?_ ?_⟩
      · by_contra hne
        exact ht.lawful.receivers_after (fun _ => ha) hlt hne hr
      · exact fun monitor heq => hw monitor (by simp [heq])
      · intro heq
        rw [listener?, heq, hm, Option.filter_some, if_neg (by simp [hr])]
  exact hrun.2.2

/-- Whether such a channel is still attached can be told from what there was occasion to tell. -/
theorem Reachable.isMonitored_iff (h : Reachable s) {rest : List (Action κ τ)}
    (hp : s.Possible rest) (hm : s.monitor = some id) (hlt : id < s.channels.length)
    (hr : s.receivers id = 0) (hw : ∀ monitor, .watchOn monitor ∉ rest) :
    (s.run rest).isMonitored ↔
      (s.run rest).occasions = s.occasions ∧ ¬ (s.run rest).isClosed := by
  cases h.lapses_run hp hm hlt hr hw with
  | stays hst =>
    obtain ⟨hm', hc, ho⟩ : _ ∧ _ ∧ _ := by simpa [stance] using hst
    have hopen : ¬ s.isClosed := fun hclosed => by simp [h.silent hclosed] at hm
    exact iff_of_true (by rw [isMonitored, hm', hm]; rfl) ⟨ho, hc ▸ hopen⟩
  | told hm' hlt =>
    exact iff_of_false (by simp [isMonitored, hm']) fun heq => absurd heq.1 (by grind)
  | closed hm' hc =>
    exact iff_of_false (by simp [isMonitored, hm']) fun heq => heq.2 hc

end Dialer.InFlight.State
