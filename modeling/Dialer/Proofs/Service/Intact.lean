import Dialer.Proofs.InFlight.Tidings
import Dialer.Proofs.Service.Agenda
import Dialer.Proofs.Service.Lifecycle

/-!
# A service that nothing breaks

As long as no panic ends a worker, nothing is left of the jobs once the table is given up, and
whatever there is occasion for is told at once on the channel that events go to.
-/

namespace Dialer.Service

open InFlight.State (HasReceivers Addressed Conveys Recorded)

variable {κ : Type}

namespace Duty

variable {d : Duty κ} {a : Action κ} {b : InFlight.Action (Tagged κ) (Job κ)}

theorem jobs_of_deed? (hb : d.deed? a = some b) {request : Request (Tagged κ)}
    (hr : b.request? = some request) : d.jobs = .dial request :: d.table.queue := by
  cases a with
  | work answers =>
    simp only [deed?] at hb
    split at hb
    · split at hb
      · simp at hb
      · cases hs : d.worker.stage <;> simp [hs, Stage.deed?] at hb <;> subst hb <;>
          simp [InFlight.Action.request?] at hr
    · next job rest hf =>
      split at hb
      · obtain rfl := Option.some.inj hb
        simp [InFlight.Action.request?] at hr
      · next hbegun =>
        cases job <;> simp [Job.deed?] at hb <;> subst hb <;>
          simp [InFlight.Action.request?] at hr
        rw [jobs_of_task hf (by simpa using hbegun), hr.2]
    · simp at hb
    · obtain rfl := Option.some.inj hb
      simp [InFlight.Action.request?] at hr
  | leave panic =>
    obtain rfl := Option.some.inj hb
    simp [InFlight.Action.request?] at hr
  | enqueue job =>
    obtain rfl := Option.some.inj hb
    simp [InFlight.Action.request?] at hr
  | lower => cases hb

theorem Sound.jobs_of_closed (h : Sound d) (hp : d.worker.panicked = false)
    (hc : d.table.isClosed) : d.jobs = [] := by
  have hframes := (h.kept.lawful.ordered.closed hc).2
  rw [jobs_of_idle fun job rest hf => ?_]
  · exact (h.queue_of_closed hc).resolve_left (by simp [hp])
  · have htask := hframes (.task job) (by simp [hf])
    simp at htask

/-- All that is left to do with a table that was given up is to come to the end of that. -/
theorem Sound.enabled_of_closed (h : Sound d) (hc : d.table.isClosed) (ha : d.Enabled a)
    (hb : d.deed? a = some b) : (∃ order, b = .close order) ∨ b.Enabled d.table := by
  have hframes := (h.kept.lawful.ordered.closed hc).2
  cases a with
  | work answers =>
    cases hf : d.table.frames with
    | nil =>
      simp only [deed?, hf] at hb
      split at hb
      · simp at hb
      · have hpromise := h.staged.promise
        cases hs : d.worker.stage <;> rw [hs] at hb hpromise <;>
          simp only [Stage.deed?, Option.some.injEq] at hb
        case close => exact .inl ⟨answers.order, hb.symm⟩
        case head => simp at hb
        case gone => simp at hb
        case dead => simp at hb
        all_goals exact absurd hc (hpromise.isSound (by simp) (by simp) (by simp)).2
    | cons f rest =>
      obtain rfl := hframes f (by simp [hf])
      simp only [deed?, hf] at hb
      obtain rfl := Option.some.inj hb
      exact .inr (by simp [InFlight.Action.Enabled, InFlight.State.isForeign, hf])
  | leave panic =>
    obtain ⟨call, rest, hf⟩ := exists_calling ha
    have hcalling := hframes (.calling call) (by simp [hf])
    simp at hcalling
  | enqueue job =>
    obtain rfl := Option.some.inj hb
    exact .inr trivial
  | lower => cases hb

theorem Sound.recorded (h : Sound d) (hp : d.worker.panicked = false) (ha : d.Enabled a)
    (hb : d.deed? a = some b) : Recorded d.table b (d.table.after b) := by
  by_cases hc : d.table.isClosed
  · rcases h.enabled_of_closed hc ha hb with ⟨order, rfl⟩ | hen
    · exact .quiet rfl (InFlight.State.quiet_close _ order) (InFlight.State.close_record _ order)
    · exact h.kept.lawful.recorded hen
  · exact h.kept.lawful.recorded ((h.fits hp hc).enabled ha hb)

end Duty

namespace State

variable {s t : State κ} {l : Label κ}

/-- Somebody holds the service, nobody stopped receiving, and no panic ended a worker. -/
structure Intact (s : State κ) : Prop where
  held : s.handles ≠ 0
  kept : HasReceivers s.table
  contained : ∀ g, ¬ s.Crashed g

namespace Intact

theorem unpanicked (h : Intact s) {w : Worker} (hw : s.worker = some w) : w.panicked = false :=
  Bool.eq_false_iff.mpr fun hp => h.contained _ (.inr ⟨w, hw, rfl, hp⟩)

theorem isUp (h : Intact s) (ho : ¬ s.table.isClosed) : IsUp s :=
  ⟨h.held, ho, fun _ hw => h.unpanicked hw⟩

theorem of_after (h : Intact (s.after l)) (hr : Ruled s) (he : s.Enabled l) : Intact s := by
  have hpass := passes_after hr.manned.sound he
  have hacts := acts_after he
  refine ⟨fun hh => h.held (hacts.handles hh), hacts.tunes.hasReceivers hr.lawful h.kept,
    fun g hc => ?_⟩
  rcases hc with hj | ⟨w, hw, rfl, hp⟩
  · exact h.contained g (.inl (hpass.joins _ hj))
  · by_cases hl : ∃ thread, Launched s thread (s.after l)
    · obtain ⟨thread, hl⟩ := hl
      obtain ⟨w', hw', -, hj⟩ := (hr.guarded.idle_of_launched hl).resolve_left (by simp [hw])
      obtain rfl := Option.some.inj (hw.symm.trans hw')
      exact h.contained _ (.inl (hpass.joins _ (hp ▸ hj)))
    · have hun := hpass.unpanicked (fun thread hl' => hl ⟨thread, hl'⟩)
        (fun w' hw' => h.unpanicked hw') hw
      simp [hun] at hp

end Intact

/-- Whether a service is intact can be looked up. -/
theorem intact_iff : Intact s ↔ s.handles ≠ 0 ∧
    (∀ channel ∈ s.table.channels, channel.receivers ≠ 0) ∧ (∀ j ∈ s.joins, j.2 = false) ∧
      ∀ w ∈ s.worker, w.panicked = false := by
  constructor
  · intro h
    refine ⟨h.held, fun channel hm => ?_, fun j hj => ?_, fun w hw => h.unpanicked hw⟩
    · obtain ⟨id, hlt, rfl⟩ := List.mem_iff_getElem.mp hm
      simpa [InFlight.State.receivers, hlt] using h.kept id hlt
    · exact Bool.eq_false_iff.mpr fun hp => h.contained j.1 (.inl (hp ▸ hj))
  · rintro ⟨hh, hk, hj, hw⟩
    refine ⟨hh, fun id hlt => ?_, ?_⟩
    · simpa [InFlight.State.receivers, hlt] using hk _ (List.getElem_mem hlt)
    · rintro g (hm | ⟨w, hm, -, hp⟩)
      · cases hj _ hm
      · simp [hw w hm] at hp

instance : Decidable (Intact s) := decidable_of_iff _ intact_iff.symm

theorem Reachable.jobs_of_unmanned (hs : Reachable s) (hw : s.worker = none) : s.jobs = [] := by
  induction hs with
  | initial settings => rfl
  | @step s l hs he ih =>
    have hr := hs.ruled
    have hpass := passes_after hr.manned.sound he
    have hl : ∀ thread, ¬ Launched s thread (s.after l) := fun thread hl => by
      simp [hl.worker] at hw
    have hold : s.worker = none := by
      have hsome := (hpass.worker hl).1
      rw [hw] at hsome
      exact Option.not_isSome_iff_eq_none.mp (by simp [← hsome])
    refine List.eq_nil_iff_forall_not_mem.mpr fun job hm => ?_
    rcases hpass.mem_jobs hm with hm | ⟨thread, op, hp, -⟩
    · simp [ih hold] at hm
    · have hflag := (hr.guarded.sending hp).1
      simp [flag, hold] at hflag

theorem Reachable.jobs_of_closed (hs : Reachable s) (h : Intact s) (hc : s.table.isClosed) :
    s.jobs = [] := by
  cases hw : s.worker with
  | none => exact hs.jobs_of_unmanned hw
  | some w =>
    rw [jobs_eq hw]
    exact (hs.ruled.manned.sound w hw).jobs_of_closed (h.unpanicked hw) hc

theorem Opened.listener?_eq (ho : Opened s) (hk : HasReceivers s.table) :
    s.table.listener? = s.table.monitor := by
  cases hm : s.table.monitor with
  | none => rw [InFlight.State.listener?, hm]; rfl
  | some c => exact InFlight.State.listener?_of_monitor hm (hk c (ho.monitor c hm))

/-- From `s` to `t` there is occasion for some news, which are told where events go. A table that
was given up tells nothing; a request that is issued was first among the jobs, and it is introduced
first. -/
structure Tells (s : State κ) (news : List Event) (t : State κ) : Prop where
  conveys : Conveys s.table s.table.monitor news t.table
  silent : s.table.isClosed → news = []
  opening : ∀ i ∈ t.table.issues, i ∉ s.table.issues → ∃ jobs event,
    s.jobs = .dial i.2 :: jobs ∧ news.head? = some event ∧ event.Introduces i.2

theorem tells_nothing (hr : t.table.record = s.table.record) : Tells s [] t := by
  have hissues : t.table.issues = s.table.issues := by
    rw [InFlight.State.issues_eq, hr, ← InFlight.State.issues_eq]
  exact ⟨InFlight.State.conveys_nothing _ hr, fun _ => rfl,
    fun i hm hn => absurd (hissues ▸ hm) hn⟩

/-- One step tells of whatever there is occasion for. -/
theorem Reachable.tells_after (hs : Reachable s) (ha : Addressed s.table) (he : s.Enabled l)
    (hi : Intact (s.after l)) :
    Addressed (s.after l).table ∧ ∃ news, Tells s news (s.after l) := by
  have hr := hs.ruled
  have hold := hi.of_after hr he
  cases (acts_after he).tunes with
  | same hf =>
    obtain ⟨-, -, -, hentries, hrecord⟩ := front_congr hf
    exact ⟨ha.congr hentries hrecord, [], tells_nothing hrecord⟩
  | launched hf =>
    obtain ⟨-, -, -, hentries, hrecord⟩ := front_congr hf
    refine ⟨fun p hp => ?_, [], tells_nothing hrecord⟩
    rw [hentries] at hp
    cases hp
  | @received a hreceive _ hf =>
    obtain ⟨-, -, -, hentries, hrecord⟩ := front_congr hf
    have hsame : (s.table.after a).entries = s.table.entries ∧
        (s.table.after a).record = s.table.record := by
      cases a <;> first | exact ⟨rfl, rfl⟩ | cases hreceive
    exact ⟨ha.congr (hentries.trans hsame.1) (hrecord.trans hsame.2), [],
      tells_nothing (hrecord.trans hsame.2)⟩
  | @worked w x a hw hx hdeed hf =>
    obtain ⟨-, -, -, hentries, hrecord⟩ := front_congr hf
    have hsound := hr.manned.sound w hw
    have hrec := hsound.recorded (hold.unpanicked hw) hx hdeed
    obtain ⟨news, hrep⟩ := hrec.reports ha hsound.kept.tallied
    refine ⟨(hrec.addressed ha).congr hentries hrecord, news, ?_, fun hc => ?_, fun i hm hn => ?_⟩
    · rw [← hs.opened.listener?_eq hold.kept]
      exact hrep.toConveys.congr hrecord
    · by_contra hne
      rcases hrep.why hne with hreq | hentry
      · obtain ⟨request, hreq⟩ := Option.isSome_iff_exists.mp hreq
        have hjobs := Duty.jobs_of_deed? hdeed hreq
        rw [← jobs_eq hw, hs.jobs_of_closed hold hc] at hjobs
        simp at hjobs
      · exact hentry (hr.lawful.ordered.closed hc).1
    · have hissues : (s.after l).table.issues = (s.table.after a).issues := by
        rw [InFlight.State.issues_eq, hrecord, ← InFlight.State.issues_eq]
      rw [hissues, hrep.issues, List.mem_append] at hm
      have hm := hm.resolve_right hn
      rw [Option.mem_toList, Option.map_eq_some_iff] at hm
      obtain ⟨request, hreq, rfl⟩ := hm
      obtain ⟨event, hhead, hintro⟩ := hrep.opening request hreq
      exact ⟨_, event, (jobs_eq hw).trans (Duty.jobs_of_deed? hdeed hreq), hhead, hintro⟩

end State

end Dialer.Service
