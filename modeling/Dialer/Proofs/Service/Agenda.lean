import Dialer.Proofs.Service.Channels
import Dialer.Proofs.Service.Return

/-!
# What is left for the worker

Calls leave jobs behind those that are there, and the worker takes the one that waits longest. As
long as it has not given its table up and no panic ended it, nothing else happens to the jobs, and
events go to another channel only with a job that says so.
-/

namespace Dialer.Service

open InFlight.State (Lawful HasReceivers)

variable {κ : Type}

namespace Duty

variable {d : Duty κ} {a : Action κ} {answers : Answers}

/-- What keeps a worker from letting go of the channel that it publishes on. -/
structure Heard (d e : Duty κ) : Prop where
  opened : ∀ id, d.table.monitor = some id → id < d.table.channels.length
  unclosed : ¬ e.table.isClosed
  kept : ∀ id, d.table.monitor = some id → e.table.receivers id ≠ 0

theorem inHand_cases (d : Duty κ) : d.inHand = [] ∨ ∃ job rest,
    d.table.frames = .task job :: rest ∧ d.worker.begun = false ∧ d.inHand = [job] := by
  unfold inHand
  split
  · next job rest hf =>
    cases hb : d.worker.begun with
    | true => exact .inl rfl
    | false => exact .inr ⟨job, rest, hf, rfl, rfl⟩
  · exact .inl rfl

theorem Sound.fits (h : Sound d) (hp : d.worker.panicked = false) (ho : ¬ d.table.isClosed) :
    Fits d := by
  have hpromise := h.staged.promise
  refine ⟨h.staged.runs, h.staged.rests, fun _ => ho, fun hs => ?_, fun hs => ?_⟩
  · rw [hs] at hpromise
    exact hpromise.2.2.2
  · have hs := hs.resolve_right fun hg => ho (h.fallow hg).closed
    rw [hs] at hpromise
    exact (hpromise.1.resolve_left (by simp [hp])).2.2

section Work

variable (h : Fits d) (hl : Lawful d.table)
include h hl

theorem Fits.monitor_after (ha : d.Enabled a) (hh : Heard d (d.after a))
    (hw : ∀ monitor, d.deed? a ≠ some (.watchOn monitor)) :
    (d.after a).table.monitor = d.table.monitor := by
  obtain ⟨hopened, hunclosed, hkept⟩ := hh
  rw [after_table] at hunclosed hkept ⊢
  cases hb : d.deed? a with
  | none => rfl
  | some b =>
    rw [hb] at hunclosed hkept
    exact hl.monitor_after (h.enabled ha hb) (fun monitor heq => hw monitor (heq ▸ hb)) hopened
      hunclosed hkept

theorem Fits.idles_of_inHand (ha : d.Enabled (.work answers)) (hin : d.inHand = []) :
    d.Idles answers := by
  rcases h.jobs_work hl ha with hidles | ⟨job, rest, hf, -, hdeed⟩
  · exact hidles
  · have hb : d.worker.begun = true := by simpa [inHand, hf] using hin
    cases job <;> simp [deed?, hf, hb, Job.deed?] at hdeed

theorem Fits.jobs_taken (ha : d.Enabled (.work answers)) :
    d.jobs = d.inHand ++ (d.work answers).jobs := by
  rcases d.inHand_cases with hin | ⟨job, rest, hf, hb, hin⟩
  · rw [hin, (h.idles_of_inHand hl ha hin).1]
    rfl
  · rw [hin]
    exact (h.jobs_task hl ha hf hb).1

theorem Fits.monitor_work (ha : d.Enabled (.work answers)) (hh : Heard d (d.work answers)) :
    (d.work answers).table.monitor = (d.inHand.head?.bind Job.channel?).or d.table.monitor := by
  rcases d.inHand_cases with hin | ⟨job, rest, hf, hb, hin⟩
  · rw [hin]
    exact h.monitor_after hl ha hh (h.idles_of_inHand hl ha hin).2.2
  · have hdeed := (h.jobs_task hl ha hf hb).2
    rw [hin]
    cases job with
    | watchOn channel =>
      have htable := after_table d (.work answers)
      rw [hdeed] at htable
      exact congrArg InFlight.State.monitor htable
    | dial request => exact h.monitor_after hl ha hh (by simp [hdeed, Job.deed?])
    | halt => exact h.monitor_after hl ha hh (by simp [hdeed, Job.deed?])

end Work

end Duty

namespace State

variable {s t : State κ} {l : Label κ} {thread : Thread}

/-- The job that a step leaves for the worker. -/
def left? (s : State κ) : Label κ → Option (Job κ)
  | .proceed thread _ =>
    match s.point? thread with
    | some (.sending op) => if s.table.isClosed then none else op.job?
    | _ => none
  | _ => none

/-- The job that the worker carries out in a step. -/
def taken? (s : State κ) : Label κ → Option (Job κ)
  | .work _ => s.inHand.head?
  | _ => none

/-! ### As long as the worker is there -/

/-- Somebody holds the service, its worker has not given the table up, and no panic ended it. -/
structure IsUp (s : State κ) : Prop where
  held : s.handles ≠ 0
  unclosed : ¬ s.table.isClosed
  sound : ∀ w, s.worker = some w → w.panicked = false

theorem IsUp.of_after (h : IsUp (s.after l)) (hr : Ruled s) (he : s.Enabled l)
    (hg : (s.after l).generations = s.generations) : IsUp s := by
  have hp := passes_after hr.manned.sound he
  have hl : ∀ thread, ¬ Launched s thread (s.after l) := fun thread hl => by
    have hsucc := hl.generations
    omega
  exact ⟨fun hh => h.held ((acts_after he).handles hh), fun hc => h.unclosed (hp.isClosed hl hc),
    fun w hw => hp.unpanicked hl h.sound hw⟩

theorem IsUp.worker (h : IsUp s) (hr : Ruled s) : ∃ w, s.worker = some w := by
  cases hw : s.worker with
  | none => exact absurd (hr.manned.fallow hw).closed h.unclosed
  | some w => exact ⟨w, rfl⟩

theorem IsUp.not_gone (h : IsUp s) (hr : Ruled s) {w : Worker} (hw : s.worker = some w) :
    w.stage ≠ .gone := fun hg => h.unclosed ((hr.manned.sound w hw).fallow hg).closed

theorem IsUp.fits (h : IsUp s) (hr : Ruled s) {w : Worker} (hw : s.worker = some w) :
    Duty.Fits ⟨s.table, w⟩ := (hr.manned.sound w hw).fits (h.sound w hw) h.unclosed

/-! ### What the calls do to it -/

/-- What the worker is still to do, and where events go until then. -/
def agenda (s : State κ) : List (Job κ) × Option Nat := (s.jobs, s.table.monitor)

theorem agenda_congr (hj : t.jobs = s.jobs) (hm : t.table.monitor = s.table.monitor) :
    t.agenda = s.agenda := by
  rw [agenda, agenda, hj, hm]

theorem agenda_begin (s : State κ) (thread : Thread) (call : Call κ) :
    (s.begin thread call).agenda = s.agenda := by
  cases call with
  | submit request =>
    simp only [begin]
    split <;> rfl
  | monitor =>
    simp only [begin]
    split <;> rfl
  | stop =>
    simp only [begin]
    split <;> rfl
  | release =>
    simp only [begin]
    split
    · cases thread with
      | caller n => rfl
      | worker =>
        simp only [releaseLast]
        split
        · refine agenda_congr (jobs_congr ?_ rfl rfl) rfl
          simp [returns, State.note, onWatch, onWorker, Function.comp_def]
        · rfl
    · rfl
  | _ => rfl

theorem agenda_look {grant : Grant} (op : Operation κ)
    (hg : (s.look thread grant op).generations = s.generations) :
    (s.look thread grant op).agenda = s.agenda := by
  cases op with
  | submit n request =>
    simp only [look]
    split <;> rfl
  | monitor channel =>
    simp only [look]
    split <;> rfl
  | start =>
    simp only [look] at hg ⊢
    split at hg
    · next hrunning =>
      rw [if_pos hrunning]
      rfl
    · next hrunning =>
      rw [if_neg hrunning]
      rcases htried : s.tryLaunch grant with ⟨result, u⟩
      rw [htried] at hg
      rcases tryLaunch_cases s grant with hu | hu <;> rw [htried] at hu <;> subst hu
      · rfl
      · exact absurd hg (Nat.succ_ne_self _)
  | stop =>
    simp only [look]
    split <;> rfl
  | _ => rfl

theorem agenda_send (s : State κ) (thread : Thread) (op : Operation κ) :
    (s.send thread op).agenda =
      (s.jobs ++ (if s.table.isClosed then none else op.job?).toList, s.table.monitor) := by
  have hposted : ∀ {job : Job κ}, Posted s job { s with table := s.table.after (.enqueue job) } →
      ({ s with table := s.table.after (.enqueue job) } : State κ).agenda =
        (s.jobs ++ (if s.table.isClosed then none else some job).toList, s.table.monitor) := by
    intro job hpost
    rw [if_neg hpost.opened, agenda, hpost.jobs]
    exact congrArg _ (front_congr (front_enqueue s.table job)).1
  have hkept : s.table.isClosed → ∀ job : Option (Job κ), s.agenda =
      (s.jobs ++ (if s.table.isClosed then none else job).toList, s.table.monitor) := by
    intro hc job
    rw [if_pos hc, Option.toList_none, List.append_nil]
    rfl
  cases op with
  | submit n request =>
    simp only [send]
    rcases enqueue_cases s (.dial request) with ⟨heq, h⟩ | ⟨heq, hc⟩ <;> rw [heq]
    · exact hposted h
    · exact hkept hc _
  | monitor channel =>
    simp only [send]
    rcases enqueue_cases s (.watchOn channel) with ⟨heq, h⟩ | ⟨heq, hc⟩ <;> rw [heq]
    · exact hposted h
    · exact hkept hc _
  | stop =>
    simp only [send]
    rcases enqueue_cases s .halt with ⟨heq, h⟩ | ⟨heq, hc⟩ <;> rw [heq]
    · exact hposted h
    · have hlowered : (s.onWorker fun w => { w with flag := false }).agenda = s.agenda :=
        agenda_congr (jobs_congr (by simp [onWorker, Function.comp_def]) rfl rfl) rfl
      exact hlowered.trans (hkept hc _)
  | _ => simp [send, Operation.job?, agenda]

section After

variable (hr : Ruled s) (ho : Opened s) (he : s.Enabled l)
include hr ho he

theorem IsUp.onDuty_of_after (h : IsUp s) (h' : IsUp (s.after l))
    (hk : HasReceivers (s.after l).table) {a : Duty.Action κ}
    (hl : s.after l = s.onDuty (·.after a)) {w : Worker} (hw : s.worker = some w) :
    (s.after l).agenda = ((Duty.after ⟨s.table, w⟩ a).jobs,
        (Duty.after ⟨s.table, w⟩ a).table.monitor) ∧
      Duty.Heard ⟨s.table, w⟩ (Duty.after ⟨s.table, w⟩ a) := by
  have hduty : s.onDuty (·.after a) = { s with
      table := (Duty.after ⟨s.table, w⟩ a).table
      worker := some (Duty.after ⟨s.table, w⟩ a).worker } := by
    simp only [onDuty, hw]
    rw [if_neg fun hn => h.held hn.1]
  have hle := (acts_after he).tunes.channels_le hr.lawful
  rw [hl, hduty] at h' hk hle ⊢
  refine ⟨by rw [agenda, jobs_eq rfl], ho.monitor, h'.unclosed, fun id hm => ?_⟩
  exact hk id (Nat.lt_of_lt_of_le (ho.monitor id hm) hle)

/-- One step: a job that is left comes last and one that is taken came first, and with it events go
to the channel that it names, if it names one. -/
theorem IsUp.agenda_after (h : IsUp s) (h' : IsUp (s.after l))
    (hg : (s.after l).generations = s.generations) (hk : HasReceivers (s.after l).table) :
    s.jobs ++ (s.left? l).toList = (s.taken? l).toList ++ (s.after l).jobs ∧
      (s.after l).table.monitor = ((s.taken? l).bind Job.channel?).or s.table.monitor := by
  have hsame : (s.after l).agenda = s.agenda → s.left? l = none → s.taken? l = none →
      s.jobs ++ (s.left? l).toList = (s.taken? l).toList ++ (s.after l).jobs ∧
        (s.after l).table.monitor = ((s.taken? l).bind Job.channel?).or s.table.monitor := by
    intro heq hleft htaken
    obtain ⟨hj, hm⟩ := Prod.mk.inj heq
    rw [hleft, htaken, hj, hm, Option.toList_none, List.append_nil]
    exact ⟨rfl, rfl⟩
  cases l with
  | begin thread call => exact hsame (agenda_begin s thread call) rfl rfl
  | proceed thread grant =>
    cases hp : s.point? thread with
    | none => exact hsame (by simp only [after, proceed, hp]) (by simp only [left?, hp]) rfl
    | some p =>
      cases p with
      | wanting op =>
        exact hsame (by simp only [after, proceed, hp]; rfl) (by simp only [left?, hp]) rfl
      | holding op =>
        have hlook : s.after (.proceed thread grant) = s.look thread grant op := by
          simp only [after, proceed, hp]
        exact hsame (hlook ▸ agenda_look op (hlook ▸ hg)) (by simp only [left?, hp]) rfl
      | sending op =>
        obtain ⟨hj, hm⟩ := Prod.mk.inj (agenda_send s thread op)
        simp only [after, proceed, left?, hp]
        exact ⟨hj.symm, hm⟩
      | joining =>
        obtain ⟨w, hw⟩ := h.worker hr
        refine absurd ?_ (h.not_gone hr hw)
        simpa [Enabled, Allows, canProceed, hp, isWorkerGone, hw] using he.2
      | leaving access result =>
        refine hsame ?_ (by simp only [left?, hp]) rfl
        simp only [after, proceed, hp, finish]
        split <;> rfl
  | giveUp =>
    refine hsame ?_ rfl rfl
    simp only [after, giveUp]
    cases s.point? .worker with
    | none => rfl
    | some p =>
      cases p with
      | wanting op => cases op <;> rfl
      | _ => rfl
  | work answers =>
    obtain ⟨w, hw⟩ := h.worker hr
    obtain ⟨heq, hheard⟩ := h.onDuty_of_after hr ho he h' hk (a := .work answers) rfl hw
    obtain ⟨hj, hm⟩ := Prod.mk.inj heq
    have hcan : (Duty.mk s.table w).Enabled (.work answers) := by
      simpa [Duty.Enabled, Allows, canWork, hw] using he.2
    have hin : s.inHand = Duty.inHand ⟨s.table, w⟩ := by simp only [inHand, hw]
    have htaken : (s.taken? (.work answers)).toList = Duty.inHand ⟨s.table, w⟩ := by
      rw [taken?, hin]
      rcases Duty.inHand_cases ⟨s.table, w⟩ with h0 | ⟨job, rest, -, -, h1⟩
      · rw [h0]; rfl
      · rw [h1]; rfl
    refine ⟨?_, ?_⟩
    · rw [htaken, hj, jobs_eq hw]
      exact (List.append_nil _).trans ((h.fits hr hw).jobs_taken hr.lawful hcan)
    · rw [hm, taken?, hin]
      exact (h.fits hr hw).monitor_work hr.lawful hcan hheard
  | leave panic =>
    obtain ⟨w, hw⟩ := h.worker hr
    obtain ⟨heq, hheard⟩ := h.onDuty_of_after hr ho he h' hk (a := .leave panic) rfl hw
    have hforeign : (Duty.mk s.table w).isForeign := by simpa [isForeign, hw] using he.2.1
    refine hsame (heq.trans (Prod.ext ?_ ?_)) rfl rfl
    · rw [agenda, jobs_eq hw]
      exact (h.fits hr hw).jobs_leave hr.lawful hforeign panic
    · exact (h.fits hr hw).monitor_after hr.lawful (a := .leave panic) hforeign hheard
        (by simp [Duty.deed?])
  | _ => exact hsame rfl rfl rfl

end After

end State

end Dialer.Service
