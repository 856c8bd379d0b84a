import Dialer.Proofs.Service.Deeds

/-!
# A worker that returns has resolved what was submitted

Whatever jobs are left for a worker, and whenever they are left: if its loop comes to an end and no
panic ends the worker before, then every request that was submitted before the last draining was
over was issued once, in order, and called back once. Those that were in flight and neither reported
to be over nor out of time by the end of the loop are called back as aborted, and no others.
-/

namespace Dialer.Service

open InFlight (Frame Cause batchOf requests)
open InFlight.State (Lawful Quiet Covered Effect IsComplete Accounted Judged Tracked Decided
  lawful_of_empty registered_of_empty zero_ne_wakeToken)
open Readiness (Token)

variable {κ : Type}

/-- The request that a job issues. One that has not both continuations is dropped. -/
def Job.issue? : Job κ → Option (Request (Tagged κ))
  | .dial request => request.continuations?.map fun _ => request
  | _ => none

theorem Job.deed?_request? (answers : Answers) (job : Job κ) :
    (job.deed? answers).bind InFlight.Action.request? = job.issue? := by
  cases job <;> rfl

/-- Whether a stage follows the loop. -/
def Stage.isLate : Stage → Bool
  | .lastServe => true
  | .abort => true
  | .close => true
  | .gone => true
  | .dead => true
  | _ => false

theorem Stage.isLate_following {stage : Stage} (h : stage.isLate) (flag : Bool) :
    (stage.following flag).isLate := by
  cases stage <;> simp [Stage.isLate] at h <;> rfl

namespace Duty

/-- Whether the draining that follows the loop is over. -/
def isServed (d : Duty κ) : Bool :=
  match d.worker.stage with
  | .lastServe => d.worker.entered && d.table.frames.isEmpty
  | .abort => true
  | .close => true
  | .gone => true
  | .dead => true
  | _ => false

/-- The request that an action submits in time. -/
def submission? (d : Duty κ) : Action κ → Option (Request (Tagged κ))
  | .enqueue job => if d.isServed then none else job.issue?
  | _ => none

/-- The requests that a sequence of actions submits in time. -/
def submissions (d : Duty κ) : List (Action κ) → List (Request (Tagged κ))
  | [] => []
  | a :: rest => (d.submission? a).toList ++ (d.after a).submissions rest

/-- The requests that are still to be issued. Those that come too late never are. -/
def outstanding (d : Duty κ) : List (Request (Tagged κ)) :=
  if d.isServed then [] else d.jobs.filterMap Job.issue?

/-- Whether the worker has aborted what was left after its loop, and no panic ended it before. -/
def HasReturned (d : Duty κ) : Prop :=
  d.worker.panicked = false ∧ (d.worker.stage = .close ∨ d.worker.stage = .gone)

/-- A worker at the beginning of its loop, with a table on which nothing happened yet. What it finds
in its queue is left there by the first actions. -/
def starting (capacity : Nat) (nodelay : Bool) (monitor : Option Nat)
    (channels : List (Channel Event)) : Duty κ :=
  { table := { InFlight.State.initial capacity nodelay with
      monitor := monitor, channels := channels } }

variable {d e : Duty κ} {a : Action κ} {b : InFlight.Action (Tagged κ) (Job κ)}
  {actions : List (Action κ)} {answers : Answers}

theorem submissions_snoc (d : Duty κ) (actions : List (Action κ)) (a : Action κ) :
    d.submissions (actions ++ [a]) =
      d.submissions actions ++ ((d.run actions).submission? a).toList := by
  induction actions generalizing d with
  | nil => simp [submissions, run]
  | cons x xs ih => simp [submissions, ih, run]

/-! ### Jobs are carried out in their order -/

/-- A step in which the worker carries no job out. -/
def Idles (d : Duty κ) (answers : Answers) : Prop :=
  (d.work answers).jobs = d.jobs ∧
    (d.deed? (.work answers)).bind InFlight.Action.request? = none ∧
      ∀ monitor, d.deed? (.work answers) ≠ some (.watchOn monitor)

section Work

variable (h : Fits d) (hl : Lawful d.table)

include h hl in
theorem Fits.idles_between (hf : d.table.frames = []) : d.Idles answers := by
  have hwork : d.work answers = d.workBetween answers := by simp only [Duty.work, hf]
  have hjobs : d.jobs = d.table.queue := jobs_of_idle (by simp [hf])
  refine ⟨?_, ?_, ?_⟩
  · rcases h.between_cases hl hf answers with ⟨heq, -⟩ | ⟨heq, -⟩ | ⟨table, heq, he, -⟩
    · rw [hwork, heq]
    · rw [hwork, heq, hjobs]
      exact jobs_of_idle (by simp [hf, goTo])
    · rw [hwork, heq, hjobs]
      exact (jobs_of_idle (d := d.goOn table) he.idle).trans he.queue
  · simp only [deed?, hf]
    split
    · rfl
    · cases d.worker.stage <;> rfl
  · simp only [deed?, hf]
    split
    · simp
    · cases d.worker.stage <;> simp [Stage.deed?]

/-- A loop of the table that leaves the queue alone. -/
theorem idles_loop {f : Frame (Tagged κ) (Job κ)} {rest : List (Frame (Tagged κ) (Job κ))}
    (hf : d.table.frames = f :: rest) (hloop : f.isForeign = false)
    (hjobs : (d.stay (d.table.advance answers.release) d.worker.begun).jobs = d.jobs) :
    d.Idles answers := by
  obtain ⟨hwork, hdeed⟩ := work_of_loop hf hloop answers
  exact ⟨hwork ▸ hjobs, by rw [hdeed]; rfl, by simp [hdeed]⟩

include h hl in
theorem Fits.jobs_task (ha : d.Enabled (.work answers)) {job : Job κ}
    {rest : List (Frame (Tagged κ) (Job κ))} (hf : d.table.frames = .task job :: rest)
    (hb : d.worker.begun = false) : d.jobs = job :: (d.work answers).jobs ∧
      d.deed? (.work answers) = job.deed? answers := by
  have hwork : d.work answers = (d.perform answers job).setBegun true := by
    simp only [Duty.work, hf, hb]
    rfl
  have hdeed : d.deed? (.work answers) = job.deed? answers := by simp [deed?, hf, hb]
  have hqueue : (d.perform answers job).table.queue = d.table.queue := by
    cases job with
    | dial request =>
      exact (hl.attempt_frames (h.enabled ha hdeed).2.2 request _ _).1
    | watchOn channel => rfl
    | halt => rfl
  refine ⟨?_, hdeed⟩
  rw [hwork, jobs_of_task hf hb, jobs_of_begun (d := (d.perform answers job).setBegun true) rfl]
  exact congrArg _ hqueue.symm

include h hl in
theorem Fits.jobs_work (ha : d.Enabled (.work answers)) : d.Idles answers ∨
    ∃ job rest, d.table.frames = .task job :: rest ∧ d.jobs = job :: (d.work answers).jobs ∧
      d.deed? (.work answers) = job.deed? answers := by
  cases hf : d.table.frames with
  | nil => exact .inl (h.idles_between hl hf)
  | cons f rest =>
    cases f with
    | task job =>
      obtain ⟨hserving, taken, rfl⟩ := h.runs.of_task hf
      cases hb : d.worker.begun with
      | true =>
        have hwork : d.work answers = d.stay (d.table.leave none) false := by
          simp only [Duty.work, hf, hb]
          rfl
        refine .inl ⟨?_, by simp [deed?, hf, hb, InFlight.Action.request?], by simp [deed?, hf, hb]⟩
        exact hwork ▸ jobs_stay (jobs_of_begun hb) (by simp [InFlight.State.leave, hf]) rfl
      | false => exact .inr ⟨job, _, rfl, h.jobs_task hl ha hf hb⟩
    | calling call =>
      have hw : d.canWork := ha
      simp [canWork, hf] at hw
    | settling batch =>
      refine .inl (idles_loop hf rfl (jobs_stay (jobs_of_idle (by simp [hf]))
        (fun job rest hfr => ?_) (hl.advance_settling_frames hf _).1))
      have hserving := ((h.settling hl hf answers.release).runs.of_task hfr).1
      have hserving : d.worker.stage.work = .serving := hserving
      rcases (h.runs.of_settling hf).2 with ⟨hw, -⟩ | ⟨hw, -⟩ <;> simp [hserving] at hw
    | draining taken =>
      obtain ⟨-, rfl, hbegun⟩ := h.runs.of_draining hf
      have hold : d.jobs = d.table.queue := jobs_of_idle (by simp [hf])
      refine .inl (idles_loop hf rfl ?_)
      rcases InFlight.State.advance_draining_frames hf answers.release with
        ⟨hqueue, hqueue', hfr⟩ | ⟨job, hqueue, hfr⟩
      · exact jobs_stay hold (by simp [hfr]) (hqueue'.trans hqueue.symm)
      · rw [hold, hqueue]
        exact jobs_of_task (d := d.stay _ d.worker.begun) hfr hbegun
    | closing =>
      obtain ⟨-, rfl, -⟩ := h.runs.of_closing hf
      exact .inl (idles_loop hf rfl (jobs_stay (jobs_of_idle (by simp [hf]))
        (by simp [InFlight.State.advance, hf]) (InFlight.State.advance_closing_queue hf _)))

include h in
theorem Fits.jobs_leave (hl : Lawful d.table) (hn : d.isForeign) (panic : Option Panic) :
    (d.leave panic).jobs = d.jobs := by
  obtain ⟨call, rest, hf⟩ := exists_calling hn
  have hqueue := InFlight.State.leave_queue d.table panic
  have hold : d.jobs = d.table.queue := jobs_of_idle (by simp [hf])
  rcases leave_cases h.runs hl hf panic with ⟨heq, -, hleft⟩ | ⟨-, heq, hnil⟩
  · rw [heq, hold, ← hqueue]
    rcases h.runs.of_calling hf with ⟨-, -, batch, rfl⟩ | ⟨hbegun, -, job, taken, rfl⟩ |
      ⟨-, -, batch, rfl⟩
    · exact jobs_of_idle (by simp [resume, Duty.stay, hleft.resolve_right (by simp)])
    · rcases hleft with hfr | ⟨_, _, -, hfr⟩
      · exact jobs_of_begun (by simp [resume, Duty.stay, hasJob, hbegun, hfr])
      · exact jobs_of_idle (by simp [resume, Duty.stay, hfr])
    · exact jobs_of_idle (by simp [resume, Duty.stay, hleft.resolve_right (by simp)])
  · rw [heq, hold, ← hqueue]
    exact jobs_of_idle (by simp [escape, hnil])

end Work

/-! ### The last draining -/

theorem isServed_congr (hs : e.worker.stage = d.worker.stage)
    (hl : d.worker.stage = .lastServe → e.isServed = d.isServed) : e.isServed = d.isServed := by
  by_cases hlast : d.worker.stage = .lastServe
  · exact hl hlast
  · cases hst : d.worker.stage <;> simp [isServed, hs, hst]
    exact absurd hst hlast

theorem isServed_of_frames (hs : d.worker.stage = .lastServe) (hne : d.table.frames ≠ []) :
    d.isServed = false := by
  simp [isServed, hs, hne]

theorem Fits.not_task_of_isServed (h : Fits d) (hserved : d.isServed) {job : Job κ}
    {rest : List (Frame (Tagged κ) (Job κ))} : d.table.frames ≠ .task job :: rest := by
  intro hf
  have hserving := (h.runs.of_task hf).1
  cases hs : d.worker.stage <;> simp [hs, Stage.work] at hserving <;>
    simp [isServed, hs, hf] at hserved

theorem work_stage (hne : d.table.frames ≠ []) (answers : Answers) :
    (d.work answers).worker.stage = d.worker.stage := by
  simp only [work]
  split
  · exact absurd ‹_› hne
  · next job rest hf =>
    split
    · rfl
    · cases job <;> rfl
  · rfl
  · rfl

section Served

variable (h : Fits d) (hl : Lawful d.table)
include h hl

theorem Fits.jobs_of_drained (ha : d.Enabled (.work answers)) (hs : d.worker.stage.work = .serving)
    (hne : d.table.frames ≠ []) (hnil : (d.work answers).table.frames = []) :
    (d.work answers).jobs = [] := by
  have hruns := h.runs
  rw [hs] at hruns
  obtain ⟨f, rest, hf⟩ := List.exists_cons_of_ne_nil hne
  cases f with
  | task job =>
    -- A job that is carried out is in hand still, and one that is over leaves the draining.
    have hbegun := (h.task hl hf ha).runs.begun_of_nil hnil
    obtain ⟨-, taken, rfl⟩ := hruns.of_task hf
    cases hb : d.worker.begun with
    | true => simp [Duty.work, hf, hb, setBegun, InFlight.State.leave] at hnil
    | false => simp [Duty.work, hf, hb, setBegun] at hbegun
  | draining taken =>
    obtain ⟨-, rfl, -⟩ := hruns.of_draining hf
    rw [(work_of_loop hf rfl answers).1] at hnil ⊢
    rcases InFlight.State.advance_draining_frames hf answers.release with
      ⟨-, hqueue, hfr⟩ | ⟨job, -, hfr⟩
    · exact (jobs_of_idle (d := d.stay _ d.worker.begun) (by simp [Duty.stay, hfr])).trans hqueue
    · exact absurd (hfr.symm.trans hnil) (by simp)
  | calling call =>
    have hw : d.canWork := ha
    simp [canWork, hf] at hw
  | settling batch => rcases hruns.of_settling hf with ⟨-, ⟨hw, -⟩ | ⟨hw, -⟩⟩ <;> cases hw
  | closing => cases (hruns.of_closing hf).1

theorem Fits.isServed_work (ha : d.Enabled (.work answers)) :
    (d.work answers).isServed = d.isServed ∨ (d.work answers).jobs = [] := by
  by_cases hnil : d.table.frames = []
  · refine .inl ?_
    have hwork : d.work answers = d.workBetween answers := by simp only [Duty.work, hnil]
    rw [hwork]
    rcases h.between_cases hl hnil answers with
      ⟨heq, -⟩ | ⟨heq, hs, -⟩ | ⟨table, heq, he, hentered⟩
    · rw [heq]
    · rw [heq]
      cases hst : d.worker.stage <;> cases hflag : d.worker.flag <;>
        simp [isServed, goTo, hst, hflag, Stage.following, hnil] <;> simpa [hst] using hs
    · rw [heq]
      refine isServed_congr rfl fun hs => ?_
      simp [isServed, goOn, hs, hentered, he.served hs]
  · by_cases hs : d.worker.stage = .lastServe
    · have hs' := (work_stage hnil answers).trans hs
      by_cases hnil' : (d.work answers).table.frames = []
      · exact .inr (h.jobs_of_drained hl ha (by rw [hs]; rfl) hnil hnil')
      · exact .inl ((isServed_of_frames hs' hnil').trans (isServed_of_frames hs hnil).symm)
    · exact .inl (isServed_congr (work_stage hnil answers) fun hlast => absurd hlast hs)

theorem Fits.leave_frames_ne_nil (hserving : d.worker.stage.work = .serving) (hn : d.isForeign)
    {panic : Option Panic} (hp : (d.leave panic).worker.panicked = false) :
    (d.leave panic).table.frames ≠ [] := by
  obtain ⟨call, rest, hf⟩ := exists_calling hn
  rw [leave_table]
  rcases leave_cases h.runs hl hf panic with ⟨-, -, hleft⟩ | ⟨-, heq, -⟩
  · rcases h.runs.of_calling hf with ⟨-, hw, -⟩ | ⟨-, -, job, taken, rfl⟩ | ⟨-, hw, -⟩
    · simp [hserving] at hw
    · rcases hleft with hfr | ⟨_, _, -, hfr⟩ <;> simp [hfr]
    · simp [hserving] at hw
  · simp [heq, escape] at hp

theorem Fits.isServed_leave (hn : d.isForeign) {panic : Option Panic}
    (hp : (d.leave panic).worker.panicked = false) : (d.leave panic).isServed = d.isServed := by
  obtain ⟨call, rest, hf⟩ := exists_calling hn
  rcases leave_cases h.runs hl hf panic with ⟨heq, -⟩ | ⟨-, heq, -⟩
  · have hstage : (d.leave panic).worker.stage = d.worker.stage := by rw [heq]; rfl
    refine isServed_congr hstage fun hs => ?_
    have hne := h.leave_frames_ne_nil hl (by rw [hs]; rfl) hn hp
    exact (isServed_of_frames (hstage.trans hs) hne).trans
      (isServed_of_frames hs (by simp [hf])).symm
  · simp [heq, escape] at hp

/-- A step issues what was outstanding, and what is submitted in time is outstanding then. -/
theorem Fits.ledger_after (ha : d.Enabled a) (hp : (d.after a).worker.panicked = false) :
    ((d.deed? a).bind InFlight.Action.request?).toList ++ (d.after a).outstanding =
      d.outstanding ++ (d.submission? a).toList := by
  have hdue : ∀ {d : Duty κ}, d.isServed = false ∨ d.jobs = [] →
      d.outstanding = d.jobs.filterMap Job.issue? := by
    rintro d (hs | hj)
    · simp [outstanding, hs]
    · simp [outstanding, hj]
  cases a with
  | work answers =>
    change _ ++ (d.work answers).outstanding = _ ++ []
    rw [List.append_nil]
    have hserved := h.isServed_work hl ha
    cases hs : d.isServed with
    | true =>
      have hidles := (h.jobs_work hl ha).resolve_right fun ⟨job, rest, hf, _⟩ =>
        h.not_task_of_isServed hs hf
      have hnone : (d.work answers).outstanding = [] := by
        rcases hserved with heq | hj
        · simp [outstanding, heq, hs]
        · simp [outstanding, hj]
      rw [hidles.2.1, hnone]
      simp [outstanding, hs]
    | false =>
      rw [hdue (hserved.imp_left (·.trans hs)), hdue (.inl hs)]
      rcases h.jobs_work hl ha with hidles | ⟨job, rest, -, hjobs, hdeed⟩
      · rw [hidles.1, hidles.2.1]
        rfl
      · rw [hdeed, Job.deed?_request?, hjobs]
        cases hi : job.issue? <;> simp [hi]
  | leave panic =>
    change [] ++ (d.leave panic).outstanding = _ ++ []
    rw [outstanding, h.isServed_leave hl ha hp, h.jobs_leave hl ha panic, outstanding]
    simp
  | enqueue job =>
    have hw : (d.after (.enqueue job)).worker = d.worker := rfl
    have hf : (d.after (.enqueue job)).table.frames = d.table.frames :=
      (InFlight.State.quiet_enqueue d.table job).2
    have hserved : (d.after (.enqueue job)).isServed = d.isServed := by
      simp only [isServed, hw, hf]
    change [] ++ (d.after (.enqueue job)).outstanding = _
    cases hs : d.isServed with
    | true => simp [outstanding, hserved, hs, submission?]
    | false =>
      have htable : HasTable d.worker := by
        refine ⟨?_, ?_, ?_⟩ <;> rintro he <;> simp [isServed, he] at hs
      have hjobs : (d.after (.enqueue job)).jobs = d.jobs ++ [job] := by
        simp only [jobs, inHand, hw, hf, List.append_assoc]
        exact congrArg _ (InFlight.State.enqueue_queue (h.unclosed htable) job)
      rw [hdue (.inl (hserved.trans hs)), hdue (.inl hs), hjobs, List.filterMap_append]
      cases hi : job.issue? <;> simp [submission?, hs, hi]
  | lower => exact (List.append_nil _).symm

end Served

/-! ### The whole shift -/

/-- What is known while a worker goes on that no panic ended. -/
structure Shift (d₀ : Duty κ) (actions : List (Action κ)) (d : Duty κ) : Prop where
  fits : Fits d
  accounted : Accounted d₀.table (d₀.deeds actions) d.table
  judged : Judged d₀.table (d₀.deeds actions) d.table
  complete : IsComplete d.table
  ledger : requests (d₀.deeds actions) ++ d.outstanding = d₀.submissions actions

variable {d₀ : Duty κ}

theorem Shift.snoc (h : Shift d₀ actions (d₀.run actions)) (ha : (d₀.run actions).Enabled a)
    (hp : (d₀.run (actions ++ [a])).worker.panicked = false) :
    Shift d₀ (actions ++ [a]) (d₀.run (actions ++ [a])) := by
  obtain ⟨hfits, haccounted, hjudged, hcomplete, hledger⟩ := h
  rw [run_snoc] at hp
  have hledger' : requests (d₀.deeds (actions ++ [a])) ++ (d₀.run (actions ++ [a])).outstanding =
      d₀.submissions (actions ++ [a]) := by
    have hstep := hfits.ledger_after haccounted.lawful ha hp
    rw [deeds_snoc, submissions_snoc, ← hledger, run_snoc, List.append_assoc, ← hstep]
    cases hb : (d₀.run actions).deed? a with
    | none => simp [requests]
    | some b => cases hr : b.request? <;> simp [requests, hr]
  have hfits' := run_snoc d₀ actions a ▸ hfits.after haccounted.lawful ha hp
  have htable := run_table d₀ actions
  cases hb : (d₀.run actions).deed? a with
  | none =>
    have hdeeds : d₀.deeds (actions ++ [a]) = d₀.deeds actions := by simp [deeds_snoc, hb]
    have hsame : (d₀.run (actions ++ [a])).table = (d₀.run actions).table := by
      rw [run_table, hdeeds, ← htable]
    exact ⟨hfits', by rw [hsame, hdeeds]; exact haccounted, by rw [hsame, hdeeds]; exact hjudged,
      hsame ▸ hcomplete, hledger'⟩
  | some b =>
    have hdeeds : d₀.deeds (actions ++ [a]) = d₀.deeds actions ++ [b] := by simp [deeds_snoc, hb]
    have henabled := hfits.enabled ha hb
    have hkeeps := hfits.keepsBatch haccounted.lawful ha hp hb
    have hbreak : ∀ table : Table κ, ¬ InFlight.State.BreaksOff (d₀.run actions).table b table :=
      fun _ => hfits.not_breaksOff
    rw [htable] at haccounted hjudged hcomplete henabled hkeeps hbreak
    refine ⟨hfits', ?_, ?_, ?_, hledger'⟩ <;> rw [run_table, hdeeds]
    · exact haccounted.snoc henabled
    · exact hjudged.snoc haccounted henabled hkeeps
    · rw [InFlight.State.run_snoc]
      exact hcomplete.effect haccounted.tallied haccounted.lawful
        (haccounted.lawful.after henabled).2 (hbreak _)

theorem shift_starting (capacity : Nat) (nodelay : Bool) (monitor : Option Nat)
    (channels : List (Channel Event)) :
    Shift (starting capacity nodelay monitor channels : Duty κ) []
      (starting capacity nodelay monitor channels) where
  fits :=
    { runs := .idle _
      rests := fun _ => rfl
      unclosed := fun _ => by
        simp [starting, InFlight.State.initial, InFlight.State.isClosed,
          Readiness.Watch.ofCapacity]
      covered := by simp [starting]
      bare := by simp [starting] }
  accounted := InFlight.State.accounted_nil
    (lawful_of_empty (registered_of_empty rfl rfl rfl zero_ne_wakeToken) rfl rfl) rfl rfl rfl
  judged := InFlight.State.judged_nil rfl rfl
  complete := fun _ h => absurd h (Nat.not_lt_zero _)
  ledger := rfl

theorem shift_run (capacity : Nat) (nodelay : Bool) (monitor : Option Nat)
    (channels : List (Channel Event)) {actions : List (Action κ)}
    (hpossible : (starting capacity nodelay monitor channels).Possible actions)
    (hp : ((starting capacity nodelay monitor channels).run actions).worker.panicked = false) :
    Shift (starting capacity nodelay monitor channels) actions
      ((starting capacity nodelay monitor channels).run actions) := by
  induction actions using List.reverseRecOn with
  | nil => exact shift_starting capacity nodelay monitor channels
  | append_singleton actions a ih =>
    obtain ⟨hpossible, ha⟩ := possible_append.mp hpossible
    exact (ih hpossible (panicked_after (run_snoc _ actions a ▸ hp))).snoc ha.1 hp

/-! ### After the loop -/

theorem workBetween_stage (d : Duty κ) (answers : Answers) :
    (d.workBetween answers).worker.stage = d.worker.stage ∨
      (d.workBetween answers).worker.stage = d.worker.stage.following d.worker.flag := by
  unfold workBetween
  dsimp only
  split
  · exact .inl rfl
  · split
    · exact .inr rfl
    · exact .inl rfl

theorem isLate_after (h : d.worker.stage.isLate) (a : Action κ) :
    (d.after a).worker.stage.isLate := by
  cases a with
  | work answers =>
    by_cases hnil : d.table.frames = []
    · have hwork : d.after (.work answers) = d.workBetween answers := by
        change d.work answers = _
        simp only [Duty.work, hnil]
      rw [hwork]
      rcases workBetween_stage d answers with hs | hs <;> rw [hs]
      · exact h
      · exact Stage.isLate_following h d.worker.flag
    · exact (work_stage hnil answers).symm ▸ h
  | leave panic =>
    change (d.leave panic).worker.stage.isLate
    simp only [Duty.leave]
    split
    · simp only [Stage.afterPanic]
      split <;> rfl
    · exact h
  | enqueue job => exact h
  | lower => exact h

/-- After the loop nothing is polled and nothing runs out of time. -/
theorem not_decides_of_isLate (h : d.worker.stage.isLate) (hb : d.deed? a = some b)
    (ticket : Nat) : ¬ d.table.Decides ticket b := by
  cases a with
  | work answers =>
    simp only [deed?] at hb
    split at hb
    · split at hb
      · simp at hb
      · cases hs : d.worker.stage <;> simp [hs, Stage.isLate] at h <;>
          simp only [hs, Stage.deed?, Option.some.injEq, reduceCtorEq] at hb <;> subst hb <;>
            exact id
    · split at hb
      · obtain rfl := Option.some.inj hb
        exact id
      · next job _ _ _ =>
        cases job <;> simp only [Job.deed?, Option.some.injEq, reduceCtorEq] at hb <;> subst hb <;>
          exact id
    · simp at hb
    · obtain rfl := Option.some.inj hb
      exact id
  | leave panic =>
    obtain rfl := Option.some.inj hb
    exact id
  | enqueue job =>
    obtain rfl := Option.some.inj hb
    exact id
  | lower => cases hb

theorem not_decided_of_isLate (h : d.worker.stage.isLate) (actions : List (Action κ))
    (ticket : Nat) : ¬ d.table.Decided (d.deeds actions) ticket := by
  induction actions generalizing d with
  | nil => exact InFlight.State.not_decided_nil
  | cons a rest ih =>
    rw [deeds, InFlight.State.decided_append, ← after_table]
    rintro (hd | hd)
    · cases hb : d.deed? a with
      | none =>
        rw [hb] at hd
        exact InFlight.State.not_decided_nil hd
      | some b =>
        rw [hb] at hd
        exact not_decides_of_isLate h hb ticket (InFlight.State.decided_singleton.mp hd)
    · exact ih (isLate_after h a) hd

/-- What is reported to be over or out of time at all is so before the last draining. -/
theorem decided_before_last {before rest : List (Action κ)}
    (hs : (d.run before).worker.stage = .lastServe) {ticket : Nat}
    (hd : d.table.Decided (d.deeds (before ++ rest)) ticket) :
    d.table.Decided (d.deeds before) ticket := by
  have hlate : (d.run before).worker.stage.isLate := by rw [hs]; rfl
  rw [deeds_append, InFlight.State.decided_append, ← run_table] at hd
  exact hd.resolve_right (not_decided_of_isLate hlate rest ticket)

/-- A worker that has returned left nothing in flight, and no job waits that was left in time. -/
theorem Shift.returned {d₀ : Duty κ} (h : Shift d₀ actions d) (hr : d.HasReturned) :
    d.table.entries = [] ∧ requests (d₀.deeds actions) = d₀.submissions actions := by
  refine ⟨List.map_eq_nil_iff.mp (h.fits.bare hr.2), ?_⟩
  have hserved : d.isServed := by
    rcases hr.2 with hs | hs <;> simp [isServed, hs]
  rw [← h.ledger, outstanding, hserved]
  simp

theorem Shift.called_once {d₀ : Duty κ} (h : Shift d₀ actions d) (hr : d.HasReturned)
    {ticket : Nat} (hlt : ticket < d.table.tickets) :
    ∃ call, d.table.calls.filter (·.ticket = ticket) = [call] ∧
      call ∈ d.table.calls ∧ call.ticket = ticket := by
  have hone := h.complete ticket hlt
  rw [InFlight.State.tally, (h.returned hr).1, List.map_nil, List.count_nil, Nat.zero_add,
    ← InFlight.State.length_filter_eq_count InFlight.Call.ticket, List.length_eq_one_iff] at hone
  obtain ⟨call, hone⟩ := hone
  exact ⟨call, hone, InFlight.State.mem_of_filter_eq_singleton hone⟩

/-- Whenever a worker returns, be it for a task to halt or because nobody holds the service any
more, nothing is in flight and nothing is watched. What it issued are the requests that were submitted
before the last draining was over, also those behind a task to halt, each once and in their order.
Each of them was called back once, and it was aborted if and only if it was in flight and neither
reported to be over nor out of time. Neither happens after the loop, so that of those that the last
draining issued all that were in flight were aborted. -/
theorem returned_resolves (capacity : Nat) (nodelay : Bool) (monitor : Option Nat)
    (channels : List (Channel Event)) {actions : List (Action κ)}
    (hpossible : (starting capacity nodelay monitor channels).Possible actions)
    (hr : ((starting capacity nodelay monitor channels).run actions).HasReturned) :
    let d₀ : Duty κ := starting capacity nodelay monitor channels
    let table := (d₀.run actions).table
    let deeds := d₀.deeds actions
    table.tokens = [] ∧ table.watch.registered = [] ∧
    table.issues.reverse = (d₀.submissions actions).mapIdx Prod.mk ∧
    (∀ ticket request, (d₀.submissions actions)[ticket]? = some request →
      ∃ call, table.calls.filter (·.ticket = ticket) = [call] ∧
        InFlight.State.Answers d₀.table deeds ticket request call ∧
        (call.outcome = .error .aborted ↔
          d₀.table.Tracked deeds ticket ∧ ¬ d₀.table.Decided deeds ticket)) ∧
    (∀ call ∈ table.calls, call.ticket < (d₀.submissions actions).length) ∧
    (∀ before rest, actions = before ++ rest → (d₀.run before).worker.stage = .lastServe →
      (∀ ticket, d₀.table.Decided deeds ticket → d₀.table.Decided (d₀.deeds before) ticket) ∧
      ∀ call ∈ table.calls, (d₀.run before).table.tickets ≤ call.ticket →
        (call.outcome = .error .aborted ↔ d₀.table.Tracked deeds call.ticket)) := by
  intro d₀ table deeds
  have h : Shift d₀ actions (d₀.run actions) :=
    shift_run capacity nodelay monitor channels hpossible hr.1
  obtain ⟨hentries, hrequests⟩ := h.returned hr
  have htokens : table.tokens = [] := List.map_eq_nil_iff.mpr hentries
  have hlast : ∀ before rest, actions = before ++ rest → (d₀.run before).worker.stage = .lastServe →
      ∀ ticket, d₀.table.Decided deeds ticket → d₀.table.Decided (d₀.deeds before) ticket := by
    rintro before rest rfl hs ticket hd
    exact decided_before_last hs hd
  have haccounted : Accounted d₀.table deeds (d₀.table.run deeds) :=
    run_table d₀ actions ▸ h.accounted
  refine ⟨htokens, h.accounted.lawful.registered.registered.trans htokens,
    hrequests ▸ h.accounted.issues_eq, fun ticket request hreq => ?_, fun call hm => ?_,
    fun before rest heq hs => ⟨hlast before rest heq hs, fun call hm hle => ?_⟩⟩
  · rw [← hrequests] at hreq
    obtain ⟨call, hone, hm, rfl⟩ := h.called_once hr
      (h.accounted.tallied.ticket_lt (h.accounted.mem_issues_iff.mpr hreq))
    have hanswers := haccounted.answers hreq (run_table d₀ actions ▸ hm)
    exact ⟨call, hone, hanswers, h.judged.called call hm⟩
  · obtain ⟨request, -, hi, -⟩ := h.accounted.founded.call call hm
    have hreq := h.accounted.mem_issues_iff.mp hi
    rw [hrequests] at hreq
    exact (List.getElem?_eq_some_iff.mp hreq).1
  · have hbefore : Shift d₀ before (d₀.run before) := by
      subst heq
      exact shift_run capacity nodelay monitor channels (possible_append.mp hpossible).1
        (panicked_run (run_append _ before rest ▸ hr.1))
    rw [h.judged.called call hm]
    refine and_iff_left fun hd => ?_
    have hlt := hbefore.judged.tracked_lt _ (hlast before rest heq hs _ hd).tracked
    exact absurd hle (Nat.not_le_of_lt hlt)

/-- A queue with one request before a task to halt and one behind it, and a third that comes when
the loop is over but for its last look at the flag. All of them get in flight. The first is reported
to be over in the only pass of the loop; the other two are aborted. -/
theorem returned_resolves_behind_halt :
    let request : Request (Tagged Nat) :=
      ⟨"127.0.0.1", 80, .ofMillis 1, some ⟨0, 0⟩, some ⟨0, 1⟩⟩
    let work : Action Nat := .work
      { report := .ok [(0, .connected)], reply := { connect := some .nowInProgress } }
    let d₀ : Duty Nat := starting 16 false none []
    let actions : List (Action Nat) :=
      [.enqueue (.dial request), .enqueue .halt, .enqueue (.dial request)] ++
        List.replicate 18 work ++ [.leave none] ++ List.replicate 4 work ++
        [.enqueue (.dial request)] ++ List.replicate 10 work ++
        [.leave none, work, .leave none, work, work]
    (d₀.run actions).HasReturned ∧ (d₀.run actions).table.watch.registered = [] ∧
      (d₀.run actions).table.issues.reverse = [(0, request), (1, request), (2, request)] ∧
      ∀ ticket < 3, ∃ call, (d₀.run actions).table.calls.filter (·.ticket = ticket) = [call] ∧
        (call.outcome = .error .aborted ↔ ticket ≠ 0) ∧
        (d₀.table.Tracked (d₀.deeds actions) ticket ∧
          ¬ d₀.table.Decided (d₀.deeds actions) ticket ↔ ticket ≠ 0) := by
  intro request work d₀ actions
  have hp : d₀.Possible actions := by decide
  have hr : (d₀.run actions).HasReturned := ⟨by decide, by decide⟩
  have hsubmissions : d₀.submissions actions = [request, request, request] := by decide
  have houtcomes : (d₀.run actions).table.calls.map (fun c => (c.ticket, c.outcome)) =
      [(2, .error .aborted), (1, .error .aborted), (0, .ok ⟨0, false⟩)] := by decide
  have h := returned_resolves 16 false none [] hp hr
  rw [show (starting 16 false none [] : Duty Nat) = d₀ from rfl] at h
  obtain ⟨-, hregistered, hissues, hcalls, -, -⟩ := h
  refine ⟨hr, hregistered, ?_, fun ticket hlt => ?_⟩
  · rw [hsubmissions] at hissues
    exact hissues
  have hreq : (d₀.submissions actions)[ticket]? = some request := by
    rw [hsubmissions]
    obtain rfl | rfl | rfl : ticket = 0 ∨ ticket = 1 ∨ ticket = 2 := by omega
    all_goals rfl
  obtain ⟨call, hone, -, haborted⟩ := hcalls ticket request hreq
  have hm : call ∈ (d₀.run actions).table.calls ∧ call.ticket = ticket :=
    InFlight.State.mem_of_filter_eq_singleton hone
  have hwhich : call.outcome = .error .aborted ↔ ticket ≠ 0 := by
    have hpair := List.mem_map_of_mem (f := fun c : InFlight.Call _ => (c.ticket, c.outcome)) hm.1
    rw [houtcomes, hm.2] at hpair
    simp only [List.mem_cons, Prod.mk.injEq, List.not_mem_nil, or_false] at hpair
    rcases hpair with ⟨rfl, hout⟩ | ⟨rfl, hout⟩ | ⟨rfl, hout⟩ <;> simp [hout]
  exact ⟨call, hone, hwhich, haborted.symm.trans hwhich⟩

/-- The first continuation lets go of the last handle. What was submitted before that still gets in
flight, and is aborted. -/
example :
    let request : Request (Tagged Nat) :=
      ⟨"127.0.0.1", 80, .ofMillis 1, some ⟨0, 0⟩, some ⟨0, 1⟩⟩
    let work (fault : Fault) : Action Nat := .work { reply := { connect := some fault } }
    let d : Duty Nat := (starting 16 false none []).run <|
      [.enqueue (.dial request), .enqueue (.dial request)] ++
        List.replicate 7 (work .networkUnreachable) ++ [.lower, .leave none] ++
        List.replicate 18 (work .nowInProgress) ++ [.leave none] ++
        List.replicate 5 (work .nowInProgress)
    d.worker.stage = .gone ∧ d.worker.panicked = false ∧
      d.table.calls.map (fun c => (c.ticket, c.outcome)) =
        [(1, .error .aborted), (0, .error (.connectFailed .networkUnreachable))] := by
  decide

end Duty

end Dialer.Service
