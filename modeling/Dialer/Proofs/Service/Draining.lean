import Dialer.Proofs.Service.Return

/-!
# Passes of the worker come to their end

In a pass the worker drains its queue before it looks at ready sockets again and lets attempts
expire. What is left for it while it drains is carried out in the same draining. Once jobs stop
coming the pass comes to its end, within a number of steps that is linear in the jobs, the attempts
in flight and what the system reports; then every attempt that was reported to be over or ran out of
time has been called back.
-/

namespace Dialer.Service

open InFlight (Frame Cause batchOf)
open InFlight.State (Lawful Accounted)
open Readiness (Token)

variable {κ : Type}

/-- How far the worker is in a pass of its loop: each of the four operations is to be begun, or was
begun. Outside of a pass it is at the end of one. -/
def Worker.place (w : Worker) : Nat :=
  match w.stage with
  | .wait => w.entered.toNat
  | .serve => 2 + w.entered.toNat
  | .reconcile => 4 + w.entered.toNat
  | .expire => 6 + w.entered.toNat
  | _ => 8

/-- The number of tokens that the system reports to the worker. -/
def Answers.named (answers : Answers) : Nat :=
  match answers.report with
  | .ok report => report.length
  | .error _ => 0

namespace Duty

/-- The number of steps that the worker makes in a sequence of actions. -/
def steps (actions : List (Action κ)) : Nat :=
  (actions.map fun
    | .work _ => 1
    | _ => 0).sum

/-- The number of jobs that are left for the worker in a sequence of actions. -/
def enqueued (actions : List (Action κ)) : Nat :=
  (actions.map fun
    | .enqueue _ => 1
    | _ => 0).sum

/-- The number of tokens that are reported to the worker in a sequence of actions. -/
def named (actions : List (Action κ)) : Nat :=
  (actions.map fun
    | .work answers => answers.named
    | _ => 0).sum

/-- The number of jobs that the worker carries out in a sequence of actions. -/
def carried (d : Duty κ) : List (Action κ) → Nat
  | [] => 0
  | .work answers :: rest => d.inHand.length + (d.work answers).carried rest
  | a :: rest => (d.after a).carried rest

variable {d e : Duty κ} {a : Action κ} {actions : List (Action κ)} {answers : Answers}

/-! ### Jobs that are carried out -/

theorem Fits.inHand_work (h : Fits d) (hl : Lawful d.table) (ha : d.Enabled (.work answers)) :
    d.inHand.length + (d.work answers).jobs.length ≤ d.jobs.length := by
  by_cases hhand : d.inHand = []
  · rw [hhand, List.length_nil, Nat.zero_add]
    rcases h.jobs_work hl ha with ⟨hjobs, -⟩ | ⟨job, rest, -, hjobs, -⟩
    · exact Nat.le_of_eq (congrArg _ hjobs)
    · simp [hjobs]
  · unfold inHand at hhand ⊢
    split
    · next job rest hf =>
      cases hb : d.worker.begun with
      | true => simp [hf, hb] at hhand
      | false => simp [(h.jobs_task hl ha hf hb).1, Nat.add_comm]
    · next hf => simp at hhand

theorem enqueue_queue_le (table : Table κ) (job : Job κ) :
    (table.after (.enqueue job)).queue.length ≤ table.queue.length + 1 := by
  by_cases hclosed : table.isClosed
  · have hr := InFlight.State.isClosed_iff.mp hclosed
    have hsame : table.after (.enqueue job) = table := by
      simp [InFlight.State.after, InFlight.State.enqueue, Readiness.Watch.enqueue, Channel.send,
        hr, Except.map, Except.toOption]
    rw [hsame]
    exact Nat.le_succ _
  · simp [InFlight.State.enqueue_queue hclosed]

theorem jobs_enqueue_le (d : Duty κ) (job : Job κ) :
    (d.after (.enqueue job)).jobs.length ≤ d.jobs.length + 1 := by
  have hf : (d.after (.enqueue job)).table.frames = d.table.frames :=
    (InFlight.State.quiet_enqueue d.table job).2
  have hhand : (d.after (.enqueue job)).inHand = d.inHand := by
    simp only [inHand, hf]
    rfl
  rw [jobs, jobs, hhand, List.length_append, List.length_append, Nat.add_assoc]
  exact Nat.add_le_add_left (enqueue_queue_le d.table job) _

theorem Fits.lawful_after (h : Fits d) (hl : Lawful d.table) (ha : d.Enabled a) :
    Lawful (d.after a).table := by
  rw [after_table]
  cases hb : d.deed? a with
  | none => exact hl
  | some b => exact (hl.after (h.enabled ha hb)).1

theorem Fits.fits_run (h : Fits d) (hl : Lawful d.table) (hp : d.Possible actions)
    (hq : (d.run actions).worker.panicked = false) :
    Fits (d.run actions) ∧ Lawful (d.run actions).table := by
  induction actions generalizing d with
  | nil => exact ⟨h, hl⟩
  | cons a rest ih =>
    exact ih (h.after hl hp.1 (panicked_run hq)) (h.lawful_after hl hp.1) hp.2 hq

/-- No more jobs are carried out than there were and than were left meanwhile. -/
theorem Fits.carried_le (h : Fits d) (hl : Lawful d.table) (hp : d.Possible actions)
    (hq : (d.run actions).worker.panicked = false) :
    d.carried actions + (d.run actions).jobs.length ≤ d.jobs.length + enqueued actions := by
  induction actions generalizing d with
  | nil => exact Nat.le_of_eq (Nat.zero_add _)
  | cons a rest ih =>
    have hstay := panicked_run (d := d.after a) hq
    have hrest := ih (h.after hl hp.1 hstay) (h.lawful_after hl hp.1) hp.2 hq
    have hrun : d.run (a :: rest) = (d.after a).run rest := rfl
    rw [hrun]
    cases a with
    | work answers =>
      have hwork := h.inHand_work hl hp.1
      have henqueued : enqueued (.work answers :: rest) = enqueued rest := by simp [enqueued]
      simp only [carried, henqueued]
      simp only [Duty.after] at hrest ⊢
      omega
    | leave panic =>
      have hleave := congrArg List.length (h.jobs_leave hl hp.1 panic)
      have henqueued : enqueued (.leave panic :: rest) = enqueued rest := by simp [enqueued]
      simp only [carried, henqueued]
      simp only [Duty.after] at hrest ⊢
      omega
    | enqueue job =>
      have henqueue := jobs_enqueue_le d job
      have henqueued : enqueued (.enqueue job :: rest) = enqueued rest + 1 := by
        simp [enqueued, Nat.add_comm]
      simp only [carried, henqueued]
      omega
    | lower =>
      have henqueued : enqueued (.lower :: rest) = enqueued rest := by simp [enqueued]
      rw [henqueued]
      exact hrest

/-! ### The way through a pass -/

/-- The worker is at most one place further after a step, and never further back in the same pass.
Only a step of its own, between two operations, takes it further. -/
theorem Fits.place_after (h : Fits d) (hl : Lawful d.table) (ha : d.Enabled a)
    (hp : (d.after a).worker.panicked = false) :
    (d.after a).worker.place = d.worker.place ∨
      ∃ answers, a = .work answers ∧ d.table.frames = [] ∧
        (d.worker.place < 8 → (d.after a).worker.place = d.worker.place + 1) := by
  cases a with
  | work answers =>
    by_cases hf : d.table.frames = []
    · refine .inr ⟨answers, rfl, hf, fun hlt => ?_⟩
      have hwork : d.after (.work answers) = d.workBetween answers := by
        change d.work answers = _
        simp only [Duty.work, hf]
      rw [hwork]
      rcases h.between_cases hl hf answers with ⟨-, hs⟩ | ⟨heq, hs, -⟩ | ⟨table, heq, -, he⟩
      · rcases hs with hs | hs <;> simp [Worker.place, hs] at hlt
      · rw [heq]
        cases hst : d.worker.stage <;> simp [Worker.place, hst] at hlt hs <;>
          simp [Worker.place, goTo, Stage.following, hst, hs]
      · rw [heq]
        cases hst : d.worker.stage <;> simp [Worker.place, hst] at hlt <;>
          simp [Worker.place, goOn, hst, he]
    · refine .inl ?_
      have hstage := work_stage hf answers
      have hentered : (d.work answers).worker.entered = d.worker.entered := by
        simp only [Duty.work]
        split
        · exact absurd ‹_› hf
        · next job rest hf =>
          split
          · rfl
          · cases job <;> rfl
        · rfl
        · rfl
      simp only [Duty.after, Worker.place, hstage, hentered]
  | leave panic =>
    obtain ⟨call, rest, hf⟩ := exists_calling ha
    rcases leave_cases h.runs hl hf panic with ⟨heq, -⟩ | ⟨-, heq, -⟩
    · exact .inl (congrArg (·.worker.place) heq)
    · simp [Duty.after, heq, escape] at hp
  | enqueue job => exact .inl rfl
  | lower => exact .inl rfl

/-! ### The steps that are left -/

/-- The steps that the operation in progress takes to its end, but for the jobs in the queue. -/
def chore (begun : Bool) : List (Frame (Tagged κ) (Job κ)) → Nat
  | .settling batch :: _ => batch.length + 1
  | .calling _ :: .settling batch :: _ => batch.length + 1
  | .draining _ :: _ => 1
  | .task _ :: _ => if begun then 2 else 4
  | .calling _ :: _ => 2
  | _ => 0

/-- A bound for the steps that are left in the pass if nothing more comes. Before the last operation
is begun every attempt in flight may have to be settled in it. -/
def effort (d : Duty κ) : Nat :=
  12 - (d.worker.place + (d.worker.place + 1) / 2) + chore d.worker.begun d.table.frames +
    4 * d.table.queue.length + if d.worker.place < 7 then d.table.entries.length else 0

theorem finished_le (table : Table κ) (report : List (Token × Verdict)) :
    (table.finished report).length ≤ report.length :=
  (List.length_filterMap_le _ _).trans (List.length_filter_le _ _)

theorem due_le (table : Table κ) (now : Time.Instant) :
    (table.due now).length ≤ table.entries.length := by
  rw [InFlight.State.due, List.length_map]
  exact List.length_filter_le _ _

theorem chore_enter (hf : d.table.frames = []) (hlt : d.worker.place < 8) (answers : Answers) :
    chore false (enter d.table answers d.worker.stage).frames ≤
      1 + answers.named + if d.worker.place < 6 then 0 else d.table.entries.length := by
  have hpoll : chore false (d.table.poll answers.report).2.frames ≤ 1 + answers.named := by
    cases hr : answers.report with
    | ok report =>
      have hframes : (d.table.poll (.ok report)).2.frames =
          [.settling (d.table.finished report)] := by
        rw [InFlight.State.poll, InFlight.State.push_frames,
          (InFlight.State.Quiet.foldl_note _ d.table).2, hf]
      have hle := finished_le d.table report
      simp only [hframes, chore, Answers.named, hr]
      omega
    | error fault =>
      have hframes : (d.table.poll (.error fault)).2.frames = [] := by
        simp only [InFlight.State.poll]
        split <;> exact hf
      simp [hframes, chore]
  cases hs : d.worker.stage <;> simp [Worker.place, hs] at hlt
  case wait => exact hpoll.trans (Nat.le_add_right _ _)
  case serve =>
    have hframes : d.table.drain.frames = [.draining 0] := by
      rw [InFlight.State.drain, InFlight.State.push_frames, hf]
    simp [enter, hframes, chore]
    omega
  case reconcile => exact hpoll.trans (Nat.le_add_right _ _)
  case expire =>
    have hframes : (d.table.expire answers.now answers.order).2.frames =
        [.settling (InFlight.State.arrange answers.order (d.table.due answers.now))] := by
      rw [InFlight.State.expire, InFlight.State.push_frames, hf]
    have hle := due_le d.table answers.now
    have hlen := InFlight.State.length_arrange answers.order (d.table.due answers.now)
    have hplace : ¬ d.worker.place < 6 := by simp [Worker.place, hs]
    simp only [enter, hframes, chore, hplace, if_false]
    omega

theorem workBetween_enter (hlt : d.worker.place < 8) (he : d.worker.entered = false)
    (answers : Answers) :
    d.workBetween answers = d.goOn (enter d.table answers d.worker.stage) := by
  cases hs : d.worker.stage <;> simp [Worker.place, hs] at hlt <;>
    simp [workBetween, goOn, hs, he]

theorem Fits.effort_between (h : Fits d) (hl : Lawful d.table) (hlt : d.worker.place < 8)
    (hf : d.table.frames = []) (answers : Answers) :
    1 + (d.workBetween answers).effort ≤ d.effort + answers.named := by
  have hbegun := h.runs.begun_of_nil hf
  have hchore : chore d.worker.begun d.table.frames = 0 := by rw [hf]; rfl
  cases he : d.worker.entered with
  | true =>
    rcases h.between_cases hl hf answers with ⟨-, hs⟩ | ⟨heq, -⟩ | ⟨table, -, -, hn⟩
    · rcases hs with hs | hs <;> simp [Worker.place, hs] at hlt
    · have hplace : (d.goTo (d.worker.stage.following d.worker.flag)).worker.place =
          d.worker.place + 1 ∧ d.worker.place % 2 = 1 := by
        cases hst : d.worker.stage <;> simp [Worker.place, hst] at hlt <;>
          simp [Worker.place, goTo, Stage.following, hst, he]
      have hchore' : chore (d.goTo (d.worker.stage.following d.worker.flag)).worker.begun
          (d.goTo (d.worker.stage.following d.worker.flag)).table.frames = 0 := hchore
      rw [heq, effort, effort, hplace.1, hchore, hchore']
      change 1 + (_ + _ + 4 * d.table.queue.length +
        if _ then d.table.entries.length else 0) ≤ _
      split <;> split <;> omega
    · simp [he] at hn
  | false =>
    have heq := workBetween_enter hlt he answers
    have hplace : (d.workBetween answers).worker.place = d.worker.place + 1 ∧
        d.worker.place % 2 = 0 := by
      rw [heq]
      cases hst : d.worker.stage <;> simp [Worker.place, hst] at hlt <;>
        simp [Worker.place, goOn, hst, he]
    have hentered : Entered d (enter d.table answers d.worker.stage) := by
      rcases h.between_cases hl hf answers with ⟨-, hs⟩ | ⟨-, hs, -⟩ | ⟨table, heq', henter, -⟩
      · rcases hs with hs | hs <;> simp [Worker.place, hs] at hlt
      · rcases hs with hs | hs
        · simp [Worker.place, hs] at hlt
        · simp [he] at hs
      · have htable : enter d.table answers d.worker.stage = table :=
          congrArg Duty.table (heq.symm.trans heq')
        exact htable ▸ henter
    have henter := chore_enter hf hlt answers
    rw [← hbegun] at henter
    rw [effort, effort, hplace.1, hchore, heq]
    simp only [goOn, hentered.queue, hentered.quiet.entries]
    split <;> split <;> split at henter <;> omega

theorem effort_stay {table : Table κ} {begun : Bool}
    (hle : 1 + chore begun table.frames + 4 * table.queue.length ≤
      chore d.worker.begun d.table.frames + 4 * d.table.queue.length)
    (hentries : 1 + chore begun table.frames + 4 * table.queue.length + table.entries.length ≤
      chore d.worker.begun d.table.frames + 4 * d.table.queue.length + d.table.entries.length) :
    1 + (d.stay table begun).effort ≤ d.effort := by
  have hplace : (d.stay table begun).worker.place = d.worker.place := rfl
  have hbegun : (d.stay table begun).worker.begun = begun := rfl
  have htable : (d.stay table begun).table = table := rfl
  rw [effort, effort, hplace, hbegun, htable]
  split <;> omega

theorem Fits.effort_task (h : Fits d) (hl : Lawful d.table) (ha : d.Enabled (.work answers))
    {job : Job κ} {rest : List (Frame (Tagged κ) (Job κ))}
    (hf : d.table.frames = .task job :: rest) : 1 + (d.work answers).effort ≤ d.effort := by
  obtain ⟨-, taken, rfl⟩ := h.runs.of_task hf
  cases hb : d.worker.begun with
  | true =>
    have heq : d.work answers = d.stay (d.table.leave none) false := by
      simp only [Duty.work, hf, hb]
      rfl
    have hframes : (d.table.leave none).frames = [.draining taken] := by
      simp only [InFlight.State.leave, hf, List.tail_cons]
    have hqueue := InFlight.State.leave_queue d.table none
    have hentries : (d.table.leave none).entries = d.table.entries := rfl
    rw [heq]
    refine effort_stay ?_ ?_ <;> simp [hframes, hf, hb, chore, hqueue, hentries]
  | false =>
    have hsame : ∀ table : Table κ, table.frames = d.table.frames → table.queue = d.table.queue →
        table.entries = d.table.entries → 1 + (d.stay table true).effort ≤ d.effort := by
      intro table hframes hqueue hentries
      refine effort_stay ?_ ?_ <;> simp [hframes, hf, hb, chore, hqueue, hentries]
    have heq : d.work answers = (d.perform answers job).setBegun true := by
      simp only [Duty.work, hf, hb]
      rfl
    rw [heq]
    cases job with
    | watchOn channel => exact hsame (d.table.watchOn (some channel)) rfl rfl rfl
    | halt => exact hsame d.table rfl rfl rfl
    | dial request =>
      have hdeed : d.deed? (.work answers) = some (.attempt request answers.reply answers.now) := by
        simp [deed?, hf, hb, Job.deed?]
      have hroom := (h.enabled ha hdeed).2.2
      change 1 + (d.stay (d.table.attempt request answers.reply answers.now).2 true).effort ≤ _
      cases hc : request.continuations? with
      | none =>
        rw [InFlight.State.attempt_incomplete hc]
        exact hsame _ rfl rfl rfl
      | some c =>
        obtain ⟨-, ⟨-, call, hans⟩ | ⟨token, e, -, hnew⟩⟩ :=
          hl.registered.attempt_complete hroom hc answers.reply answers.now
        · have hqueue := congrArg Channel.queue hans.tasks
          refine effort_stay ?_ ?_ <;>
            simp [hans.frames, hans.entries, hf, hb, chore, InFlight.State.queue, hqueue]
        · have hqueue := congrArg Channel.queue hnew.tasks
          refine effort_stay ?_ ?_
          · simp [hnew.frames, hf, hb, chore, InFlight.State.queue, hqueue]
          · simp only [hnew.frames, hnew.entries, hf, hb, chore, InFlight.State.queue, hqueue,
              List.length_append, List.length_singleton, if_true, Bool.false_eq_true, if_false]
            omega

theorem effort_settling (hl : Lawful d.table) {batch : List (Token × Cause)}
    (hf : d.table.frames = [.settling batch]) (release : Release) :
    1 + (d.stay (d.table.advance release) d.worker.begun).effort ≤ d.effort := by
  have hqueue := (hl.advance_settling_frames hf release).1
  cases batch with
  | nil =>
    have hadv : d.table.advance release = { d.table with frames := [] } := by
      simp only [InFlight.State.advance, hf]
    refine effort_stay ?_ ?_ <;> rw [hadv, hf] <;> simp [chore, InFlight.State.queue]
  | cons item batch =>
    obtain ⟨token, cause⟩ := item
    rcases hl.advance_settling_cases hf release with ⟨-, heq⟩ | ⟨e, call, -, hcon⟩
    · refine effort_stay ?_ ?_ <;> rw [heq, hf] <;> simp only [chore] <;>
        simp [InFlight.State.queue] <;> omega
    · have hentries : (d.table.advance release).entries.length ≤ d.table.entries.length := by
        rw [hcon.entries]
        exact List.length_filter_le _ _
      refine effort_stay ?_ ?_ <;> rw [hcon.frames, hqueue, hf] <;> simp only [chore] <;>
        simp <;> omega

theorem effort_draining (hl : Lawful d.table) {taken : Nat}
    (hf : d.table.frames = [.draining taken]) (hbegun : d.worker.begun = false)
    (release : Release) :
    1 + (d.stay (d.table.advance release) d.worker.begun).effort ≤ d.effort := by
  have hentries := (hl.advance_draining hf release).1.entries
  rcases InFlight.State.advance_draining_frames hf release with
    ⟨hqueue, hqueue', hfr⟩ | ⟨job, hqueue, hfr⟩
  · refine effort_stay ?_ ?_ <;> simp [hqueue, hqueue', hfr, hf, hentries, chore]
  · refine effort_stay ?_ ?_ <;> simp [hqueue, hfr, hf, hentries, hbegun, chore] <;> omega

/-- Every step of the worker is one of those that were left. Others leave it four more with each
job, and the system one more with each token it reports. -/
theorem Fits.effort_after (h : Fits d) (hl : Lawful d.table) (hlt : d.worker.place < 8)
    (ha : d.Enabled a) (hp : (d.after a).worker.panicked = false) :
    steps [a] + (d.after a).effort ≤ d.effort + 4 * enqueued [a] + named [a] := by
  cases a with
  | work answers =>
    have hwork : 1 + (d.after (.work answers)).effort ≤ d.effort + answers.named := by
      change 1 + (d.work answers).effort ≤ _
      cases hf : d.table.frames with
      | nil =>
        have heq : d.work answers = d.workBetween answers := by simp only [Duty.work, hf]
        exact heq ▸ h.effort_between hl hlt hf answers
      | cons f rest =>
        refine Nat.le_trans ?_ (Nat.le_add_right _ _)
        cases f with
        | task job => exact h.effort_task hl ha hf
        | calling call =>
          have hw : d.canWork := ha
          simp [canWork, hf] at hw
        | settling batch =>
          rcases (h.runs.of_settling hf).2 with ⟨-, rfl⟩ | ⟨hw, -⟩
          · exact (work_of_loop hf rfl answers).1 ▸ effort_settling hl hf answers.release
          · simp [Worker.place, stage_of_closing hw] at hlt
        | draining taken =>
          obtain ⟨-, rfl, hbegun⟩ := h.runs.of_draining hf
          exact (work_of_loop hf rfl answers).1 ▸ effort_draining hl hf hbegun answers.release
        | closing =>
          have hw := (h.runs.of_closing hf).1
          simp [Worker.place, stage_of_closing hw] at hlt
    simpa [steps, enqueued, named] using hwork
  | leave panic =>
    suffices hleave : (d.after (.leave panic)).effort ≤ d.effort by
      simpa [steps, enqueued, named] using hleave
    obtain ⟨call, rest, hf⟩ := exists_calling ha
    rcases leave_cases h.runs hl hf panic with ⟨heq, hq, hleft⟩ | ⟨-, heq, -⟩
    · change (d.leave panic).effort ≤ d.effort
      have hplace : (d.leave panic).worker.place = d.worker.place := congrArg (·.worker.place) heq
      have hqueue := InFlight.State.leave_queue d.table panic
      have hchore : chore (d.leave panic).worker.begun (d.leave panic).table.frames ≤
          chore d.worker.begun d.table.frames := by
        rw [heq]
        simp only [resume, Duty.stay, hasJob, hf]
        rcases h.runs.of_calling hf with ⟨hbegun, -, batch, rfl⟩ | ⟨hbegun, -, job, taken, rfl⟩ |
          ⟨-, hw, -⟩
        · simp [hleft.resolve_right (by simp), chore]
        · rcases hleft with hfr | ⟨_, _, -, hfr⟩ <;> simp [hfr, hbegun, chore]
        · simp [Worker.place, stage_of_closing hw] at hlt
      rw [effort, effort, hplace, leave_table, hqueue, hq.entries]
      rw [leave_table] at hchore
      omega
    · simp [Duty.after, heq, escape] at hp
  | enqueue job =>
    suffices henqueue : (d.after (.enqueue job)).effort ≤ d.effort + 4 by
      simpa [steps, enqueued, named] using henqueue
    obtain ⟨hq, hf⟩ := InFlight.State.quiet_enqueue d.table job
    have hle := enqueue_queue_le d.table job
    have htable : (d.after (.enqueue job)).table = d.table.after (.enqueue job) := rfl
    have hworker : (d.after (.enqueue job)).worker = d.worker := rfl
    rw [effort, effort, htable, hworker, hf, hq.entries]
    omega
  | lower =>
    have hlower : (d.after .lower).effort = d.effort := rfl
    simp [steps, enqueued, named, hlower]

/-- As long as the worker is in the pass, it has not made more steps than there were. -/
theorem Fits.effort_run (h : Fits d) (hl : Lawful d.table) (hp : d.Possible actions)
    (hq : (d.run actions).worker.panicked = false) :
    (∃ first rest, actions = first ++ rest ∧ 8 ≤ (d.run first).worker.place) ∨
      steps actions + (d.run actions).effort ≤
        d.effort + 4 * enqueued actions + named actions := by
  induction actions generalizing d with
  | nil => exact .inr (by simp [steps, enqueued, named, run])
  | cons a rest ih =>
    by_cases hlt : d.worker.place < 8
    · have hstay := panicked_run (d := d.after a) hq
      have hstep := h.effort_after hl hlt hp.1 hstay
      rcases ih (h.after hl hp.1 hstay) (h.lawful_after hl hp.1) hp.2 hq with
        ⟨first, tail, rfl, hplace⟩ | hrest
      · exact .inl ⟨a :: first, tail, rfl, hplace⟩
      · refine .inr ?_
        have hrun : d.run (a :: rest) = (d.after a).run rest := rfl
        rw [hrun]
        simp only [steps, enqueued, named, List.map_cons, List.map_nil, List.sum_cons,
          List.sum_nil] at hstep hrest ⊢
        omega
    · exact .inl ⟨[], a :: rest, rfl, Nat.le_of_not_lt hlt⟩

/-- Between two places the worker comes to each of those between, by a step of its own. -/
theorem Fits.exists_step (h : Fits d) (hl : Lawful d.table) (hp : d.Possible actions)
    (hq : (d.run actions).worker.panicked = false) {n : Nat} (hn : n < 8)
    (hstart : d.worker.place ≤ n) (hend : n < (d.run actions).worker.place) :
    ∃ first answers rest, actions = first ++ .work answers :: rest ∧
      (d.run first).worker.place = n ∧ (d.run first).table.frames = [] ∧
      (d.run (first ++ [.work answers])).worker.place = n + 1 := by
  induction actions generalizing d with
  | nil => exact absurd hend (Nat.not_lt.mpr hstart)
  | cons a rest ih =>
    have hstay := panicked_run (d := d.after a) hq
    have hstep := h.place_after hl hp.1 hstay
    by_cases hlt : (d.after a).worker.place ≤ n
    · obtain ⟨first, answers, tail, rfl, hplace⟩ :=
        ih (h.after hl hp.1 hstay) (h.lawful_after hl hp.1) hp.2 hq hlt hend
      exact ⟨a :: first, answers, tail, rfl, hplace⟩
    · rcases hstep with heq | ⟨answers, rfl, hf, hnext⟩
      · exact absurd (heq ▸ hstart) hlt
      · have hnext := hnext (Nat.lt_of_le_of_lt hstart hn)
        obtain rfl : d.worker.place = n := by omega
        exact ⟨[], answers, rest, rfl, rfl, hf, hnext⟩

/-- On its way to the end of a pass the worker begins the second look and the last operation. -/
theorem Fits.exists_looks (h : Fits d) (hl : Lawful d.table) (hp : d.Possible actions)
    (hq : (d.run actions).worker.panicked = false) (hstart : d.worker.place ≤ 4)
    (hend : 8 ≤ (d.run actions).worker.place) :
    ∃ first reconcile second expire third last rest,
      actions =
        first ++ .work reconcile :: (second ++ .work expire :: (third ++ .work last :: rest)) ∧
      ((d.run first).worker.place = 4 ∧ (d.run first).table.frames = []) ∧
      ((d.run (first ++ .work reconcile :: second)).worker.place = 6 ∧
        (d.run (first ++ .work reconcile :: second)).table.frames = []) ∧
      (d.run (first ++ .work reconcile :: (second ++ .work expire :: third))).worker.place = 7 ∧
        (d.run (first ++ .work reconcile :: (second ++ .work expire ::
          third))).table.frames = [] := by
  have hsplit : ∀ {u v : List (Action κ)}, actions = u ++ v →
      (Fits (d.run u) ∧ Lawful (d.run u).table) ∧ (d.run u).Possible v ∧
        ((d.run u).run v).worker.panicked = false ∧ 8 ≤ ((d.run u).run v).worker.place := by
    rintro u v rfl
    rw [run_append] at hq hend
    obtain ⟨hu, hv⟩ := possible_append.mp hp
    exact ⟨h.fits_run hl hu (panicked_run hq), hv, hq, hend⟩
  obtain ⟨first, reconcile, tail, heq, hfour, hfour', hfive⟩ :=
    h.exists_step hl hp hq (n := 4) (by decide) hstart (Nat.lt_of_lt_of_le (by decide) hend)
  obtain ⟨⟨hfits, hlaw⟩, hp₁, hq₁, hend₁⟩ :=
    hsplit (u := first ++ [.work reconcile]) (v := tail) (by simp [heq])
  obtain ⟨second, expire, tail, rfl, hsix, hsix', hseven⟩ :=
    hfits.exists_step hlaw hp₁ hq₁ (n := 6) (by decide) (by rw [hfive]; decide)
      (Nat.lt_of_lt_of_le (by decide) hend₁)
  rw [← run_append, List.append_assoc] at hsix hsix' hseven
  obtain ⟨⟨hfits, hlaw⟩, hp₂, hq₂, hend₂⟩ :=
    hsplit (u := first ++ ([.work reconcile] ++ (second ++ [.work expire]))) (v := tail)
      (by simp [heq])
  obtain ⟨third, last, rest, rfl, height, height', -⟩ :=
    hfits.exists_step hlaw hp₂ hq₂ (n := 7) (by decide) (by rw [hseven])
      (Nat.lt_of_lt_of_le (by decide) hend₂)
  rw [← run_append] at height height'
  exact ⟨first, reconcile, second, expire, third, last, rest, heq, ⟨hfour, hfour'⟩,
    ⟨hsix, hsix'⟩, by simpa using height, by simpa using height'⟩

/-! ### The end of a pass -/

/-- Whenever nothing goes on, every attempt that was decided so far has been called back. -/
theorem Shift.called_of_decided {d₀ : Duty κ} (h : Shift d₀ actions d) (hf : d.table.frames = [])
    {ticket : Nat} (hd : d₀.table.Decided (d₀.deeds actions) ticket) :
    ∃ call, d.table.calls.filter (·.ticket = ticket) = [call] := by
  have hgone : d.table.IsGone ticket := by
    rintro token e he rfl
    obtain ⟨cause, hm⟩ := h.judged.batched token e he hd
    simp [hf, batchOf] at hm
  have hlt := h.judged.tracked_lt ticket hd.tracked
  exact h.complete.called_of_gone h.accounted.lawful.registered hlt hgone

theorem stage_of_place {w : Worker} : (w.place = 4 → w.stage = .reconcile ∧ w.entered = false) ∧
    (w.place = 6 → w.stage = .expire ∧ w.entered = false) ∧
    (w.place = 7 → w.stage = .expire ∧ w.entered = true) := by
  have := Bool.toNat_le w.entered
  refine ⟨fun h => ?_, fun h => ?_, fun h => ?_⟩ <;> unfold Worker.place at h <;> split at h <;>
    cases he : w.entered <;> simp_all

theorem after_of_last (hplace : d.worker.place = 7) (hf : d.table.frames = [])
    (answers : Answers) : d.after (.work answers) = d.goTo .head := by
  obtain ⟨hs, he⟩ := stage_of_place.2.2 hplace
  change d.work answers = _
  simp [Duty.work, hf, workBetween, goTo, hs, he, Stage.following]

theorem effort_le (d : Duty κ) : d.effort ≤
    14 + 4 * d.jobs.length + d.table.entries.length + (batchOf d.table.frames).length := by
  have hchore : chore d.worker.begun d.table.frames + 4 * d.table.queue.length ≤
      2 + 4 * d.jobs.length + (batchOf d.table.frames).length := by
    rw [jobs, List.length_append, inHand]
    cases d.table.frames with
    | nil => simp only [chore, List.length_nil]; omega
    | cons f rest =>
      cases f with
      | settling batch => simp only [chore, batchOf, List.length_nil]; omega
      | draining taken => simp only [chore, List.length_nil]; omega
      | task job => cases d.worker.begun <;> simp [chore]; all_goals omega
      | closing => simp only [chore, List.length_nil]; omega
      | calling call =>
        cases rest with
        | nil => simp only [chore, List.length_nil]; omega
        | cons g rest => cases g <;> simp only [chore, batchOf, List.length_nil] <;> omega
  rw [effort]
  split <;> omega

section Pass

variable (capacity : Nat) (nodelay : Bool) (monitor : Option Nat) (channels : List (Channel Event))
  {before actions : List (Action κ)}

/-- Whatever is left for a worker, and whenever it is left: in a draining no more jobs are carried
out than waited and than were left meanwhile. Once the worker has made more steps than four for each
of them, one for each attempt that is in flight or in the batch and one for each token the system
reports, it has come to the end of its pass: it has looked at ready sockets again and let attempts
expire, and every attempt that was decided up to then, by either look or by the clock, has been
called back once. -/
theorem pass_ends
    (hpossible : (starting capacity nodelay monitor channels).Possible (before ++ actions))
    (hpanicked : ((starting capacity nodelay monitor channels).run
      (before ++ actions)).worker.panicked = false) :
    let d₀ : Duty κ := starting capacity nodelay monitor channels
    let d := d₀.run before
    d.carried actions ≤ d.jobs.length + enqueued actions ∧
    (d.worker.stage = .wait ∨ d.worker.stage = .serve →
      14 + 4 * (d.jobs.length + enqueued actions) + d.table.entries.length +
        (batchOf d.table.frames).length + named actions < steps actions →
      ∃ first reconcile second expire third rest,
        let pass := first ++ .work reconcile :: (second ++ .work expire :: third)
        actions = pass ++ rest ∧
        (d.run first).worker.stage = .reconcile ∧
        (d.run first).deed? (.work reconcile) = some (.poll reconcile.report) ∧
        (d.run (first ++ .work reconcile :: second)).deed? (.work expire) =
          some (.expire expire.now expire.order) ∧
        (d.run pass).worker.stage = .head ∧
        ∀ ticket, d₀.table.Decided (d₀.deeds (before ++ pass)) ticket →
          ∃ call, (d.run pass).table.calls.filter (·.ticket = ticket) = [call]) := by
  intro d₀ d
  have hshift : ∀ pre rest, actions = pre ++ rest → Shift d₀ (before ++ pre) (d.run pre) := by
    rintro pre rest rfl
    rw [← List.append_assoc] at hpossible hpanicked
    have h := shift_run capacity nodelay monitor channels (possible_append.mp hpossible).1
      (panicked_run (run_append _ _ rest ▸ hpanicked))
    rwa [run_append] at h
  have hp : d.Possible actions := (possible_append.mp hpossible).2
  have hq : (d.run actions).worker.panicked = false := by
    rw [run_append] at hpanicked
    exact hpanicked
  clear_value d
  have hstart : Shift d₀ (before ++ []) d := hshift [] actions rfl
  refine ⟨Nat.le_trans (Nat.le_add_right _ _)
    (hstart.fits.carried_le hstart.accounted.lawful hp hq), fun hs hsteps => ?_⟩
  have hplace : d.worker.place ≤ 4 := by
    have := Bool.toNat_le d.worker.entered
    rcases hs with hs | hs <;> simp only [Worker.place, hs] <;> omega
  obtain ⟨whole, rest, rfl, hend⟩ : ∃ whole rest, actions = whole ++ rest ∧
      8 ≤ (d.run whole).worker.place := by
    refine (hstart.fits.effort_run hstart.accounted.lawful hp hq).resolve_right fun hle => ?_
    have := d.effort_le
    omega
  have hp := (possible_append.mp hp).1
  have hq := panicked_run (run_append d whole rest ▸ hq)
  obtain ⟨first, reconcile, second, expire, third, last, tail, rfl, ⟨hfour, hfour'⟩,
      ⟨hsix, hsix'⟩, hseven, hseven'⟩ :=
    hstart.fits.exists_looks hstart.accounted.lawful hp hq hplace hend
  obtain ⟨hreconcile, hn⟩ := stage_of_place.1 hfour
  obtain ⟨hexpire, hn'⟩ := stage_of_place.2.1 hsix
  have hpass : d.run (first ++ .work reconcile :: (second ++ .work expire ::
      (third ++ [.work last]))) = (d.run (first ++ .work reconcile :: (second ++ .work expire ::
        third))).goTo .head := by
    rw [← after_of_last hseven hseven' last, ← run_snoc]
    simp
  have hdone := hshift (first ++ .work reconcile :: (second ++ .work expire ::
    (third ++ [.work last]))) (tail ++ rest) (by simp)
  refine ⟨first, reconcile, second, expire, third ++ [.work last], tail ++ rest, by simp,
    hreconcile, ?_, ?_, ?_, fun ticket hd => hdone.called_of_decided ?_ hd⟩
  · simp [deed?, hfour', hreconcile, hn, Stage.deed?]
  · simp [deed?, hsix', hexpire, hn', Stage.deed?]
  · rw [hpass]
    rfl
  · rw [hpass]
    exact hseven'

end Pass

/-- A request gets in flight, and its time is over at once. The one behind it is rejected, and its
continuation hands it in once more. The pass comes to its end all the same, and each of the three is
called back. -/
theorem pass_ends_after_resubmission :
    let overdue : Request (Tagged Nat) :=
      ⟨"127.0.0.1", 80, .ofMillis 0, some ⟨0, 0⟩, some ⟨0, 1⟩⟩
    let hopeless : Request (Tagged Nat) :=
      ⟨"10.0.0.1", 80, .ofMillis 0, some ⟨1, 0⟩, some ⟨1, 1⟩⟩
    let begins : Action Nat := .work { reply := { connect := some .nowInProgress } }
    let fails : Action Nat := .work { reply := { connect := some .networkUnreachable } }
    let before : List (Action Nat) := [.enqueue (.dial overdue), .enqueue (.dial hopeless), begins]
    let actions : List (Action Nat) := List.replicate 8 begins ++
      [fails, .enqueue (.dial hopeless), .leave none] ++ List.replicate 3 fails ++ [.leave none] ++
      List.replicate 8 fails ++ [.leave none] ++ List.replicate 8 fails
    let d : Duty Nat := (starting 16 false none []).run before
    d.worker.stage = .wait ∧ d.carried actions ≤ 3 ∧
      (∃ first expire rest, actions = first ++ .work expire :: rest ∧
        (d.run first).deed? (.work expire) = some (.expire expire.now expire.order)) ∧
      (d.run actions).table.calls.reverse.map (fun c => (c.ticket, c.outcome)) =
        [(1, .error (.connectFailed .networkUnreachable)),
          (2, .error (.connectFailed .networkUnreachable)),
          (0, .error (.timeout (.ofMillis 0)))] := by
  intro overdue hopeless begins fails before actions d
  have hp : (starting 16 false none [] : Duty Nat).Possible (before ++ actions) := by decide
  have hq : ((starting 16 false none [] : Duty Nat).run (before ++ actions)).worker.panicked =
      false := by decide
  have hwait : d.worker.stage = .wait := by decide
  have hjobs : d.jobs.length + enqueued actions = 3 := by decide
  have hsteps : 14 + 4 * (d.jobs.length + enqueued actions) + d.table.entries.length +
      (batchOf d.table.frames).length + named actions < steps actions := by decide
  obtain ⟨hcarried, hends⟩ := pass_ends 16 false none [] hp hq
  obtain ⟨first, reconcile, second, expire, third, rest, hsplit, -, -, hexpire, -⟩ :=
    hends (.inl hwait) hsteps
  refine ⟨hwait, hjobs ▸ hcarried,
    ⟨first ++ .work reconcile :: second, expire, third ++ rest, ?_, hexpire⟩, by decide⟩
  rw [hsplit]
  simp

end Duty

end Dialer.Service
