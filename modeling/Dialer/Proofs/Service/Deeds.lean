import Dialer.Proofs.InFlight.Deciding
import Dialer.Proofs.Service.Worker

/-!
# What a worker does to its table

Each step of a worker is one action on its table, or none. The stage of the worker fixes which, so
that what a worker does is a run of its table, and as long as no panic ends the worker, the action
can happen where it does and leaves the batch in progress alone. Nothing is assumed here of the jobs
that are left for the worker, or of when they are left.
-/

namespace Dialer.Service

open InFlight (Frame Cause batchOf)
open InFlight.State (Lawful Quiet Covered KeepsBatch Effect IsComplete BreaksOff)
open Readiness (Token)

variable {κ : Type}

/-- What the operation of a stage is to the table. -/
def Stage.deed? (answers : Answers) : Stage → Option (InFlight.Action (Tagged κ) (Job κ))
  | .wait => some (.poll answers.report)
  | .serve => some .drain
  | .reconcile => some (.poll answers.report)
  | .expire => some (.expire answers.now answers.order)
  | .lastServe => some .drain
  | .abort => some (.abort answers.order)
  | .close => some (.close answers.order)
  | _ => none

/-- What a job is to the table. -/
def Job.deed? (answers : Answers) : Job κ → Option (InFlight.Action (Tagged κ) (Job κ))
  | .dial request => some (.attempt request answers.reply answers.now)
  | .watchOn channel => some (.watchOn (some channel))
  | .halt => none

namespace Duty

/-- What a step of the worker, or of somebody who leaves a job for it, is to the table. -/
def deed? (d : Duty κ) : Action κ → Option (InFlight.Action (Tagged κ) (Job κ))
  | .work answers =>
    match d.table.frames with
    | [] =>
      if d.worker.stage = .head ∨ d.worker.entered then none else d.worker.stage.deed? answers
    | .task job :: _ => if d.worker.begun then some (.leave none) else job.deed? answers
    | .calling _ :: _ => none
    | _ => some (.advance answers.release)
  | .leave panic => some (.leave panic)
  | .enqueue job => some (.enqueue job)
  | .lower => none

def run (d : Duty κ) (actions : List (Action κ)) : Duty κ := actions.foldl after d

/-- Each action of a sequence can happen where it does. -/
def Possible (d : Duty κ) : List (Action κ) → Prop
  | [] => True
  | a :: rest => d.Enabled a ∧ (d.after a).Possible rest

instance decidablePossible (d : Duty κ) :
    (actions : List (Action κ)) → Decidable (d.Possible actions)
  | [] => .isTrue trivial
  | a :: rest =>
    haveI := decidablePossible (d.after a) rest
    inferInstanceAs (Decidable (d.Enabled a ∧ (d.after a).Possible rest))

/-- What a sequence of actions is to the table. -/
def deeds (d : Duty κ) : List (Action κ) → List (InFlight.Action (Tagged κ) (Job κ))
  | [] => []
  | a :: rest => (d.deed? a).toList ++ (d.after a).deeds rest

variable {d e : Duty κ} {a : Action κ} {b : InFlight.Action (Tagged κ) (Job κ)}
  {actions : List (Action κ)} {answers : Answers}

theorem run_append (d : Duty κ) (xs ys : List (Action κ)) :
    d.run (xs ++ ys) = (d.run xs).run ys := by
  simp [run]

theorem run_snoc (d : Duty κ) (actions : List (Action κ)) (a : Action κ) :
    d.run (actions ++ [a]) = (d.run actions).after a := run_append d actions [a]

theorem possible_append {xs ys : List (Action κ)} :
    d.Possible (xs ++ ys) ↔ d.Possible xs ∧ (d.run xs).Possible ys := by
  induction xs generalizing d with
  | nil => simp [Possible, run]
  | cons x xs ih => simp [Possible, ih, and_assoc, run]

theorem deeds_append (d : Duty κ) (xs ys : List (Action κ)) :
    d.deeds (xs ++ ys) = d.deeds xs ++ (d.run xs).deeds ys := by
  induction xs generalizing d with
  | nil => rfl
  | cons x xs ih => simp [deeds, ih, run]

theorem deeds_snoc (d : Duty κ) (actions : List (Action κ)) (a : Action κ) :
    d.deeds (actions ++ [a]) = d.deeds actions ++ ((d.run actions).deed? a).toList := by
  simp [deeds_append, deeds]

/-! ### The table runs along -/

theorem enter_eq (table : Table κ) (answers : Answers) (stage : Stage) :
    enter table answers stage = table.run (stage.deed? answers).toList := by
  cases stage <;> rfl

theorem perform_table (d : Duty κ) (answers : Answers) (job : Job κ) :
    (d.perform answers job).table = d.table.run (job.deed? answers).toList := by
  cases job <;> rfl

theorem leave_table (d : Duty κ) (panic : Option Panic) :
    (d.leave panic).table = d.table.leave panic := by
  simp only [leave]
  split <;> rfl

theorem after_table (d : Duty κ) (a : Action κ) :
    (d.after a).table = d.table.run (d.deed? a).toList := by
  cases a with
  | work answers =>
    cases hf : d.table.frames with
    | nil =>
      simp only [after, work, deed?, workBetween, hf]
      by_cases hs : d.worker.stage = .head ∨ d.worker.entered
      · simp only [hs, ↓reduceIte]
        split <;> rfl
      · simp only [hs, ↓reduceIte]
        split
        · next hg => rcases hg with hg | hg <;> simp [hg, Stage.deed?, InFlight.State.run]
        · exact enter_eq _ _ _
    | cons f rest =>
      cases f with
      | task job =>
        simp only [after, work, deed?, hf]
        split
        · rfl
        · exact perform_table d answers job
      | calling call => simp only [after, work, deed?, hf]; rfl
      | _ => simp only [after, work, deed?, hf]; rfl
  | leave panic => exact leave_table d panic
  | enqueue job => rfl
  | lower => rfl

theorem run_table (d : Duty κ) (actions : List (Action κ)) :
    (d.run actions).table = d.table.run (d.deeds actions) := by
  induction actions generalizing d with
  | nil => rfl
  | cons a rest ih =>
    rw [deeds, InFlight.State.run_append, ← after_table]
    exact ih (d.after a)

theorem work_of_loop {f : Frame (Tagged κ) (Job κ)} {rest : List (Frame (Tagged κ) (Job κ))}
    (hf : d.table.frames = f :: rest) (hloop : f.isForeign = false) (answers : Answers) :
    d.work answers = d.stay (d.table.advance answers.release) d.worker.begun ∧
      d.deed? (.work answers) = some (.advance answers.release) := by
  cases f with
  | task job => simp [Frame.isForeign] at hloop
  | calling call => simp [Frame.isForeign] at hloop
  | _ => exact ⟨by simp only [work, hf]; rfl, by simp only [deed?, hf]⟩

/-! ### The stage and the table fit -/

/-- The worker has a table that it did not begin to give up. -/
def HasTable (w : Worker) : Prop :=
  w.stage ≠ .gone ∧ w.stage ≠ .dead ∧ (w.stage = .close → w.entered = false)

/-- How the table of a worker that no panic ended fits its stage. -/
structure Fits (d : Duty κ) : Prop where
  runs : Runs d.worker.stage.work d.worker.begun d.table.frames
  rests : d.worker.entered = false → d.table.frames = []
  unclosed : HasTable d.worker → ¬ d.table.isClosed
  covered : d.worker.stage = .abort → d.worker.entered → Covered d.table
  bare : d.worker.stage = .close ∨ d.worker.stage = .gone → d.table.tokens = []

theorem hasTable_of_serving {w : Worker} (hw : w.stage.work = .serving) : HasTable w := by
  refine ⟨?_, ?_, ?_⟩ <;> rintro he <;> simp [he, Stage.work] at hw

theorem Fits.entered (h : Fits d) (hf : d.table.frames ≠ []) : d.worker.entered := by
  cases he : d.worker.entered with
  | true => rfl
  | false => exact absurd (h.rests he) hf

theorem Fits.enabled (h : Fits d) (ha : d.Enabled a) (hb : d.deed? a = some b) :
    b.Enabled d.table := by
  cases a with
  | work answers =>
    have hw : d.canWork := ha
    unfold canWork at hw
    simp only [deed?] at hb
    split at hb
    · next hf =>
      have hfree : d.table.isFree := by simp [InFlight.State.isFree, hf]
      split at hb
      · simp at hb
      · next hs =>
        have he : d.worker.entered = false := by simpa using fun he => hs (.inr he)
        have hopen : d.worker.stage ≠ .gone → d.worker.stage ≠ .dead → ¬ d.table.isClosed :=
          fun hg hd => h.unclosed ⟨hg, hd, fun _ => he⟩
        cases hst : d.worker.stage <;> simp only [hst, Stage.deed?, Option.some.injEq] at hb hopen
        case head => simp at hb
        case gone => simp at hb
        case dead => simp at hb
        case close =>
          subst hb
          exact ⟨by simp [hf], hopen (by simp) (by simp)⟩
        all_goals
          subst hb
          exact ⟨hfree, hopen (by simp) (by simp)⟩
    · next job rest hf =>
      obtain ⟨hserving, -⟩ := h.runs.of_task hf
      have hopen := h.unclosed (hasTable_of_serving hserving)
      have hfree : d.table.isFree := by simp [InFlight.State.isFree, hf]
      split at hb
      · obtain rfl := Option.some.inj hb
        simp [InFlight.Action.Enabled, InFlight.State.isForeign, hf]
      · next hbegun =>
        cases job with
        | dial request =>
          obtain rfl := Option.some.inj hb
          exact ⟨hfree, hopen, by simpa [hf, hbegun] using hw⟩
        | watchOn channel =>
          obtain rfl := Option.some.inj hb
          exact ⟨hfree, hopen⟩
        | halt => simp [Job.deed?] at hb
    · simp at hb
    · next hnil htask hcalling =>
      obtain rfl := Option.some.inj hb
      refine ⟨by simpa using hnil, fun hforeign => ?_⟩
      obtain ⟨f, rest, hf, hg⟩ := InFlight.State.isForeign_iff.mp hforeign
      cases f with
      | task job => exact htask job rest hf
      | calling call => exact hcalling call rest hf
      | _ => simp [Frame.isForeign] at hg
  | leave panic =>
    obtain rfl := Option.some.inj hb
    obtain ⟨call, rest, hf⟩ := exists_calling ha
    simp [InFlight.Action.Enabled, InFlight.State.isForeign, hf]
  | enqueue job =>
    obtain rfl := Option.some.inj hb
    exact trivial
  | lower => cases hb

/-- Inside an operation, the frames that are left decide what fits. -/
theorem Fits.stay (h : Fits d) (hne : d.table.frames ≠ []) {table : Table κ} {begun : Bool}
    (he : Effect d.table b table) (hn : d.worker.stage.work = .closing → b.request? = none)
    (hruns : Runs d.worker.stage.work begun table.frames)
    (hcovered : d.worker.stage = .abort → Covered table) : Fits (d.stay table begun) where
  runs := hruns
  rests := fun hentered => by
    have hentered : d.worker.entered = false := hentered
    simp [h.entered hne] at hentered
  unclosed := by
    intro ht
    have ht : HasTable d.worker := ht
    have hw : d.worker.stage.work ≠ .closing := fun hw => by
      have he := ht.2.2 (stage_of_closing hw)
      simp [h.entered hne] at he
    change ¬ table.isClosed
    rw [he.isClosed_eq (h.runs.closing_not_mem hw)]
    exact h.unclosed ht
  covered := fun hs _ => hcovered hs
  bare := by
    intro hs
    have hs : d.worker.stage = .close ∨ d.worker.stage = .gone := hs
    refine he.tokens_eq_nil ?_ (h.bare hs)
    rcases hs with hs | hs
    · exact hn (by rw [hs]; rfl)
    · exact absurd (h.runs.nil_of_nothing (by rw [hs]; rfl)) hne

theorem Fits.stay_serving (h : Fits d) (hserving : d.worker.stage.work = .serving)
    (hne : d.table.frames ≠ []) {table : Table κ} {begun : Bool} (he : Effect d.table b table)
    (hruns : Runs .serving begun table.frames) : Fits (d.stay table begun) := by
  refine h.stay hne he (fun hw => ?_) (hserving ▸ hruns) fun hs => ?_
  · simp [hserving] at hw
  · simp [hs, Stage.work] at hserving

theorem Fits.lower (h : Fits d) : Fits d.lower := ⟨h.runs, h.rests, h.unclosed, h.covered, h.bare⟩

/-- What fits the next stage is what the operation of this one left behind. -/
theorem Fits.next (h : Fits d) (hf : d.table.frames = [])
    (hs : d.worker.stage = .head ∨ d.worker.entered) (hg : d.worker.stage ≠ .gone)
    (hd : d.worker.stage ≠ .dead) : Fits (d.goTo (d.worker.stage.following d.worker.flag)) where
  runs := by
    change Runs _ d.worker.begun d.table.frames
    rw [hf, h.runs.begun_of_nil hf]
    exact .idle _
  rests := fun _ => hf
  unclosed := fun ht => h.unclosed ⟨hg, hd, fun hc => by
    have hgone : d.worker.stage.following d.worker.flag ≠ .gone := ht.1
    simp [hc, Stage.following] at hgone⟩
  covered := fun _ hentered => absurd hentered Bool.false_ne_true
  bare := by
    intro hnext
    change d.worker.stage.following d.worker.flag = .close ∨
      d.worker.stage.following d.worker.flag = .gone at hnext
    cases hst : d.worker.stage <;> simp only [hst, Stage.following] at hnext
    case abort =>
      have hentered : d.worker.entered := hs.resolve_left (by simp [hst])
      exact (h.covered hst hentered).tokens_eq_nil (by rw [hf]; rfl)
    case close => exact h.bare (.inl hst)
    case gone => exact absurd hst hg
    case head => split at hnext <;> simp at hnext
    all_goals simp at hnext

theorem Entered.fits {table : Table κ} (he : Entered d table) (h : Fits d)
    (hf : d.table.frames = []) (hentered : d.worker.entered = false) : Fits (d.goOn table) where
  runs := by
    change Runs _ d.worker.begun table.frames
    rw [h.runs.begun_of_nil hf]
    exact he.runs
  rests := fun hn => absurd hn.symm Bool.false_ne_true
  unclosed := fun ht => by
    change ¬ InFlight.State.isClosed table
    rw [he.quiet.isClosed]
    exact h.unclosed ⟨ht.1, ht.2.1, fun _ => hentered⟩
  covered := fun hs _ => he.aborts hs
  bare := fun hs => he.quiet.tokens.trans (h.bare hs)

section After

variable (h : Fits d) (hl : Lawful d.table)
include h hl

/-- Between two operations: the worker is gone, or goes to the next stage, or begins the operation
of its own. -/
theorem Fits.between_cases (hf : d.table.frames = []) (answers : Answers) :
    (d.workBetween answers = d ∧ (d.worker.stage = .gone ∨ d.worker.stage = .dead)) ∨
      (d.workBetween answers = d.goTo (d.worker.stage.following d.worker.flag) ∧
        (d.worker.stage = .head ∨ d.worker.entered) ∧ d.worker.stage ≠ .gone ∧
          d.worker.stage ≠ .dead) ∨
      ∃ table, d.workBetween answers = d.goOn table ∧ Entered d table ∧
        d.worker.entered = false := by
  unfold workBetween
  dsimp only
  by_cases hend : d.worker.stage = .gone ∨ d.worker.stage = .dead
  · rw [if_pos hend]
    exact .inl ⟨rfl, hend⟩
  · rw [if_neg hend]
    obtain ⟨hg, hd⟩ := not_or.mp hend
    by_cases hs : d.worker.stage = .head ∨ d.worker.entered
    · rw [if_pos hs]
      exact .inr (.inl ⟨rfl, hs, hg, hd⟩)
    · rw [if_neg hs]
      have hentered : d.worker.entered = false := by simpa using fun he => hs (.inr he)
      have hopen : d.worker.stage ≠ .close → ¬ d.table.isClosed :=
        fun _ => h.unclosed ⟨hg, hd, fun _ => hentered⟩
      exact .inr (.inr ⟨_, rfl, entered_of_open hl hf hopen (fun he => hs (.inl he)) hg hd answers,
        hentered⟩)

theorem Fits.between (hf : d.table.frames = []) (answers : Answers) :
    Fits (d.workBetween answers) := by
  rcases h.between_cases hl hf answers with
    ⟨heq, -⟩ | ⟨heq, hs, hg, hd⟩ | ⟨table, heq, he, hentered⟩
  · rw [heq]
    exact h
  · exact heq ▸ h.next hf hs hg hd
  · exact heq ▸ he.fits h hf hentered

theorem Fits.task {job : Job κ} {rest : List (Frame (Tagged κ) (Job κ))}
    (hf : d.table.frames = .task job :: rest) (ha : d.Enabled (.work answers)) :
    Fits (d.work answers) := by
  obtain ⟨hserving, taken, rfl⟩ := h.runs.of_task hf
  have hne : d.table.frames ≠ [] := by simp [hf]
  have hsame : ∀ table : Table κ, table.frames = d.table.frames → Runs .serving true table.frames :=
    fun table heq => by
      rw [heq, hf]
      exact .job true job taken
  cases hb : d.worker.begun with
  | true =>
    have heq : d.work answers = d.stay (d.table.leave none) false := by
      simp only [work, hf, hb]
      rfl
    have hruns : Runs .serving false (d.table.leave none).frames := by
      simp only [InFlight.State.leave, hf, List.tail_cons]
      exact .loop taken
    exact heq ▸ h.stay_serving hserving hne (b := .leave none) (.quiet rfl (.withFrames _ _)) hruns
  | false =>
    have heq : d.work answers = (d.perform answers job).setBegun true := by
      simp only [work, hf, hb]
      rfl
    rw [heq]
    cases job with
    | dial request =>
      have hdeed : d.deed? (.work answers) = some (.attempt request answers.reply answers.now) := by
        simp [deed?, hf, hb, Job.deed?]
      have henabled := h.enabled ha hdeed
      obtain ⟨-, hframes⟩ := hl.attempt_frames henabled.2.2 request answers.reply answers.now
      refine h.stay_serving hserving hne (hl.after henabled).2 ?_
      rcases hframes with hfr | ⟨call, hfr⟩
      · exact hsame _ hfr
      · change Runs .serving true (d.table.attempt request answers.reply answers.now).2.frames
        rw [hfr, hf]
        exact .reply call _ taken
    | watchOn channel =>
      exact h.stay_serving hserving hne (b := .drain) (.quiet rfl (.withMonitor _ _))
        (hsame _ rfl)
    | halt =>
      exact h.lower.stay_serving hserving hne (b := .drain) (.quiet rfl (.refl _)) (hsame _ rfl)

theorem Fits.settling {batch : List (Token × Cause)} {rest : List (Frame (Tagged κ) (Job κ))}
    (hf : d.table.frames = .settling batch :: rest) (release : Release) :
    Fits (d.stay (d.table.advance release) d.worker.begun) := by
  have hne : d.table.frames ≠ [] := by simp [hf]
  have he := (hl.advance hne (by simp [InFlight.State.isForeign, hf]) release).2
  obtain ⟨-, hframes⟩ := hl.advance_settling_frames hf release
  obtain ⟨hbegun, hwork⟩ := h.runs.of_settling hf
  refine h.stay hne he (fun _ => rfl) ?_
    fun hs => hl.covered_advance hf (h.covered hs (h.entered hne)) release
  rw [hbegun]
  rcases hwork with ⟨hw, rfl⟩ | ⟨hw, rfl⟩ <;> rw [hw]
  · rcases hframes with ⟨-, heq⟩ | ⟨batch', hfr | ⟨call, hfr⟩⟩
    · exact heq ▸ .idle _
    · exact hfr ▸ .batch batch'
    · exact hfr ▸ .answer call batch'
  · rcases hframes with ⟨-, heq⟩ | ⟨batch', hfr | ⟨call, hfr⟩⟩
    · exact heq ▸ .last
    · exact hfr ▸ .lastBatch batch'
    · exact hfr ▸ .lastAnswer call batch'

theorem Fits.draining {taken : Nat} {rest : List (Frame (Tagged κ) (Job κ))}
    (hf : d.table.frames = .draining taken :: rest) (release : Release) :
    Fits (d.stay (d.table.advance release) d.worker.begun) := by
  have hne : d.table.frames ≠ [] := by simp [hf]
  have hq := (hl.advance_draining hf release).1
  obtain ⟨hserving, rfl, hbegun⟩ := h.runs.of_draining hf
  refine h.stay_serving hserving hne (b := .advance release) (.quiet rfl hq) ?_
  rw [hbegun]
  rcases InFlight.State.advance_draining_frames hf release with ⟨-, -, hfr⟩ | ⟨job, -, hfr⟩
  · exact hfr ▸ .idle _
  · exact hfr ▸ .job false job _

theorem Fits.closing {rest : List (Frame (Tagged κ) (Job κ))}
    (hf : d.table.frames = .closing :: rest) (release : Release) :
    Fits (d.stay (d.table.advance release) d.worker.begun) := by
  have hne : d.table.frames ≠ [] := by simp [hf]
  obtain ⟨hw, rfl, hbegun⟩ := h.runs.of_closing hf
  have hfr : (d.table.advance release).frames = [] := by
    simp only [InFlight.State.advance, hf]
  refine h.stay hne (hl.advance_closing hf release).2 (fun _ => rfl) ?_ fun hs => ?_
  · rw [hfr, hbegun]
    exact .idle _
  · simp [hs, Stage.work] at hw

theorem Fits.work (ha : d.Enabled (.work answers)) : Fits (d.work answers) := by
  cases hf : d.table.frames with
  | nil =>
    have heq : d.work answers = d.workBetween answers := by simp only [Duty.work, hf]
    exact heq ▸ h.between hl hf answers
  | cons f rest =>
    cases f with
    | task job => exact h.task hl hf ha
    | calling call =>
      have hw : d.canWork := ha
      simp [canWork, hf] at hw
    | settling batch => exact (work_of_loop hf rfl answers).1 ▸ h.settling hl hf answers.release
    | draining taken => exact (work_of_loop hf rfl answers).1 ▸ h.draining hl hf answers.release
    | closing => exact (work_of_loop hf rfl answers).1 ▸ h.closing hl hf answers.release

/-- Whoever comes back from foreign code finds what fits, and the batch that was in progress. -/
theorem Fits.leave (hn : d.isForeign) (panic : Option Panic)
    (hp : (d.leave panic).worker.panicked = false) :
    Fits (d.leave panic) ∧ batchOf (d.table.leave panic).frames = batchOf d.table.frames := by
  obtain ⟨call, rest, hf⟩ := exists_calling hn
  have hne : d.table.frames ≠ [] := by simp [hf]
  rcases leave_cases h.runs hl hf panic with ⟨heq, hq, hleft⟩ | ⟨-, heq, -⟩
  · have hkept : batchOf (d.table.leave panic).frames = batchOf d.table.frames ∧
        Runs d.worker.stage.work (d.resume (d.table.leave panic)).worker.begun
          (d.table.leave panic).frames := by
      simp only [resume, Duty.stay, hasJob]
      rcases h.runs.of_calling hf with ⟨hbegun, hw, batch, rfl⟩ | ⟨hbegun, hw, job, taken, rfl⟩ |
        ⟨hbegun, hw, batch, rfl⟩ <;> rw [hbegun, hw, hf]
      · have hfr := hleft.resolve_right (by simp)
        rw [hfr]
        exact ⟨rfl, .batch batch⟩
      · rcases hleft with hfr | ⟨_, _, hrest, hfr⟩ <;> rw [hfr]
        · exact ⟨rfl, .job true job taken⟩
        · exact ⟨rfl, .loop _⟩
      · have hfr := hleft.resolve_right (by simp)
        rw [hfr]
        exact ⟨rfl, .lastBatch batch⟩
    refine ⟨?_, hkept.1⟩
    refine heq ▸ h.stay hne (b := .leave panic) (.quiet rfl hq) (fun _ => rfl) hkept.2 fun hs => ?_
    exact hq.covered (h.covered hs (h.entered hne)) hkept.1
  · simp [heq, escape] at hp

/-- A step that no panic ends the worker in leaves the table as it fits the stage then. -/
theorem Fits.after (ha : d.Enabled a) (hp : (d.after a).worker.panicked = false) :
    Fits (d.after a) := by
  cases a with
  | work answers => exact h.work hl ha
  | leave panic => exact (h.leave hl ha panic hp).1
  | enqueue job =>
    obtain ⟨hq, hf⟩ := InFlight.State.quiet_enqueue d.table job
    exact
      { runs := by
          change Runs _ d.worker.begun (d.table.after (.enqueue job)).frames
          rw [hf]
          exact h.runs
        rests := fun he => hf.trans (h.rests he)
        unclosed := fun ht => by
          change ¬ InFlight.State.isClosed (d.table.after (.enqueue job))
          rw [hq.isClosed]
          exact h.unclosed ht
        covered := fun hs he => hq.covered (h.covered hs he) (by rw [hf])
        bare := fun hs => hq.tokens.trans (h.bare hs) }
  | lower => exact h.lower

theorem Fits.keepsBatch (ha : d.Enabled a) (hp : (d.after a).worker.panicked = false)
    (hb : d.deed? a = some b) : KeepsBatch d.table b := by
  rintro panic rfl
  cases a with
  | work answers =>
    -- The only foreign code that the worker itself leaves is a job, and there is no batch below it.
    simp only [deed?] at hb
    split at hb
    · split at hb
      · simp at hb
      · cases hs : d.worker.stage <;> simp [hs, Stage.deed?] at hb
    · next job rest hf =>
      obtain ⟨-, taken, rfl⟩ := h.runs.of_task hf
      split at hb
      · obtain rfl : none = panic := by simpa using hb
        rw [InFlight.State.leave, hf]
        rfl
      · cases job <;> simp [Job.deed?] at hb
    · simp at hb
    · simp at hb
  | leave panic' =>
    obtain rfl : panic' = panic := by simpa [deed?] using hb
    exact (h.leave hl ha panic' hp).2
  | enqueue job => simp [deed?] at hb
  | lower => cases hb

end After

theorem Fits.not_breaksOff (h : Fits d) {table : Table κ} : ¬ BreaksOff d.table b table := by
  intro hbreak
  by_cases hw : d.worker.stage.work = .closing
  · exact hbreak.pending (h.bare (.inl (stage_of_closing hw)))
  · exact h.runs.closing_not_mem hw hbreak.closing

theorem work_panicked (d : Duty κ) (answers : Answers) :
    (d.work answers).worker.panicked = d.worker.panicked := by
  simp only [work]
  split
  · simp only [workBetween]
    split
    · rfl
    · split <;> rfl
  · next job rest hf =>
    split
    · rfl
    · cases job <;> rfl
  · rfl
  · rfl

theorem panicked_after (hp : (d.after a).worker.panicked = false) : d.worker.panicked = false := by
  cases a with
  | work answers => exact (work_panicked d answers).symm.trans hp
  | leave panic =>
    simp only [after, leave] at hp
    split at hp
    · simp at hp
    · exact hp
  | enqueue job => exact hp
  | lower => exact hp

theorem panicked_run (hp : (d.run actions).worker.panicked = false) :
    d.worker.panicked = false := by
  induction actions generalizing d with
  | nil => exact hp
  | cons a rest ih => exact panicked_after (ih hp)

end Duty

end Dialer.Service
