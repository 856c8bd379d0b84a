import Dialer.Proofs.Service.Stages

/-!
# The steps of the worker

Inside an operation the worker carries out jobs, goes on in the loops of its table and comes back
from foreign code. A panic that nothing contains ends the operation, and the worker goes on to give
its table up.
-/

namespace Dialer.Service

open InFlight (Frame Cause batchOf)
open InFlight.State (Lawful Tallied Founded IsComplete BreaksOff Quiet Covered)
open Readiness (Token)

namespace Duty

variable {κ : Type} {d e : Duty κ}

/-- The worker still in the operation of its stage. -/
def stay (d : Duty κ) (table : Table κ) (begun : Bool) : Duty κ :=
  { table := table, worker := { d.worker with begun := begun } }

theorem Staged.of_frames (h : Staged d) (hf : d.table.frames ≠ []) : d.worker.entered := by
  cases he : d.worker.entered with
  | true => rfl
  | false => exact absurd (h.rests he) hf

section Promise

variable {stage : Stage} {table : Table κ} {begun : Bool}

/-- A batch that is settled matters to the last abort alone, which is to leave no attempt. -/
theorem Promise.stay_settling (h : d.Promise stage) (hw : stage.work = .settling)
    (hclosed : d.IsSound → ¬ table.isClosed)
    (haborts : stage = .abort → table.queue = d.table.queue ∧ Covered table) :
    (d.stay table begun).Promise stage := by
  have hsound : d.IsSound → (d.stay table begun).IsSound := fun h => ⟨h.1, hclosed h⟩
  cases stage
  case wait => exact hsound h
  case reconcile => exact hsound h
  case expire => exact hsound h
  case abort =>
    obtain ⟨hqueue, hcovered⟩ := haborts rfl
    exact ⟨hsound h.1, h.2.1, hqueue.trans h.2.2.1, fun _ => hcovered⟩
  all_goals cases hw

theorem Promise.stay_serving (h : d.Promise stage) (hw : stage.work = .serving)
    (hclosed : d.IsSound → ¬ table.isClosed) (hserved : table.frames = [] → table.queue = []) :
    (d.stay table begun).Promise stage := by
  have hsound : d.IsSound → (d.stay table begun).IsSound := fun h => ⟨h.1, hclosed h⟩
  cases stage
  case serve => exact hsound h
  case lastServe => exact ⟨hsound h.1, h.2.1, fun _ => hserved⟩
  all_goals cases hw

theorem Promise.stay_closing (h : d.Promise .close) (hqueue : table.queue = d.table.queue)
    (htokens : d.table.tokens = [] → table.tokens = [])
    (hclosed : table.frames = [] → table.isClosed) : (d.stay table begun).Promise .close :=
  ⟨h.1.imp_right fun h => ⟨h.1, hqueue.trans h.2.1, htokens h.2.2⟩, fun _ => hclosed⟩

theorem stage_of_closing (hw : stage.work = .closing) : stage = .close := by
  cases stage
  case close => rfl
  all_goals cases hw

theorem not_dead_of_work (hw : stage.work ≠ .nothing) : stage ≠ .dead := by
  rintro rfl
  exact hw rfl

theorem jobs_stay (hold : d.jobs = d.table.queue)
    (hf : ∀ job rest, table.frames ≠ .task job :: rest) (hq : table.queue = d.table.queue) :
    (d.stay table begun).jobs = d.jobs := by
  rw [hold, jobs_of_idle (d := d.stay table begun) hf]
  exact hq

theorem Sound.stay (h : Sound d) (hf : d.table.frames ≠ [])
    (hd : d.worker.stage ≠ .dead) (hl : Lawful table) (hp : Progress d (d.stay table begun))
    (hruns : Runs d.worker.stage.work begun table.frames)
    (hpromise : (d.stay table begun).Promise d.worker.stage) :
    Sound (d.stay table begun) ∧ Progress d (d.stay table begun) := by
  have hrests : (d.stay table begun).worker.entered = false → table.frames = [] := fun hn =>
    absurd (h.staged.of_frames hf) (by simp [show d.worker.entered = false from hn])
  have hcomplete : ∀ request ∈ (d.stay table begun).waiting, request.continuations?.isSome :=
    fun request hm => h.staged.complete request (waiting_subset hp.jobs request hm)
  exact ⟨⟨⟨hruns, hrests, hpromise, hcomplete⟩, h.kept.progress hd hl hp⟩, hp⟩

end Promise

/-! ### The stages that frames belong to -/

section Frames

variable {rest : List (Frame (Tagged κ) (Job κ))}

theorem Staged.of_task (h : Staged d) {job : Job κ} (hf : d.table.frames = .task job :: rest) :
    d.worker.stage.work = .serving ∧ ∃ taken, rest = [.draining taken] :=
  h.runs.of_task hf

theorem Staged.of_draining (h : Staged d) {taken : Nat}
    (hf : d.table.frames = .draining taken :: rest) :
    d.worker.stage.work = .serving ∧ rest = [] ∧ d.worker.begun = false :=
  h.runs.of_draining hf

theorem Staged.of_settling (h : Staged d) {batch : List (Token × Cause)}
    (hf : d.table.frames = .settling batch :: rest) :
    d.worker.begun = false ∧ ((d.worker.stage.work = .settling ∧ rest = []) ∨
      (d.worker.stage.work = .closing ∧ rest = [.closing])) :=
  h.runs.of_settling hf

theorem Staged.of_closing (h : Staged d) (hf : d.table.frames = .closing :: rest) :
    d.worker.stage.work = .closing ∧ rest = [] ∧ d.worker.begun = false :=
  h.runs.of_closing hf

theorem Staged.of_calling (h : Staged d) {call : InFlight.Call (Tagged κ)}
    (hf : d.table.frames = .calling call :: rest) :
    (d.worker.begun = false ∧ d.worker.stage.work = .settling ∧
        ∃ batch, rest = [.settling batch]) ∨
      (d.worker.begun = true ∧ d.worker.stage.work = .serving ∧
        ∃ job taken, rest = [.task job, .draining taken]) ∨
      (d.worker.begun = false ∧ d.worker.stage.work = .closing ∧
        ∃ batch, rest = [.settling batch, .closing]) :=
  h.runs.of_calling hf

end Frames

/-! ### Jobs -/

theorem IsSound.of_serving (h : Sound d) (hw : d.worker.stage.work = .serving) : d.IsSound :=
  h.staged.promise.isSound (by rintro he; simp [he, Stage.work] at hw)
    (by rintro he; simp [he, Stage.work] at hw) (by rintro he; simp [he, Stage.work] at hw)

/-- While the queue is served, only the queue itself and the end of it matter. -/
theorem Sound.stay_serving (h : Sound d) (hw : d.worker.stage.work = .serving)
    (hf : d.table.frames ≠ []) {table : Table κ} {begun : Bool} (hl : Lawful table)
    (hp : Progress d (d.stay table begun)) (hruns : Runs .serving begun table.frames)
    (hclosed : table.isClosed = d.table.isClosed)
    (hserved : table.frames = [] → table.queue = []) :
    Sound (d.stay table begun) ∧ Progress d (d.stay table begun) := by
  have hpromise : (d.stay table begun).Promise d.worker.stage :=
    h.staged.promise.stay_serving hw (fun hs => hclosed ▸ hs.2) hserved
  exact h.stay hf (not_dead_of_work (by simp [hw])) hl hp (hw ▸ hruns) hpromise

theorem Sound.finish (h : Sound d) {job : Job κ} {rest : List (Frame (Tagged κ) (Job κ))}
    (hf : d.table.frames = .task job :: rest) (hb : d.worker.begun = true) :
    Sound (d.stay (d.table.leave none) false) ∧ Progress d (d.stay (d.table.leave none) false) := by
  obtain ⟨hw, taken, rfl⟩ := h.staged.of_task hf
  have hframes : (d.table.leave none).frames = [.draining taken] := by
    simp [InFlight.State.leave, hf]
  have hforeign : d.table.isForeign := by simp [InFlight.State.isForeign, hf]
  have hq : Quiet d.table (d.table.leave none) := .withFrames _ _
  have hj : (d.stay (d.table.leave none) false).jobs = d.jobs :=
    jobs_stay (jobs_of_begun hb) (by simp [hframes]) rfl
  refine h.stay_serving hw (by simp [hf]) (h.kept.lawful.leave hforeign none).1
    (progress_of_quiet hq hj rfl rfl id) ?_ hq.isClosed (by simp [hframes])
  rw [hframes]
  exact .loop taken

theorem Promise.lower {stage : Stage} (h : d.Promise stage) : d.lower.Promise stage := by
  cases stage
  case lastServe => exact ⟨h.1, rfl, h.2.2⟩
  case abort => exact ⟨h.1, rfl, h.2.2⟩
  case close => exact ⟨h.1.imp_right fun h => ⟨rfl, h.2⟩, h.2⟩
  case gone => exact ⟨h.1.imp_right fun h => ⟨rfl, h.2⟩, h.2⟩
  all_goals exact h

theorem Sound.lower (h : Sound d) : Sound d.lower :=
  ⟨⟨h.staged.runs, h.staged.rests, h.staged.promise.lower, h.staged.complete⟩,
    ⟨h.kept.lawful, h.kept.tallied, h.kept.founded, h.kept.complete⟩⟩

theorem Sound.dial (h : Sound d) {request : Request (Tagged κ)}
    {rest : List (Frame (Tagged κ) (Job κ))} (hf : d.table.frames = .task (.dial request) :: rest)
    (hb : d.worker.begun = false) (hroom : d.table.hasRoom) (reply : Reply)
    (now : Time.Instant) :
    Sound (d.stay (d.table.attempt request reply now).2 true) ∧
      Progress d (d.stay (d.table.attempt request reply now).2 true) := by
  obtain ⟨hw, taken, rfl⟩ := h.staged.of_task hf
  have hopen := (IsSound.of_serving h hw).2
  have hrests : InFlight.Rests d.table.frames := hf ▸ .task _ _ .nil
  obtain ⟨hl, he⟩ := h.kept.lawful.attempt hrests hopen hroom request reply now
  obtain ⟨hqueue, hframes⟩ := h.kept.lawful.attempt_frames hroom request reply now
  have hjobs := jobs_of_task hf hb
  have hwaiting : d.waiting = request :: d.table.queue.filterMap Job.request? := by
    rw [waiting, hjobs]
    rfl
  have hcomplete : request.continuations?.isSome :=
    h.staged.complete request (hwaiting ▸ List.mem_cons_self)
  obtain ⟨c, hc⟩ := Option.isSome_iff_exists.mp hcomplete
  have hrequest : (InFlight.Action.attempt request reply now :
      InFlight.Action (Tagged κ) (Job κ)).request? = some request := by
    simp [InFlight.Action.request?, hc]
  have hissues : (d.table.attempt request reply now).2.issues.map (·.2) =
      request :: d.table.issues.map (·.2) := by
    obtain ⟨-, ⟨-, call, hans⟩ | ⟨token, e, -, hb⟩⟩ :=
      h.kept.lawful.registered.attempt_complete hroom hc reply now
    · rw [hans.issues]
      rfl
    · rw [hb.issues]
      rfl
  -- What was in hand is not to be done any more, whether it was called back or not.
  have hjobs' : (d.stay (d.table.attempt request reply now).2 true).jobs = d.table.queue :=
    (jobs_of_begun rfl).trans hqueue
  have hp : Progress d (d.stay (d.table.attempt request reply now).2 true) :=
    { effect := ⟨_, he, fun r hr => by
          obtain rfl : request = r := Option.some.inj (hrequest.symm.trans hr)
          rw [hwaiting]
          exact List.mem_cons_self,
        fun hbreak => by obtain ⟨_, _, h⟩ := hbreak.panic; simp at h⟩
      jobs := fun job hm => by
        rw [hjobs'] at hm
        rw [hjobs]
        exact List.mem_cons_of_mem _ hm
      sequence := by
        rw [Duty.sequence, Duty.sequence, hwaiting, waiting, hjobs']
        change ((d.table.attempt request reply now).2.issues.map (·.2)).reverse ++ _ = _
        rw [hissues, List.reverse_cons, List.append_assoc]
        rfl
      flag := .inl rfl
      generation := rfl
      panicked := id }
  have hclosing : .closing ∉ d.table.frames := by simp [hf]
  refine h.stay_serving hw (by simp [hf]) hl hp ?_ (he.isClosed_eq hclosing) ?_
  · rcases hframes with hfr | ⟨call, hfr⟩ <;> rw [hfr, hf]
    · exact .job true _ taken
    · exact .reply call _ taken
  · rcases hframes with hfr | ⟨call, hfr⟩ <;> simp [hfr, hf]

theorem progress_of_chore {job : Job κ} (hq : Quiet d.table e.table)
    (hjobs : d.jobs = job :: d.table.queue) (hj : e.jobs = d.table.queue)
    (hn : job.request? = none)
    (hf : e.worker.flag = d.worker.flag ∨ (.halt ∈ d.jobs ∧ e.worker.flag = false))
    (hg : e.worker.generation = d.worker.generation)
    (hp : d.worker.panicked → e.worker.panicked) : Progress d e where
  effect := ⟨.drain, .quiet rfl hq, fun _ h => by simp [InFlight.Action.request?] at h,
    fun hb => by obtain ⟨_, _, h⟩ := hb.panic; simp at h⟩
  jobs := fun job hm => by
    rw [hj] at hm
    rw [hjobs]
    exact List.mem_cons_of_mem _ hm
  sequence := by
    rw [Duty.sequence, Duty.sequence, waiting, waiting, hj, hjobs, hq.issues,
      List.filterMap_cons_none hn]
  flag := hf
  generation := hg
  panicked := hp

theorem Sound.perform (h : Sound d) {job : Job κ} {rest : List (Frame (Tagged κ) (Job κ))}
    (hf : d.table.frames = .task job :: rest) (hb : d.worker.begun = false)
    (hroom : ∀ request, job = .dial request → d.table.hasRoom) (answers : Answers) :
    Sound ((d.perform answers job).setBegun true) ∧
      Progress d ((d.perform answers job).setBegun true) := by
  obtain ⟨hw, taken, rfl⟩ := h.staged.of_task hf
  have hjobs := jobs_of_task hf hb
  cases job with
  | dial request => exact h.dial hf hb (hroom request rfl) _ _
  | watchOn channel =>
    have hq : Quiet d.table (d.table.watchOn (some channel)) := .withMonitor _ _
    have hframes : (d.table.watchOn (some channel)).frames = d.table.frames := rfl
    have hp : Progress d (d.stay (d.table.watchOn (some channel)) true) :=
      progress_of_chore hq hjobs (jobs_of_begun rfl) rfl (.inl rfl) rfl id
    have hruns : Runs .serving true (d.table.watchOn (some channel)).frames := by
      rw [hframes, hf]
      exact .job true _ taken
    exact h.stay_serving hw (by simp [hf]) (h.kept.lawful.still hq rfl) hp hruns rfl
      fun hn => absurd (hframes.symm.trans hn) (by simp [hf])
  | halt =>
    have hq : Quiet d.table (d.lower.stay d.table true).table := .refl _
    have hp : Progress d (d.lower.stay d.table true) :=
      progress_of_chore hq hjobs (jobs_of_begun rfl) rfl
        (.inr ⟨hjobs ▸ List.mem_cons_self, rfl⟩) rfl id
    -- The flag goes down first, which no promise minds.
    have hlower : Progress d.lower (d.lower.stay d.table true) :=
      progress_of_chore hq hjobs (jobs_of_begun rfl) rfl (.inl rfl) rfl id
    refine ⟨(h.lower.stay_serving hw (by simp [Duty.lower, hf]) h.kept.lawful hlower ?_ rfl
      (by simp [hf])).1, hp⟩
    rw [hf]
    exact .job true _ taken

/-! ### The loops of the table -/

theorem Sound.advance_settling (h : Sound d) {batch : List (Token × Cause)}
    {rest : List (Frame (Tagged κ) (Job κ))} (hf : d.table.frames = .settling batch :: rest)
    (release : Release) :
    Sound (d.stay (d.table.advance release) d.worker.begun) ∧
      Progress d (d.stay (d.table.advance release) d.worker.begun) := by
  have hne : d.table.frames ≠ [] := by simp [hf]
  obtain ⟨hl, he⟩ := h.kept.lawful.advance hne (by simp [InFlight.State.isForeign, hf]) release
  obtain ⟨hqueue, hframes⟩ := h.kept.lawful.advance_settling_frames hf release
  obtain ⟨hb, hcase⟩ := h.staged.of_settling hf
  have hframes : (d.table.advance release).frames = rest ∨ ∃ batch',
      (d.table.advance release).frames = .settling batch' :: rest ∨
        ∃ call, (d.table.advance release).frames = .calling call :: .settling batch' :: rest :=
    hframes.imp_left fun h => by rw [h.2]
  have hrest : ∀ job more, rest ≠ .task job :: more := by
    rcases hcase with ⟨-, rfl⟩ | ⟨-, rfl⟩ <;> simp
  have hidle : ∀ job more, (d.table.advance release).frames ≠ .task job :: more := by
    intro job more
    rcases hframes with hfr | ⟨batch', hfr | ⟨call, hfr⟩⟩ <;> rw [hfr]
    · exact hrest job more
    · simp
    · simp
  have hj : (d.stay (d.table.advance release) d.worker.begun).jobs = d.jobs :=
    jobs_stay (jobs_of_idle (by simp [hf])) hidle hqueue
  have hp : Progress d (d.stay (d.table.advance release) d.worker.begun) :=
    progress_of_effect he rfl (fun hbreak => by obtain ⟨_, _, h⟩ := hbreak.panic; simp at h) hj
      rfl rfl id
  rcases hcase with ⟨hw, rfl⟩ | ⟨hw, rfl⟩
  · have hclosed := he.isClosed_eq (by simp [hf])
    refine h.stay hne (not_dead_of_work (by simp [hw])) hl hp ?_
      (h.staged.promise.stay_settling hw (fun hs => hclosed ▸ hs.2) fun hs => ⟨hqueue, ?_⟩)
    · rw [hw, hb]
      rcases hframes with hfr | ⟨batch', hfr | ⟨call, hfr⟩⟩ <;> rw [hfr]
      · exact .idle _
      · exact .batch batch'
      · exact .answer call batch'
    · have hcovered := (hs ▸ h.staged.promise).2.2.2 (h.staged.of_frames hne)
      exact h.kept.lawful.covered_advance hf hcovered release
  · have hclose := stage_of_closing hw
    have hfr : (d.table.advance release).frames ≠ [] := by
      rcases hframes with hfr | ⟨batch', hfr | ⟨call, hfr⟩⟩ <;> simp [hfr]
    have hpromise : (d.stay (d.table.advance release) d.worker.begun).Promise .close :=
      .stay_closing (hclose ▸ h.staged.promise) hqueue (he.tokens_eq_nil rfl) (absurd · hfr)
    refine h.stay hne (not_dead_of_work (by simp [hw])) hl hp ?_ (hclose ▸ hpromise)
    rw [hw, hb]
    rcases hframes with hfr | ⟨batch', hfr | ⟨call, hfr⟩⟩ <;> rw [hfr]
    · exact .last
    · exact .lastBatch batch'
    · exact .lastAnswer call batch'

theorem Sound.advance_draining (h : Sound d) {taken : Nat}
    {rest : List (Frame (Tagged κ) (Job κ))} (hf : d.table.frames = .draining taken :: rest)
    (release : Release) :
    Sound (d.stay (d.table.advance release) d.worker.begun) ∧
      Progress d (d.stay (d.table.advance release) d.worker.begun) := by
  have hne : d.table.frames ≠ [] := by simp [hf]
  obtain ⟨hw, rfl, hb⟩ := h.staged.of_draining hf
  obtain ⟨hl, -⟩ := h.kept.lawful.advance hne (by simp [InFlight.State.isForeign, hf]) release
  obtain ⟨hq, -⟩ := h.kept.lawful.advance_draining hf release
  have hold : d.jobs = d.table.queue := jobs_of_idle (by simp [hf])
  rcases InFlight.State.advance_draining_frames hf release with
    ⟨hqueue, hqueue', hfr⟩ | ⟨job, hqueue, hfr⟩
  · have hj : (d.stay (d.table.advance release) d.worker.begun).jobs = d.jobs :=
      jobs_stay hold (by simp [hfr]) (hqueue'.trans hqueue.symm)
    refine h.stay_serving hw hne hl (progress_of_quiet hq hj rfl rfl id) ?_ hq.isClosed
      (fun _ => hqueue')
    rw [hfr, hb]
    exact .idle _
  · have hj : (d.stay (d.table.advance release) d.worker.begun).jobs = d.jobs := by
      rw [hold, hqueue]
      exact jobs_of_task (d := d.stay _ d.worker.begun) hfr hb
    refine h.stay_serving hw hne hl (progress_of_quiet hq hj rfl rfl id) ?_ hq.isClosed
      (by simp [hfr])
    rw [hfr, hb]
    exact .job false job _

theorem Sound.advance_closing (h : Sound d) {rest : List (Frame (Tagged κ) (Job κ))}
    (hf : d.table.frames = .closing :: rest) (release : Release) :
    Sound (d.stay (d.table.advance release) d.worker.begun) ∧
      Progress d (d.stay (d.table.advance release) d.worker.begun) := by
  have hne : d.table.frames ≠ [] := by simp [hf]
  obtain ⟨hw, rfl, hb⟩ := h.staged.of_closing hf
  have hclose := stage_of_closing hw
  obtain ⟨hl, he⟩ := h.kept.lawful.advance_closing hf release
  have hqueue := InFlight.State.advance_closing_queue hf release
  have hfr : (d.table.advance release).frames = [] := by
    simp only [InFlight.State.advance, hf]
  have hj : (d.stay (d.table.advance release) d.worker.begun).jobs = d.jobs :=
    jobs_stay (jobs_of_idle (by simp [hf])) (by simp [hfr]) hqueue
  have hp : Progress d (d.stay (d.table.advance release) d.worker.begun) :=
    progress_of_effect he rfl (fun hbreak => by obtain ⟨_, _, h⟩ := hbreak.panic; simp at h) hj
      rfl rfl id
  have hpromise : (d.stay (d.table.advance release) d.worker.begun).Promise .close :=
    .stay_closing (hclose ▸ h.staged.promise) hqueue (he.tokens_eq_nil rfl)
      fun _ => h.kept.lawful.closed_advance hf release
  refine h.stay hne (not_dead_of_work (by simp [hw])) hl hp ?_ (hclose ▸ hpromise)
  rw [hfr, hb]
  exact .idle _

/-- The worker goes on by one step, unless it is dead or has a request to issue without a token for
it. -/
theorem Sound.work (h : Sound d) (hd : d.worker.stage ≠ .dead) (hw : d.canWork)
    (answers : Answers) : Sound (d.work answers) ∧ Progress d (d.work answers) := by
  unfold Duty.work
  unfold canWork at hw
  split
  · next hf =>
    unfold workBetween
    by_cases hg : d.worker.stage = .gone
    · simp only [hg, true_or, ↓reduceIte]
      exact ⟨h, progress_of_quiet (.refl _) rfl rfl rfl id⟩
    · by_cases hs : d.worker.stage = .head ∨ d.worker.entered
      · simp only [hg, hd, or_self, ↓reduceIte, hs]
        exact h.next hf hs hd
      · simp only [hg, hd, or_self, ↓reduceIte, hs]
        exact h.enter hf (fun he => hs (.inl he)) hg hd answers
  · next job rest hf =>
    cases hb : d.worker.begun with
    | true => exact h.finish hf hb
    | false =>
      refine h.perform hf hb (fun request hj => ?_) answers
      rw [hf, hj] at hw
      simpa [hb] using hw
  · next call rest hf => simp [hf] at hw
  · next hnil htask hcalling =>
    obtain ⟨f, rest, hf⟩ := List.exists_cons_of_ne_nil hnil
    cases f with
    | settling batch => exact h.advance_settling hf _
    | draining taken => exact h.advance_draining hf _
    | closing => exact h.advance_closing hf _
    | task job => exact absurd hf (htask job rest)
    | calling call => exact absurd hf (hcalling call rest)

/-! ### The end of foreign code -/

section Leave

variable {call : InFlight.Call (Tagged κ)} {rest : List (Frame (Tagged κ) (Job κ))}
  {panic : Option Panic} {table : Table κ}

/-- The worker after a panic that nothing contained. -/
def escape (d : Duty κ) (table : Table κ) : Duty κ :=
  { table := table
    worker := { d.worker with
      begun := false
      stage := Stage.afterPanic d.worker.panicked
      entered := false
      panicked := true } }

/-- The worker back from foreign code, and in the job that it was in if that is not over. -/
def resume (d : Duty κ) (table : Table κ) : Duty κ :=
  d.stay table (d.worker.begun && ({ d with table := table } : Duty κ).hasJob)

theorem leave_contained (h : panic.isSome → ∃ site text before,
      (d.table.leave panic).history = .panicked site text :: before) :
    d.leave panic = d.resume (d.table.leave panic) := by
  cases panic with
  | none => rfl
  | some panic =>
    obtain ⟨site, text, before, hh⟩ := h rfl
    have he : (d.resume (d.table.leave (some panic))).hasEscaped = false := by
      simp only [hasEscaped, resume, Duty.stay, hh]
    simp only [resume, Duty.stay] at he
    simp only [Duty.leave, setBegun, he]
    rfl

theorem leave_escaped {panic : Panic} {text : String}
    {before : List (InFlight.Happening (Tagged κ) (Job κ))}
    (hh : (d.table.leave (some panic)).history = .escaped text :: before)
    (hf : (d.table.leave (some panic)).frames = []) :
    d.leave (some panic) = d.escape (d.table.leave (some panic)) := by
  have hj : ({ d with table := d.table.leave (some panic) } : Duty κ).hasJob = false := by
    simp only [hasJob, hf]
  have he : (({ d with table := d.table.leave (some panic) } : Duty κ).setBegun false).hasEscaped =
      true := by
    simp only [hasEscaped, setBegun, hh]
  simp only [Duty.leave, hj, Bool.and_false, he]
  rfl

theorem Sound.leave_contained (h : Sound d) (hf : d.table.frames = .calling call :: rest)
    (hl : Lawful table) (hq : Quiet d.table table) (hqueue : table.queue = d.table.queue)
    (hfr : table.frames = rest) :
    Sound (d.resume table) ∧ Progress d (d.resume table) := by
  have hne : d.table.frames ≠ [] := by simp [hf]
  have hold : d.jobs = d.table.queue := jobs_of_idle (by simp [hf])
  have hclosed : d.IsSound → ¬ table.isClosed := fun hs => by
    rw [hq.isClosed]
    exact hs.2
  rcases h.staged.of_calling hf with ⟨hb, hw, batch, rfl⟩ | ⟨hb, hw, job, taken, rfl⟩ |
    ⟨hb, hw, batch, rfl⟩
  · have hresume : d.resume table = d.stay table false := by rw [resume, hb, Bool.false_and]
    rw [hresume]
    have hj : (d.stay table false).jobs = d.jobs := jobs_stay hold (by simp [hfr]) hqueue
    refine h.stay hne (not_dead_of_work (by simp [hw])) hl (progress_of_quiet hq hj rfl rfl id) ?_
      (h.staged.promise.stay_settling hw hclosed fun hs => ⟨hqueue, ?_⟩)
    · rw [hw, hfr]
      exact .batch batch
    · have hcovered := (hs ▸ h.staged.promise).2.2.2 (h.staged.of_frames hne)
      exact hq.covered hcovered (by rw [hfr, hf]; rfl)
  · have hresume : d.resume table = d.stay table true := by
      simp only [resume, hb, hasJob, hfr, Bool.true_and]
    rw [hresume]
    have hj : (d.stay table true).jobs = d.jobs := by
      rw [jobs_of_begun (d := d.stay table true) rfl, hold]
      exact hqueue
    refine h.stay_serving hw hne hl (progress_of_quiet hq hj rfl rfl id) ?_ hq.isClosed
      (by simp [hfr])
    rw [hfr]
    exact .job true job taken
  · have hresume : d.resume table = d.stay table false := by rw [resume, hb, Bool.false_and]
    rw [hresume]
    have hclose := stage_of_closing hw
    have hj : (d.stay table false).jobs = d.jobs := jobs_stay hold (by simp [hfr]) hqueue
    have hpromise : (d.stay table false).Promise .close :=
      .stay_closing (hclose ▸ h.staged.promise) hqueue hq.tokens.trans (by simp [hfr])
    refine h.stay hne (not_dead_of_work (by simp [hw])) hl (progress_of_quiet hq hj rfl rfl id) ?_
      (hclose ▸ hpromise)
    rw [hw, hfr]
    exact .lastBatch batch

/-- A job whose call ended in a panic that threw again when it was got rid of, and not a third
time. -/
theorem Sound.leave_job (h : Sound d) {job : Job κ} {taken : Nat}
    (hf : d.table.frames = [.calling call, .task job, .draining taken]) (hl : Lawful table)
    (hq : Quiet d.table table) (hqueue : table.queue = d.table.queue)
    (hfr : table.frames = [.draining taken]) :
    Sound (d.resume table) ∧ Progress d (d.resume table) := by
  have hw : d.worker.stage.work = .serving := by
    rcases h.staged.of_calling hf with ⟨-, -, batch, hr⟩ | ⟨-, hw, -⟩ | ⟨-, -, batch, hr⟩
    · simp at hr
    · exact hw
    · simp at hr
  have hresume : d.resume table = d.stay table false := by
    simp only [resume, hasJob, hfr, Bool.and_false]
  rw [hresume]
  have hj : (d.stay table false).jobs = d.jobs :=
    jobs_stay (jobs_of_idle (by simp [hf])) (by simp [hfr]) hqueue
  refine h.stay_serving hw (by simp [hf]) hl (progress_of_quiet hq hj rfl rfl id) ?_ hq.isClosed
    (by simp [hfr])
  rw [hfr]
  exact .loop taken

/-- A panic that nothing contained ends the operation. It breaks a giving up off only if that was
for an earlier panic, and then the process ends. -/
theorem Sound.escape (h : Sound d) {panic : Panic} (hf : d.table.frames = .calling call :: rest)
    (hl : Lawful table) (he : InFlight.State.Effect d.table (.leave (some panic)) table)
    (hqueue : table.queue = d.table.queue) (hfr : table.frames = []) :
    Sound (d.escape table) ∧ Progress d (d.escape table) := by
  have hj : (d.escape table).jobs = d.jobs := by
    rw [jobs_of_idle (d := d.escape table) fun _ _ => by simp [Duty.escape, hfr],
      jobs_of_idle (d := d) (by simp [hf])]
    exact hqueue
  have hdead : d.worker.stage ≠ .dead := by
    rintro hs
    rcases h.staged.of_calling hf with ⟨-, hw, -⟩ | ⟨-, hw, -⟩ | ⟨-, hw, -⟩ <;>
      simp [hs, Stage.work] at hw
  have hbreak : BreaksOff d.table (.leave (some panic)) table →
      (d.escape table).worker.stage = .dead := by
    intro hb
    rcases h.staged.of_calling hf with ⟨-, -, batch, rfl⟩ | ⟨-, -, job, taken, rfl⟩ |
      ⟨-, hw, batch, rfl⟩
    · simpa [hf] using hb.closing
    · simpa [hf] using hb.closing
    · have hpromise := h.staged.promise
      rw [stage_of_closing hw] at hpromise
      have hp : d.worker.panicked := hpromise.1.resolve_right fun h => hb.pending h.2.2
      simp only [Duty.escape, hp, Stage.afterPanic, ↓reduceIte]
  have hp : Progress d (d.escape table) :=
    progress_of_effect he rfl hbreak hj rfl rfl fun _ => rfl
  refine ⟨⟨⟨?_, fun _ => hfr, ?_, ?_⟩, h.kept.progress hdead hl hp⟩, hp⟩
  · change Runs _ false table.frames
    rw [hfr]
    exact .idle _
  · change (d.escape table).Promise (Stage.afterPanic d.worker.panicked)
    unfold Stage.afterPanic
    split
    · exact rfl
    · exact ⟨.inl rfl, fun hn => absurd hn Bool.false_ne_true⟩
  · exact fun request hm => h.staged.complete request (waiting_subset hp.jobs request hm)

/-- How foreign code ends: it returns, or its panic is contained, by itself or by the job that it
was called for; or nothing contains the panic. -/
theorem leave_cases (hruns : Runs d.worker.stage.work d.worker.begun d.table.frames)
    (hl : Lawful d.table) (hf : d.table.frames = .calling call :: rest) (panic : Option Panic) :
    (d.leave panic = d.resume (d.table.leave panic) ∧ Quiet d.table (d.table.leave panic) ∧
        ((d.table.leave panic).frames = rest ∨ ∃ job taken, rest = [.task job, .draining taken] ∧
          (d.table.leave panic).frames = [.draining taken])) ∨
      (panic.isSome ∧ d.leave panic = d.escape (d.table.leave panic) ∧
        (d.table.leave panic).frames = []) := by
  by_cases hp : ∀ text next, panic ≠ some (.volatile text next)
  · obtain ⟨hq, hfr, hh⟩ := InFlight.State.leave_innermost hf rfl hp
    exact .inl ⟨Duty.leave_contained hh, hq, .inl hfr⟩
  · simp only [ne_eq, not_forall, Decidable.not_not] at hp
    obtain ⟨text, next, rfl⟩ := hp
    rcases InFlight.State.unwind_cases (.volatile text next) d.table.frames d.table
      (fun pre post => hl.ordered.stacked.closing_last) with
      ⟨pre, g, hg, -, heq, hq, hh⟩ | ⟨hnil, ⟨text', before, hh⟩, -⟩
    · exact .inl ⟨Duty.leave_contained fun _ => hh, hq, hruns.of_contained hf heq hg⟩
    · exact .inr ⟨rfl, leave_escaped hh hnil, hnil⟩

theorem exists_calling (hn : d.isForeign) :
    ∃ call rest, d.table.frames = .calling call :: rest := by
  unfold Duty.isForeign at hn
  split at hn
  · exact ⟨_, _, ‹_›⟩
  · simp at hn

theorem Sound.leave (h : Sound d) (hn : d.isForeign) (panic : Option Panic) :
    Sound (d.leave panic) ∧ Progress d (d.leave panic) := by
  obtain ⟨call, rest, hf⟩ := exists_calling hn
  have hforeign : d.table.isForeign := by simp [InFlight.State.isForeign, hf]
  obtain ⟨hl, he⟩ := h.kept.lawful.leave hforeign panic
  have hqueue := InFlight.State.leave_queue d.table panic
  rcases leave_cases h.staged.runs h.kept.lawful hf panic with
    ⟨heq, hq, hleft | ⟨job, taken, rfl, hleft⟩⟩ | ⟨hp, heq, hnil⟩
  · exact heq ▸ h.leave_contained hf hl hq hqueue hleft
  · exact heq ▸ h.leave_job hf hl hq hqueue hleft
  · obtain ⟨p, rfl⟩ := Option.isSome_iff_exists.mp hp
    exact heq ▸ h.escape hf hl he hqueue hnil

end Leave

end Duty

end Dialer.Service
