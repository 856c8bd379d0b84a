import Dialer.Proofs.InFlight.Accounting
import Dialer.Proofs.InFlight.Queue
import Dialer.Service.Worker

/-!
# The laws of the worker

The stage of a worker says which frames its table can have, and what it has left behind: after its
loop the flag is down, after the last draining nobody waits in the queue, after the last abort no
attempt is in flight. Only a panic takes it past one of these without that. A request that was left
for the worker waits in the queue, is in hand, or was issued, whatever the worker does.
-/

namespace Dialer.Service

open InFlight (Frame Cause batchOf)
open InFlight.State (Lawful Tallied Founded IsComplete BreaksOff Quiet Covered)
open Readiness (Token)

variable {κ : Type}

/-- What a stage does with the table. -/
inductive Work where
  | nothing
  | settling
  | serving
  | closing

def Stage.work : Stage → Work
  | .wait | .reconcile | .expire | .abort => .settling
  | .serve | .lastServe => .serving
  | .close => .closing
  | .head | .gone | .dead => .nothing

/-- The frames that belong to a stage, and whether the job in hand was carried out. -/
inductive Runs : Work → Bool → List (Frame (Tagged κ) (Job κ)) → Prop
  | idle (work : Work) : Runs work false []
  | batch (rest : List (Token × Cause)) : Runs .settling false [.settling rest]
  | answer (call : InFlight.Call (Tagged κ)) (rest : List (Token × Cause)) :
      Runs .settling false [.calling call, .settling rest]
  | loop (taken : Nat) : Runs .serving false [.draining taken]
  | job (begun : Bool) (job : Job κ) (taken : Nat) :
      Runs .serving begun [.task job, .draining taken]
  | reply (call : InFlight.Call (Tagged κ)) (job : Job κ) (taken : Nat) :
      Runs .serving true [.calling call, .task job, .draining taken]
  | last : Runs .closing false [.closing]
  | lastBatch (rest : List (Token × Cause)) : Runs .closing false [.settling rest, .closing]
  | lastAnswer (call : InFlight.Call (Tagged κ)) (rest : List (Token × Cause)) :
      Runs .closing false [.calling call, .settling rest, .closing]

section Runs

variable {work : Work} {begun : Bool} {frames rest : List (Frame (Tagged κ) (Job κ))}

theorem Runs.begun_of_nil (h : Runs work begun frames) (hf : frames = []) : begun = false := by
  subst hf
  cases h with
  | idle => rfl

theorem Runs.nil_of_nothing (h : Runs work begun frames) (hw : work = .nothing) : frames = [] := by
  subst hw
  cases h with
  | idle => rfl

theorem Runs.of_task (h : Runs work begun frames) {job : Job κ} (hf : frames = .task job :: rest) :
    work = .serving ∧ ∃ taken, rest = [.draining taken] := by
  subst hf
  cases h with
  | job => exact ⟨rfl, _, rfl⟩

theorem Runs.of_draining (h : Runs work begun frames) {taken : Nat}
    (hf : frames = .draining taken :: rest) : work = .serving ∧ rest = [] ∧ begun = false := by
  subst hf
  cases h with
  | loop => exact ⟨rfl, rfl, rfl⟩

theorem Runs.of_settling (h : Runs work begun frames) {batch : List (Token × Cause)}
    (hf : frames = .settling batch :: rest) :
    begun = false ∧ ((work = .settling ∧ rest = []) ∨ (work = .closing ∧ rest = [.closing])) := by
  subst hf
  cases h with
  | batch => exact ⟨rfl, .inl ⟨rfl, rfl⟩⟩
  | lastBatch => exact ⟨rfl, .inr ⟨rfl, rfl⟩⟩

theorem Runs.of_closing (h : Runs work begun frames) (hf : frames = .closing :: rest) :
    work = .closing ∧ rest = [] ∧ begun = false := by
  subst hf
  cases h with
  | last => exact ⟨rfl, rfl, rfl⟩

theorem Runs.of_calling (h : Runs work begun frames) {call : InFlight.Call (Tagged κ)}
    (hf : frames = .calling call :: rest) :
    (begun = false ∧ work = .settling ∧ ∃ batch, rest = [.settling batch]) ∨
      (begun = true ∧ work = .serving ∧ ∃ job taken, rest = [.task job, .draining taken]) ∨
      (begun = false ∧ work = .closing ∧ ∃ batch, rest = [.settling batch, .closing]) := by
  subst hf
  cases h with
  | answer => exact .inl ⟨rfl, rfl, _, rfl⟩
  | reply => exact .inr (.inl ⟨rfl, rfl, _, _, rfl⟩)
  | lastAnswer => exact .inr (.inr ⟨rfl, rfl, _, rfl⟩)

theorem Runs.closing_not_mem (h : Runs work begun frames) (hw : work ≠ .closing) :
    .closing ∉ frames := by
  cases h <;> simp at hw ⊢

theorem Runs.of_contained (h : Runs work begun frames) {call : InFlight.Call (Tagged κ)}
    (hf : frames = .calling call :: rest) {pre left : List (Frame (Tagged κ) (Job κ))}
    {f : Frame (Tagged κ) (Job κ)} (heq : frames = pre ++ f :: left) (hforeign : f.isForeign) :
    left = rest ∨ ∃ job taken, rest = [.task job, .draining taken] ∧ left = [.draining taken] := by
  have heq : .calling call :: rest = pre ++ f :: left := hf.symm.trans heq
  cases pre with
  | nil => exact .inl (List.cons.inj heq).2.symm
  | cons g pre =>
    have hrest := (List.cons.inj heq).2
    rcases h.of_calling hf with ⟨-, -, batch, rfl⟩ | ⟨-, -, job, taken, rfl⟩ | ⟨-, -, batch, rfl⟩
    · rcases pre with _ | ⟨_, pre⟩ <;> simp at hrest
      simp [← hrest.1, Frame.isForeign] at hforeign
    · rcases pre with _ | ⟨_, _ | ⟨_, pre⟩⟩ <;> simp at hrest
      · exact .inr ⟨job, taken, rfl, hrest.2.symm⟩
      · simp [← hrest.2.1, Frame.isForeign] at hforeign
    · rcases pre with _ | ⟨_, _ | ⟨_, pre⟩⟩ <;> simp at hrest
      · simp [← hrest.1, Frame.isForeign] at hforeign
      · simp [← hrest.2.1, Frame.isForeign] at hforeign

end Runs

/-- The request that a job is to issue. -/
def Job.request? : Job κ → Option (Request (Tagged κ))
  | .dial request => some request
  | _ => none

namespace Duty

variable {d e : Duty κ}

/-- The job that was taken and not carried out yet. -/
def inHand (d : Duty κ) : List (Job κ) :=
  match d.table.frames with
  | .task job :: _ => if d.worker.begun then [] else [job]
  | _ => []

/-- The jobs that are still to be carried out. -/
def jobs (d : Duty κ) : List (Job κ) := d.inHand ++ d.table.queue

/-- The requests that are still to be issued. -/
def waiting (d : Duty κ) : List (Request (Tagged κ)) := d.jobs.filterMap Job.request?

/-- The requests that were ever left for a worker and not lost. -/
def received (d : Duty κ) : List (Request (Tagged κ)) :=
  d.waiting ++ d.table.issues.map (·.2)

/-- The same requests in their order: those that were issued, and behind them those that wait. -/
def sequence (d : Duty κ) : List (Request (Tagged κ)) :=
  (d.table.issues.map (·.2)).reverse ++ d.waiting

theorem received_perm (d : Duty κ) : d.received.Perm d.sequence :=
  List.perm_append_comm.trans ((List.reverse_perm _).symm.append_right _)

theorem not_isForeign_of_canWork (h : d.canWork) : ¬ d.isForeign := by
  unfold canWork at h
  unfold isForeign
  split at h <;> simp_all

theorem jobs_of_idle (h : ∀ job rest, d.table.frames ≠ .task job :: rest) :
    d.jobs = d.table.queue := by
  unfold jobs inHand
  split
  · next heq => exact absurd heq (h _ _)
  · rfl

theorem jobs_of_begun (h : d.worker.begun = true) : d.jobs = d.table.queue := by
  unfold jobs inHand
  split <;> simp [h]

theorem jobs_of_task {job : Job κ} {rest : List (Frame (Tagged κ) (Job κ))}
    (hf : d.table.frames = .task job :: rest) (hb : d.worker.begun = false) :
    d.jobs = job :: d.table.queue := by
  simp [jobs, inHand, hf, hb]

/-- The worker is in the middle of its loop, and no panic ended it. -/
def IsSound (d : Duty κ) : Prop := d.worker.panicked = false ∧ ¬ d.table.isClosed

/-- What is behind a worker at its stage. -/
def Promise (d : Duty κ) : Stage → Prop
  | .lastServe => d.IsSound ∧ d.worker.flag = false ∧
      (d.worker.entered → d.table.frames = [] → d.table.queue = [])
  | .abort => d.IsSound ∧ d.worker.flag = false ∧ d.table.queue = [] ∧
      (d.worker.entered → Covered d.table)
  | .close =>
    (d.worker.panicked ∨
      (d.worker.flag = false ∧ d.table.queue = [] ∧ d.table.tokens = [])) ∧
    (d.worker.entered → d.table.frames = [] → d.table.isClosed)
  | .gone =>
    (d.worker.panicked ∨ (d.worker.flag = false ∧ d.table.queue = [])) ∧ d.table.isClosed
  | .dead => d.worker.panicked
  | _ => d.IsSound

/-- Where the worker is and what its table looks like. -/
structure Staged (d : Duty κ) : Prop where
  runs : Runs d.worker.stage.work d.worker.begun d.table.frames
  rests : d.worker.entered = false → d.table.frames = []
  promise : d.Promise d.worker.stage
  complete : ∀ request ∈ d.waiting, request.continuations?.isSome

/-- What the table keeps account of. -/
structure Kept (d : Duty κ) : Prop where
  lawful : Lawful d.table
  tallied : Tallied d.table
  founded : Founded d.table
  complete : d.worker.stage ≠ .dead → IsComplete d.table

/-- The laws of a worker with its table. -/
structure Sound (d : Duty κ) : Prop where
  staged : Staged d
  kept : Kept d

/-- What a step of the worker changes. -/
structure Progress (d e : Duty κ) : Prop where
  effect : ∃ a, InFlight.State.Effect d.table a e.table ∧
    (∀ request, a.request? = some request → request ∈ d.waiting) ∧
      (BreaksOff d.table a e.table → e.worker.stage = .dead)
  jobs : ∀ job ∈ e.jobs, job ∈ d.jobs
  sequence : e.sequence = d.sequence
  flag : e.worker.flag = d.worker.flag ∨ (.halt ∈ d.jobs ∧ e.worker.flag = false)
  generation : e.worker.generation = d.worker.generation
  panicked : d.worker.panicked → e.worker.panicked

theorem Progress.received (h : Progress d e) : e.received.Perm d.received :=
  e.received_perm.trans ((List.Perm.of_eq h.sequence).trans d.received_perm.symm)

theorem Kept.progress (h : Kept d) (hd : d.worker.stage ≠ .dead) (hl : Lawful e.table)
    (hp : Progress d e) : Kept e := by
  obtain ⟨a, he, -, hb⟩ := hp.effect
  refine ⟨hl, h.tallied.effect h.lawful.registered he, h.founded.effect he, fun hn => ?_⟩
  exact (h.complete hd).effect h.tallied h.lawful he fun hbreak => hn (hb hbreak)

theorem waiting_subset (hj : ∀ job ∈ e.jobs, job ∈ d.jobs) :
    ∀ request ∈ e.waiting, request ∈ d.waiting := by
  intro request hm
  obtain ⟨job, hm, heq⟩ := List.mem_filterMap.mp hm
  exact List.mem_filterMap.mpr ⟨job, hj job hm, heq⟩

theorem progress_of_effect {a : InFlight.Action (Tagged κ) (Job κ)}
    (he : InFlight.State.Effect d.table a e.table) (hr : a.request? = none)
    (hb : BreaksOff d.table a e.table → e.worker.stage = .dead) (hj : e.jobs = d.jobs)
    (hf : e.worker.flag = d.worker.flag) (hg : e.worker.generation = d.worker.generation)
    (hp : d.worker.panicked → e.worker.panicked) : Progress d e where
  effect := ⟨a, he, fun request h => absurd h (by simp [hr]), hb⟩
  jobs := fun job h => hj ▸ h
  sequence := by
    have hi : e.table.issues = d.table.issues := by
      cases he with
      | quiet _ h => exact h.issues
      | emptied _ h => exact h.issues
      | concluded _ _ h => exact h.issues
      | answered ha h =>
        obtain ⟨c, hc, -⟩ := h.continuation
        simp [ha, InFlight.Action.request?, hc] at hr
      | begun ha h => simp [ha, InFlight.Action.request?, h.continuations] at hr
    rw [Duty.sequence, Duty.sequence, waiting, waiting, hj, hi]
  flag := .inl hf
  generation := hg
  panicked := hp

theorem progress_of_quiet (hq : Quiet d.table e.table) (hj : e.jobs = d.jobs)
    (hf : e.worker.flag = d.worker.flag) (hg : e.worker.generation = d.worker.generation)
    (hp : d.worker.panicked → e.worker.panicked) : Progress d e :=
  progress_of_effect (a := .drain) (.quiet rfl hq) rfl
    (fun hb => by obtain ⟨_, _, h⟩ := hb.panic; simp at h) hj hf hg hp

theorem Staged.begun_of_nil (h : Staged d) (hf : d.table.frames = []) :
    d.worker.begun = false := h.runs.begun_of_nil hf

/-! ### A worker that is gone -/

theorem Staged.frames_of_nothing (h : Staged d) (hw : d.worker.stage.work = .nothing) :
    d.table.frames = [] := h.runs.nil_of_nothing hw

theorem Staged.frames_of_gone (h : Staged d) (hg : d.worker.stage = .gone) :
    d.table.frames = [] :=
  h.frames_of_nothing (by rw [hg]; rfl)

theorem Staged.not_isForeign_of_gone (h : Staged d) (hg : d.worker.stage = .gone) :
    ¬ d.isForeign := by
  simp [Duty.isForeign, h.frames_of_gone hg]

theorem Staged.work_of_gone (h : Staged d) (hg : d.worker.stage = .gone) (answers : Answers) :
    d.work answers = d := by
  simp only [Duty.work, h.frames_of_gone hg, workBetween, hg, true_or, ↓reduceIte]

theorem Staged.jobs_of_gone (h : Staged d) (hg : d.worker.stage = .gone) :
    d.jobs = d.table.queue :=
  jobs_of_idle (by simp [h.frames_of_gone hg])

/-! ### Between two operations -/

/-- The worker at another stage. -/
def goTo (d : Duty κ) (stage : Stage) : Duty κ :=
  { d with worker := { d.worker with stage := stage, entered := false } }

/-- The promise of the next stage is what the operation of this one has kept. -/
theorem Staged.promise_next (h : Staged d) (hf : d.table.frames = [])
    (hs : d.worker.stage = .head ∨ d.worker.entered) :
    (d.goTo (d.worker.stage.following d.worker.flag)).Promise
      (d.worker.stage.following d.worker.flag) := by
  have hp := h.promise
  cases hst : d.worker.stage <;> rw [hst] at hp hs
  case head =>
    cases hflag : d.worker.flag with
    | true => exact hp
    | false => exact ⟨hp, hflag, fun he => absurd he Bool.false_ne_true⟩
  case lastServe =>
    obtain ⟨hsound, hflag, hqueue⟩ := hp
    have he : d.worker.entered := hs.resolve_left (by simp)
    exact ⟨hsound, hflag, hqueue he hf, fun he => absurd he Bool.false_ne_true⟩
  case abort =>
    obtain ⟨-, hflag, hqueue, hcovered⟩ := hp
    have he : d.worker.entered := hs.resolve_left (by simp)
    have htokens := (hcovered he).tokens_eq_nil (by rw [hf]; rfl)
    exact ⟨.inr ⟨hflag, hqueue, htokens⟩, fun he => absurd he Bool.false_ne_true⟩
  case close =>
    have he : d.worker.entered := hs.resolve_left (by simp)
    exact ⟨hp.1.imp_right fun h => ⟨h.1, h.2.1⟩, hp.2 he hf⟩
  all_goals exact hp

theorem Sound.next (h : Sound d) (hf : d.table.frames = [])
    (hs : d.worker.stage = .head ∨ d.worker.entered) (hd : d.worker.stage ≠ .dead) :
    Sound (d.goTo (d.worker.stage.following d.worker.flag)) ∧
      Progress d (d.goTo (d.worker.stage.following d.worker.flag)) := by
  have hp : Progress d (d.goTo (d.worker.stage.following d.worker.flag)) :=
    progress_of_quiet (.refl _) rfl rfl rfl id
  refine ⟨⟨⟨?_, fun _ => hf, h.staged.promise_next hf hs, h.staged.complete⟩,
    h.kept.progress hd h.kept.lawful hp⟩, hp⟩
  change Runs _ d.worker.begun d.table.frames
  rw [hf, h.staged.begun_of_nil hf]
  exact .idle _

/-! ### The operations of the stages -/

/-- The worker in the operation of its stage, which did this to its table. -/
def goOn (d : Duty κ) (table : Table κ) : Duty κ :=
  { table := table, worker := { d.worker with entered := true } }

theorem Promise.isSound {stage : Stage} (h : d.Promise stage) (hc : stage ≠ .close)
    (hg : stage ≠ .gone) (hd : stage ≠ .dead) : d.IsSound := by
  cases stage
  case lastServe => exact h.1
  case abort => exact h.1
  case close => exact absurd rfl hc
  case gone => exact absurd rfl hg
  case dead => exact absurd rfl hd
  all_goals exact h

/-- Nothing that is promised depends on more than these. -/
theorem Promise.goOn {stage : Stage} {table : Table κ} (h : d.Promise stage)
    (hq : Quiet d.table table) (hqueue : table.queue = d.table.queue)
    (hserved : stage = .lastServe → table.frames ≠ [])
    (haborts : stage = .abort → Covered table)
    (hcloses : stage = .close → table.frames ≠ []) : (d.goOn table).Promise stage := by
  have hsound : d.IsSound → (d.goOn table).IsSound := fun h => ⟨h.1, by
    change ¬ InFlight.State.isClosed table
    rw [hq.isClosed]
    exact h.2⟩
  cases stage
  case lastServe =>
    exact ⟨hsound h.1, h.2.1, fun _ hf => absurd hf (hserved rfl)⟩
  case abort => exact ⟨hsound h.1, h.2.1, hqueue.trans h.2.2.1, fun _ => haborts rfl⟩
  case close =>
    refine ⟨h.1.imp_right fun h => ⟨h.1, hqueue.trans h.2.1, ?_⟩, fun _ hf => ?_⟩
    · exact hq.tokens.trans h.2.2
    · exact absurd hf (hcloses rfl)
  case gone =>
    refine ⟨h.1.imp_right fun h => ⟨h.1, hqueue.trans h.2⟩, ?_⟩
    change InFlight.State.isClosed table
    rw [hq.isClosed]
    exact h.2
  case dead => exact h
  all_goals exact hsound h

/-- An operation is begun on a table where nothing goes on. -/
structure Entered (d : Duty κ) (table : Table κ) : Prop where
  lawful : Lawful table
  quiet : Quiet d.table table
  queue : table.queue = d.table.queue
  runs : Runs d.worker.stage.work false table.frames
  idle : ∀ job rest, table.frames ≠ .task job :: rest
  served : d.worker.stage = .lastServe → table.frames ≠ []
  aborts : d.worker.stage = .abort → Covered table
  closes : d.worker.stage = .close → table.frames ≠ []

theorem Entered.sound {table : Table κ} (he : Entered d table) (h : Sound d)
    (hf : d.table.frames = []) (hd : d.worker.stage ≠ .dead) :
    Sound (d.goOn table) ∧ Progress d (d.goOn table) := by
  have hj : (d.goOn table).jobs = d.jobs := by
    rw [jobs_of_idle (d := d.goOn table) he.idle, jobs_of_idle (d := d) (by simp [hf])]
    exact he.queue
  have hp : Progress d (d.goOn table) := progress_of_quiet he.quiet hj rfl rfl id
  have hbegun := h.staged.begun_of_nil hf
  refine ⟨⟨⟨?_, fun hn => absurd hn.symm Bool.false_ne_true, ?_, ?_⟩,
    h.kept.progress hd he.lawful hp⟩, hp⟩
  · change Runs _ d.worker.begun table.frames
    rw [hbegun]
    exact he.runs
  · exact h.staged.promise.goOn he.quiet he.queue he.served he.aborts he.closes
  · exact fun request hm => h.staged.complete request (waiting_subset hp.jobs request hm)

section Entered

variable (hl : Lawful d.table) (hopen : ¬ d.table.isClosed) (hf : d.table.frames = [])
include hl hf

include hopen in
theorem entered_poll (hs : d.worker.stage = .wait ∨ d.worker.stage = .reconcile)
    (report : Except Fault (List (Token × Verdict))) : Entered d (d.table.poll report).2 := by
  obtain ⟨hl, hq⟩ := hl.poll (hf ▸ .nil) hopen report
  have hframes : (d.table.poll report).2.frames = [] ∨
      ∃ batch, (d.table.poll report).2.frames = [.settling batch] := by
    cases report with
    | ok report =>
      refine .inr ⟨d.table.finished report, ?_⟩
      rw [InFlight.State.poll, InFlight.State.push_frames, (Quiet.foldl_note _ d.table).2, hf]
    | error fault =>
      refine .inl ?_
      simp only [InFlight.State.poll]
      split <;> exact hf
  have hruns : Runs d.worker.stage.work false (d.table.poll report).2.frames := by
    have hwork : d.worker.stage.work = .settling := by rcases hs with hs | hs <;> rw [hs] <;> rfl
    rcases hframes with heq | ⟨batch, heq⟩ <;> rw [hwork, heq]
    · exact .idle _
    · exact .batch batch
  refine ⟨hl, hq, InFlight.State.poll_queue d.table report, hruns, fun job rest => ?_, ?_, ?_, ?_⟩
  · rcases hframes with heq | ⟨batch, heq⟩ <;> simp [heq]
  all_goals rintro he; simp [he] at hs

include hopen in
theorem entered_drain (hs : d.worker.stage = .serve ∨ d.worker.stage = .lastServe) :
    Entered d d.table.drain := by
  have hframes : d.table.drain.frames = [.draining 0] := by
    rw [InFlight.State.drain, InFlight.State.push_frames, hf]
  have hruns : Runs d.worker.stage.work false d.table.drain.frames := by
    rw [hframes]
    rcases hs with hs | hs <;> rw [hs] <;> exact .loop 0
  refine ⟨hl.drain (hf ▸ .nil) hopen, .push _ _, rfl, hruns, fun job rest => ?_,
    fun _ => ?_, fun he => ?_, fun he => ?_⟩
  · simp [hframes]
  · simp [hframes]
  · simp [he] at hs
  · simp [he] at hs

include hopen in
theorem entered_expire (hs : d.worker.stage = .expire) (now : Time.Instant)
    (order : List Token) : Entered d (d.table.expire now order).2 := by
  have hframes : (d.table.expire now order).2.frames =
      [.settling (InFlight.State.arrange order (d.table.due now))] := by
    rw [InFlight.State.expire, InFlight.State.push_frames, hf]
  refine ⟨hl.push_settling (hf ▸ .nil) hopen _, .push _ _, rfl, ?_,
    fun job rest => ?_, ?_, ?_, ?_⟩
  · rw [hs, hframes]
    exact .batch _
  · simp [hframes]
  all_goals simp [hs]

include hopen in
theorem entered_abort (hs : d.worker.stage = .abort) (order : List Token) :
    Entered d (d.table.abort order).2 := by
  have hframes := InFlight.State.abort_frames d.table order
  rw [hf] at hframes
  refine ⟨hl.abort (hf ▸ .nil) hopen order, InFlight.State.quiet_abort _ _,
    InFlight.State.abort_queue _ _, ?_, fun job rest => ?_, fun he => ?_, fun _ => ?_, fun he => ?_⟩
  · rw [hs, hframes]
    exact .batch _
  · simp [hframes]
  · simp [he] at hs
  · rw [Covered, hframes, (InFlight.State.quiet_abort _ _).tokens]
    simp [batchOf]
  · simp [he] at hs

theorem entered_close (hs : d.worker.stage = .close) (order : List Token) :
    Entered d (d.table.close order) := by
  have hframes : (d.table.close order).frames = [.closing] ∨
      ∃ batch, (d.table.close order).frames = [.settling batch, .closing] := by
    simp only [InFlight.State.close]
    split
    · exact .inl (by simp [hf])
    · exact .inr ⟨_, by rw [InFlight.State.abort_frames, InFlight.State.push_frames, hf]⟩
  refine ⟨hl.close hf order, InFlight.State.quiet_close _ _, InFlight.State.close_queue _ _, ?_,
    fun job rest => ?_, fun he => ?_, fun he => ?_, fun _ => ?_⟩
  · rcases hframes with heq | ⟨batch, heq⟩ <;> rw [hs, heq]
    · exact .last
    · exact .lastBatch batch
  · rcases hframes with heq | ⟨batch, heq⟩ <;> simp [heq]
  · simp [he] at hs
  · simp [he] at hs
  · rcases hframes with heq | ⟨batch, heq⟩ <;> simp [heq]

/-- A table that is only given up once can be entered at every stage that has an operation. -/
theorem entered_of_open (hopen : d.worker.stage ≠ .close → ¬ d.table.isClosed)
    (hh : d.worker.stage ≠ .head) (hg : d.worker.stage ≠ .gone) (hd : d.worker.stage ≠ .dead)
    (answers : Answers) : Entered d (Duty.enter d.table answers d.worker.stage) := by
  cases hs : d.worker.stage
  case head => exact absurd hs hh
  case wait => exact entered_poll hl (hopen (by simp [hs])) hf (.inl hs) _
  case serve => exact entered_drain hl (hopen (by simp [hs])) hf (.inl hs)
  case reconcile => exact entered_poll hl (hopen (by simp [hs])) hf (.inr hs) _
  case expire => exact entered_expire hl (hopen (by simp [hs])) hf hs _ _
  case lastServe => exact entered_drain hl (hopen (by simp [hs])) hf (.inr hs)
  case abort => exact entered_abort hl (hopen (by simp [hs])) hf hs _
  case close => exact entered_close hl hf hs _
  case gone => exact absurd hs hg
  case dead => exact absurd hs hd

end Entered

/-- The worker begins the operation of its stage. -/
theorem Sound.enter (h : Sound d) (hf : d.table.frames = []) (hh : d.worker.stage ≠ .head)
    (hg : d.worker.stage ≠ .gone) (hd : d.worker.stage ≠ .dead) (answers : Answers) :
    Sound (d.goOn (Duty.enter d.table answers d.worker.stage)) ∧
      Progress d (d.goOn (Duty.enter d.table answers d.worker.stage)) := by
  have hopen : d.worker.stage ≠ .close → ¬ d.table.isClosed := fun hc =>
    (h.staged.promise.isSound hc hg hd).2
  exact (entered_of_open h.kept.lawful hf hopen hh hg hd answers).sound h hf hd

end Duty

end Dialer.Service
