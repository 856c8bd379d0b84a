import Dialer.Proofs.Service.Duties
import Dialer.Proofs.Service.Submissions

/-!
# What becomes of an accepted submission

A submission that was accepted waits for the worker that it was accepted for, or was issued by it.
It is not left behind: a worker comes to its end with nothing waiting, unless a panic ended it. What
was issued is called back before the worker is gone.
-/

namespace Dialer.Service

open InFlight.State (Quiet Effect)

variable {κ : Type}

/-- The submission that a request is for. -/
def submission? (request : Request (Tagged κ)) : Option Nat :=
  request.continuations?.map (·.onFailure.submission)

theorem IsFor.submission? {request : Request (Tagged κ)} {n : Nat} (h : IsFor request n) :
    submission? request = some n := by
  obtain ⟨c, hc, hn⟩ := h.continuations
  rw [Service.submission?, hc]
  exact congrArg some (hn (.error .aborted))

/-- A worker that has given its table up left nothing in the queue, unless a panic ended it. -/
theorem Duty.Sound.queue_of_closed {d : Duty κ} (h : Duty.Sound d) (hc : d.table.isClosed) :
    d.worker.panicked ∨ d.table.queue = [] := by
  have hp := h.staged.promise
  cases hst : d.worker.stage <;> rw [hst] at hp
  case lastServe => exact absurd hc hp.1.2
  case abort => exact absurd hc hp.1.2
  case close => exact hp.1.imp_right fun h => h.2.1
  case gone => exact hp.1.imp_right fun h => h.2
  case dead => exact .inl hp
  all_goals exact absurd hc hp.2

namespace State

variable {s t : State κ} {thread : Thread} {n g : Nat}

/-- The requests that are left for the worker and not issued yet. -/
def waiting (s : State κ) : List (Request (Tagged κ)) := s.jobs.filterMap Job.request?

/-- The requests that were accepted and not lost. -/
def received (s : State κ) : List (Request (Tagged κ)) := s.waiting ++ s.table.issues.map (·.2)

/-- The same requests in their order: those that were issued, and behind them those that wait. -/
def sequence (s : State κ) : List (Request (Tagged κ)) :=
  (s.table.issues.map (·.2)).reverse ++ s.waiting

def IsWaiting (s : State κ) (n : Nat) : Prop := ∃ request ∈ s.waiting, IsFor request n

def IsIssued (s : State κ) (n : Nat) : Prop :=
  ∃ request ∈ s.table.issues.map (·.2), IsFor request n

/-- The calls of the continuations of a submission. -/
def callsOf (s : State κ) (n : Nat) : List (InFlight.Call (Tagged κ)) :=
  s.table.calls.filter (·.continuation.submission = n)

/-- A panic that nothing contained ended the worker of that generation. -/
def Crashed (s : State κ) (g : Nat) : Prop :=
  (g, true) ∈ s.joins ∨ ∃ w, s.worker = some w ∧ w.generation = g ∧ w.panicked

/-- What is known of the submissions that were accepted. -/
structure Delivered (s : State κ) : Prop where
  received : ∀ request ∈ s.received, ∃ n g, (n, g) ∈ s.accepts ∧ IsFor request n
  apart : (s.received.map submission?).Nodup
  waiting : ∀ request ∈ s.waiting, ∀ n, IsFor request n → (n, s.generation) ∈ s.accepts
  pending : ∀ p ∈ s.table.entries, ∀ request n, (p.2.ticket, request) ∈ s.table.issues →
    IsFor request n → (n, s.generation) ∈ s.accepts
  manned : ∀ n g, (n, g) ∈ s.accepts → s.worker.isSome ∧ g ≤ s.generation
  found : ∀ n g, (n, g) ∈ s.accepts →
    s.IsIssued n ∨ (g = s.generation ∧ s.IsWaiting n) ∨ s.Crashed g
  called : ∀ n g, (n, g) ∈ s.accepts → g < s.generation → s.IsIssued n → s.callsOf n ≠ []
  joined : ∀ g panicked, (g, panicked) ∈ s.joins →
    g < s.generation ∨ ∃ w, s.worker = some w ∧ w.generation = g ∧ w.stage = .gone

theorem generation_eq {w : Worker} (hw : s.worker = some w) : s.generation = w.generation := by
  simp [generation, hw]

/-! ### Where nothing happens to the submissions -/

/-- Nothing that concerns accepted submissions differs. -/
structure Unlisted (s t : State κ) : Prop where
  waiting : t.waiting = s.waiting
  quiet : Quiet s.table t.table
  accepts : t.accepts = s.accepts
  joins : t.joins = s.joins
  worker : t.worker.map (fun w => (w.generation, w.stage, w.panicked)) =
    s.worker.map fun w => (w.generation, w.stage, w.panicked)

theorem Unlisted.worker? (h : Unlisted s t) {w : Worker} (hw : s.worker = some w) :
    ∃ w', t.worker = some w' ∧ w'.generation = w.generation ∧ w'.stage = w.stage ∧
      w'.panicked = w.panicked := by
  have hm := h.worker
  rw [hw, Option.map_some, Option.map_eq_some_iff] at hm
  obtain ⟨w', hw', he⟩ := hm
  simp only [Prod.mk.injEq] at he
  exact ⟨w', hw', he⟩

theorem Unlisted.generation (h : Unlisted s t) : t.generation = s.generation := by
  have hm := congrArg (Option.map (·.1)) h.worker
  simp only [Option.map_map, Function.comp_def] at hm
  rw [State.generation, State.generation, hm]

theorem Unlisted.crashed (h : Unlisted s t) (hc : s.Crashed g) : t.Crashed g := by
  rcases hc with hj | ⟨w, hw, hg, hp⟩
  · exact .inl (h.joins ▸ hj)
  · obtain ⟨w', hw', hg', -, hp'⟩ := h.worker? hw
    exact .inr ⟨w', hw', hg'.trans hg, hp'.trans hp⟩

theorem Unlisted.received (h : Unlisted s t) : t.received = s.received := by
  rw [State.received, State.received, h.waiting, h.quiet.issues]

theorem Delivered.unlisted (h : Delivered s) (hu : Unlisted s t) : Delivered t := by
  have hr := hu.received
  have hi : ∀ {n}, t.IsIssued n ↔ s.IsIssued n := by
    intro n
    rw [IsIssued, IsIssued, hu.quiet.issues]
  constructor <;> simp only [hr, hu.accepts, hu.generation, hu.quiet.entries, hu.quiet.issues, hi]
  · exact h.received
  · exact h.apart
  · rw [hu.waiting]
    exact h.waiting
  · exact h.pending
  · intro n g hm
    obtain ⟨hw, hg⟩ := h.manned n g hm
    obtain ⟨w, hw⟩ := Option.isSome_iff_exists.mp hw
    obtain ⟨w', hw', -⟩ := hu.worker? hw
    exact ⟨by rw [hw']; rfl, hg⟩
  · intro n g hm
    rw [IsWaiting, hu.waiting]
    exact (h.found n g hm).imp_right (Or.imp_right hu.crashed)
  · intro n g hm hlt hi
    rw [callsOf, hu.quiet.calls]
    exact h.called n g hm hlt hi
  · intro g panicked hm
    rw [hu.joins] at hm
    refine (h.joined g panicked hm).imp_right ?_
    rintro ⟨w, hw, hg, hgone⟩
    obtain ⟨w', hw', hg', hst, -⟩ := hu.worker? hw
    exact ⟨w', hw', hg'.trans hg, hst.trans hgone⟩

theorem jobs_congr (hw : t.worker.map (·.begun) = s.worker.map (·.begun))
    (hf : t.table.frames = s.table.frames) (hq : t.table.queue = s.table.queue) :
    t.jobs = s.jobs := by
  rw [jobs, jobs, inHand_congr hw hf, hq]

theorem Posted.jobs {job : Job κ} (h : Posted s job t) : t.jobs = s.jobs ++ [job] := by
  rw [State.jobs, State.jobs, inHand_congr (by rw [h.worker]) h.frames, h.queue, List.append_assoc]

theorem Still.unlisted (h : Still s t) (ha : t.accepts = s.accepts) : Unlisted s t where
  waiting := by rw [waiting, waiting, jobs_congr (by rw [h.worker]) h.frames h.queue]
  quiet := h.quiet
  accepts := ha
  joins := h.joins
  worker := by rw [h.worker]

theorem Posted.unlisted {job : Job κ} (h : Posted s job t) (hj : job.request? = none)
    (ha : t.accepts = s.accepts) : Unlisted s t where
  waiting := by
    rw [waiting, waiting, h.jobs, List.filterMap_append]
    simp [hj]
  quiet := h.quiet
  accepts := ha
  joins := h.joins
  worker := by rw [h.worker]

theorem Halted.unlisted (h : Halted s thread t) : Unlisted s t where
  waiting := by
    rw [waiting, waiting,
      jobs_congr (s := s) (by rw [h.worker]) (by rw [h.table]) (by rw [h.table])]
  quiet := by rw [h.table]; exact .refl _
  accepts := h.books.accepts
  joins := h.joins
  worker := by rw [h.worker]

theorem Lowered.unlisted (h : Lowered s t) : Unlisted s t where
  waiting := by
    rw [waiting, waiting,
      jobs_congr (s := s) (by simp [h.worker, Function.comp_def]) (by rw [h.table])
        (by rw [h.table])]
  quiet := by rw [h.table]; exact .refl _
  accepts := h.books.accepts
  joins := h.joins
  worker := by simp [h.worker, Function.comp_def]

theorem Abandoned.unlisted (h : Abandoned s t) : Unlisted s t := by
  have hw := h.worker
  refine ⟨?_, h.quiet, h.books.accepts, h.joins, ?_⟩
  · rw [waiting, waiting, jobs_congr (s := s) ?_ h.frames h.queue]
    rw [hw]
    split <;> simp [Function.comp_def]
  · rw [hw]
    split <;> simp [Function.comp_def]

/-! ### A job is left, and a new worker finds none -/

theorem Delivered.not_received (h : Delivered s) (hn : n ∉ s.accepts.map (·.1)) :
    some n ∉ s.received.map submission? := by
  intro hm
  obtain ⟨request, hr, he⟩ := List.mem_map.mp hm
  obtain ⟨m, g, ha, hfor⟩ := h.received request hr
  obtain rfl := Option.some.inj (hfor.submission?.symm.trans he)
  exact hn (List.mem_map.mpr ⟨_, ha, rfl⟩)

theorem Delivered.accepted (h : Delivered s) {request : Request (Tagged κ)}
    (hp : Posted s (.dial request) t) (hflag : s.flag) (hfor : IsFor request n)
    (hn : n ∉ s.accepts.map (·.1)) (ha : t.accepts = (n, s.generation) :: s.accepts) :
    Delivered t := by
  have hw : s.worker.isSome := by
    cases hw : s.worker with
    | none => simp [flag, hw] at hflag
    | some w => rfl
  have hgen : t.generation = s.generation := by rw [generation, generation, hp.worker]
  have hwait : t.waiting = s.waiting ++ [request] := by
    rw [State.waiting, State.waiting, hp.jobs, List.filterMap_append]
    rfl
  have hperm : t.received.Perm (request :: s.received) := by
    rw [State.received, State.received, hwait, hp.quiet.issues, List.append_assoc]
    exact List.perm_middle
  constructor <;> simp only [ha, hgen, hp.quiet.entries, hp.quiet.issues, hp.joins,
    (hperm.map submission?).nodup_iff]
  · intro r hr
    rcases List.mem_cons.mp (hperm.mem_iff.mp hr) with rfl | hr
    · exact ⟨n, _, List.mem_cons_self, hfor⟩
    · obtain ⟨m, g, hm, hf⟩ := h.received r hr
      exact ⟨m, g, List.mem_cons_of_mem _ hm, hf⟩
  · rw [List.map_cons, hfor.submission?]
    exact List.nodup_cons.mpr ⟨h.not_received hn, h.apart⟩
  · intro r hr m hm
    rw [hwait, List.mem_append, List.mem_singleton] at hr
    rcases hr with hr | rfl
    · exact List.mem_cons_of_mem _ (h.waiting r hr m hm)
    · obtain rfl := hfor.unique hm
      exact List.mem_cons_self
  · exact fun p hp' r m hi hm => List.mem_cons_of_mem _ (h.pending p hp' r m hi hm)
  · intro m g hm
    rw [hp.worker]
    rcases List.mem_cons.mp hm with he | hm
    · exact ⟨hw, Nat.le_of_eq (Prod.mk.inj he).2⟩
    · exact h.manned m g hm
  · intro m g hm
    rcases List.mem_cons.mp hm with he | hm
    · obtain ⟨rfl, rfl⟩ := Prod.mk.inj he
      exact .inr (.inl ⟨rfl, request, by rw [hwait]; simp, hfor⟩)
    · rw [IsIssued, hp.quiet.issues, Crashed, hp.joins, hp.worker]
      refine (h.found m g hm).imp_right (Or.imp_left ?_)
      rintro ⟨hg, r, hr, hf⟩
      exact ⟨hg, r, by rw [hwait]; exact List.mem_append_left _ hr, hf⟩
  · intro m g hm hlt hi
    rw [callsOf, hp.quiet.calls]
    rw [IsIssued, hp.quiet.issues] at hi
    rcases List.mem_cons.mp hm with he | hm
    · exact absurd hlt (by rw [(Prod.mk.inj he).2]; exact Nat.lt_irrefl _)
    · exact h.called m g hm hlt hi
  · intro g panicked hm
    rw [hp.worker]
    exact h.joined g panicked hm

theorem IsIssued.called (hi : s.IsIssued n) (hf : Duty.Fallow s.table) : s.callsOf n ≠ [] := by
  obtain ⟨request, hr, hfor⟩ := hi
  obtain ⟨⟨k, r⟩, hm, rfl⟩ := List.mem_map.mp hr
  have hone := hf.complete k (hf.tallied.ticket_lt hm)
  rw [InFlight.State.tally, hf.entries] at hone
  have hcall : k ∈ s.table.calls.map (·.ticket) := by
    rw [← List.count_pos_iff]
    simp only [List.map_nil, List.count_nil] at hone
    omega
  obtain ⟨call, hc, rfl⟩ := List.mem_map.mp hcall
  obtain ⟨r', c, hi', hcs, hsel, -⟩ := hf.founded.call call hc
  obtain rfl := hf.tallied.request_unique hm hi'
  obtain ⟨c', hcs', hsub⟩ := hfor.continuations
  obtain rfl := Option.some.inj (hcs.symm.trans hcs')
  refine List.ne_nil_of_mem (List.mem_filter.mpr ⟨hc, decide_eq_true ?_⟩)
  rw [hsel]
  exact hsub _

theorem Manned.not_waiting_of_gone (hm : Manned s) {w : Worker} (hw : s.worker = some w)
    (hg : w.stage = .gone) (hp : w.panicked = false) : s.waiting = [] := by
  have hs := hm.sound w hw
  have hq : s.table.queue = [] :=
    (hs.queue_of_closed (hs.fallow hg).closed).resolve_left (by simp [hp])
  rw [State.waiting, jobs_eq hw, hs.staged.jobs_of_gone hg]
  simp [hq]

section Launched

variable (h : Delivered s) (hg : Guarded s) (hm : Manned s) (hl : Launched s thread t)
include h hg hm hl

theorem Delivered.gone_of_launched (ha : (n, g) ∈ s.accepts) :
    ∃ w, s.worker = some w ∧ w.stage = .gone ∧ (w.generation, w.panicked) ∈ s.joins ∧
      s.generation = w.generation ∧ s.generation < s.generations := by
  obtain ⟨w, hw, hgone, hj⟩ := (hg.idle_of_launched hl).resolve_left fun hn => by
    have hsome := (h.manned n g ha).1
    simp [hn] at hsome
  have hgen := generation_eq hw
  exact ⟨w, hw, hgone, hj, hgen, by rw [hgen, ← hm.generation w hw]; exact Nat.lt_succ_self _⟩

/-- What the worker that is gone did not issue was lost in a panic. -/
theorem Delivered.found_of_launched (ha : (n, g) ∈ s.accepts) :
    s.IsIssued n ∨ (g, true) ∈ s.joins := by
  refine (h.found n g ha).imp_right fun hor => ?_
  obtain ⟨w, hw, hgone, hj, hwgen, -⟩ := h.gone_of_launched hg hm hl ha
  rcases hor with ⟨rfl, r, hr, -⟩ | hj' | ⟨w', hw', rfl, hp⟩
  · cases hp : w.panicked with
    | true => rwa [hwgen, ← hp]
    | false =>
      rw [hm.not_waiting_of_gone hw hgone hp] at hr
      exact absurd hr List.not_mem_nil
  · exact hj'
  · obtain rfl := Option.some.inj (hw.symm.trans hw')
    rwa [← hp]

theorem Delivered.lt_of_launched {panicked : Bool} (hj : (g, panicked) ∈ s.joins) :
    g < s.generations := by
  rcases hg.idle_of_launched hl with hn | ⟨w, hw, -, -⟩
  · obtain ⟨w, hw, -⟩ | hlt := (h.joined g panicked hj).symm
    · simp [hn] at hw
    · simp [generation, hn] at hlt
  · have hle : g ≤ s.generation := by
      rcases h.joined g panicked hj with hlt | ⟨w', hw', rfl, -⟩
      · exact Nat.le_of_lt hlt
      · exact Nat.le_of_eq (generation_eq hw').symm
    rw [generation_eq hw] at hle
    rw [← hm.generation w hw]
    exact Nat.lt_succ_of_le hle

theorem Delivered.launched : Delivered t := by
  have hgen : t.generation = s.generations := by rw [generation, hl.worker]; rfl
  have hwait : t.waiting = [] := by
    rw [State.waiting, State.jobs, inHand_of_idle (by rw [hl.table]; rfl), hl.table]
    rfl
  have hissues : t.table.issues = s.table.issues := by rw [hl.table]; rfl
  have hentries : t.table.entries = [] := by rw [hl.table]; rfl
  have hreceived : t.received = s.table.issues.map (·.2) := by
    rw [State.received, hwait, hissues, List.nil_append]
  have hissued : ∀ {n}, t.IsIssued n → s.IsIssued n := fun hi => by
    rwa [IsIssued, hissues] at hi
  have hacc : t.accepts = s.accepts := hl.books.accepts
  constructor <;> simp only [hacc, hgen, hl.joins, hreceived, hwait, hentries]
  · exact fun r hr => h.received r (List.mem_append_right _ hr)
  · have hsub := (List.sublist_append_right s.waiting (s.table.issues.map (·.2))).map submission?
    exact h.apart.sublist hsub
  · exact fun r hr => absurd hr List.not_mem_nil
  · exact fun p hp => absurd hp List.not_mem_nil
  · intro n g ha
    obtain ⟨-, -, -, -, -, hlt⟩ := h.gone_of_launched hg hm hl ha
    exact ⟨by rw [hl.worker]; rfl, Nat.le_of_lt (Nat.lt_of_le_of_lt (h.manned n g ha).2 hlt)⟩
  · intro n g ha
    rw [IsIssued, hissues, Crashed, hl.joins]
    exact (h.found_of_launched hg hm hl ha).imp_right fun hj => .inr (.inl hj)
  · intro n g ha _ hi
    obtain ⟨w, hw, hgone, -⟩ := h.gone_of_launched hg hm hl ha
    have hcalls : t.callsOf n = s.callsOf n := by rw [callsOf, hl.table]; rfl
    rw [hcalls]
    exact (hissued hi).called ((hm.sound w hw).fallow hgone)
  · exact fun g panicked hj => .inl (h.lt_of_launched hg hm hl hj)

end Launched

theorem Delivered.joined_step (h : Delivered s) (hm : Manned s) (hj : Joined s thread t) :
    Delivered t := by
  have hgen : t.generation = s.generation := by rw [generation, generation, hj.worker]
  have hwait : t.waiting = [] := by rw [State.waiting, hj.jobs hm.sound]; rfl
  have hissues : t.table.issues = s.table.issues := by rw [hj.table]; rfl
  have hentries : t.table.entries = s.table.entries := by rw [hj.table]; rfl
  have hreceived : t.received = s.table.issues.map (·.2) := by
    rw [State.received, hwait, hissues, List.nil_append]
  have hjoins : ∀ j ∈ s.joins, j ∈ t.joins := fun j hm => hj.joins ▸ List.mem_append_right _ hm
  have hgone : ∀ {w}, s.worker = some w → w.stage = .gone := stage_of_isWorkerGone hj.gone
  have hacc : t.accepts = s.accepts := hj.books.accepts
  constructor <;> simp only [hacc, hgen, hreceived, hwait, hentries, hissues, hj.worker]
  · exact fun r hr => h.received r (List.mem_append_right _ hr)
  · have hsub := (List.sublist_append_right s.waiting (s.table.issues.map (·.2))).map submission?
    exact h.apart.sublist hsub
  · exact fun r hr => absurd hr List.not_mem_nil
  · exact h.pending
  · exact h.manned
  · intro n g ha
    rw [IsIssued, hissues]
    refine (h.found n g ha).imp_right fun hor => .inr ?_
    rw [Crashed, hj.worker]
    rcases hor with ⟨rfl, r, hr, -⟩ | hj' | hc
    · obtain ⟨w, hw⟩ := Option.isSome_iff_exists.mp (h.manned n _ ha).1
      refine .inr ⟨w, hw, (generation_eq hw).symm, ?_⟩
      cases hp : w.panicked with
      | true => rfl
      | false =>
        rw [hm.not_waiting_of_gone hw (hgone hw) hp] at hr
        exact absurd hr List.not_mem_nil
    · exact .inl (hjoins _ hj')
    · exact .inr hc
  · intro n g ha hlt hi
    have hcalls : t.callsOf n = s.callsOf n := by rw [callsOf, hj.table]; rfl
    rw [IsIssued, hissues] at hi
    rw [hcalls]
    exact h.called n g ha hlt hi
  · intro g panicked hm'
    rw [hj.joins, List.mem_append] at hm'
    rcases hm' with hm' | hm'
    · cases hw : s.worker with
      | none => simp [hw] at hm'
      | some w =>
        obtain ⟨rfl, -⟩ : g = w.generation ∧ panicked = w.panicked := by simpa [hw] using hm'
        exact .inr ⟨w, rfl, rfl, hgone hw⟩
    · exact h.joined g panicked hm'

/-! ### The worker goes on -/

/-- What a step of the worker does to what it was given: something is lost only if a panic ended
it. -/
structure Advanced (s t : State κ) (w : Worker) (d : Duty κ)
    (a : InFlight.Action (Tagged κ) (Job κ)) : Prop where
  old : s.worker = some w
  new : t.worker = some d.worker
  generation : d.worker.generation = w.generation
  panicked : w.panicked → d.worker.panicked
  gone : w.stage = .gone → d = ⟨s.table, w⟩
  effect : Effect s.table a d.table
  issued : ∀ request, a.request? = some request → request ∈ s.waiting
  waiting : ∀ request ∈ t.waiting, request ∈ s.waiting
  received : d.received.Perm s.received
  kept : t.received.Sublist d.received
  sequence : t.sequence.Sublist s.sequence
  lost : t.waiting = d.waiting ∨ d.worker.panicked
  entries : t.table.entries = d.table.entries
  issues : t.table.issues = d.table.issues
  calls : t.table.calls = d.table.calls

theorem Worked.advanced (hw : Worked s t) : ∃ w d a, Advanced s t w d a := by
  obtain ⟨w, d, hold, hnew, hd, hp, hgone, htable⟩ := hw.step
  obtain ⟨a, he, hreq, -⟩ := hp.effect
  have hwait : s.waiting = Duty.waiting ⟨s.table, w⟩ := by rw [waiting, jobs_eq hold]; rfl
  have hviews : t.table.entries = d.table.entries ∧ t.table.issues = d.table.issues ∧
      t.table.calls = d.table.calls := by
    rcases htable with htable | ⟨-, htable⟩ <;> rw [htable] <;> exact ⟨rfl, rfl, rfl⟩
  have hjobs : t.jobs = d.jobs ∨ (d.table.isClosed ∧ t.jobs = d.inHand) := by
    rw [jobs_eq hnew]
    rcases htable with htable | ⟨hc, htable⟩ <;> rw [htable]
    · exact .inl rfl
    · exact .inr ⟨hc, List.append_nil _⟩
  have hsub : t.waiting.Sublist d.waiting := by
    refine List.Sublist.filterMap _ ?_
    rcases hjobs with hj | ⟨-, hj⟩ <;> rw [hj]
    exact List.sublist_append_left _ _
  refine ⟨w, d, a,
    { old := hold
      new := hnew
      generation := hp.generation
      panicked := hp.panicked
      gone := hgone
      effect := he
      issued := fun request hr => hwait ▸ hreq request hr
      waiting := fun request hm => hwait ▸ Duty.waiting_subset hp.jobs request (hsub.subset hm)
      received := by rw [State.received, hwait]; exact hp.received
      kept := by rw [State.received, hviews.2.1]; exact hsub.append (List.Sublist.refl _)
      sequence := by
        have hline : s.sequence = d.sequence := by
          rw [State.sequence, hwait]
          exact hp.sequence.symm
        rw [hline, State.sequence, hviews.2.1]
        exact (List.Sublist.refl _).append hsub
      lost := ?_
      entries := hviews.1
      issues := hviews.2.1
      calls := hviews.2.2 }⟩
  rcases hjobs with hj | ⟨hc, hj⟩
  · exact .inl (by rw [State.waiting, hj]; rfl)
  · refine (hd.queue_of_closed hc).symm.imp_left fun hq => ?_
    rw [State.waiting, hj, Duty.waiting, Duty.jobs, hq, List.append_nil]

theorem Booked.generation_unique (h : Booked s) {g g' : Nat} (hg : (n, g) ∈ s.accepts)
    (hg' : (n, g') ∈ s.accepts) : g = g' := by
  have hn : (s.accepts.map (·.1)).Nodup := h.nodup.sublist (List.sublist_append_right _ _)
  exact (Prod.mk.inj (List.inj_on_of_nodup_map hn hg hg' rfl)).2

theorem Advanced.isIssued {w : Worker} {d : Duty κ} {a : InFlight.Action (Tagged κ) (Job κ)}
    (ha : Advanced s t w d a) (hi : s.IsIssued n) : t.IsIssued n := by
  obtain ⟨r, hr, hf⟩ := hi
  obtain ⟨i, hi, rfl⟩ := List.mem_map.mp hr
  exact ⟨i.2, List.mem_map_of_mem (ha.issues ▸ ha.effect.issues_subset i hi), hf⟩

theorem Delivered.worked (h : Delivered s) (hb : Booked s) (hm : Manned s) (hw : Worked s t) :
    Delivered t := by
  obtain ⟨w, d, a, ha⟩ := hw.advanced
  have hs := hm.sound w ha.old
  have hgen : t.generation = s.generation := by
    rw [generation_eq ha.old, generation_eq ha.new, ha.generation]
  have hacc : t.accepts = s.accepts := hw.books.accepts
  have hapart : (t.received.map submission?).Nodup :=
    ((ha.received.map _).nodup_iff.mpr h.apart).sublist (ha.kept.map _)
  constructor <;> simp only [hacc, hgen, hw.joins, hapart]
  · exact fun r hr => h.received r (ha.received.subset (ha.kept.subset hr))
  · exact fun r hr => h.waiting r (ha.waiting r hr)
  · intro p hp r n hi hf
    rw [ha.entries] at hp
    rw [ha.issues] at hi
    rcases ha.effect.mem_issues hi with hi | ⟨-, hr⟩
    · rcases ha.effect.entries_cases p hp with hp | hk
      · exact h.pending p hp r n hi hf
      · rw [hk] at hi
        exact absurd (hs.kept.tallied.ticket_lt hi) (Nat.lt_irrefl _)
    · exact h.waiting r (ha.issued r hr) n hf
  · exact fun n g hm => ⟨by rw [ha.new]; rfl, (h.manned n g hm).2⟩
  · intro n g hm
    rcases h.found n g hm with hi | ⟨rfl, r, hr, hf⟩ | hj | ⟨w', hw', rfl, hp⟩
    · exact .inl (ha.isIssued hi)
    · have hd : r ∈ d.received := ha.received.symm.subset (List.mem_append_left _ hr)
      rcases List.mem_append.mp hd with hd | hd
      · rcases ha.lost with heq | hp
        · exact .inr (.inl ⟨rfl, r, heq ▸ hd, hf⟩)
        · refine .inr (.inr (.inr ⟨d.worker, ha.new, ?_, hp⟩))
          rw [ha.generation, generation_eq ha.old]
      · exact .inl ⟨r, ha.issues ▸ hd, hf⟩
    · exact .inr (.inr (.inl (by rwa [hw.joins])))
    · obtain rfl := Option.some.inj (ha.old.symm.trans hw')
      exact .inr (.inr (.inr ⟨d.worker, ha.new, ha.generation, ha.panicked hp⟩))
  · intro n g hm hlt hi
    obtain ⟨r, hr, hf⟩ := hi
    obtain ⟨⟨k, r⟩, hi, rfl⟩ := List.mem_map.mp hr
    have hold : s.IsIssued n := by
      rcases ha.effect.mem_issues (ha.issues ▸ hi) with hi | ⟨-, hr⟩
      · exact ⟨r, List.mem_map_of_mem hi, hf⟩
      · rw [hb.generation_unique hm (h.waiting r (ha.issued r hr) n hf)] at hlt
        exact absurd hlt (Nat.lt_irrefl _)
    obtain ⟨call, hc⟩ := List.exists_mem_of_ne_nil _ (h.called n g hm hlt hold)
    obtain ⟨hc, hn⟩ := List.mem_filter.mp hc
    exact List.ne_nil_of_mem
      (List.mem_filter.mpr ⟨ha.calls ▸ ha.effect.calls_subset call hc, hn⟩)
  · intro g panicked hj
    refine (h.joined g panicked hj).imp_right ?_
    rintro ⟨w', hw', hg, hgone⟩
    obtain rfl := Option.some.inj (ha.old.symm.trans hw')
    exact ⟨w, by rw [ha.new, ha.gone hgone], hg, hgone⟩

theorem Delivered.passes (h : Delivered s) (hg : Guarded s) (hm : Manned s) (hb : Booked s)
    (hp : Passes s t) : Delivered t := by
  cases hp with
  | call _ hs _ hb =>
    refine h.unlisted (hs.unlisted ?_)
    cases hb with
    | keeps hb => exact hb.accepts
    | opens _ _ _ ha => exact ha
    | refuses _ _ ha => exact ha
  | launched hl => exact h.launched hg hm hl
  | halted hh => exact h.unlisted hh.unlisted
  | @accepted thread n request hp' _ hpost _ ha =>
    have hc : s.carried? thread = some (n, request) := by rw [carried?, hp']; rfl
    obtain ⟨hfor, -, hn⟩ := hb.carried hc
    exact h.accepted hpost (hg.sending hp').1 hfor
      (fun hm => hn (List.mem_append_right _ hm)) ha
  | posted _ _ hpost hb => exact h.unlisted (hpost.unlisted rfl hb.accepts)
  | signalled _ _ hpost hb => exact h.unlisted (hpost.unlisted rfl hb.accepts)
  | lowered _ _ hl => exact h.unlisted hl.unlisted
  | joined hj => exact h.joined_step hm hj
  | abandoned ha => exact h.unlisted ha.unlisted
  | worked hw => exact h.worked hb hm hw
  | outside _ _ hs hb => exact h.unlisted (hs.unlisted hb.accepts)

end State

end Dialer.Service
