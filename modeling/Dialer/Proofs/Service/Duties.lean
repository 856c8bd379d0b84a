import Dialer.Proofs.Service.Locks

/-!
# The worker of a service

Nothing that other threads do disturbs the worker: they leave jobs only while its flag is up, and
they put a new table in place only when it is gone.
-/

namespace Dialer.Service

open InFlight.State (Quiet Lawful Tallied Founded IsComplete lawful_of_empty registered_of_empty
  zero_ne_wakeToken)

variable {κ : Type}

namespace Duty

variable {d : Duty κ} {table table' : Table κ} {w : Worker}

theorem Promise.disturbed {stage : Stage} (h : Promise ⟨table, w⟩ stage) (hq : Quiet table table')
    (hf : table'.frames = table.frames)
    (hempty : w.flag = false → table.queue = [] → table'.queue = []) :
    Promise ⟨table', w⟩ stage := by
  have hsound : IsSound ⟨table, w⟩ → IsSound ⟨table', w⟩ := fun h => ⟨h.1, by
    change ¬ InFlight.State.isClosed table'
    rw [hq.isClosed]
    exact h.2⟩
  cases stage
  case lastServe =>
    exact ⟨hsound h.1, h.2.1, fun he hf' => hempty h.2.1 (h.2.2 he (hf ▸ hf'))⟩
  case abort =>
    exact ⟨hsound h.1, h.2.1, hempty h.2.1 h.2.2.1, fun he => hq.covered (h.2.2.2 he) (by rw [hf])⟩
  case close =>
    refine ⟨h.1.imp_right fun h => ⟨h.1, hempty h.1 h.2.1, hq.tokens.trans h.2.2⟩, fun he hf' => ?_⟩
    change InFlight.State.isClosed table'
    rw [hq.isClosed]
    exact h.2 he (hf ▸ hf')
  case gone =>
    refine ⟨h.1.imp_right fun h => ⟨h.1, hempty h.1 h.2⟩, ?_⟩
    change InFlight.State.isClosed table'
    rw [hq.isClosed]
    exact h.2
  case dead => exact h
  all_goals exact hsound h

theorem Kept.quiet (h : Kept ⟨table, w⟩) (hq : Quiet table table')
    (hf : table'.frames = table.frames) : Kept ⟨table', w⟩ := by
  have he : InFlight.State.Effect table .drain table' := .quiet rfl hq
  refine ⟨h.lawful.still hq hf, h.tallied.effect h.lawful.registered he, h.founded.effect he,
    fun hd => ?_⟩
  refine (h.complete hd).effect h.tallied h.lawful he fun hb => ?_
  obtain ⟨_, _, hp⟩ := hb.panic
  simp at hp

/-- Others leave complete requests only, and none once the flag is down. -/
theorem Sound.disturbed (h : Sound ⟨table, w⟩) (hq : Quiet table table')
    (hf : table'.frames = table.frames)
    (hempty : w.flag = false → table.queue = [] → table'.queue = [])
    (hjobs : ∀ job ∈ table'.queue, job ∈ table.queue ∨
      ∀ request, job.request? = some request → request.continuations?.isSome) :
    Sound ⟨table', w⟩ := by
  refine ⟨⟨?_, fun he => hf.trans (h.staged.rests he), h.staged.promise.disturbed hq hf hempty,
    fun request hm => ?_⟩, h.kept.quiet hq hf⟩
  · change Runs _ _ table'.frames
    rw [hf]
    exact h.staged.runs
  · obtain ⟨job, hm, hr⟩ := List.mem_filterMap.mp hm
    have hin : inHand ⟨table', w⟩ = inHand ⟨table, w⟩ := by simp only [inHand, hf]
    rw [jobs, hin, List.mem_append] at hm
    rcases hm with hm | hm
    · exact h.staged.complete request
        (List.mem_filterMap.mpr ⟨job, List.mem_append_left _ hm, hr⟩)
    · rcases hjobs job hm with hm | hc
      · exact h.staged.complete request
          (List.mem_filterMap.mpr ⟨job, List.mem_append_right _ hm, hr⟩)
      · exact hc request hr

/-- A table that was given up and on which nothing goes on. -/
structure Fallow (table : Table κ) : Prop where
  lawful : Lawful table
  tallied : Tallied table
  founded : Founded table
  complete : IsComplete table
  frames : table.frames = []
  closed : table.isClosed

theorem Fallow.entries (h : Fallow table) : table.entries = [] :=
  (h.lawful.ordered.closed h.closed).1

theorem Sound.fallow (h : Sound d) (hg : d.worker.stage = .gone) : Fallow d.table where
  lawful := h.kept.lawful
  tallied := h.kept.tallied
  founded := h.kept.founded
  complete := h.kept.complete (by simp [hg])
  frames := h.staged.frames_of_gone hg
  closed := by
    have hp := h.staged.promise
    rw [hg] at hp
    exact hp.2

theorem Fallow.quiet (h : Fallow table) (hq : Quiet table table')
    (hf : table'.frames = table.frames) : Fallow table' where
  lawful := h.lawful.still hq hf
  tallied := h.tallied.effect (a := .drain) h.lawful.registered (.quiet rfl hq)
  founded := h.founded.effect (a := .drain) (.quiet rfl hq)
  complete := fun k hk => by rw [hq.tally, h.complete k (hq.tickets ▸ hk)]
  frames := hf.trans h.frames
  closed := by
    rw [hq.isClosed]
    exact h.closed

end Duty

namespace State

variable {s t : State κ} {thread : Thread}

theorem tally_freshTable (h : Duty.Fallow s.table) (k : Nat) :
    s.freshTable.tally k = s.table.tally k := by
  rw [InFlight.State.tally, InFlight.State.tally, h.entries]
  rfl

/-- A new worker finds nothing on its table. Whatever was issued before was called back. -/
theorem sound_launch (h : Duty.Fallow s.table) (generation : Nat) :
    Duty.Sound ⟨s.freshTable, { generation := generation }⟩ where
  staged :=
    { runs := .idle _
      rests := fun _ => rfl
      promise := ⟨rfl, by simp [freshTable, InFlight.State.isClosed, Readiness.Watch.ofCapacity]⟩
      complete := fun _ hm => absurd hm List.not_mem_nil }
  kept :=
    { lawful := lawful_of_empty (registered_of_empty rfl rfl rfl zero_ne_wakeToken) rfl rfl
      tallied := ⟨h.tallied.issued, fun k => Nat.le_trans (Nat.le_of_eq (tally_freshTable h k))
        (h.tallied.once k)⟩
      founded := ⟨fun _ hm => absurd hm List.not_mem_nil, h.founded.call, h.founded.opened_lt,
        h.founded.opened_nodup⟩
      complete := fun _ k hk => (tally_freshTable h k).trans (h.complete k hk) }

/-- What the worker of a service may rely on. -/
structure Manned (s : State κ) : Prop where
  sound : ∀ w, s.worker = some w → Duty.Sound ⟨s.table, w⟩
  fallow : s.worker = none → Duty.Fallow s.table
  generation : ∀ w, s.worker = some w → w.generation + 1 = s.generations

/-- A worker that is gone left nothing to do. -/
theorem Manned.fallow_of_gone (h : Manned s) (hg : s.isWorkerGone) : Duty.Fallow s.table := by
  cases hw : s.worker with
  | none => exact h.fallow hw
  | some w => exact (h.sound w hw).fallow (stage_of_isWorkerGone hg hw)

theorem quiet_dropJobs (s : State κ) : Quiet s.table s.dropJobs.table :=
  .withWatch s.table rfl rfl rfl

theorem Manned.still (h : Manned s) (hw : t.worker = s.worker)
    (hn : t.generations = s.generations) (hq : Quiet s.table t.table)
    (hf : t.table.frames = s.table.frames) (hqueue : t.table.queue = s.table.queue) : Manned t where
  sound := fun w hw' => (h.sound w (hw ▸ hw')).disturbed hq hf (fun _ he => hqueue.trans he)
    fun _ hm => .inl (hqueue ▸ hm)
  fallow := fun hw' => (h.fallow (hw ▸ hw')).quiet hq hf
  generation := fun w hw' => hn ▸ h.generation w (hw ▸ hw')

theorem Manned.posted (h : Manned s) {job : Job κ} (hp : Posted s job t) (hflag : s.flag)
    (hc : ∀ request, job.request? = some request → request.continuations?.isSome) : Manned t where
  sound := by
    intro w hw
    rw [hp.worker] at hw
    rw [flag_eq hw] at hflag
    refine (h.sound w hw).disturbed hp.quiet hp.frames (fun hn => by simp [hflag] at hn) ?_
    intro job' hm
    rw [hp.queue, List.mem_append, List.mem_singleton] at hm
    rcases hm with hm | rfl
    · exact .inl hm
    · exact .inr hc
  fallow := fun hw => by
    rw [hp.worker] at hw
    simp [flag, hw] at hflag
  generation := fun w hw => hp.generations ▸ h.generation w (hp.worker ▸ hw)

theorem Manned.launched (h : Manned s) (hg : Guarded s) (hl : Launched s thread t) : Manned t where
  sound := by
    intro w hw
    obtain rfl := Option.some.inj (hl.worker.symm.trans hw)
    rw [hl.table]
    exact sound_launch (h.fallow_of_gone (hg.gone_of_launched hl)) _
  fallow := fun hw => by simp [hl.worker] at hw
  generation := by
    intro w hw
    obtain rfl := Option.some.inj (hl.worker.symm.trans hw)
    exact hl.generations.symm

theorem Manned.lowered (h : Manned s) (hq : Quiet s.table t.table)
    (hf : t.table.frames = s.table.frames) (hqueue : t.table.queue = s.table.queue)
    (hw : t.worker = s.worker.map fun w => { w with flag := false })
    (hn : t.generations = s.generations) : Manned t where
  sound := by
    intro w' hw'
    rw [hw, Option.map_eq_some_iff] at hw'
    obtain ⟨w, hold, rfl⟩ := hw'
    exact (h.sound w hold).lower.disturbed hq hf (fun _ he => hqueue.trans he)
      fun job hm => .inl (hqueue ▸ hm)
  fallow := fun hnone => (h.fallow (by simpa [hw] using hnone)).quiet hq hf
  generation := by
    intro w' hw'
    rw [hw, Option.map_eq_some_iff] at hw'
    obtain ⟨w, hold, rfl⟩ := hw'
    exact hn ▸ h.generation w hold

theorem Manned.joined (h : Manned s) (hj : Joined s thread t) : Manned t where
  sound := by
    intro w hw
    rw [hj.table]
    exact (h.sound w (hj.worker ▸ hw)).disturbed (quiet_dropJobs s) rfl (fun _ _ => rfl)
      fun job hm => absurd hm List.not_mem_nil
  fallow := fun hw => hj.table ▸ (h.fallow (hj.worker ▸ hw)).quiet (quiet_dropJobs s) rfl
  generation := fun w hw => hj.generations ▸ h.generation w (hj.worker ▸ hw)

theorem Manned.worked (h : Manned s) (hw : Worked s t) : Manned t := by
  obtain ⟨w, d, hold, hnew, hd, hp, -, htable⟩ := hw.step
  refine ⟨fun w' hw' => ?_, fun hn => by simp [hnew] at hn, fun w' hw' => ?_⟩
  · obtain rfl := Option.some.inj (hnew.symm.trans hw')
    rcases htable with htable | ⟨-, htable⟩ <;> rw [htable]
    · exact hd
    · exact Duty.Sound.disturbed hd (quiet_dropJobs { s with table := d.table }) rfl
        (fun _ _ => rfl) fun job hm => absurd hm List.not_mem_nil
  · obtain rfl := Option.some.inj (hnew.symm.trans hw')
    rw [hp.generation, hw.generations]
    exact h.generation w hold

theorem Manned.passes (h : Manned s) (hg : Guarded s)
    (hc : ∀ thread n request, s.point? thread = some (.sending (.submit n request)) →
      request.continuations?.isSome) (hp : Passes s t) : Manned t := by
  cases hp with
  | call _ hs => exact h.still hs.worker hs.generations hs.quiet hs.frames hs.queue
  | launched hl => exact h.launched hg hl
  | halted hh =>
    exact h.still hh.worker hh.generations (by rw [hh.table]; exact .refl _) (by rw [hh.table])
      (by rw [hh.table])
  | accepted hp' _ hpost =>
    refine h.posted hpost (hg.sending hp').1 fun request hr => ?_
    obtain rfl := Option.some.inj hr
    exact hc _ _ _ hp'
  | posted hp' _ hpost =>
    exact h.posted hpost (hg.sending hp').1 fun _ hr => by simp [Job.request?] at hr
  | signalled hp' _ hpost =>
    exact h.posted hpost (hg.sending hp').1 fun _ hr => by simp [Job.request?] at hr
  | lowered _ _ hl =>
    exact h.lowered (by rw [hl.table]; exact .refl _) (by rw [hl.table]) (by rw [hl.table])
      hl.worker hl.generations
  | joined hj => exact h.joined hj
  | abandoned ha =>
    have hw := ha.worker
    split at hw
    · exact h.lowered ha.quiet ha.frames ha.queue hw ha.generations
    · exact h.still hw ha.generations ha.quiet ha.frames ha.queue
  | worked hw => exact h.worked hw
  | outside _ _ hs => exact h.still hs.worker hs.generations hs.quiet hs.frames hs.queue

/-! ### What lasts until another worker is started -/

theorem Passes.generations (h : Passes s t) :
    t.generations = s.generations ∨ ∃ thread, Launched s thread t := by
  cases h with
  | call _ hs => exact .inl hs.generations
  | launched h => exact .inr ⟨_, h⟩
  | halted h => exact .inl h.generations
  | accepted _ _ h => exact .inl h.generations
  | posted _ _ h => exact .inl h.generations
  | signalled _ _ h => exact .inl h.generations
  | lowered _ _ h => exact .inl h.generations
  | joined h => exact .inl h.generations
  | abandoned h => exact .inl h.generations
  | worked h => exact .inl h.generations
  | outside _ _ hs => exact .inl hs.generations

theorem Passes.generations_le (h : Passes s t) : s.generations ≤ t.generations := by
  rcases h.generations with heq | ⟨thread, hl⟩
  · exact Nat.le_of_eq heq.symm
  · exact hl.generations ▸ Nat.le_succ _

theorem Passes.unpanicked (h : Passes s t) (hl : ∀ thread, ¬ Launched s thread t)
    (ht : ∀ w, t.worker = some w → w.panicked = false) {w : Worker} (hw : s.worker = some w) :
    w.panicked = false := by
  have hlower : t.worker = s.worker.map (fun w => { w with flag := false }) →
      w.panicked = false := fun he => ht { w with flag := false } (by simp [he, hw])
  cases h with
  | call _ hs => exact ht w (hs.worker.trans hw)
  | launched h => exact absurd h (hl _)
  | halted h => exact ht w (h.worker.trans hw)
  | accepted _ _ h => exact ht w (h.worker.trans hw)
  | posted _ _ h => exact ht w (h.worker.trans hw)
  | signalled _ _ h => exact ht w (h.worker.trans hw)
  | lowered _ _ h => exact hlower h.worker
  | joined h => exact ht w (h.worker.trans hw)
  | abandoned h =>
    have hworker := h.worker
    split at hworker
    · exact hlower hworker
    · exact ht w (hworker.trans hw)
  | worked h =>
    obtain ⟨w', d, hw', hd, -, hp, -⟩ := h.step
    obtain rfl := Option.some.inj (hw'.symm.trans hw)
    cases hpan : w'.panicked with
    | false => rfl
    | true => exact (hp.panicked hpan).symm.trans (ht _ hd)
  | outside _ _ hs => exact ht w (hs.worker.trans hw)

theorem Passes.isClosed (h : Passes s t) (hl : ∀ thread, ¬ Launched s thread t)
    (hc : s.table.isClosed) : t.table.isClosed := by
  have hquiet : InFlight.State.Quiet s.table t.table → t.table.isClosed :=
    fun hq => by rwa [hq.isClosed]
  cases h with
  | call _ hs => exact hquiet hs.quiet
  | launched h => exact absurd h (hl _)
  | halted h => rwa [h.table]
  | accepted _ _ h => exact hquiet h.quiet
  | posted _ _ h => exact hquiet h.quiet
  | signalled _ _ h => exact hquiet h.quiet
  | lowered _ _ h => rwa [h.table]
  | joined h => exact hquiet (h.table ▸ quiet_dropJobs s)
  | abandoned h => exact hquiet h.quiet
  | worked h =>
    obtain ⟨w, d, -, -, -, hp, -, htable | ⟨hclosed, htable⟩⟩ := h.step
    · obtain ⟨a, he, -⟩ := hp.effect
      exact htable ▸ he.isClosed hc
    · rw [htable, (quiet_dropJobs _).isClosed]
      exact hclosed
  | outside _ _ hs => exact hquiet hs.quiet

end State

end Dialer.Service
