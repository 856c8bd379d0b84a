import Dialer.Proofs.Service.Passes

/-!
# The lock and the lifecycle

Whoever holds the exclusive side of the lock holds it alone. So nobody else sees a stop that is
under way: while the service counts as running the flag of its worker is up, and once it counts as
stopped the worker is gone, or the stop is still at it, or the last handle went on the worker's own
thread.
-/

namespace Dialer.Service

open InFlight (Frame)

variable {κ : Type}

/-- A stop that has changed the lifecycle and has not found the worker gone yet. -/
def Point.IsHalting (p : Point κ) : Prop := p = .sending .stop ∨ p = .joining

theorem Point.IsHalting.held? {p : Point κ} (h : p.IsHalting) : p.held? = some .exclusive := by
  rcases h with rfl | rfl <;> rfl

/-- The job that a call leaves. -/
def Operation.job? : Operation κ → Option (Job κ)
  | .submit _ request => some (.dial request)
  | .monitor channel => some (.watchOn channel)
  | .stop => some .halt
  | _ => none

namespace State

variable {s t : State κ} {thread : Thread}

/-- The job that the worker took and did not carry out yet. -/
def inHand (s : State κ) : List (Job κ) :=
  match s.worker with
  | none => []
  | some w => Duty.inHand ⟨s.table, w⟩

/-- The jobs that are left for the worker. -/
def jobs (s : State κ) : List (Job κ) := s.inHand ++ s.table.queue

theorem jobs_eq {w : Worker} (hw : s.worker = some w) : s.jobs = Duty.jobs ⟨s.table, w⟩ := by
  rw [jobs, inHand, hw]
  rfl

theorem inHand_congr (hw : t.worker.map (·.begun) = s.worker.map (·.begun))
    (hf : t.table.frames = s.table.frames) : t.inHand = s.inHand := by
  unfold inHand
  cases hs : s.worker <;> cases ht : t.worker <;> simp [hs, ht] at hw
  · rfl
  · simp only [Duty.inHand, hf, hw]

theorem inHand_of_idle (hf : s.table.frames = []) : s.inHand = [] := by
  unfold inHand
  cases s.worker with
  | none => rfl
  | some w => simp [Duty.inHand, hf]

theorem isForeign_congr (hw : t.worker.isSome = s.worker.isSome)
    (hf : t.table.frames = s.table.frames) : t.isForeign = s.isForeign := by
  unfold isForeign
  cases hs : s.worker <;> cases ht : t.worker <;> simp [hs, ht] at hw
  · rfl
  · simp only [Duty.isForeign, hf]

theorem flag_eq {w : Worker} (hw : s.worker = some w) : s.flag = w.flag := by
  simp [flag, hw]

/-- What it takes for a service to count as stopped. -/
inductive WindsUp (s : State κ) : Prop
  | gone {w : Worker} (hw : s.worker = some w) (hg : w.stage = .gone)
      (hj : (w.generation, w.panicked) ∈ s.joins)
  | halting {thread : Thread} {p : Point κ} (hp : s.point? thread = some p) (hh : p.IsHalting)
  | abandoned (hh : s.handles = 0) (hf : ∀ thread, s.point? thread = none)

/-- Who may be where while the lock and the lifecycle are as they are. -/
structure Guarded (s : State κ) : Prop where
  alone : ∀ {thread other : Thread} {p q : Point κ}, s.point? thread = some p →
    s.point? other = some q → p.held? = some .exclusive → q.held?.isSome → other = thread
  foreign : ∀ {p : Point κ}, s.point? .worker = some p → s.isForeign
  barred : ∀ {p : Point κ}, s.point? .worker = some p →
    p ≠ .joining ∧ p.operation? ≠ some .stop
  fresh : s.lifecycle = .fresh → s.worker = none
  running : s.lifecycle = .running → s.flag
  stopped : s.lifecycle = .stopped → s.worker.isSome ∧ s.WindsUp
  sending : ∀ {thread : Thread} {op : Operation κ}, s.point? thread = some (.sending op) →
    s.flag ∧ ((op = .stop ∧ s.lifecycle = .stopped) ∨
      (op.access = .shared ∧ s.lifecycle = .running))
  joining : ∀ {thread : Thread}, s.point? thread = some .joining → s.lifecycle = .stopped
  halt : .halt ∈ s.jobs → ∃ thread, s.point? thread = some .joining

/-! ### Who goes on, and to where -/

theorem Follows.held {q : Option (Point κ)} (h : Follows s thread q) {p : Point κ}
    {access : Access} (hq : q = some p) (hp : p.held? = some access) :
    (∃ p', s.point? thread = some p' ∧ p'.held? = some access) ∨ s.isFree access := by
  subst hq
  cases h with
  | begins => simp [Point.held?] at hp
  | locks _ hf =>
    obtain rfl := Option.some.inj hp
    exact .inr hf
  | sends hp' => exact .inl ⟨_, hp', hp⟩
  | leaves hp' => exact .inl (hp'.elim (fun h => ⟨_, h, hp⟩) fun h => ⟨_, h.1, hp⟩)

/-- How a call goes on, as far as the lock is concerned. -/
def Keeps (s : State κ) (thread : Thread) (q : Option (Point κ)) : Prop :=
  ∀ p access, q = some p → p.held? = some access →
    (∃ p', s.point? thread = some p' ∧ p'.held? = some access) ∨ s.isFree access

theorem keeps_of_held {p q : Point κ} (hp : s.point? thread = some p) (hh : q.held? = p.held?) :
    Keeps s thread (some q) := by
  intro p' access hq ha
  obtain rfl := Option.some.inj hq
  exact .inl ⟨p, hp, hh ▸ ha⟩

theorem Moves.point?_of_ne {q : Option (Point κ)} (hm : Moves s thread q t) {other : Thread}
    {p : Point κ} (hp : t.point? other = some p) (hq : q ≠ some p) : s.point? other = some p := by
  rw [hm] at hp
  split at hp
  · exact absurd hp hq
  · exact hp

theorem Passes.moved (h : Passes s t) : ∃ thread q, Moves s thread q t ∧ Keeps s thread q := by
  -- Where nobody goes on, any thread will do.
  have hstay : (∀ thread, t.point? thread = s.point? thread) →
      Moves s .worker (s.point? .worker) t ∧ Keeps s .worker (s.point? .worker) := by
    refine fun hp => ⟨fun other => ?_, fun p _ hq ha => .inl ⟨p, hq, ha⟩⟩
    split
    · next h => rw [h]; exact hp _
    · exact hp _
  cases h with
  | call hm _ hf => exact ⟨_, _, hm, fun p access hq hp => hf.held hq hp⟩
  | launched h => exact ⟨_, _, h.moves, keeps_of_held h.point rfl⟩
  | halted h => exact ⟨_, _, h.moves, keeps_of_held h.point rfl⟩
  | accepted hp hm => exact ⟨_, _, hm, keeps_of_held hp rfl⟩
  | posted hp hm => exact ⟨_, _, hm, keeps_of_held hp rfl⟩
  | signalled hp hm => exact ⟨_, _, hm, keeps_of_held hp rfl⟩
  | lowered hp hm => exact ⟨_, _, hm, keeps_of_held hp rfl⟩
  | joined h => exact ⟨_, _, h.moves, keeps_of_held h.point rfl⟩
  | abandoned h =>
    refine ⟨.worker, none, fun other => ?_, fun p access hq => by simp at hq⟩
    rw [h.points, h.free, ite_self]
  | worked h => exact ⟨_, _, hstay h.points⟩
  | outside hp => exact ⟨_, _, hstay hp⟩

theorem not_isFree_exclusive {p : Point κ} (hp : s.point? thread = some p)
    (hh : p.held?.isSome) : ¬ s.isFree .exclusive := by
  obtain ⟨access, ha⟩ := Option.isSome_iff_exists.mp hh
  intro hf
  have hm := held_of_point? hp ha
  rw [show s.held = [] from List.isEmpty_iff.mp hf] at hm
  exact absurd hm List.not_mem_nil

theorem not_isFree_of_exclusive {p : Point κ} (hp : s.point? thread = some p)
    (hh : p.held? = some .exclusive) (access : Access) : ¬ s.isFree access := by
  cases access with
  | shared => simpa [isFree] using held_of_point? hp hh
  | exclusive => exact not_isFree_exclusive hp (by simp [hh])

theorem Guarded.alone_of_moved (h : Guarded s) {q' : Option (Point κ)} (hm : Moves s thread q' t)
    (hq : Keeps s thread q') {one other : Thread} {p q : Point κ} (hp : t.point? one = some p)
    (ho : t.point? other = some q) (hx : p.held? = some .exclusive) (hh : q.held?.isSome) :
    other = one := by
  rw [hm] at hp ho
  by_cases h1 : one = thread <;> by_cases h2 : other = thread
  · rw [h1, h2]
  · rw [if_pos h1] at hp
    rw [if_neg h2] at ho
    rcases hq p _ hp hx with ⟨p', hp', hx'⟩ | hf
    · exact h1 ▸ h.alone hp' ho hx' hh
    · exact absurd hf (not_isFree_exclusive ho hh)
  · rw [if_neg h1] at hp
    rw [if_pos h2] at ho
    obtain ⟨access, ha⟩ := Option.isSome_iff_exists.mp hh
    rcases hq q access ho ha with ⟨q', hq', ha'⟩ | hf
    · exact h2 ▸ h.alone hp hq' hx (by simp [ha'])
    · exact absurd hf (not_isFree_of_exclusive hp hx access)
  · rw [if_neg h1] at hp
    rw [if_neg h2] at ho
    exact h.alone hp ho hx hh

/-! ### A stop on its way -/

theorem Follows.not_halting {q : Option (Point κ)} (h : Follows s thread q) {p : Point κ}
    (hp : s.point? thread = some p) : ¬ p.IsHalting := by
  intro hh
  cases h with
  | begins hn => simp [hn] at hp
  | locks hp' => rcases hh with rfl | rfl <;> simp [hp'] at hp
  | sends hp' => rcases hh with rfl | rfl <;> simp [hp'] at hp
  | leaves hp' =>
    rcases hh with rfl | rfl <;> rcases hp' with hp' | ⟨hp', ha⟩ <;> simp [hp'] at hp
    subst hp
    simp [Operation.access] at ha
  | ends hp' =>
    rcases hh with rfl | rfl <;> rcases hp' with ⟨hn, -⟩ | ⟨op, hp', -⟩ | ⟨_, _, hp'⟩ <;>
      simp_all

theorem Follows.not_joining {q : Option (Point κ)} (h : Follows s thread q) :
    q ≠ some .joining := by
  cases h <;> simp

/-- A stop that goes on comes closer to its end, which is that the worker is gone. -/
theorem Passes.halting (h : Passes s t) {other : Thread} {p : Point κ}
    (hp : s.point? other = some p) (hh : p.IsHalting) :
    (∃ p', t.point? other = some p' ∧ p'.IsHalting ∧ (p = .joining → p' = .joining)) ∨
      Joined s other t := by
  have hsame : t.point? other = s.point? other →
      (∃ p', t.point? other = some p' ∧ p'.IsHalting ∧ (p = .joining → p' = .joining)) ∨
        Joined s other t := fun he => .inl ⟨p, he.trans hp, hh, id⟩
  -- No other call than a stop is at such a point.
  have hmoves : ∀ {thread q p'}, Moves s thread q t → s.point? thread = some p' →
      ¬ p'.IsHalting → t.point? other = s.point? other := by
    intro thread q p' hm hp' hn
    rw [hm, if_neg]
    rintro rfl
    exact hn (Option.some.inj (hp'.symm.trans hp) ▸ hh)
  -- A stop that has told everybody waits from now on.
  have hjoins : ∀ {thread}, Moves s thread (some .joining) t →
      s.point? thread = some (.sending .stop) →
      (∃ p', t.point? other = some p' ∧ p'.IsHalting ∧ (p = .joining → p' = .joining)) ∨
        Joined s other t := by
    intro thread hm hp'
    by_cases ht : other = thread
    · exact .inl ⟨.joining, by rw [hm, if_pos ht], .inr rfl, fun _ => rfl⟩
    · exact hsame (by rw [hm, if_neg ht])
  cases h with
  | @call thread q hm hs hf =>
    refine hsame ?_
    rw [hm, if_neg]
    rintro rfl
    exact hf.not_halting hp hh
  | launched h => exact hsame (hmoves h.moves h.point (by simp [Point.IsHalting]))
  | halted h => exact hsame (hmoves h.moves h.point (by simp [Point.IsHalting]))
  | accepted hp' hm => exact hsame (hmoves hm hp' (by simp [Point.IsHalting]))
  | posted hp' hm => exact hsame (hmoves hm hp' (by simp [Point.IsHalting]))
  | signalled hp' hm => exact hjoins hm hp'
  | lowered hp' hm => exact hjoins hm hp'
  | @joined thread h =>
    by_cases ht : other = thread
    · exact .inr (ht ▸ h)
    · exact hsame (by rw [h.moves, if_neg ht])
  | abandoned h => simp [h.free] at hp
  | worked h => exact hsame (h.points _)
  | outside hp' => exact hsame (hp' _)

theorem Passes.joining (h : Passes s t) {other : Thread} (hp : t.point? other = some .joining) :
    s.point? other = some .joining ∨ s.point? other = some (.sending .stop) := by
  have hjoins : ∀ {thread}, Moves s thread (some .joining) t →
      s.point? thread = some (.sending .stop) →
      s.point? other = some .joining ∨ s.point? other = some (.sending .stop) := by
    intro thread hm hp'
    rw [hm] at hp
    split at hp
    · next ht => exact .inr (ht ▸ hp')
    · exact .inl hp
  cases h with
  | call hm _ hf => exact .inl (hm.point?_of_ne hp hf.not_joining)
  | launched h => exact .inl (h.moves.point?_of_ne hp (by simp))
  | halted h => exact .inl (h.moves.point?_of_ne hp (by simp))
  | accepted _ hm => exact .inl (hm.point?_of_ne hp (by simp))
  | posted _ hm => exact .inl (hm.point?_of_ne hp (by simp))
  | signalled hp' hm => exact hjoins hm hp'
  | lowered hp' hm => exact hjoins hm hp'
  | joined h => exact .inl (h.moves.point?_of_ne hp (by simp))
  | abandoned h => simp [h.points] at hp
  | worked h => exact .inl (h.points _ ▸ hp)
  | outside hp' => exact .inl (hp' _ ▸ hp)

/-- A call leaves a job only where it saw that the service runs, and a stop where it changed that.
-/
theorem Passes.sending (h : Passes s t) {other : Thread} {op : Operation κ}
    (hp : t.point? other = some (.sending op)) :
    s.point? other = some (.sending op) ∨
      (op.access = .shared ∧ s.lifecycle = .running ∧ Still s t) ∨
        (op = .stop ∧ Halted s other t) := by
  cases h with
  | @call thread q hm hs hf =>
    rw [hm] at hp
    split at hp
    · cases hf with
      | sends _ ha hr =>
        simp only [Option.some.injEq, Point.sending.injEq] at hp
        exact .inr (.inl ⟨hp ▸ ha, hr, hs⟩)
      | begins => simp at hp
      | locks => simp at hp
      | leaves => simp at hp
      | ends => simp at hp
    · exact .inl hp
  | launched h => exact .inl (h.moves.point?_of_ne hp (by simp))
  | @halted thread h =>
    by_cases ht : other = thread
    · subst ht
      rw [h.moves, if_pos rfl] at hp
      simp only [Option.some.injEq, Point.sending.injEq] at hp
      exact .inr (.inr ⟨hp.symm, h⟩)
    · rw [h.moves, if_neg ht] at hp
      exact .inl hp
  | accepted _ hm => exact .inl (hm.point?_of_ne hp (by simp))
  | posted _ hm => exact .inl (hm.point?_of_ne hp (by simp))
  | signalled _ hm => exact .inl (hm.point?_of_ne hp (by simp))
  | lowered _ hm => exact .inl (hm.point?_of_ne hp (by simp))
  | joined h => exact .inl (h.moves.point?_of_ne hp (by simp))
  | abandoned h => simp [h.points] at hp
  | worked h => exact .inl (h.points _ ▸ hp)
  | outside hp' => exact .inl (hp' _ ▸ hp)

/-! ### What a step does to the lifecycle -/

theorem not_isForeign_of_gone {w : Worker} (hw : s.worker = some w) (hg : w.stage = .gone)
    (hs : Duty.Sound ⟨s.table, w⟩) : ¬ s.isForeign := by
  simp only [isForeign, hw]
  exact hs.staged.not_isForeign_of_gone hg

theorem not_isForeign_of_none (hw : s.worker = none) : ¬ s.isForeign := by
  simp [isForeign, hw]

theorem stage_of_isWorkerGone (hg : s.isWorkerGone) {w : Worker} (hw : s.worker = some w) :
    w.stage = .gone := by
  simpa [isWorkerGone, hw] using hg

theorem not_isForeign_of_isWorkerGone (hg : s.isWorkerGone)
    (hs : ∀ w, s.worker = some w → Duty.Sound ⟨s.table, w⟩) : ¬ s.isForeign := by
  cases hw : s.worker with
  | none => exact not_isForeign_of_none hw
  | some w => exact not_isForeign_of_gone hw (stage_of_isWorkerGone hg hw) (hs w hw)

/-- A worker is started only where there is none, or the latest was waited for. -/
theorem Guarded.idle_of_launched (h : Guarded s) (hl : Launched s thread t) :
    s.worker = none ∨
      ∃ w, s.worker = some w ∧ w.stage = .gone ∧ (w.generation, w.panicked) ∈ s.joins := by
  cases hc : s.lifecycle with
  | fresh => exact .inl (h.fresh hc)
  | running => exact absurd hc hl.idle
  | stopped =>
    refine .inr ?_
    cases (h.stopped hc).2 with
    | gone hw hg hj => exact ⟨_, hw, hg, hj⟩
    | halting hp hh =>
      obtain rfl := h.alone hl.point hp rfl (by simp [hh.held?])
      rw [hl.point, Option.some.injEq] at hp
      subst hp
      simp [Point.IsHalting] at hh
    | abandoned _ hf => exact absurd (hl.point.symm.trans (hf thread)) (by simp)

theorem Guarded.gone_of_launched (h : Guarded s) (hl : Launched s thread t) : s.isWorkerGone := by
  rcases h.idle_of_launched hl with hn | ⟨w, hw, hg, -⟩
  · simp [isWorkerGone, hn]
  · simp [isWorkerGone, hw, hg]

/-- While the service does not run and no call winds it up, no worker is at work. -/
theorem Guarded.gone_of_idle (h : Guarded s) (hl : s.lifecycle ≠ .running) (hh : s.handles ≠ 0)
    (hc : ∀ thread p, s.point? thread = some p → ¬ p.IsHalting) : s.isWorkerGone := by
  cases hs : s.lifecycle with
  | fresh => simp [isWorkerGone, h.fresh hs]
  | running => exact absurd hs hl
  | stopped =>
    cases (h.stopped hs).2 with
    | gone hw hg => simp [isWorkerGone, hw, hg]
    | halting hp hhalt => exact absurd hhalt (hc _ _ hp)
    | abandoned hnone => exact absurd hnone hh

/-- The worker in foreign code that a launch would replace is not there. -/
theorem Guarded.no_call_of_launched (h : Guarded s)
    (hs : ∀ w, s.worker = some w → Duty.Sound ⟨s.table, w⟩) (hl : Launched s thread t) :
    s.point? .worker = none := by
  rw [Option.eq_none_iff_forall_ne_some]
  intro p hp
  exact not_isForeign_of_isWorkerGone (h.gone_of_launched hl) hs (h.foreign hp)

/-- Nobody but a stop ever leaves the job that ends the worker, and the stop waits from then on. -/
theorem Guarded.not_halt (h : Guarded s) {p : Point κ} (hp : s.point? thread = some p)
    (hh : p.held?.isSome) (hj : p ≠ .joining) : .halt ∉ s.jobs := by
  intro hm
  obtain ⟨other, ho⟩ := h.halt hm
  obtain rfl := h.alone ho hp rfl hh
  rw [hp, Option.some.injEq] at ho
  exact hj ho

theorem Passes.flag (h : Passes s t) :
    t.flag = s.flag ∨ (∃ thread, Launched s thread t) ∨
      (∃ thread, s.point? thread = some (.sending .stop) ∧ Moves s thread (some .joining) t) ∨
        Abandoned s t ∨
        (Worked s t ∧ .halt ∈ s.jobs) := by
  have hsame : t.worker = s.worker → t.flag = s.flag := fun h => by rw [State.flag, State.flag, h]
  cases h with
  | call _ hs => exact .inl (hsame hs.worker)
  | launched h => exact .inr (.inl ⟨_, h⟩)
  | halted h => exact .inl (hsame h.worker)
  | accepted _ _ h => exact .inl (hsame h.worker)
  | posted _ _ h => exact .inl (hsame h.worker)
  | signalled _ _ h => exact .inl (hsame h.worker)
  | lowered hp hm => exact .inr (.inr (.inl ⟨_, hp, hm⟩))
  | joined h => exact .inl (hsame h.worker)
  | abandoned h => exact .inr (.inr (.inr (.inl h)))
  | worked h =>
    obtain ⟨w, d, hw, ht, -, hp, -⟩ := h.step
    rcases hp.flag with hf | ⟨hm, -⟩
    · exact .inl (by rw [flag_eq hw, flag_eq ht, hf])
    · exact .inr (.inr (.inr (.inr ⟨h, by rwa [jobs_eq hw]⟩)))
  | outside _ _ hs => exact .inl (hsame hs.worker)

theorem Passes.lifecycle (h : Passes s t) :
    t.lifecycle = s.lifecycle ∨ (∃ thread, Launched s thread t) ∨ (∃ thread, Halted s thread t) ∨
      Abandoned s t := by
  cases h with
  | call _ hs => exact .inl hs.lifecycle
  | launched h => exact .inr (.inl ⟨_, h⟩)
  | halted h => exact .inr (.inr (.inl ⟨_, h⟩))
  | accepted _ _ h => exact .inl h.lifecycle
  | posted _ _ h => exact .inl h.lifecycle
  | signalled _ _ h => exact .inl h.lifecycle
  | lowered _ _ h => exact .inl h.lifecycle
  | joined h => exact .inl h.lifecycle
  | abandoned h => exact .inr (.inr (.inr h))
  | worked h => exact .inl h.lifecycle
  | outside _ _ hs => exact .inl hs.lifecycle

theorem Passes.worker (h : Passes s t) (hl : ∀ thread, ¬ Launched s thread t) :
    t.worker.isSome = s.worker.isSome ∧ ∀ w, s.worker = some w → w.stage = .gone →
      ∃ w', t.worker = some w' ∧ w'.stage = .gone ∧ w'.generation = w.generation ∧
        w'.panicked = w.panicked := by
  have hsame : t.worker = s.worker → t.worker.isSome = s.worker.isSome ∧
      ∀ w, s.worker = some w → w.stage = .gone → ∃ w', t.worker = some w' ∧ w'.stage = .gone ∧
        w'.generation = w.generation ∧ w'.panicked = w.panicked :=
    fun he => ⟨by rw [he], fun w hw hg => ⟨w, he.trans hw, hg, rfl, rfl⟩⟩
  have hlower : t.worker = s.worker.map (fun w => { w with flag := false }) →
      t.worker.isSome = s.worker.isSome ∧ ∀ w, s.worker = some w → w.stage = .gone →
        ∃ w', t.worker = some w' ∧ w'.stage = .gone ∧ w'.generation = w.generation ∧
          w'.panicked = w.panicked :=
    fun he => ⟨by simp [he], fun w hw hg =>
      ⟨{ w with flag := false }, by simp [he, hw], hg, rfl, rfl⟩⟩
  cases h with
  | call _ hs => exact hsame hs.worker
  | launched h => exact absurd h (hl _)
  | halted h => exact hsame h.worker
  | accepted _ _ h => exact hsame h.worker
  | posted _ _ h => exact hsame h.worker
  | signalled _ _ h => exact hsame h.worker
  | lowered _ _ h => exact hlower h.worker
  | joined h => exact hsame h.worker
  | abandoned h =>
    have hw := h.worker
    split at hw
    · exact hlower hw
    · exact hsame hw
  | worked h =>
    obtain ⟨w, d, hw, ht, -, -, hgone, -⟩ := h.step
    refine ⟨by rw [hw, ht]; rfl, fun w' hw' hg => ?_⟩
    obtain rfl := Option.some.inj (hw.symm.trans hw')
    exact ⟨w, by rw [ht, hgone hg], hg, rfl, rfl⟩
  | outside _ _ hs => exact hsame hs.worker

theorem Passes.joins (h : Passes s t) : ∀ j ∈ s.joins, j ∈ t.joins := by
  intro j hj
  cases h with
  | call _ hs => exact hs.joins ▸ hj
  | launched h => exact h.joins ▸ hj
  | halted h => exact h.joins ▸ hj
  | accepted _ _ h => exact h.joins ▸ hj
  | posted _ _ h => exact h.joins ▸ hj
  | signalled _ _ h => exact h.joins ▸ hj
  | lowered _ _ h => exact h.joins ▸ hj
  | joined h => exact h.joins ▸ List.mem_append_right _ hj
  | abandoned h => exact h.joins ▸ hj
  | worked h => exact h.joins ▸ hj
  | outside _ _ hs => exact hs.joins ▸ hj

theorem Joined.jobs (h : Joined s thread t)
    (hs : ∀ w, s.worker = some w → Duty.Sound ⟨s.table, w⟩) : t.jobs = [] := by
  have hin : t.inHand = [] := by
    rw [inHand, h.worker, h.table]
    cases hw : s.worker with
    | none => rfl
    | some w =>
      have hg := stage_of_isWorkerGone h.gone hw
      have hf : s.table.frames = [] := (hs w hw).staged.frames_of_gone hg
      simp [Duty.inHand, dropJobs, onWatch, hf]
  rw [State.jobs, hin, h.table]
  rfl

theorem Passes.mem_jobs (h : Passes s t) {job : Job κ} (hm : job ∈ t.jobs) :
    job ∈ s.jobs ∨ ∃ thread op, s.point? thread = some (.sending op) ∧ op.job? = some job ∧
      (op = .stop → t.point? thread = some .joining) := by
  have hsame : t.worker.map (·.begun) = s.worker.map (·.begun) →
      t.table.frames = s.table.frames → t.table.queue = s.table.queue → job ∈ s.jobs := by
    intro hw hf hq
    rwa [State.jobs, inHand_congr hw hf, hq] at hm
  have hposted : ∀ {left : Job κ}, Posted s left t → job ∈ s.jobs ∨ left = job := by
    intro left h
    rw [State.jobs, inHand_congr (by rw [h.worker]) h.frames, h.queue, ← List.append_assoc,
      List.mem_append, List.mem_singleton] at hm
    exact hm.imp_right Eq.symm
  cases h with
  | call _ hs => exact .inl (hsame (by rw [hs.worker]) hs.frames hs.queue)
  | launched h =>
    rw [State.jobs, inHand_of_idle (by rw [h.table]; rfl), h.table] at hm
    exact absurd hm List.not_mem_nil
  | halted h => exact .inl (hsame (by rw [h.worker]) (by rw [h.table]) (by rw [h.table]))
  | accepted hp _ h =>
    exact (hposted h).imp_right fun heq => ⟨_, _, hp, congrArg some heq, fun ho => by simp at ho⟩
  | posted hp _ h =>
    exact (hposted h).imp_right fun heq => ⟨_, _, hp, congrArg some heq, fun ho => by simp at ho⟩
  | signalled hp hm' h =>
    exact (hposted h).imp_right fun heq =>
      ⟨_, _, hp, congrArg some heq, fun _ => by rw [hm', if_pos rfl]⟩
  | lowered _ _ h =>
    refine .inl (hsame ?_ (by rw [h.table]) (by rw [h.table]))
    rw [h.worker]
    simp [Function.comp_def]
  | joined h =>
    rw [State.jobs, inHand_congr (s := s) (by rw [h.worker]) (by rw [h.table]; rfl), h.table,
      List.mem_append] at hm
    exact .inl (List.mem_append_left _ (hm.resolve_right List.not_mem_nil))
  | abandoned h =>
    refine .inl (hsame ?_ h.frames h.queue)
    rw [h.worker]
    split <;> simp [Function.comp_def]
  | worked h =>
    obtain ⟨w, d, hw, ht, -, hp, -, htable⟩ := h.step
    refine .inl (jobs_eq hw ▸ hp.jobs _ ?_)
    rcases htable with htable | ⟨-, htable⟩
    · rwa [jobs_eq ht, htable] at hm
    · rw [jobs_eq ht, htable] at hm
      exact List.mem_append_left _ ((List.mem_append.mp hm).resolve_right List.not_mem_nil)
  | outside _ _ hs => exact .inl (hsame (by rw [hs.worker]) hs.frames hs.queue)

theorem Passes.halt (h : Passes s t) (hm : .halt ∈ t.jobs) :
    .halt ∈ s.jobs ∨ ∃ thread, t.point? thread = some .joining := by
  refine (h.mem_jobs hm).imp_right fun ⟨thread, op, _, hj, ht⟩ => ⟨thread, ht ?_⟩
  cases op <;> simp [Operation.job?] at hj
  rfl

theorem Guarded.not_launched (h : Guarded s) {other : Thread} {p : Point κ}
    (ho : s.point? other = some p) (hh : p.held?.isSome) (hn : p ≠ .holding .start)
    (thread : Thread) : ¬ Launched s thread t := by
  intro hl
  obtain rfl := h.alone hl.point ho rfl hh
  exact hn (Option.some.inj (ho.symm.trans hl.point))

theorem Passes.windsUp (hp : Passes s t) (hw : s.worker.isSome) (hu : s.WindsUp)
    (hl : ∀ thread, ¬ Launched s thread t) : t.WindsUp := by
  cases hu with
  | gone hw hg hj =>
    obtain ⟨w', hw', hg', hgen, hpan⟩ := (hp.worker hl).2 _ hw hg
    exact .gone hw' hg' (by rw [hgen, hpan]; exact hp.joins _ hj)
  | halting hp' hh =>
    rcases hp.halting hp' hh with ⟨p', ht, hh', -⟩ | hj
    · exact .halting ht hh'
    · obtain ⟨w, hw⟩ := Option.isSome_iff_exists.mp hw
      refine .gone (hj.worker.trans hw) (stage_of_isWorkerGone hj.gone hw) ?_
      rw [hj.joins, hw]
      exact List.mem_cons_self
  | abandoned hh hf =>
    have hnone : ∀ {thread p}, s.point? thread ≠ some p := fun hp' => by simp [hf] at hp'
    cases hp with
    | call hm _ hfollows =>
      cases hfollows with
      | begins _ hn => exact absurd hh hn
      | locks hp' => exact absurd hp' hnone
      | sends hp' => exact absurd hp' hnone
      | leaves hp' => exact absurd (hp'.elim id fun h => absurd h.1 hnone) hnone
      | ends hp' =>
        rcases hp' with ⟨-, hn⟩ | ⟨_, hp', -⟩ | ⟨_, _, hp'⟩
        · exact absurd hh hn
        · exact absurd hp' hnone
        · exact absurd hp' hnone
    | launched hl => exact absurd hl.point hnone
    | halted hh => exact absurd hh.point hnone
    | accepted hp' => exact absurd hp' hnone
    | posted hp' => exact absurd hp' hnone
    | signalled hp' => exact absurd hp' hnone
    | lowered hp' => exact absurd hp' hnone
    | joined hj => exact absurd hj.point hnone
    | abandoned ha => exact .abandoned ha.handles ha.points
    | worked hw => exact .abandoned (hw.handles.trans hh) fun thread => (hw.points _).trans (hf _)
    | outside hp' hh' => exact .abandoned (hh'.trans hh) fun thread => (hp' _).trans (hf _)

/-! ### Every step keeps the discipline -/

theorem Guarded.foreign_of_follows (h : Guarded s) {p : Point κ}
    (hf : Follows s .worker (some p)) :
    s.isForeign ∧ p ≠ .joining ∧ p.operation? ≠ some .stop := by
  cases hf with
  | begins _ _ hb => exact ⟨(hb rfl).1, by simp, by simpa [Point.operation?] using (hb rfl).2⟩
  | locks hp => exact ⟨h.foreign hp, by simp, (h.barred hp).2⟩
  | sends hp => exact ⟨h.foreign hp, by simp, (h.barred hp).2⟩
  | leaves hp =>
    have hforeign : s.isForeign := hp.elim (fun hp => h.foreign hp) fun hp => h.foreign hp.1
    exact ⟨hforeign, by simp, by simp [Point.operation?]⟩

section Step

variable (h : Guarded s) (hp : Passes s t)
include h hp

/-- While a continuation makes a call the worker stays in it, and it never waits for itself. -/
theorem Guarded.next_foreign (hs : ∀ w, s.worker = some w → Duty.Sound ⟨s.table, w⟩)
    {p : Point κ} (ht : t.point? .worker = some p) :
    t.isForeign ∧ p ≠ .joining ∧ p.operation? ≠ some .stop := by
  have hkeep : s.point? .worker = some p → t.worker = s.worker →
      t.table.frames = s.table.frames → t.isForeign ∧ p ≠ .joining ∧ p.operation? ≠ some .stop :=
    fun hp hw hf => ⟨by rw [isForeign_congr (by rw [hw]) hf]; exact h.foreign hp, h.barred hp⟩
  have hother : ∀ {thread : Thread} {q}, Moves s thread q t → thread ≠ .worker →
      s.point? .worker = some p := fun hm hn => by rwa [hm, if_neg hn.symm] at ht
  -- A call that has left its job returns, and it was in foreign code all the while.
  have hposted : ∀ {thread op access result} {job : Job κ},
      s.point? thread = some (.sending op) → Moves s thread (some (.leaving access result)) t →
      Posted s job t → t.isForeign ∧ p ≠ .joining ∧ p.operation? ≠ some .stop := by
    intro thread op access result job hp' hm hpost
    by_cases hw : thread = .worker
    · subst hw
      rw [hm, if_pos rfl, Option.some.injEq] at ht
      subst ht
      refine ⟨?_, by simp, by simp [Point.operation?]⟩
      rw [isForeign_congr (by rw [hpost.worker]) hpost.frames]
      exact h.foreign hp'
    · exact hkeep (hother hm hw) hpost.worker hpost.frames
  have hbarred : ∀ {thread p'}, s.point? thread = some p' →
      (p' = .joining ∨ p'.operation? = some .stop) → thread ≠ .worker := by
    rintro thread p' hp' hx rfl
    exact hx.elim (h.barred hp').1 (h.barred hp').2
  cases hp with
  | @call thread q hm hst hf =>
    by_cases hw : thread = .worker
    · subst hw
      rw [hm, if_pos rfl] at ht
      rw [isForeign_congr (by rw [hst.worker]) hst.frames]
      exact h.foreign_of_follows (ht ▸ hf)
    · exact hkeep (hother hm hw) hst.worker hst.frames
  | launched hl =>
    have hn := h.no_call_of_launched hs hl
    rw [hother hl.moves (by rintro rfl; simp [hl.point] at hn)] at hn
    simp at hn
  | halted hh =>
    exact hkeep (hother hh.moves (hbarred hh.point (.inr rfl))) hh.worker (by rw [hh.table])
  | accepted hp' hm hpost => exact hposted hp' hm hpost
  | posted hp' hm hpost => exact hposted hp' hm hpost
  | signalled hp' hm hpost =>
    exact hkeep (hother hm (hbarred hp' (.inr rfl))) hpost.worker hpost.frames
  | lowered hp' hm hl =>
    have hold := hother hm (hbarred hp' (.inr rfl))
    refine ⟨?_, h.barred hold⟩
    rw [isForeign_congr (s := s) (by simp [hl.worker]) (by rw [hl.table])]
    exact h.foreign hold
  | joined hj =>
    exact hkeep (hother hj.moves (hbarred hj.point (.inl rfl))) hj.worker (by rw [hj.table]; rfl)
  | abandoned ha => simp [ha.points] at ht
  | worked hw =>
    rw [hw.points] at ht
    rw [hw.away (h.foreign ht)] at ht
    simp at ht
  | outside hp' _ hst => exact hkeep (hp' _ ▸ ht) hst.worker hst.frames

theorem Guarded.next_stopped (hc : t.lifecycle = .stopped) : t.worker.isSome ∧ t.WindsUp := by
  rcases hp.lifecycle with hl | ⟨_, hl⟩ | ⟨thread, hh⟩ | ha
  · obtain ⟨hw, hu⟩ := h.stopped (hl ▸ hc)
    have hn : ∀ thread, ¬ Launched s thread t := fun thread hl' => by simp [hl'.lifecycle] at hc
    exact ⟨by rw [(hp.worker hn).1]; exact hw, hp.windsUp hw hu hn⟩
  · simp [hl.lifecycle] at hc
  · have ht : t.point? thread = some (.sending .stop) := by rw [hh.moves, if_pos rfl]
    refine ⟨?_, .halting ht (.inl rfl)⟩
    have hflag := h.running hh.running
    rw [hh.worker]
    cases hw : s.worker with
    | none => simp [flag, hw] at hflag
    | some w => rfl
  · refine ⟨?_, .abandoned ha.handles ha.points⟩
    have hn : ∀ thread, ¬ Launched s thread t := fun thread hl => by
      have := hl.point
      simp [ha.free] at this
    rw [((Passes.abandoned ha).worker hn).1]
    cases hw : s.worker with
    | none => exact absurd ha.foreign (not_isForeign_of_none hw)
    | some w => rfl

theorem Guarded.next_sending {other : Thread} {op : Operation κ}
    (ht : t.point? other = some (.sending op)) :
    t.flag ∧ ((op = .stop ∧ t.lifecycle = .stopped) ∨
      (op.access = .shared ∧ t.lifecycle = .running)) := by
  rcases hp.sending ht with ho | ⟨ha, hr, hst⟩ | ⟨rfl, hh⟩
  · obtain ⟨hflag, hop⟩ := h.sending ho
    have hn := h.not_launched (t := t) ho rfl (by simp)
    constructor
    · rcases hp.flag with hf | ⟨thread, hl⟩ | ⟨thread, hstop, hm⟩ | ha | ⟨-, hm⟩
      · rw [hf]
        exact hflag
      · exact absurd hl (hn thread)
      · obtain rfl := h.alone hstop ho rfl rfl
        rw [hm, if_pos rfl] at ht
        simp at ht
      · simp [ha.points] at ht
      · exact absurd hm (h.not_halt ho rfl (by simp))
    · rcases hp.lifecycle with hl | ⟨thread, hl⟩ | ⟨thread, hh⟩ | ha
      · rw [hl]
        exact hop
      · exact absurd hl (hn thread)
      · obtain rfl := h.alone hh.point ho rfl rfl
        simp [hh.point] at ho
      · simp [ha.points] at ht
  · refine ⟨?_, .inr ⟨ha, hst.lifecycle.trans hr⟩⟩
    rw [flag, hst.worker]
    exact h.running hr
  · refine ⟨?_, .inl ⟨rfl, hh.lifecycle⟩⟩
    rw [flag, hh.worker]
    exact h.running hh.running

theorem Guarded.next_running (hc : t.lifecycle = .running) : t.flag := by
  rcases hp.lifecycle with hl | ⟨thread, hl⟩ | ⟨thread, hh⟩ | ha
  · have hr : s.lifecycle = .running := hl ▸ hc
    rcases hp.flag with hf | ⟨thread, hl⟩ | ⟨thread, hstop, -⟩ | ha | ⟨-, hm⟩
    · rw [hf]
      exact h.running hr
    · rw [flag, hl.worker]
      rfl
    · have hst := (h.sending hstop).2
      simp [hr, Operation.access] at hst
    · simp [ha.lifecycle, hr] at hc
    · obtain ⟨thread, hj⟩ := h.halt hm
      simp [h.joining hj] at hr
  · rw [flag, hl.worker]
    rfl
  · simp [hh.lifecycle] at hc
  · rw [ha.lifecycle] at hc
    split at hc <;> simp_all

theorem Guarded.next_fresh (hc : t.lifecycle = .fresh) : t.worker = none := by
  rcases hp.lifecycle with hl | ⟨thread, hl⟩ | ⟨thread, hh⟩ | ha
  · have hn : ∀ thread, ¬ Launched s thread t := fun thread hl' => by simp [hl'.lifecycle] at hc
    have hw := (hp.worker hn).1
    rw [h.fresh (hl ▸ hc)] at hw
    simpa using hw
  · simp [hl.lifecycle] at hc
  · simp [hh.lifecycle] at hc
  · rw [ha.lifecycle] at hc
    split at hc
    · simp at hc
    · exact absurd ha.foreign (not_isForeign_of_none (h.fresh hc))

theorem Guarded.next_joining {other : Thread} (ht : t.point? other = some .joining) :
    t.lifecycle = .stopped := by
  have ho := hp.joining ht
  have hc : s.lifecycle = .stopped := by
    rcases ho with ho | ho
    · exact h.joining ho
    · simpa [Operation.access] using (h.sending ho).2
  rcases hp.lifecycle with hl | ⟨thread, hl⟩ | ⟨thread, hh⟩ | ha
  · rw [hl, hc]
  · exact absurd hl (ho.elim (fun ho => h.not_launched ho rfl (by simp) thread)
      fun ho => h.not_launched ho rfl (by simp) thread)
  · exact hh.lifecycle
  · simp [ha.points] at ht

theorem Guarded.next_halt (hs : ∀ w, s.worker = some w → Duty.Sound ⟨s.table, w⟩)
    (hm : .halt ∈ t.jobs) : ∃ thread, t.point? thread = some .joining := by
  rcases hp.halt hm with hs' | ht
  · obtain ⟨thread, ho⟩ := h.halt hs'
    rcases hp.halting ho (.inr rfl) with ⟨p', ht, -, hj⟩ | hj
    · exact ⟨thread, by rw [ht, hj rfl]⟩
    · rw [hj.jobs hs] at hm
      exact absurd hm List.not_mem_nil
  · exact ht

theorem Guarded.passes (hs : ∀ w, s.worker = some w → Duty.Sound ⟨s.table, w⟩) :
    Guarded t where
  alone := by
    obtain ⟨thread, q, hm, hk⟩ := hp.moved
    exact fun hp hq hx hh => h.alone_of_moved hm hk hp hq hx hh
  foreign := fun ht => (h.next_foreign hp hs ht).1
  barred := fun ht => (h.next_foreign hp hs ht).2
  fresh := h.next_fresh hp
  running := h.next_running hp
  stopped := h.next_stopped hp
  sending := h.next_sending hp
  joining := h.next_joining hp
  halt := h.next_halt hp hs

end Step

end State

end Dialer.Service
