import Dialer.Proofs.Service.Resolution

/-!
# A request that is handed in again

A continuation may hand in a request while it runs, and the worker that runs it takes that request
in the same draining. If attempts of the request are over at once and its continuation hands it in
again each time, one such request in the queue is enough: round after round the worker issues it,
and it never comes to look at ready sockets again or at the clock. Whatever else is in flight stays
so.
-/

namespace Dialer.Service

open InFlight (Frame)
open InFlight.State (Lawful)

variable {κ : Type}

/-- The number of jobs that a draining has taken. -/
def drained? : Frame (Tagged κ) (Job κ) → Option Nat
  | .draining taken => some taken
  | _ => none

theorem eq_draining {f : Frame (Tagged κ) (Job κ)} {taken : Nat} (h : drained? f = some taken) :
    f = .draining taken := by
  cases f <;> simp [drained?] at h
  rw [h]

theorem Job.eq_dial {job : Job κ} {request : Request (Tagged κ)}
    (h : job.request? = some request) : job = .dial request := by
  cases job <;> simp [Job.request?] at h
  rw [h]

/-! ### Attempts that are over at once -/

theorem attempt_fst_of_dialled (table : Table κ) (request : Request (Tagged κ)) {reply : Reply}
    (hreply : reply.dialled ≠ .inProgress) (now : Time.Instant) :
    (table.attempt request reply now).1 = none := by
  simp only [InFlight.State.attempt]
  split
  · rfl
  · split
    · rfl
    · simp only [InFlight.State.dial]
      split
      · rfl
      · rfl
      · rfl
      · exact absurd ‹_› hreply

namespace State

/-- The worker is in the middle of a draining that nobody disturbs. -/
structure Drains (s : State κ) (entries : List (Readiness.Token × InFlight.Entry (Tagged κ)))
    (frames : List (Frame (Tagged κ) (Job κ))) (begun : Bool) (queue : List (Job κ))
    (calls : List (Thread × Point κ)) : Prop where
  running : s.lifecycle = .running
  handles : s.handles ≠ 0
  unclosed : ¬ s.table.isClosed
  worker : ∃ w, s.worker = some w ∧ w.flag ∧ w.stage = .serve ∧ w.entered ∧ w.begun = begun
  entries : s.table.entries = entries
  frames : s.table.frames = frames
  queue : s.table.queue = queue
  calls : s.calls = calls

/-- The worker issues the request that waits, which is called back at once; its continuation hands
the request in again and returns. -/
def round (request : Request κ) (answers : Answers) : List (Label κ) :=
  [.work {}, .work answers, .begin .worker (.submit request)] ++
    List.replicate 4 (.proceed .worker {}) ++ [.leave none, .work {}]

variable {s : State κ} {entries : List (Readiness.Token × InFlight.Entry (Tagged κ))}
  {frames : List (Frame (Tagged κ) (Job κ))} {begun : Bool} {queue : List (Job κ)}
  {calls : List (Thread × Point κ)} {request : Request κ} {answers : Answers}

section Drains

theorem Drains.enabled (h : Drains s entries frames begun queue calls) {l : Label κ}
    (hl : s.Allows l) : s.Enabled l := by
  obtain ⟨w, hw, -, hs, -⟩ := h.worker
  exact ⟨by simp [isDead, hw, hs], hl⟩

theorem Drains.onDuty (h : Drains s entries frames begun queue calls) (change : Duty κ → Duty κ)
    (table : Table κ) (begun' : Bool) (hopen : table.isClosed = s.table.isClosed)
    (hchange : ∀ w, s.worker = some w → w.stage = .serve → w.begun = begun →
      change ⟨s.table, w⟩ = Duty.stay ⟨s.table, w⟩ table begun') :
    Drains (s.onDuty change) table.entries table.frames begun' table.queue calls := by
  obtain ⟨w, hw, hflag, hs, he, hb⟩ := h.worker
  have heq : s.onDuty change =
      { s with table := table, worker := some { w with begun := begun' } } := by
    simp only [State.onDuty, hw, hchange w hw hs hb, Duty.stay]
    rw [if_neg fun hn => h.handles hn.1]
  rw [heq]
  exact ⟨h.running, h.handles, by rw [hopen]; exact h.unclosed, ⟨_, rfl, hflag, hs, he, rfl⟩,
    rfl, rfl, rfl, h.calls⟩

theorem Drains.take {taken : Nat} {job : Job κ}
    (h : Drains s entries [.draining taken] false (job :: queue) []) :
    s.Enabled (.work {}) ∧ Drains (s.after (.work {})) entries
      [.task job, .draining (taken + 1)] false queue [] := by
  obtain ⟨w, hw, -, hs, he, hb⟩ := h.worker
  refine ⟨h.enabled (by simp [Allows, canWork, hw, Duty.canWork, h.frames]), ?_⟩
  have hadvance : s.table.advance {} = ({ s.table with
      watch := { s.table.watch with tasks := { s.table.watch.tasks with queue := queue } }
      frames := [.task job, .draining (taken + 1)] }.note (.taken job)).note (.started job) := by
    have hq : s.table.watch.tasks.queue = job :: queue := h.queue
    simp [InFlight.State.advance, h.frames, InFlight.State.takeTask, Readiness.Watch.nextTask?,
      Channel.take?, hq, InFlight.State.note]
  have hstep := h.onDuty (·.work {}) (s.table.advance {}) false (by rw [hadvance]; rfl)
    fun w _ _ hb => by simp only [Duty.work, h.frames, Duty.stay, ← hb]
  rw [hadvance] at hstep
  exact h.entries ▸ hstep

/-- The request in hand is issued, and called back at once. -/
theorem Drains.issue {request : Request (Tagged κ)}
    (h : Drains s entries (.task (.dial request) :: frames) false queue [])
    (hl : Lawful s.table) (hroom : s.table.hasRoom) (hc : request.continuations?.isSome)
    (hreply : answers.reply.dialled ≠ .inProgress) :
    s.Enabled (.work answers) ∧ ∃ call, Drains (s.after (.work answers)) entries
      (.calling call :: .task (.dial request) :: frames) true queue [] := by
  obtain ⟨w, hw, -⟩ := h.worker
  refine ⟨h.enabled (by simp [Allows, canWork, hw, Duty.canWork, h.frames, hroom]), ?_⟩
  obtain ⟨c, hc⟩ := Option.isSome_iff_exists.mp hc
  have hnone := attempt_fst_of_dialled s.table request hreply answers.now
  obtain ⟨-, ⟨-, call, hans⟩ | ⟨token, e, hsome, -⟩⟩ :=
    hl.registered.attempt_complete hroom hc answers.reply answers.now
  · have hstep := h.onDuty (·.work answers)
      (s.table.attempt request answers.reply answers.now).2 true
      (by simp [InFlight.State.isClosed, hans.tasks])
      fun w _ _ hb => by simp [Duty.work, h.frames, hb, Duty.perform, Duty.setBegun, Duty.stay]
    have hqueue := congrArg Channel.queue hans.tasks
    rw [hans.entries, hans.frames, InFlight.State.queue, hqueue] at hstep
    exact ⟨call, h.entries ▸ h.frames ▸ h.queue ▸ hstep⟩
  · simp [hnone] at hsome

theorem Drains.finish {job : Job κ} (h : Drains s entries (.task job :: frames) true queue []) :
    s.Enabled (.work {}) ∧ Drains (s.after (.work {})) entries frames false queue [] := by
  obtain ⟨w, hw, -, -, -, hb⟩ := h.worker
  refine ⟨h.enabled (by cases job <;> simp [Allows, canWork, hw, Duty.canWork, h.frames, hb]), ?_⟩
  have hstep := h.onDuty (·.work {}) (s.table.leave none) false rfl
    fun w _ _ hb => by simp [Duty.work, h.frames, hb, Duty.setBegun, Duty.stay]
  simp only [InFlight.State.leave, h.frames, List.tail_cons] at hstep
  exact h.entries ▸ h.queue ▸ hstep

/-- The continuation returns to the job that it was called for. -/
theorem Drains.leave {call : InFlight.Call (Tagged κ)} {job : Job κ}
    (h : Drains s entries (.calling call :: .task job :: frames) true queue []) :
    s.Enabled (.leave none) ∧
      Drains (s.after (.leave none)) entries (.task job :: frames) true queue [] := by
  obtain ⟨w, hw, -, -, -, hb⟩ := h.worker
  refine ⟨h.enabled ?_, ?_⟩
  · simp [Allows, isForeign, hw, Duty.isForeign, h.frames, point?, h.calls]
  · have hstep := h.onDuty (·.leave none) (s.table.leave none) true rfl
      fun w _ _ hb => by
        simp [Duty.leave, InFlight.State.leave, h.frames, hb, Duty.setBegun, Duty.hasJob,
          Duty.stay]
    simp only [InFlight.State.leave, h.frames, List.tail_cons] at hstep
    exact h.entries ▸ h.queue ▸ hstep

theorem isSome_continuations?_tag (n : Nat) (hc : request.continuations?.isSome) :
    (tag n request).continuations?.isSome := by
  rw [← Request.refusal?_eq_none_iff] at hc ⊢
  simpa [Request.refusal?, tag] using hc

theorem Drains.moveTo (h : Drains s entries frames begun queue calls)
    (hcalls : ∀ c ∈ calls, c.1 = .worker) (point : Point κ) :
    Drains (s.moveTo .worker point) entries frames begun queue [(.worker, point)] := by
  have hnone : calls.filter (·.1 ≠ .worker) = [] :=
    List.filter_eq_nil_iff.mpr fun c hc => by simp [hcalls c hc]
  exact ⟨h.running, h.handles, h.unclosed, h.worker, h.entries, h.frames, h.queue,
    by rw [State.moveTo, h.calls, hnone]; rfl⟩

theorem Drains.submit {call : InFlight.Call (Tagged κ)}
    (h : Drains s entries (.calling call :: frames) begun queue [])
    (hc : request.continuations?.isSome) :
    s.Enabled (.begin .worker (.submit request)) ∧
      Drains (s.after (.begin .worker (.submit request))) entries (.calling call :: frames) begun
        queue [(.worker, .wanting (.submit s.submissions (tag s.submissions request)))] := by
  obtain ⟨w, hw, -⟩ := h.worker
  refine ⟨h.enabled ?_, ?_⟩
  · simp [Allows, canCall, point?, h.calls, isForeign, hw, Duty.isForeign, h.frames, h.handles]
  · have hr := request.refusal?_eq_none_iff.mpr hc
    have hnext : Drains { s with submissions := s.submissions + 1 } entries
        (.calling call :: frames) begun queue [] :=
      ⟨h.running, h.handles, h.unclosed, h.worker, h.entries, h.frames, h.queue, h.calls⟩
    simp only [State.after, begin, hr]
    exact hnext.moveTo (by simp) _

section Proceed

variable {point : Point κ} {n : Nat} {r : Request (Tagged κ)}

theorem Drains.point? (h : Drains s entries frames begun queue [(.worker, point)]) :
    s.point? .worker = some point := by
  simp [State.point?, h.calls]

/-- Nobody stops the service, so that the call gets the lock. -/
theorem Drains.hold (h : Drains s entries frames begun queue
      [(.worker, .wanting (.submit n r))]) :
    s.Enabled (.proceed .worker {}) ∧ Drains (s.after (.proceed .worker {})) entries frames begun
      queue [(.worker, .holding (.submit n r))] := by
  refine ⟨h.enabled ?_, ?_⟩
  · simp [Allows, canProceed, h.point?, Operation.access, isFree, held, h.calls, Point.held?]
  · simp only [State.after, proceed, h.point?]
    exact h.moveTo (by simp) _

theorem Drains.look (h : Drains s entries frames begun queue
      [(.worker, .holding (.submit n r))]) :
    s.Enabled (.proceed .worker {}) ∧ Drains (s.after (.proceed .worker {})) entries frames begun
      queue [(.worker, .sending (.submit n r))] := by
  obtain ⟨w, hw, hflag, -⟩ := h.worker
  refine ⟨h.enabled (by simp [Allows, canProceed, h.point?]), ?_⟩
  have hup : s.lifecycle = .running ∧ s.flag := ⟨h.running, by simp [flag, hw, hflag]⟩
  simp only [State.after, proceed, h.point?, State.look, hup, and_self, if_true]
  exact h.moveTo (by simp) _

/-- The job is left behind those that wait. -/
theorem Drains.send (h : Drains s entries frames begun queue
      [(.worker, .sending (.submit n r))]) :
    s.Enabled (.proceed .worker {}) ∧ Drains (s.after (.proceed .worker {})) entries frames begun
      (queue ++ [.dial r]) [(.worker, .leaving .shared .done)] := by
  refine ⟨h.enabled (by simp [Allows, canProceed, h.point?]), ?_⟩
  have hr : s.table.watch.tasks.receivers ≠ 0 := fun hn =>
    h.unclosed (InFlight.State.isClosed_iff.mpr hn)
  have hq : s.table.watch.tasks.queue = queue := h.queue
  simp only [State.after, proceed, h.point?, State.send, State.enqueue, InFlight.State.enqueue,
    Readiness.Watch.enqueue, Channel.send, hr, if_false, Except.map]
  refine Drains.moveTo (?_ : Drains _ entries frames begun (queue ++ [.dial r])
    [(.worker, .sending (.submit n r))]) (by simp) _
  exact ⟨h.running, h.handles, h.unclosed, h.worker, h.entries, h.frames,
    by simp [InFlight.State.queue, InFlight.State.note, note, hq], h.calls⟩

theorem Drains.return (h : Drains s entries frames begun queue
      [(.worker, .leaving .shared .done)]) :
    s.Enabled (.proceed .worker {}) ∧ Drains (s.after (.proceed .worker {})) entries frames begun
      queue [] := by
  refine ⟨h.enabled (by simp [Allows, canProceed, h.point?]), ?_⟩
  simp only [State.after, proceed, h.point?, State.finish, h.handles, if_false]
  exact ⟨h.running, h.handles, h.unclosed, h.worker, h.entries, h.frames, h.queue,
    by simp [returns, note, h.calls]⟩

end Proceed

end Drains

/-- One round leads to the next, and leaves what is in flight as it is. -/
theorem Drains.round {n taken : Nat} (hs : Reachable s)
    (h : Drains s entries [.draining taken] false [.dial (tag n request)] [])
    (hroom : entries.length < Readiness.wakeToken.toNat) (hc : request.continuations?.isSome)
    (hreply : answers.reply.dialled ≠ .inProgress) :
    s.Possible (State.round request answers) ∧ ∃ n',
      Drains (s.run (State.round request answers)) entries [.draining (taken + 1)] false
        [.dial (tag n' request)] [] := by
  obtain ⟨e₁, h₁⟩ := h.take
  obtain ⟨w, hw, -⟩ := h₁.worker
  have hl := ((hs.step e₁).ruled.manned.sound w hw).kept.lawful
  have hroom₁ : (s.after (.work {})).table.hasRoom := by
    simpa [InFlight.State.hasRoom, h₁.entries] using hroom
  obtain ⟨e₂, call, h₂⟩ := h₁.issue hl hroom₁ (isSome_continuations?_tag n hc) hreply
  obtain ⟨e₃, h₃⟩ := h₂.submit hc
  obtain ⟨e₄, h₄⟩ := h₃.hold
  obtain ⟨e₅, h₅⟩ := h₄.look
  obtain ⟨e₆, h₆⟩ := h₅.send
  obtain ⟨e₇, h₇⟩ := h₆.return
  obtain ⟨e₈, h₈⟩ := h₇.leave
  obtain ⟨e₉, h₉⟩ := h₈.finish
  exact ⟨⟨e₁, e₂, e₃, e₄, e₅, e₆, e₇, e₈, e₉, trivial⟩, _, h₉⟩

/-- The rounds go on for as long as one likes. -/
theorem Drains.rounds {n taken : Nat} (hs : Reachable s)
    (h : Drains s entries [.draining taken] false [.dial (tag n request)] [])
    (hroom : entries.length < Readiness.wakeToken.toNat) (hc : request.continuations?.isSome)
    (hreply : answers.reply.dialled ≠ .inProgress) (k : Nat) :
    s.Possible (List.replicate k (State.round request answers)).flatten ∧ ∃ n',
      Drains (s.run (List.replicate k (State.round request answers)).flatten) entries
        [.draining (taken + k)] false [.dial (tag n' request)] [] := by
  induction k generalizing s n taken with
  | zero => exact ⟨trivial, n, h⟩
  | succ k ih =>
    obtain ⟨hp, n', hnext⟩ := h.round hs hroom hc hreply
    obtain ⟨hp', hrest⟩ := ih (hs.run hp) hnext
    rw [List.replicate_succ, List.flatten_cons, possible_append, run_append, Nat.add_comm k 1,
      ← Nat.add_assoc]
    exact ⟨⟨hp, hp'⟩, hrest⟩

/-- A request gets in flight, and its time is over at once. Behind it waits a request that the
system rejects, and that its continuation hands in again. Whatever number of rounds the worker
makes, it is in the same draining, with the first request in flight and out of time. -/
theorem draining_never_ends :
    let overdue : Request Nat := ⟨"127.0.0.1", 80, .ofMillis 0, some 0, some 1⟩
    let hopeless : Request Nat := ⟨"10.0.0.1", 80, .ofMillis 0, some 0, some 1⟩
    let begun : Answers := { reply := { connect := some .nowInProgress } }
    let rejected : Answers := { reply := { connect := some .networkUnreachable } }
    let go (n : Nat) : List (Label Nat) := .replicate n (.proceed (.caller 0) {})
    let s : State Nat := (initial { eventCapacity := 1 }).run
      ([.begin (.caller 0) .start] ++ go 3 ++ [.begin (.caller 0) (.submit overdue)] ++ go 4 ++
        [.begin (.caller 0) (.submit hopeless)] ++ go 4 ++ List.replicate 8 (.work begun))
    Reachable s ∧ ∀ k, let t := s.run (List.replicate k (State.round hopeless rejected)).flatten
      s.Possible (List.replicate k (State.round hopeless rejected)).flatten ∧
        (∃ w, t.worker = some w ∧ w.stage = .serve ∧ w.entered) ∧
          t.table.frames = [.draining (1 + k)] ∧ (0, .timedOut) ∈ t.table.due .origin := by
  intro overdue hopeless begun rejected go s
  have hs : Reachable s := (Reachable.initial _).run (by decide)
  have hworker : s.worker.isSome := by decide
  obtain ⟨w, hw⟩ := Option.isSome_iff_exists.mp hworker
  have hserves : ∀ w ∈ s.worker, w.flag ∧ w.stage = .serve ∧ w.entered ∧ w.begun = false := by
    decide
  have hframes : s.table.frames.map drained? = [some 1] := by decide
  have hqueue : s.table.queue.map Job.request? = [some (tag 1 hopeless)] := by decide
  have hdrains : Drains s s.table.entries [.draining 1] false [.dial (tag 1 hopeless)] [] :=
    { running := by decide
      handles := by decide
      unclosed := by decide
      worker := ⟨w, hw, hserves w hw⟩
      entries := rfl
      frames := by
        obtain ⟨f, hf, hone⟩ := List.map_eq_singleton_iff.mp hframes
        rw [hf, eq_draining hone]
      queue := by
        obtain ⟨job, hj, hone⟩ := List.map_eq_singleton_iff.mp hqueue
        rw [hj, Job.eq_dial hone]
      calls := by decide }
  have hdue : (0, .timedOut) ∈ s.table.due .origin := by decide
  refine ⟨hs, fun k => ?_⟩
  have hreply : rejected.reply.dialled ≠ .inProgress := by
    have hrejected : rejected.reply.dialled = .rejected .networkUnreachable := rfl
    simp [hrejected]
  obtain ⟨hp, n, hend⟩ := hdrains.rounds hs (by decide) (by decide) hreply k
  obtain ⟨w, hw, -, hserve, hentered, -⟩ := hend.worker
  refine ⟨hp, ⟨w, hw, hserve, hentered⟩, hend.frames, ?_⟩
  rwa [InFlight.State.due, hend.entries]

end State

end Dialer.Service
