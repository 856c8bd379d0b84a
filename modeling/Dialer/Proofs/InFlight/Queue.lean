import Dialer.Proofs.InFlight.Lawful

/-!
# The queue of tasks

Tasks leave the queue of a table only while it is drained, one at a time and in their order.
Whatever else the table does, what waits in the queue goes on waiting.
-/

namespace Dialer.InFlight.State

open Readiness (Token Watch)
open Time (Instant)

variable {κ τ : Type} {s : State κ τ}

/-- The tasks that were left and not taken. -/
def queue (s : State κ τ) : List τ := s.watch.tasks.queue

theorem shut_queue (s : State κ τ) : s.shut.queue = s.queue :=
  @foldl_closeSocket κ τ _ queue (fun _ _ => rfl) s.entries s

theorem unwind_queue (panic : Panic) (frames : List (Frame κ τ)) (s : State κ τ) :
    (unwind panic frames s).queue = s.queue :=
  unwind_overlooked (fun _ _ _ => rfl) (fun _ _ => rfl) (fun _ _ => rfl) shut_queue panic frames s

theorem leave_queue (s : State κ τ) (panic : Option Panic) : (s.leave panic).queue = s.queue := by
  cases panic with
  | none => rfl
  | some panic => exact unwind_queue panic s.frames s

theorem poll_queue (s : State κ τ) (report : Except Fault (List (Token × Verdict))) :
    (s.poll report).2.queue = s.queue := by
  cases report with
  | ok report =>
    have hfold : ∀ (tokens : List Token) (t : State κ τ),
        (tokens.foldl (fun s token => s.note (.spurious token)) t).queue = t.queue := by
      intro tokens
      induction tokens with
      | nil => exact fun t => rfl
      | cons token tokens ih => exact fun t => ih (t.note (.spurious token))
    exact hfold (s.spurious report) s
  | error fault =>
    simp only [poll]
    split <;> rfl

theorem abort_queue (s : State κ τ) (order : List Token) :
    (s.abort order).2.queue = s.queue := by
  simp only [abort, push]
  split <;> rfl

theorem close_queue (s : State κ τ) (order : List Token) : (s.close order).queue = s.queue := by
  simp only [close]
  split
  · rfl
  · exact abort_queue _ order

/-- Issuing a request leaves the queue as it is, and calls back at most once. -/
theorem Lawful.attempt_frames (h : Lawful s) (hroom : s.hasRoom) (request : Request κ)
    (reply : Reply) (now : Instant) :
    (s.attempt request reply now).2.queue = s.queue ∧
      ((s.attempt request reply now).2.frames = s.frames ∨
        ∃ call, (s.attempt request reply now).2.frames = .calling call :: s.frames) := by
  cases hc : request.continuations? with
  | none =>
    rw [attempt_incomplete hc]
    exact ⟨rfl, .inl rfl⟩
  | some c =>
    obtain ⟨-, ⟨-, call, hans⟩ | ⟨token, e, -, hb⟩⟩ :=
      h.registered.attempt_complete hroom hc reply now
    · exact ⟨congrArg Channel.queue hans.tasks, .inr ⟨call, hans.frames⟩⟩
    · exact ⟨congrArg Channel.queue hb.tasks, .inl hb.frames⟩

/-- A batch goes on with its next attempt, which is called back or gone already, or it is done. -/
theorem Lawful.advance_settling_frames (h : Lawful s) {batch : List (Token × Cause)}
    {rest : List (Frame κ τ)} (hf : s.frames = .settling batch :: rest)
    (release : Release) :
    (s.advance release).queue = s.queue ∧
      ((batch = [] ∧ s.advance release = { s with frames := rest }) ∨
        ∃ batch', (s.advance release).frames = .settling batch' :: rest ∨
          ∃ call, (s.advance release).frames = .calling call :: .settling batch' :: rest) := by
  cases batch with
  | nil =>
    have hadv : s.advance release = { s with frames := rest } := by
      simp only [State.advance, hf]
    exact ⟨by rw [hadv]; rfl, .inl ⟨rfl, hadv⟩⟩
  | cons item batch =>
    obtain ⟨token, cause⟩ := item
    rcases h.advance_settling_cases hf release with ⟨-, heq⟩ | ⟨e, call, -, hcon⟩
    · exact ⟨by rw [heq]; rfl, .inr ⟨batch, .inl (by rw [heq])⟩⟩
    · exact ⟨congrArg Channel.queue hcon.tasks, .inr ⟨batch, .inr ⟨call, hcon.frames⟩⟩⟩

theorem takeTask_of_nil (hq : s.queue = []) : s.takeTask = (none, s) := by
  have hq : s.watch.tasks.queue = [] := hq
  simp [takeTask, Watch.nextTask?, Channel.take?, hq]

theorem takeTask_eq {task : τ} {tasks : List τ} (hq : s.queue = task :: tasks) : s.takeTask =
    (some task, { s with watch := { s.watch with tasks :=
      { s.watch.tasks with queue := tasks } } }.note (.taken task)) := by
  have hq : s.watch.tasks.queue = task :: tasks := hq
  simp [takeTask, Watch.nextTask?, Channel.take?, hq]

theorem advance_draining_frames {taken : Nat} {rest : List (Frame κ τ)}
    (hf : s.frames = .draining taken :: rest) (release : Release) :
    (s.queue = [] ∧ (s.advance release).queue = [] ∧
        (s.advance release).frames = rest) ∨
      ∃ job, s.queue = job :: (s.advance release).queue ∧
        (s.advance release).frames = .task job :: .draining (taken + 1) :: rest := by
  cases hq : s.queue with
  | nil =>
    have hadv : s.advance release = { s with frames := rest }.note (.drained taken) := by
      simp only [advance, hf, takeTask_of_nil hq]
    exact .inl ⟨rfl, by rw [hadv]; exact hq, by rw [hadv]; rfl⟩
  | cons job jobs =>
    refine .inr ⟨job, ?_, ?_⟩
    · simp only [advance, hf, takeTask_eq hq]
      rfl
    · simp only [advance, hf, takeTask_eq hq]
      rfl

theorem advance_closing_queue {rest : List (Frame κ τ)} (hf : s.frames = .closing :: rest)
    (release : Release) : (s.advance release).queue = s.queue := by
  simp only [advance, hf]
  exact shut_queue s

theorem enqueue_queue (hopen : ¬ s.isClosed) (task : τ) :
    (s.after (.enqueue task)).queue = s.queue ++ [task] := by
  have hr : s.watch.tasks.receivers ≠ 0 := fun h => hopen (isClosed_iff.mpr h)
  simp [queue, after, enqueue, Watch.enqueue, Channel.send, hr, Except.map, Except.toOption]

theorem unwind_frames_subset (panic : Panic) (frames : List (Frame κ τ)) (s : State κ τ) :
    (unwind panic frames s).frames ⊆ frames := by
  induction frames generalizing panic s with
  | nil => exact List.nil_subset _
  | cons f rest ih =>
    cases f with
    | settling batch => exact List.subset_cons_of_subset _ (ih panic s)
    | draining taken => exact List.subset_cons_of_subset _ (ih panic s)
    | closing => exact List.subset_cons_of_subset _ (ih panic s.shut)
    | task job =>
      cases panic with
      | plain text => exact List.subset_cons_self _ _
      | volatile text next => exact List.subset_cons_of_subset _ (ih next _)
    | calling call =>
      cases panic with
      | plain text => exact List.subset_cons_self _ _
      | volatile text next => exact List.subset_cons_of_subset _ (ih next _)

/-- A task that waits was left for the table, now or before. -/
theorem Lawful.queue_after (h : Lawful s) {a : Action κ τ} (ha : a.Enabled s) {task : τ}
    (hm : task ∈ (s.after a).queue) : task ∈ s.queue ∨ a = .enqueue task := by
  cases a with
  | attempt request reply now =>
    exact .inl ((h.attempt_frames ha.2.2 request reply now).1 ▸ hm)
  | poll report => exact .inl (poll_queue s report ▸ hm)
  | abort order => exact .inl (abort_queue s order ▸ hm)
  | close order => exact .inl (close_queue s order ▸ hm)
  | leave panic => exact .inl (leave_queue s panic ▸ hm)
  | advance release =>
    refine .inl ?_
    cases hs : s.frames with
    | nil => simp [Action.Enabled, hs] at ha
    | cons f rest =>
      cases f with
      | settling batch => exact (h.advance_settling_frames hs release).1 ▸ hm
      | draining taken =>
        rcases advance_draining_frames hs release with ⟨-, hq, -⟩ | ⟨job, hq, -⟩
        · exact absurd (hq ▸ hm) List.not_mem_nil
        · exact hq ▸ List.mem_cons_of_mem _ hm
      | closing => exact advance_closing_queue hs release ▸ hm
      | task job => simp [Action.Enabled, isForeign, hs] at ha
      | calling call => simp [Action.Enabled, isForeign, hs] at ha
  | enqueue job =>
    by_cases hclosed : s.isClosed
    · have hr := isClosed_iff.mp hclosed
      left
      simpa [State.after, State.enqueue, Watch.enqueue, Channel.send, hr, Except.map,
        Except.toOption] using hm
    · rw [enqueue_queue hclosed, List.mem_append, List.mem_singleton] at hm
      exact hm.imp_right fun heq => congrArg _ heq.symm
  | takeTask =>
    refine .inl ?_
    cases hq : s.queue with
    | nil => simp [State.after, takeTask_of_nil hq, hq] at hm
    | cons job jobs =>
      have hm : task ∈ jobs := by simpa [State.after, takeTask_eq hq, queue] using hm
      exact List.mem_cons_of_mem _ hm
  | _ => exact .inl hm

theorem Lawful.frames_after (h : Lawful s) {a : Action κ τ} (ha : a.Enabled s) {task : τ}
    (hm : .task task ∈ (s.after a).frames) : .task task ∈ s.frames ∨ task ∈ s.queue := by
  cases a with
  | attempt request reply now =>
    rcases (h.attempt_frames ha.2.2 request reply now).2 with hf | ⟨call, hf⟩
    · exact .inl (hf ▸ hm)
    · exact .inl (by simpa [State.after, hf] using hm)
  | poll report =>
    cases report with
    | ok report =>
      obtain ⟨-, hf⟩ := Quiet.foldl_note (s.spurious report) s
      exact .inl (by simpa [State.after, State.poll, hf] using hm)
    | error fault =>
      left
      simp only [State.after, State.poll] at hm
      split at hm <;> exact hm
  | expire now order => exact .inl (by simpa [State.after, State.expire] using hm)
  | abort order => exact .inl (by simpa [State.after, abort_frames] using hm)
  | drain => exact .inl (by simpa [State.after, State.drain] using hm)
  | close order =>
    left
    simp only [State.after, State.close] at hm
    split at hm
    · simpa using hm
    · simpa [abort_frames] using hm
  | advance release =>
    cases hs : s.frames with
    | nil => simp [Action.Enabled, hs] at ha
    | cons f rest =>
      cases f with
      | settling batch =>
        rcases (h.advance_settling_frames hs release).2 with
          ⟨-, heq⟩ | ⟨batch', hf | ⟨call, hf⟩⟩
        · exact .inl (List.mem_cons_of_mem _ (by simpa [State.after, heq] using hm))
        · exact .inl (List.mem_cons_of_mem _ (by simpa [State.after, hf] using hm))
        · exact .inl (List.mem_cons_of_mem _ (by simpa [State.after, hf] using hm))
      | draining taken =>
        rcases advance_draining_frames hs release with ⟨-, -, hf⟩ | ⟨job, hq, hf⟩
        · exact .inl (List.mem_cons_of_mem _ (by simpa [State.after, hf] using hm))
        · simp only [State.after, hf, List.mem_cons, Frame.task.injEq] at hm
          rcases hm with rfl | hm | hm
          · exact .inr (hq ▸ List.mem_cons_self)
          · cases hm
          · exact .inl (List.mem_cons_of_mem _ hm)
      | closing =>
        exact .inl (List.mem_cons_of_mem _ (by simpa [State.after, State.advance, hs] using hm))
      | task job => simp [Action.Enabled, isForeign, hs] at ha
      | calling call => simp [Action.Enabled, isForeign, hs] at ha
  | leave panic =>
    left
    cases panic with
    | none => exact List.mem_of_mem_tail hm
    | some panic => exact unwind_frames_subset panic s.frames s hm
  | enqueue job => exact .inl ((quiet_enqueue s job).2 ▸ hm)
  | takeTask => exact .inl ((quiet_takeTask s).2 ▸ hm)
  | _ => exact .inl hm

end Dialer.InFlight.State
