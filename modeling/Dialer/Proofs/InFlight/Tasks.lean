import Dialer.Proofs.InFlight.Queue
import Dialer.Proofs.InFlight.Record
import Dialer.Proofs.InFlight.Resolution

/-!
# Tasks are taken in the order in which they were left

What was accepted and what was taken is read off the answers of the operations. A task comes on the
stack of frames when a draining takes it, and leaves it when it is over; a draining leaves the stack
when it finds no task, or with a panic that nothing above it contains. Everything else that a table
does leaves the queue and these frames alone.
-/

namespace Dialer.InFlight

open Address (SocketAddress)
open Readiness (Token)
open Time (Duration Instant)

variable {κ τ : Type}

def Happening.start? : Happening κ τ → Option τ
  | .started task => some task
  | _ => none

namespace Frame

def isDraining : Frame κ τ → Bool
  | .draining _ => true
  | _ => false

def task? : Frame κ τ → Option τ
  | .task job => some job
  | _ => none

/-- Whether a frame is a draining or a task. -/
def isTending (f : Frame κ τ) : Bool := f.isDraining || f.task?.isSome

end Frame

namespace State

variable {s t : State κ τ} {a : Action κ τ} {actions : List (Action κ τ)}

/-- The tasks that drainings started to run, in order. -/
def started (s : State κ τ) : List τ := (s.history.filterMap Happening.start?).reverse

/-- The drainings that are under way and the tasks that they run, the innermost first. -/
def nest (s : State κ τ) : List (Frame κ τ) := s.frames.filter Frame.isTending

/-- The tasks that are run, the innermost first. -/
def running (s : State κ τ) : List τ := s.nest.filterMap Frame.task?

/-- How many drainings are under way, one called by a task of the other. -/
def drainings (s : State κ τ) : Nat := s.nest.countP Frame.isDraining

/-- The task that an action leaves in the queue, if the queue takes it. -/
def offered? (s : State κ τ) : Action κ τ → Option τ
  | .enqueue task => (s.enqueue task).toOption.map fun _ => task
  | _ => none

/-- The task that a draining takes with an action. -/
def drawn? (s : State κ τ) : Action κ τ → Option τ
  | .advance _ =>
    match s.frames with
    | .draining _ :: _ => s.takeTask.1
    | _ => none
  | _ => none

/-- The task that is taken with an action, by a draining or not. -/
def fetched? (s : State κ τ) : Action κ τ → Option τ
  | .takeTask => s.takeTask.1
  | a => s.drawn? a

/-- The tasks that are picked in a sequence of actions, in order. -/
def collect (pick : State κ τ → Action κ τ → Option τ) (s : State κ τ) : List (Action κ τ) → List τ
  | [] => []
  | a :: rest => (pick s a).toList ++ collect pick (s.after a) rest

theorem collect_sublist {pick other : State κ τ → Action κ τ → Option τ}
    (h : ∀ s a task, pick s a = some task → other s a = some task) (s : State κ τ)
    (actions : List (Action κ τ)) :
    (s.collect pick actions).Sublist (s.collect other actions) := by
  induction actions generalizing s with
  | nil => exact .slnil
  | cons a rest ih =>
    refine List.Sublist.append ?_ (ih (s.after a))
    cases hp : pick s a with
    | none => exact List.nil_sublist _
    | some task => rw [h s a task hp]

/-! ### What leaves tasks alone -/

/-- What concerns tasks: those that wait, those that were started, and their frames. -/
def docket (s : State κ τ) : List τ × List τ × List (Frame κ τ) := (s.queue, s.started, s.nest)

theorem publish_docket (s : State κ τ) (event : Event) :
    (s.publish event).docket = s.docket := by
  rcases publish_cases s event with h | ⟨_, _, h⟩ | h <;> rw [h] <;> rfl

theorem fail_docket (s : State κ τ) (ticket : Nat) (c : Continuations κ)
    (address : Option SocketAddress) (failure : Failure) :
    (s.fail ticket c address failure).docket = s.docket :=
  publish_docket s _

theorem handOff_docket (s : State κ τ) (ticket : Nat) (c : Continuations κ)
    (address : SocketAddress) (socket : Nat) (preparation : Option Fault) :
    (s.handOff ticket c address socket preparation).docket = s.docket := by
  obtain ⟨nodelay, t, ht, heq⟩ := handOff_eq (s := s) ticket c address socket preparation
  have hsame : t.docket = s.docket := by rcases ht with rfl | ⟨fault, rfl⟩ <;> rfl
  rw [heq]
  exact (publish_docket t _).trans hsame

theorem track_docket (s : State κ τ) (ticket : Nat) (c : Continuations κ) (address : SocketAddress)
    (timeout : Duration) (socket : Nat) (registration : Option Fault) (now : Instant) :
    (s.track ticket c address timeout socket registration now).2.docket = s.docket := by
  cases registration with
  | some fault => exact fail_docket (closeSocket _ _) _ _ _ _
  | none =>
    simp only [track, Readiness.Watch.add]
    cases s.allocate.2.watch.selector.register socket s.allocate.1 with
    | error fault => exact fail_docket (closeSocket _ _) _ _ _ _
    | ok selector => rfl

theorem dial_docket (s : State κ τ) (ticket : Nat) (c : Continuations κ) (address : SocketAddress)
    (timeout : Duration) (reply : Reply) (now : Instant) :
    (s.dial ticket c address timeout reply now).2.docket = s.docket := by
  have hp := publish_docket s (.attempting address)
  rw [dial]
  cases reply.dialled with
  | unmade fault => exact (fail_docket (note _ _) _ _ _ _).trans hp
  | rejected fault => exact (fail_docket (note _ _) _ _ _ _).trans hp
  | established => exact (handOff_docket (note _ _) _ _ _ _ _).trans hp
  | inProgress => exact (track_docket (openSocket _ _) _ _ _ _ _ _ _).trans hp

theorem attempt_docket (s : State κ τ) (request : Request κ) (reply : Reply) (now : Instant) :
    (s.attempt request reply now).2.docket = s.docket := by
  cases hc : request.continuations? with
  | none =>
    rw [attempt_incomplete hc]
    rfl
  | some c =>
    cases ht : Target.ofRequest request.address request.port with
    | error error =>
      rw [attempt_unusable hc ht]
      exact fail_docket (note _ _) _ _ _ _
    | ok target =>
      rw [attempt_usable hc ht]
      exact dial_docket (s.issue request) _ _ _ _ _ _

theorem resolve_docket (s : State κ τ) (token : Token) (cause : Cause)
    (release : Release) : (s.resolve token cause release).docket = s.docket := by
  cases he : s.entry? token with
  | none => rw [resolve_missing he]
  | some e =>
    have hu : (s.untrack token e release.removal).docket = s.docket := by
      simp only [untrack, Readiness.Watch.remove]
      cases s.watch.selector.deregister e.socket release.removal <;> rfl
    simp only [resolve, he]
    cases cause with
    | established => exact (handOff_docket (note _ _) _ _ _ _ _).trans hu
    | broken fault => exact (fail_docket (closeSocket _ _) _ _ _ _).trans hu
    | timedOut => exact (fail_docket (closeSocket _ _) _ _ _ _).trans hu
    | aborted => exact (fail_docket (closeSocket _ _) _ _ _ _).trans hu

theorem poll_docket (s : State κ τ) (report : Except Fault (List (Token × Verdict))) :
    (s.poll report).2.docket = s.docket := by
  cases report with
  | ok report =>
    exact @foldl_spurious κ τ _ docket (fun _ _ => rfl) (s.spurious report) s
  | error fault =>
    simp only [poll]
    split <;> rfl

theorem abort_docket (s : State κ τ) (order : List Token) :
    (s.abort order).2.docket = s.docket := by
  simp only [abort]
  split <;> rfl

theorem close_docket (s : State κ τ) (order : List Token) :
    (s.close order).docket = s.docket := by
  simp only [close]
  split
  · rfl
  · exact abort_docket _ order

theorem shut_docket (s : State κ τ) : s.shut.docket = s.docket :=
  @foldl_closeSocket κ τ _ docket (fun _ _ => rfl) s.entries s

theorem docket_of_frames {frames : List (Frame κ τ)}
    (hf : frames.filter Frame.isTending = s.nest) :
    ({ s with frames := frames } : State κ τ).docket = s.docket :=
  Prod.ext rfl (Prod.ext rfl hf)

/-! ### What an action does to the tasks -/

/-- What becomes of the drainings and of the tasks that they run. -/
inductive Nests (s : State κ τ) (a : Action κ τ) : List (Frame κ τ) → Prop
  | same (hd : s.drawn? a = none) : Nests s a s.nest
  | enters (ha : a = .drain) : Nests s a (.draining 0 :: s.nest)
  | runs {task : τ} {taken : Nat} {nest : List (Frame κ τ)} (hd : s.drawn? a = some task)
      (hn : s.nest = .draining taken :: nest) :
      Nests s a (.task task :: .draining (taken + 1) :: nest)
  | ends {taken : Nat} {nest : List (Frame κ τ)} (hd : s.drawn? a = none) (hq : s.queue = [])
      (hn : s.nest = .draining taken :: nest) : Nests s a nest
  | returns {task : τ} {panic : Option Panic} {nest : List (Frame κ τ)} (ha : a = .leave panic)
      (hn : s.nest = .task task :: nest) : Nests s a nest
  /-- A panic that throws again when it is got rid of takes more with it than the task. -/
  | breaksOff {text : Option String} {next : Panic} {nest : List (Frame κ τ)}
      (ha : a = .leave (some (.volatile text next))) (hn : nest <:+ s.nest) : Nests s a nest

/-- What an action does to the tasks. -/
structure Tends (s : State κ τ) (a : Action κ τ) (t : State κ τ) : Prop where
  queue : s.queue ++ (s.offered? a).toList = (s.fetched? a).toList ++ t.queue
  started : t.started = s.started ++ (s.drawn? a).toList
  nest : Nests s a t.nest

theorem tends_of_docket (h : t.docket = s.docket) (ho : s.offered? a = none)
    (hf : s.fetched? a = none) (hd : s.drawn? a = none) : Tends s a t := by
  obtain ⟨hq, hs, hn⟩ : t.queue = s.queue ∧ t.started = s.started ∧ t.nest = s.nest := by
    simpa [docket] using h
  exact ⟨by simp [ho, hf, hq], by simp [hd, hs], hn ▸ .same hd⟩

theorem unwind_suffix (panic : Panic) (frames : List (Frame κ τ)) (s : State κ τ) :
    (unwind panic frames s).frames <:+ frames := by
  induction frames generalizing panic s with
  | nil => exact List.suffix_refl _
  | cons f rest ih =>
    have hrest : rest <:+ f :: rest := List.suffix_cons f rest
    cases f with
    | settling batch => exact (ih panic s).trans hrest
    | draining taken => exact (ih panic s).trans hrest
    | closing => exact (ih panic s.shut).trans hrest
    | task job =>
      cases panic with
      | plain text => exact hrest
      | volatile text next => exact (ih next _).trans hrest
    | calling call =>
      cases panic with
      | plain text => exact hrest
      | volatile text next => exact (ih next _).trans hrest

theorem leave_started (s : State κ τ) (panic : Option Panic) :
    (s.leave panic).started = s.started := by
  cases panic with
  | none => rfl
  | some panic =>
    exact unwind_overlooked (fun _ _ _ => rfl) (fun _ _ => rfl) (fun _ _ => rfl)
      (fun s => congrArg (·.2.1) (shut_docket s)) panic s.frames s

theorem tends_leave (hn : s.isForeign) (panic : Option Panic) :
    Tends s (.leave panic) (s.leave panic) := by
  refine ⟨(List.append_nil _).trans (leave_queue s panic).symm,
    (leave_started s panic).trans (List.append_nil _).symm, ?_⟩
  obtain ⟨f, rest, hs, hf⟩ := isForeign_iff.mp hn
  by_cases hp : ∀ text next, panic ≠ some (.volatile text next)
  · have hnest : (s.leave panic).nest = rest.filter Frame.isTending := by
      rw [nest, (leave_innermost hs hf hp).2.1]
    cases f with
    | task task => exact .returns rfl (by rw [nest, hs, hnest]; rfl)
    | calling call =>
      have hsame : (s.leave panic).nest = s.nest := by rw [hnest, nest, hs]; rfl
      exact hsame ▸ .same rfl
    | _ => simp [Frame.isForeign] at hf
  · simp only [ne_eq, not_forall, Decidable.not_not] at hp
    obtain ⟨text, next, rfl⟩ := hp
    exact .breaksOff rfl ((unwind_suffix _ s.frames s).filter _)

theorem tends_advance (hn : ¬ s.isForeign) (release : Release) :
    Tends s (.advance release) (s.advance release) := by
  cases hs : s.frames with
  | nil =>
    have hadv : s.advance release = s := by simp only [advance, hs]
    have hd : s.drawn? (.advance release) = none := by simp only [drawn?, hs]
    exact tends_of_docket (by rw [hadv]) rfl hd hd
  | cons f rest =>
    cases f with
    | settling batch =>
      have hd : s.drawn? (.advance release) = none := by simp only [drawn?, hs]
      have hnest : rest.filter Frame.isTending = s.nest := by rw [nest, hs]; rfl
      refine tends_of_docket ?_ rfl hd hd
      cases batch with
      | nil =>
        have hadv : s.advance release = { s with frames := rest } := by
          simp only [advance, hs]
        rw [hadv]
        exact docket_of_frames hnest
      | cons item batch =>
        have hadv : s.advance release =
            ({ s with frames := .settling batch :: rest } : State κ τ).resolve item.1 item.2
              release := by
          simp only [advance, hs]
        rw [hadv]
        exact (resolve_docket _ _ _ _).trans (docket_of_frames hnest)
    | draining taken =>
      have hnest : s.nest = .draining taken :: rest.filter Frame.isTending := by rw [nest, hs]; rfl
      have hd : s.drawn? (.advance release) = s.takeTask.1 := by simp only [drawn?, hs]
      have hf : s.fetched? (.advance release) = s.takeTask.1 := hd
      cases hq : s.queue with
      | nil =>
        have hadv : s.advance release = { s with frames := rest }.note (.drained taken) := by
          simp only [advance, hs, takeTask_of_nil hq]
        rw [takeTask_of_nil hq] at hd hf
        rw [hadv]
        exact ⟨by rw [hf]; exact List.append_nil _, by rw [hd]; exact (List.append_nil _).symm,
          .ends hd hq hnest⟩
      | cons task tasks =>
        have hadv : s.advance release =
            { s.takeTask.2 with frames := .task task :: .draining (taken + 1) :: rest }.note
              (.started task) := by
          simp only [advance, hs, takeTask_eq hq]
        rw [takeTask_eq hq] at hadv
        rw [takeTask_eq hq] at hd hf
        rw [hadv]
        refine ⟨?_, ?_, .runs hd hnest⟩
        · rw [hf, hq]
          exact List.append_nil _
        · rw [hd]
          exact List.reverse_cons
    | closing =>
      have hd : s.drawn? (.advance release) = none := by simp only [drawn?, hs]
      have hadv : s.advance release = { s.shut with frames := rest } := by
        simp only [advance, hs]
      have hnest : rest.filter Frame.isTending = s.shut.nest := by
        rw [show s.shut.nest = s.nest from congrArg (·.2.2) (shut_docket s), nest, hs]
        rfl
      refine tends_of_docket ?_ rfl hd hd
      rw [hadv, docket_of_frames hnest, shut_docket]
    | task task => simp [isForeign, hs] at hn
    | calling call => simp [isForeign, hs] at hn

theorem tends_enqueue (s : State κ τ) (task : τ) :
    Tends s (.enqueue task) (s.after (.enqueue task)) := by
  cases hs : s.watch.tasks.send task with
  | error back =>
    have hanswer : s.enqueue task = .error back := by
      simp [enqueue, Readiness.Watch.enqueue, hs, Except.map]
    have ho : s.offered? (.enqueue task) = none := by simp [offered?, hanswer, Except.toOption]
    exact tends_of_docket (by simp [after, hanswer, Except.toOption]) ho rfl rfl
  | ok tasks =>
    have hanswer : s.enqueue task = .ok ({ s with watch := { s.watch with
        tasks := tasks, selector := s.watch.selector.raise .wake } }.note (.accepted task)) := by
      simp [enqueue, Readiness.Watch.enqueue, hs, Except.map]
    have ho : s.offered? (.enqueue task) = some task := by simp [offered?, hanswer, Except.toOption]
    have hafter : s.after (.enqueue task) = { s with watch := { s.watch with
        tasks := tasks, selector := s.watch.selector.raise .wake } }.note (.accepted task) := by
      simp [after, hanswer, Except.toOption]
    rw [hafter]
    refine ⟨?_, (List.append_nil _).symm, .same rfl⟩
    rw [ho]
    exact (Channel.queue_of_send hs).symm

theorem tends_takeTask (s : State κ τ) : Tends s .takeTask s.takeTask.2 := by
  cases hq : s.queue with
  | nil =>
    have hf : s.fetched? .takeTask = none := by simp only [fetched?, takeTask_of_nil hq]
    rw [takeTask_of_nil hq]
    exact tends_of_docket rfl rfl hf rfl
  | cons task tasks =>
    have hf : s.fetched? .takeTask = some task := by simp only [fetched?, takeTask_eq hq]
    rw [takeTask_eq hq]
    refine ⟨?_, (List.append_nil _).symm, .same rfl⟩
    rw [hf, hq]
    exact List.append_nil _

/-- Whatever happens to a table, tasks are taken from the front of the queue and left at its back,
and a draining runs what it takes. -/
theorem tends_after (ha : a.Enabled s) : Tends s a (s.after a) := by
  cases a with
  | attempt request reply now =>
    exact tends_of_docket (attempt_docket s request reply now) rfl rfl rfl
  | poll report => exact tends_of_docket (poll_docket s report) rfl rfl rfl
  | abort order => exact tends_of_docket (abort_docket s order) rfl rfl rfl
  | close order => exact tends_of_docket (close_docket s order) rfl rfl rfl
  | drain => exact ⟨List.append_nil _, (List.append_nil _).symm, .enters rfl⟩
  | advance release => exact tends_advance ha.2 release
  | leave panic => exact tends_leave ha panic
  | enqueue task => exact tends_enqueue s task
  | takeTask => exact tends_takeTask s
  | _ => exact tends_of_docket rfl rfl rfl rfl

/-- A task is put on top of those that are run when a draining takes it, and no other ever is. -/
theorem Nests.running (h : Nests s a t.nest) :
    (∀ task, s.drawn? a = some task → t.running = task :: s.running) ∧
      (s.drawn? a = none → t.running <:+ s.running) := by
  generalize hn : t.nest = nest at h
  rw [State.running, State.running, hn]
  cases h with
  | same hd => exact ⟨fun task hs => by simp [hd] at hs, fun _ => List.suffix_refl _⟩
  | enters ha => exact ⟨fun task hs => by simp [ha, drawn?] at hs, fun _ => List.suffix_refl _⟩
  | runs hd hs =>
    rw [hs]
    refine ⟨fun task ht => ?_, fun hnone => by simp [hd] at hnone⟩
    obtain rfl := Option.some.inj (hd.symm.trans ht)
    rfl
  | ends hd hq hs =>
    rw [hs]
    exact ⟨fun task ht => by simp [hd] at ht, fun _ => List.suffix_refl _⟩
  | returns ha hs =>
    rw [hs]
    exact ⟨fun task ht => by simp [ha, drawn?] at ht, fun _ => List.suffix_cons _ _⟩
  | breaksOff ha hs => exact ⟨fun task ht => by simp [ha, drawn?] at ht, fun _ => hs.filterMap _⟩

/-- A draining is over because no task waits, unless a panic goes through it. -/
theorem Nests.drainings (h : Nests s a t.nest) (hlt : t.drainings < s.drainings) :
    s.queue = [] ∨ ∃ text next, a = .leave (some (.volatile text next)) := by
  generalize hn : t.nest = nest at h
  rw [State.drainings, State.drainings, hn] at hlt
  cases h with
  | same hd => exact absurd hlt (Nat.lt_irrefl _)
  | enters ha => exact absurd hlt (Nat.not_lt.mpr (List.sublist_cons_self _ _).countP_le)
  | runs hd hs =>
    rw [hs] at hlt
    exact absurd hlt (Nat.lt_irrefl _)
  | ends hd hq hs => exact .inl hq
  | returns ha hs =>
    rw [hs] at hlt
    exact absurd hlt (Nat.lt_irrefl _)
  | breaksOff ha hs => exact .inr ⟨_, _, ha⟩

/-! ### Sequences of actions -/

/-- What waits, and behind it what is left for the table, is taken in this order, and the rest waits
then. -/
theorem queue_run (hp : s.Possible actions) :
    s.queue ++ s.collect offered? actions =
      s.collect fetched? actions ++ (s.run actions).queue := by
  induction actions generalizing s with
  | nil => exact List.append_nil _
  | cons a rest ih =>
    calc s.queue ++ ((s.offered? a).toList ++ (s.after a).collect offered? rest)
      _ = (s.queue ++ (s.offered? a).toList) ++ (s.after a).collect offered? rest :=
        (List.append_assoc _ _ _).symm
      _ = (s.fetched? a).toList ++ ((s.after a).queue ++ (s.after a).collect offered? rest) := by
        rw [(tends_after hp.1).queue, List.append_assoc]
      _ = (s.fetched? a).toList ++
          ((s.after a).collect fetched? rest ++ ((s.after a).run rest).queue) := by rw [ih hp.2]
      _ = _ := (List.append_assoc _ _ _).symm

theorem started_run (hp : s.Possible actions) :
    (s.run actions).started = s.started ++ s.collect drawn? actions := by
  induction actions generalizing s with
  | nil => exact (List.append_nil _).symm
  | cons a rest ih =>
    calc ((s.after a).run rest).started
      _ = (s.after a).started ++ (s.after a).collect drawn? rest := ih hp.2
      _ = s.started ++ ((s.drawn? a).toList ++ (s.after a).collect drawn? rest) := by
        rw [(tends_after hp.1).started, List.append_assoc]

/-! ### When the table was dropped -/

/-- The table takes no tasks any more once the giving up of it is over, however it ends. -/
theorem Lawful.closing_after (h : Lawful s) (ha : a.Enabled s) (hc : .closing ∈ s.frames) :
    .closing ∈ (s.after a).frames ∨ (s.after a).isClosed := by
  have hbusy : ¬ s.isFree := fun hf =>
    (rests_of_isFree h.ordered.stacked hf).closing_not_mem hc
  cases Meanwhile.of_enabled ha hbusy with
  | advance release hn =>
    rcases h.ordered.stacked.of_closing_mem hc with hs | ⟨batch, hs⟩ | ⟨call, batch, hs⟩
    · exact .inr (h.closed_advance hs release)
    · left
      rcases (h.advance_settling_frames hs release).2 with
        ⟨-, heq⟩ | ⟨batch', hf | ⟨call, hf⟩⟩
      · simp [State.after, heq]
      · simp [State.after, hf]
      · simp [State.after, hf]
    · exact absurd (isForeign_iff.mpr ⟨_, _, hs, rfl⟩) hn
  | leave panic hl =>
    obtain ⟨f, rest, hs, hf⟩ := isForeign_iff.mp hl
    have hne : (.closing : Frame κ τ) ≠ f := by rintro rfl; simp [Frame.isForeign] at hf
    cases panic with
    | none =>
      left
      rw [hs] at hc
      have htail : (s.after (.leave none)).frames = rest := by simp [State.after, State.leave, hs]
      exact htail ▸ (List.mem_cons.mp hc).resolve_left hne
    | some panic =>
      rcases unwind_cases panic s.frames s (fun pre post => h.ordered.stacked.closing_last) with
        ⟨pre, g, hg, hpre, heq, -⟩ | ⟨-, -, -, hin⟩
      · left
        rw [heq, List.mem_append, List.mem_cons] at hc
        rcases hc with hm | rfl | hm
        · exact absurd hm hpre
        · simp [Frame.isForeign] at hg
        · exact hm
      · exact .inr ((hin hc).isClosed h)
  | outside ho =>
    left
    rw [(quiet_outside ho).2.1]
    exact hc

theorem Lawful.closed_run (h : Lawful s) (hp : s.Possible actions) (hc : s.isClosed) :
    (s.run actions).isClosed := by
  induction actions generalizing s with
  | nil => exact hc
  | cons a rest ih =>
    obtain ⟨hl, he⟩ := h.after hp.1
    exact ih hl hp.2 (he.isClosed hc)

theorem Lawful.closing_run (h : Lawful s) (hp : s.Possible actions)
    (hc : .closing ∈ s.frames ∨ s.isClosed) :
    .closing ∈ (s.run actions).frames ∨ (s.run actions).isClosed := by
  induction actions generalizing s with
  | nil => exact hc
  | cons a rest ih =>
    obtain ⟨hl, he⟩ := h.after hp.1
    rcases hc with hm | hk
    · exact ih hl hp.2 (h.closing_after hp.1 hm)
    · exact ih hl hp.2 (.inr (he.isClosed hk))

theorem closing_mem_close (s : State κ τ) (order : List Token) :
    .closing ∈ (s.close order).frames := by
  simp only [close]
  split
  · simp
  · simp [abort_frames]

/-- A table whose giving up was begun and is over takes no tasks. -/
theorem Reachable.closed_of_close (h : Reachable s) (hp : s.Possible actions) {order : List Token}
    (hm : .close order ∈ actions) (hf : (s.run actions).frames = []) :
    (s.run actions).isClosed := by
  obtain ⟨before, rest, rfl⟩ := List.append_of_mem hm
  obtain ⟨hbefore, hclose, hrest⟩ := possible_append.mp hp
  have hl := ((h.run hbefore).step hclose).lawful
  rw [run_append] at hf ⊢
  refine (hl.closing_run hrest (.inl (closing_mem_close _ order))).resolve_left fun hm => ?_
  exact absurd (hf ▸ hm) List.not_mem_nil

theorem enqueue_of_closed (hc : s.isClosed) (task : τ) : s.enqueue task = .error task := by
  have hr : s.watch.tasks.receivers = 0 := isClosed_iff.mp hc
  simp [enqueue, Readiness.Watch.enqueue, Channel.send, hr, Except.map]

end State

end Dialer.InFlight
