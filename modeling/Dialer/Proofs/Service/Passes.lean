import Dialer.Proofs.Service.Worker
import Dialer.Service.Step

/-!
# What a step can do to the service

Every step of every thread is one of a few kinds. Most of them only take one call from one point to
the next; the others start a worker, tell it to come to an end, leave something for it, wait for it,
or are its own. What the laws of the service need of a step is read off its kind.
-/

namespace Dialer.Service

open InFlight.State (Quiet lookup_filter_ne)

variable {κ : Type}

/-- The submission that a call is for, with its request. -/
def Operation.carried? : Operation κ → Option (Nat × Request (Tagged κ))
  | .submit submission request => some (submission, request)
  | _ => none

namespace Point

/-- What a call that has not acted yet is for. -/
def operation? : Point κ → Option (Operation κ)
  | .wanting op => some op
  | .holding op => some op
  | .sending op => some op
  | _ => none

/-- The submission that is neither accepted nor refused yet. -/
def carried? (p : Point κ) : Option (Nat × Request (Tagged κ)) :=
  p.operation?.bind Operation.carried?

end Point

namespace Happening

def accept? : Happening → Option (Nat × Nat)
  | .accepted submission generation => some (submission, generation)
  | _ => none

def refusal? : Happening → Option Nat
  | .refused submission => some submission
  | _ => none

def join? : Happening → Option (Nat × Bool)
  | .joined generation panicked => some (generation, panicked)
  | _ => none

end Happening

namespace State

/-- The submissions that were accepted, each with the generation of the worker it is for. -/
def accepts (s : State κ) : List (Nat × Nat) := s.history.filterMap Happening.accept?

/-- The submissions that were refused. -/
def refusals (s : State κ) : List Nat := s.history.filterMap Happening.refusal?

/-- The workers that a stop found gone, and whether a panic had ended them. -/
def joins (s : State κ) : List (Nat × Bool) := s.history.filterMap Happening.join?

/-- The submission that a thread's call is to settle. -/
def carried? (s : State κ) (thread : Thread) : Option (Nat × Request (Tagged κ)) :=
  (s.point? thread).bind Point.carried?

variable {s t : State κ} {thread : Thread}

/-! ### Runs -/

theorem run_append (s : State κ) (xs ys : List (Label κ)) :
    s.run (xs ++ ys) = (s.run xs).run ys := by
  simp [run]

theorem run_snoc (s : State κ) (labels : List (Label κ)) (l : Label κ) :
    s.run (labels ++ [l]) = (s.run labels).after l := run_append s labels [l]

theorem possible_append {xs ys : List (Label κ)} :
    s.Possible (xs ++ ys) ↔ s.Possible xs ∧ (s.run xs).Possible ys := by
  induction xs generalizing s with
  | nil => simp [Possible, run]
  | cons x xs ih => simp [Possible, ih, and_assoc, run]

theorem possible_snoc {labels : List (Label κ)} {l : Label κ} :
    s.Possible (labels ++ [l]) ↔ s.Possible labels ∧ (s.run labels).Enabled l := by
  simp [possible_append, Possible]

/-! ### Points -/

theorem point?_moveTo (s : State κ) (thread other : Thread) (p : Point κ) :
    (s.moveTo thread p).point? other = if other = thread then some p else s.point? other := by
  simp only [point?, moveTo, List.lookup_append, lookup_filter_ne]
  by_cases h : other = thread
  · simp [h]
  · have hbeq : (other == thread) = false := beq_eq_false_iff_ne.mpr h
    simp [h, List.lookup_cons, hbeq]

theorem point?_returns (s : State κ) (thread other : Thread) (r : Result) :
    (s.returns thread r).point? other = if other = thread then none else s.point? other :=
  lookup_filter_ne s.calls thread other

theorem mem_calls_of_point? {p : Point κ} (h : s.point? thread = some p) :
    (thread, p) ∈ s.calls := by
  obtain ⟨xs, ys, heq, -⟩ := List.lookup_eq_some_iff.mp h
  simp [heq]

theorem held_of_point? {p : Point κ} {access : Access} (h : s.point? thread = some p)
    (ha : p.held? = some access) : access ∈ s.held :=
  List.mem_filterMap.mpr ⟨(thread, p), mem_calls_of_point? h, ha⟩

/-- Only the call of one thread went on. -/
def Moves (s : State κ) (thread : Thread) (q : Option (Point κ)) (t : State κ) : Prop :=
  ∀ other, t.point? other = if other = thread then q else s.point? other

/-! ### Kinds of steps -/

/-- Nothing that concerns the worker differs. -/
structure Still (s t : State κ) : Prop where
  lifecycle : t.lifecycle = s.lifecycle
  worker : t.worker = s.worker
  generations : t.generations = s.generations
  quiet : Quiet s.table t.table
  frames : t.table.frames = s.table.frames
  queue : t.table.queue = s.table.queue
  joins : t.joins = s.joins

/-- Nothing that concerns submissions differs. -/
structure Unbooked (s t : State κ) : Prop where
  submissions : t.submissions = s.submissions
  accepts : t.accepts = s.accepts
  refusals : t.refusals = s.refusals

/-- The point that a call comes to while nothing happens to the worker. -/
inductive Follows (s : State κ) (thread : Thread) : Option (Point κ) → Prop
  | begins {op : Operation κ} (hn : s.point? thread = none) (hh : s.handles ≠ 0)
      (hw : thread = .worker → s.isForeign ∧ op ≠ .stop) : Follows s thread (some (.wanting op))
  | locks {op : Operation κ} (hp : s.point? thread = some (.wanting op))
      (hf : s.isFree op.access) : Follows s thread (some (.holding op))
  | sends {op : Operation κ} (hp : s.point? thread = some (.holding op))
      (ha : op.access = .shared) (hr : s.lifecycle = .running) :
      Follows s thread (some (.sending op))
  | leaves {op : Operation κ} {result : Result}
      (hp : s.point? thread = some (.holding op) ∨
        (s.point? thread = some (.sending op) ∧ op.access = .shared)) :
      Follows s thread (some (.leaving op.access result))
  | ends (hp : (s.point? thread = none ∧ s.handles ≠ 0) ∨
      (∃ op, s.point? thread = some (.wanting op) ∧ op.access = .shared) ∨
        ∃ access result, s.point? thread = some (.leaving access result)) : Follows s thread none

/-- What is put down of a submission while nothing happens to the worker. -/
inductive Files (s : State κ) (thread : Thread) (q : Option (Point κ)) (t : State κ) : Prop
  | keeps (hb : Unbooked s t)
      (hq : q.bind Point.carried? = s.carried? thread)
  | opens {request : Request κ} (hq : q = some (.wanting (.submit s.submissions
        (tag s.submissions request)))) (hc : request.refusal? = none)
      (hs : t.submissions = s.submissions + 1) (ha : t.accepts = s.accepts)
      (hr : t.refusals = s.refusals)
  | refuses {n : Nat} (hq : q.bind Point.carried? = none)
      (hn : ((∃ request, s.carried? thread = some (n, request)) ∧
          t.submissions = s.submissions) ∨
        (s.carried? thread = none ∧ n = s.submissions ∧ t.submissions = s.submissions + 1))
      (ha : t.accepts = s.accepts) (hr : t.refusals = n :: s.refusals)

/-- A worker was started. -/
structure Launched (s : State κ) (thread : Thread) (t : State κ) : Prop where
  point : s.point? thread = some (.holding .start)
  idle : s.lifecycle ≠ .running
  moves : Moves s thread (some (.leaving .exclusive .done)) t
  lifecycle : t.lifecycle = .running
  worker : t.worker = some { generation := s.generations }
  generations : t.generations = s.generations + 1
  table : t.table = s.freshTable
  joins : t.joins = s.joins
  books : Unbooked s t

/-- The service was stopped, but the worker does not know yet. -/
structure Halted (s : State κ) (thread : Thread) (t : State κ) : Prop where
  point : s.point? thread = some (.holding .stop)
  running : s.lifecycle = .running
  moves : Moves s thread (some (.sending .stop)) t
  lifecycle : t.lifecycle = .stopped
  worker : t.worker = s.worker
  generations : t.generations = s.generations
  table : t.table = s.table
  joins : t.joins = s.joins
  books : Unbooked s t

/-- A job was left for the worker, whose queue takes jobs. -/
structure Posted (s : State κ) (job : Job κ) (t : State κ) : Prop where
  opened : ¬ s.table.isClosed
  lifecycle : t.lifecycle = s.lifecycle
  worker : t.worker = s.worker
  generations : t.generations = s.generations
  quiet : Quiet s.table t.table
  frames : t.table.frames = s.table.frames
  queue : t.table.queue = s.table.queue ++ [job]
  joins : t.joins = s.joins

/-- The worker was told to come to an end without a job, since its queue takes none. -/
structure Lowered (s t : State κ) : Prop where
  closed : s.table.isClosed
  lifecycle : t.lifecycle = s.lifecycle
  worker : t.worker = s.worker.map fun w => { w with flag := false }
  generations : t.generations = s.generations
  table : t.table = s.table
  joins : t.joins = s.joins
  books : Unbooked s t

/-- A stop found the worker gone. -/
structure Joined (s : State κ) (thread : Thread) (t : State κ) : Prop where
  point : s.point? thread = some .joining
  gone : s.isWorkerGone
  moves : Moves s thread (some (.leaving .exclusive .done)) t
  lifecycle : t.lifecycle = s.lifecycle
  worker : t.worker = s.worker
  generations : t.generations = s.generations
  table : t.table = s.dropJobs.table
  joins : t.joins = (s.worker.map fun w => (w.generation, w.panicked)).toList ++ s.joins
  books : Unbooked s t

/-- The last handle went on the worker's own thread, while no call was under way. -/
structure Abandoned (s t : State κ) : Prop where
  free : ∀ thread, s.point? thread = none
  foreign : s.isForeign
  points : ∀ thread, t.point? thread = none
  handles : t.handles = 0
  lifecycle : t.lifecycle = if s.lifecycle = .running then .stopped else s.lifecycle
  worker : t.worker =
    if s.lifecycle = .running then s.worker.map fun w => { w with flag := false } else s.worker
  generations : t.generations = s.generations
  quiet : Quiet s.table t.table
  frames : t.table.frames = s.table.frames
  queue : t.table.queue = s.table.queue
  joins : t.joins = s.joins
  books : Unbooked s t

/-- The worker made a step of its own. What is left in its queue may be dropped with its table. -/
structure Worked (s t : State κ) : Prop where
  away : s.isForeign → s.point? .worker = none
  points : ∀ thread, t.point? thread = s.point? thread
  handles : t.handles = s.handles
  lifecycle : t.lifecycle = s.lifecycle
  generations : t.generations = s.generations
  joins : t.joins = s.joins
  books : Unbooked s t
  step : ∃ w d, s.worker = some w ∧ t.worker = some d.worker ∧
    Duty.Sound d ∧ Duty.Progress ⟨s.table, w⟩ d ∧ (w.stage = .gone → d = ⟨s.table, w⟩) ∧
      (t.table = d.table ∨
        (d.table.isClosed ∧ t.table = ({ s with table := d.table }).dropJobs.table))

/-- What a step comes to. -/
inductive Passes (s t : State κ) : Prop
  | call {thread : Thread} {q : Option (Point κ)} (hm : Moves s thread q t) (hs : Still s t)
      (hf : Follows s thread q) (hb : Files s thread q t)
  | launched {thread : Thread} (h : Launched s thread t)
  | halted {thread : Thread} (h : Halted s thread t)
  | accepted {thread : Thread} {n : Nat} {request : Request (Tagged κ)}
      (hp : s.point? thread = some (.sending (.submit n request)))
      (hm : Moves s thread (some (.leaving .shared .done)) t) (h : Posted s (.dial request) t)
      (hs : t.submissions = s.submissions) (ha : t.accepts = (n, s.generation) :: s.accepts)
      (hr : t.refusals = s.refusals)
  | posted {thread : Thread} {channel : Nat} {result : Result}
      (hp : s.point? thread = some (.sending (.monitor channel)))
      (hm : Moves s thread (some (.leaving .shared result)) t) (h : Posted s (.watchOn channel) t)
      (hb : Unbooked s t)
  | signalled {thread : Thread} (hp : s.point? thread = some (.sending .stop))
      (hm : Moves s thread (some .joining) t) (h : Posted s .halt t) (hb : Unbooked s t)
  | lowered {thread : Thread} (hp : s.point? thread = some (.sending .stop))
      (hm : Moves s thread (some .joining) t) (h : Lowered s t)
  | joined {thread : Thread} (h : Joined s thread t)
  | abandoned (h : Abandoned s t)
  | worked (h : Worked s t)
  | outside (hp : ∀ thread, t.point? thread = s.point? thread) (hh : t.handles = s.handles)
      (hs : Still s t) (hb : Unbooked s t)

/-! ### Every step is of a kind -/

namespace Still

theorem refl (s : State κ) : Still s s := ⟨rfl, rfl, rfl, .refl _, rfl, rfl, rfl⟩

theorem moveTo (h : Still s t) (thread : Thread) (p : Point κ) : Still s (t.moveTo thread p) :=
  ⟨h.lifecycle, h.worker, h.generations, h.quiet, h.frames, h.queue, h.joins⟩

theorem note (h : Still s t) {x : Happening} (hx : x.join? = none) : Still s (t.note x) :=
  ⟨h.lifecycle, h.worker, h.generations, h.quiet, h.frames, h.queue,
    (List.filterMap_cons_none hx).trans h.joins⟩

theorem returns (h : Still s t) (thread : Thread) (result : Result) :
    Still s (t.returns thread result) :=
  ⟨h.lifecycle, h.worker, h.generations, h.quiet, h.frames, h.queue, h.joins⟩

theorem withSlot (h : Still s t) (slot : Option Nat) : Still s { t with slot := slot } :=
  ⟨h.lifecycle, h.worker, h.generations, h.quiet, h.frames, h.queue, h.joins⟩

theorem withHandles (h : Still s t) (n : Nat) : Still s { t with handles := n } :=
  ⟨h.lifecycle, h.worker, h.generations, h.quiet, h.frames, h.queue, h.joins⟩

theorem withSubmissions (h : Still s t) (n : Nat) : Still s { t with submissions := n } :=
  ⟨h.lifecycle, h.worker, h.generations, h.quiet, h.frames, h.queue, h.joins⟩

theorem withTable {table : Table κ} (hq : Quiet s.table table) (hf : table.frames = s.table.frames)
    (hqueue : table.queue = s.table.queue) : Still s { s with table := table } :=
  ⟨rfl, rfl, rfl, hq, hf, hqueue, rfl⟩

end Still

namespace Unbooked

theorem of_history (hs : t.submissions = s.submissions) (hh : t.history = s.history) :
    Unbooked s t :=
  ⟨hs, congrArg (List.filterMap Happening.accept?) hh,
    congrArg (List.filterMap Happening.refusal?) hh⟩

theorem note (h : Unbooked s t) {x : Happening} (ha : x.accept? = none) (hr : x.refusal? = none) :
    Unbooked s (t.note x) :=
  ⟨h.submissions, (List.filterMap_cons_none ha).trans h.accepts,
    (List.filterMap_cons_none hr).trans h.refusals⟩

theorem refl (s : State κ) : Unbooked s s := .of_history rfl rfl

theorem moveTo (h : Unbooked s t) (thread : Thread) (p : Point κ) :
    Unbooked s (t.moveTo thread p) :=
  ⟨h.submissions, h.accepts, h.refusals⟩

theorem returns (h : Unbooked s t) (thread : Thread) (result : Result) :
    Unbooked s (t.returns thread result) :=
  ⟨h.submissions, h.accepts, h.refusals⟩

end Unbooked

theorem carried?_of_point? {p : Option (Point κ)} (hp : s.point? thread = p) :
    s.carried? thread = p.bind Point.carried? := by
  rw [carried?, hp]

theorem passes_of_moveTo {p : Point κ} {u : State κ} (hc : u.calls = s.calls) (hs : Still s u)
    (hf : Follows s thread (some p)) (hb : Files s thread (some p) (u.moveTo thread p)) :
    Passes s (u.moveTo thread p) := by
  refine .call (fun other => ?_) (hs.moveTo thread p) hf hb
  rw [point?_moveTo, point?, point?, hc]

theorem passes_of_returns {u : State κ} {result : Result} (hc : u.calls = s.calls) (hs : Still s u)
    (hf : Follows s thread none) (hb : Files s thread none (u.returns thread result)) :
    Passes s (u.returns thread result) := by
  refine .call (fun other => ?_) (hs.returns thread result) hf hb
  rw [point?_returns, point?, point?, hc]

theorem passes_of_begin {op : Operation κ} {u : State κ} (hn : s.point? thread = none)
    (hh : s.handles ≠ 0) (hw : thread = .worker → s.isForeign ∧ op ≠ .stop)
    (hc : u.calls = s.calls) (hs : Still s u) (hb : Unbooked s u) (ho : op.carried? = none) :
    Passes s (u.moveTo thread (.wanting op)) :=
  passes_of_moveTo hc hs (.begins hn hh hw)
    (.keeps (hb.moveTo _ _) (ho.trans (carried?_of_point? hn).symm))

theorem passes_of_end {u : State κ} {result : Result} (hn : s.point? thread = none)
    (hh : s.handles ≠ 0) (hc : u.calls = s.calls) (hs : Still s u) (hb : Unbooked s u) :
    Passes s (u.returns thread result) :=
  passes_of_returns hc hs (.ends (.inl ⟨hn, hh⟩))
    (.keeps (hb.returns _ _) (carried?_of_point? hn).symm)

theorem passes_releaseLast (hcan : s.canCall thread) (hh : s.handles = 1) (hc : s.calls = []) :
    Passes s ({ s with handles := 0 }.releaseLast thread) := by
  have hfree : ∀ other, s.point? other = none := fun other => by simp [point?, hc]
  simp only [canCall, Bool.and_eq_true, Bool.or_eq_true] at hcan
  cases thread with
  | caller n =>
    exact passes_of_begin (u := { s with handles := 0 }) (hfree _) (by simp [hh])
      (fun h => by simp at h) rfl (.withHandles (.refl s) 0) (.of_history rfl rfl) rfl
  | worker =>
    have hforeign : s.isForeign := by simpa using hcan.2
    have hgone : ∀ u : State κ, u.calls = s.calls → ∀ other,
        (u.returns .worker .done).point? other = none := by
      intro u hu other
      rw [point?_returns, point?, hu, hc]
      simp
    by_cases hl : s.lifecycle = .running
    · simp only [releaseLast, hl, ↓reduceIte]
      exact .abandoned
        { free := hfree
          foreign := hforeign
          points := hgone _ rfl
          handles := rfl
          lifecycle := (if_pos hl).symm
          worker := (if_pos hl).symm
          generations := rfl
          quiet := .withWatch s.table rfl rfl rfl
          frames := rfl
          queue := rfl
          joins := rfl
          books := ⟨rfl, rfl, rfl⟩ }
    · simp only [releaseLast, hl, ↓reduceIte]
      exact .abandoned
        { free := hfree
          foreign := hforeign
          points := hgone _ rfl
          handles := rfl
          lifecycle := (if_neg hl).symm
          worker := (if_neg hl).symm
          generations := rfl
          quiet := .refl s.table
          frames := rfl
          queue := rfl
          joins := rfl
          books := ⟨rfl, rfl, rfl⟩ }

theorem passes_begin {call : Call κ} (he : s.Allows (.begin thread call)) :
    Passes s (s.begin thread call) := by
  obtain ⟨hcan, hh, hcall⟩ := he
  have hcan' := hcan
  simp only [canCall, Bool.and_eq_true, Option.isNone_iff_eq_none, Bool.or_eq_true, bne_iff_ne,
    ne_eq] at hcan'
  obtain ⟨hn, hforeign⟩ := hcan'
  have hworker : ∀ op : Operation κ, op ≠ .stop → thread = .worker → s.isForeign ∧ op ≠ .stop :=
    fun op ho ht => ⟨hforeign.resolve_left fun h => h ht, ho⟩
  have hasks : ∀ op : Operation κ, op ≠ .stop → op.carried? = none →
      Passes s (s.moveTo thread (.wanting op)) :=
    fun op ho hop => passes_of_begin hn hh (hworker op ho) rfl (.refl s) (.refl s) hop
  have hends : ∀ result, Passes s (s.returns thread result) :=
    fun result => passes_of_end hn hh rfl (.refl s) (.refl s)
  cases call with
  | submit request =>
    have hcounted : Still s { s with submissions := s.submissions + 1 } :=
      .withSubmissions (.refl s) _
    cases hr : request.refusal? with
    | some failure =>
      simp only [begin, hr]
      exact passes_of_returns rfl (hcounted.note rfl) (.ends (.inl ⟨hn, hh⟩))
        (.refuses rfl (.inr ⟨carried?_of_point? hn, rfl, rfl⟩) rfl rfl)
    | none =>
      simp only [begin, hr]
      exact passes_of_moveTo rfl hcounted (.begins hn hh (hworker _ (by simp)))
        (.opens rfl hr rfl rfl rfl)
  | monitor =>
    simp only [begin]
    split
    · exact passes_of_begin (u := { s with table := s.table.after .openChannel }) hn hh
        (hworker _ (by simp)) rfl (.withTable (.withChannels _ _) rfl rfl) (.of_history rfl rfl) rfl
    · exact hends _
  | lifecycle => exact hasks _ (by simp) rfl
  | isRunning => exact hasks _ (by simp) rfl
  | start => exact hasks _ (by simp) rfl
  | stop =>
    by_cases ht : thread = .worker
    · simp only [begin, ht, ↓reduceIte]
      exact passes_of_end (ht ▸ hn) hh rfl (.note (.refl s) rfl) (.note (.refl s) rfl rfl)
    · simp only [begin, ht, ↓reduceIte]
      exact passes_of_begin hn hh (fun h => absurd h ht) rfl (.refl s) (.refl s) rfl
  | retain =>
    exact passes_of_end (u := { s with handles := s.handles + 1 }) hn hh rfl
      (.withHandles (.refl s) _) (.of_history rfl rfl)
  | release =>
    by_cases hlast : s.handles = 1
    · have hzero : s.handles - 1 = 0 := by omega
      simp only [begin, hzero, ↓reduceIte]
      exact passes_releaseLast hcan hlast (hcall hlast)
    · have hsome : s.handles - 1 ≠ 0 := by omega
      simp only [begin, hsome, ↓reduceIte]
      exact passes_of_end (u := { s with handles := s.handles - 1 }) hn hh rfl
        (.withHandles (.refl s) _) (.of_history rfl rfl)

theorem passes_of_leave (op : Operation κ) {u : State κ} {result : Result}
    (hp : s.point? thread = some (.holding op) ∨
      (s.point? thread = some (.sending op) ∧ op.access = .shared))
    (hc : u.calls = s.calls) (hs : Still s u) (hb : Unbooked s u) (ho : op.carried? = none) :
    Passes s (u.moveTo thread (.leaving op.access result)) := by
  refine passes_of_moveTo hc hs (.leaves hp) (.keeps (hb.moveTo _ _) ?_)
  rcases hp with hp | ⟨hp, -⟩ <;> exact (ho.symm.trans (carried?_of_point? hp).symm)

theorem passes_of_refuse {n : Nat} {request : Request (Tagged κ)} {u : State κ} {result : Result}
    (hp : s.point? thread = some (.holding (.submit n request)) ∨
      s.point? thread = some (.sending (.submit n request)))
    (hc : u.calls = s.calls) (hs : Still s u) (hb : Unbooked s u) :
    Passes s ((u.note (.refused n)).moveTo thread (.leaving .shared result)) := by
  have hcarried : s.carried? thread = some (n, request) := by
    rcases hp with hp | hp <;> exact carried?_of_point? hp
  have hleaves : Follows s thread (some (.leaving (Operation.submit n request).access result)) :=
    .leaves (hp.imp_right fun h => ⟨h, rfl⟩)
  refine passes_of_moveTo hc (hs.note rfl) hleaves
    (.refuses rfl (.inl ⟨⟨request, hcarried⟩, hb.submissions⟩) hb.accepts ?_)
  exact congrArg (n :: ·) hb.refusals

theorem passes_of_send {op : Operation κ} {u : State κ}
    (hp : s.point? thread = some (.holding op)) (ha : op.access = .shared)
    (hr : s.lifecycle = .running) (hc : u.calls = s.calls) (hs : Still s u) (hb : Unbooked s u) :
    Passes s (u.moveTo thread (.sending op)) :=
  passes_of_moveTo hc hs (.sends hp ha hr)
    (.keeps (hb.moveTo _ _) (carried?_of_point? hp).symm)

theorem passes_look {op : Operation κ} (hp : s.point? thread = some (.holding op))
    (grant : Grant) : Passes s (s.look thread grant op) := by
  cases op with
  | submit n request =>
    simp only [look]
    split
    · next h => exact passes_of_send hp rfl h.1 rfl (.refl s) (.refl s)
    · exact passes_of_refuse (.inl hp) rfl (.refl s) (.refl s)
  | monitor channel =>
    have hkept : Still s { s with slot := some channel } := .withSlot (.refl s) _
    simp only [look]
    split
    · next h => exact passes_of_send hp rfl h rfl hkept (.of_history rfl rfl)
    · exact passes_of_leave (.monitor channel) (.inl hp) rfl hkept (.of_history rfl rfl) rfl
  | lifecycle => exact passes_of_leave .lifecycle (.inl hp) rfl (.refl s) (.refl s) rfl
  | isRunning => exact passes_of_leave .isRunning (.inl hp) rfl (.refl s) (.refl s) rfl
  | start =>
    have hleave : ∀ result, Passes s (s.moveTo thread (.leaving .exclusive result)) :=
      fun result => passes_of_leave .start (.inl hp) rfl (.refl s) (.refl s) rfl
    simp only [look]
    split
    · exact hleave _
    · next hl =>
      unfold tryLaunch
      split
      · exact hleave _
      · split
        · exact hleave _
        · split
          · exact hleave _
          · exact .launched
              { point := hp
                idle := hl
                moves := (point?_moveTo _ _ · _)
                lifecycle := rfl
                worker := rfl
                generations := rfl
                table := rfl
                joins := rfl
                books := .of_history rfl rfl }
  | stop =>
    simp only [look]
    split
    · next hl =>
      exact .halted
        { point := hp
          running := hl
          moves := (point?_moveTo _ _ · _)
          lifecycle := rfl
          worker := rfl
          generations := rfl
          table := rfl
          joins := rfl
          books := .of_history rfl rfl }
    · exact passes_of_leave .stop (.inl hp) rfl (.refl s) (.refl s) rfl

theorem enqueue_cases (s : State κ) (job : Job κ) :
    (s.enqueue job = .ok { s with table := s.table.after (.enqueue job) } ∧
        Posted s job { s with table := s.table.after (.enqueue job) }) ∨
      (s.enqueue job = .error job ∧ s.table.isClosed) := by
  by_cases hc : s.table.isClosed
  · have hr := InFlight.State.isClosed_iff.mp hc
    refine .inr ⟨?_, hc⟩
    simp [enqueue, InFlight.State.enqueue, Readiness.Watch.enqueue, Channel.send, hr, Except.map]
  · have hr : s.table.watch.tasks.receivers ≠ 0 := fun h => hc (InFlight.State.isClosed_iff.mpr h)
    have heq : s.enqueue job = .ok { s with table := s.table.after (.enqueue job) } := by
      simp [enqueue, InFlight.State.after, InFlight.State.enqueue, Readiness.Watch.enqueue,
        Channel.send, hr, Except.map, Except.toOption]
    obtain ⟨hq, hf⟩ := InFlight.State.quiet_enqueue s.table job
    exact .inl ⟨heq, ⟨hc, rfl, rfl, rfl, hq, hf, InFlight.State.enqueue_queue hc job, rfl⟩⟩

theorem passes_outside_refl (s : State κ) : Passes s s :=
  .outside (fun _ => rfl) rfl (.refl s) (.refl s)

theorem Posted.moveTo {job : Job κ} (h : Posted s job t) (thread : Thread) (p : Point κ) :
    Posted s job (t.moveTo thread p) :=
  ⟨h.opened, h.lifecycle, h.worker, h.generations, h.quiet, h.frames, h.queue, h.joins⟩

theorem Posted.note {job : Job κ} (h : Posted s job t) {x : Happening} (hx : x.join? = none) :
    Posted s job (t.note x) :=
  ⟨h.opened, h.lifecycle, h.worker, h.generations, h.quiet, h.frames, h.queue,
    (List.filterMap_cons_none hx).trans h.joins⟩

theorem passes_send {op : Operation κ} (hp : s.point? thread = some (.sending op)) :
    Passes s (s.send thread op) := by
  cases op with
  | submit n request =>
    rcases enqueue_cases s (.dial request) with ⟨heq, h⟩ | ⟨heq, -⟩
    · simp only [send, heq]
      exact .accepted hp (point?_moveTo _ _ · _) ((h.note rfl).moveTo _ _) rfl rfl rfl
    · simp only [send, heq]
      exact passes_of_refuse (.inr hp) rfl (.note (.refl s) rfl) (.note (.refl s) rfl rfl)
  | monitor channel =>
    rcases enqueue_cases s (.watchOn channel) with ⟨heq, h⟩ | ⟨heq, -⟩
    · simp only [send, heq, Except.toOption, Option.getD_some]
      exact .posted hp (point?_moveTo _ _ · _) (h.moveTo _ _) (.of_history rfl rfl)
    · simp only [send, heq, Except.toOption, Option.getD_none]
      exact passes_of_leave (.monitor channel) (.inr ⟨hp, rfl⟩) rfl (.refl s) (.refl s) rfl
  | stop =>
    rcases enqueue_cases s .halt with ⟨heq, h⟩ | ⟨heq, hc⟩
    · simp only [send, heq]
      exact .signalled hp (point?_moveTo _ _ · _) (h.moveTo _ _) (.of_history rfl rfl)
    · simp only [send, heq]
      exact .lowered hp (point?_moveTo _ _ · _)
        { closed := hc
          lifecycle := rfl
          worker := rfl
          generations := rfl
          table := rfl
          joins := rfl
          books := .of_history rfl rfl }
  | lifecycle => exact passes_outside_refl s
  | isRunning => exact passes_outside_refl s
  | start => exact passes_outside_refl s

theorem passes_join (hp : s.point? thread = some .joining) (hg : s.isWorkerGone) :
    Passes s (s.join thread) := by
  cases hw : s.worker with
  | none =>
    simp only [join, hw]
    exact .joined
      { point := hp
        gone := hg
        moves := (point?_moveTo _ _ · _)
        lifecycle := rfl
        worker := rfl
        generations := rfl
        table := rfl
        joins := by rw [hw]; rfl
        books := .of_history rfl rfl }
  | some w =>
    simp only [join, hw]
    exact .joined
      { point := hp
        gone := hg
        moves := (point?_moveTo _ _ · _)
        lifecycle := rfl
        worker := rfl
        generations := rfl
        table := rfl
        joins := by rw [hw]; rfl
        books := ⟨rfl, rfl, rfl⟩ }

theorem passes_proceed (hc : s.canProceed thread) (grant : Grant) :
    Passes s (s.proceed thread grant) := by
  unfold canProceed at hc
  unfold proceed
  cases hp : s.point? thread with
  | none => simp [hp] at hc
  | some p =>
    cases p with
    | wanting op =>
      exact passes_of_moveTo rfl (.refl s) (.locks hp (by simpa [hp] using hc))
        (.keeps (.moveTo (.refl s) _ _) (carried?_of_point? hp).symm)
    | holding op => exact passes_look hp grant
    | sending op => exact passes_send hp
    | joining => exact passes_join hp (by simpa [hp] using hc)
    | leaving access result =>
      have hends : Follows s thread none := .ends (.inr (.inr ⟨access, result, hp⟩))
      have hcarried : none = s.carried? thread := (carried?_of_point? hp).symm
      simp only [finish]
      split
      · have hb : Unbooked s { s with slot := none } := .of_history rfl rfl
        exact passes_of_returns rfl (.withSlot (.refl s) none) hends
          (.keeps (hb.returns _ _) hcarried)
      · exact passes_of_returns rfl (.refl s) hends (.keeps (.returns (.refl s) _ _) hcarried)

theorem passes_giveUp (hc : s.canGiveUp) : Passes s s.giveUp := by
  unfold canGiveUp at hc
  unfold giveUp
  cases hp : s.point? .worker with
  | none => simp [hp] at hc
  | some p =>
    cases p with
    | wanting op =>
      have ha : op.access = .shared := by
        rw [hp] at hc
        simp only [Bool.and_eq_true, decide_eq_true_eq] at hc
        exact hc.1
      have hends : Follows s .worker none := .ends (.inr (.inl ⟨op, hp, ha⟩))
      have hquits : op.carried? = none → ∀ result, Passes s (s.returns .worker result) :=
        fun ho result => passes_of_returns rfl (.refl s) hends
          (.keeps (.returns (.refl s) _ _) (ho.symm.trans (carried?_of_point? hp).symm))
      cases op with
      | submit n request =>
        exact passes_of_returns rfl (.note (.refl s) rfl) hends
          (.refuses rfl (.inl ⟨⟨request, carried?_of_point? hp⟩, rfl⟩) rfl rfl)
      | monitor channel =>
        have hb : Unbooked s { s with slot := some channel } := .of_history rfl rfl
        exact passes_of_returns rfl (.withSlot (.refl s) (some channel)) hends
          (.keeps (hb.returns _ _) (carried?_of_point? hp).symm)
      | lifecycle => exact hquits rfl _
      | isRunning => exact hquits rfl _
      | start => simp [Operation.access] at ha
      | stop => simp [Operation.access] at ha
    | holding op => simp [hp] at hc
    | sending op => simp [hp] at hc
    | joining => simp [hp] at hc
    | leaving access result => simp [hp] at hc

theorem passes_onDuty {w : Worker} (hw : s.worker = some w) (change : Duty κ → Duty κ)
    (ha : s.isForeign → s.point? .worker = none)
    (hg : w.stage = .gone → change ⟨s.table, w⟩ = ⟨s.table, w⟩)
    (hd : Duty.Sound (change ⟨s.table, w⟩) ∧ Duty.Progress ⟨s.table, w⟩ (change ⟨s.table, w⟩)) :
    Passes s (s.onDuty change) := by
  have hduty : s.onDuty change =
      if s.handles = 0 ∧ (change ⟨s.table, w⟩).table.isClosed then
        { s with table := (change ⟨s.table, w⟩).table
                 worker := some (change ⟨s.table, w⟩).worker }.dropJobs
      else { s with table := (change ⟨s.table, w⟩).table
                    worker := some (change ⟨s.table, w⟩).worker } := by
    simp only [onDuty, hw]
  rw [hduty]
  split
  · next hc =>
    exact .worked ⟨ha, fun _ => rfl, rfl, rfl, rfl, rfl, ⟨rfl, rfl, rfl⟩,
      w, change ⟨s.table, w⟩, hw, rfl, hd.1, hd.2, hg, .inr ⟨hc.2, rfl⟩⟩
  · exact .worked ⟨ha, fun _ => rfl, rfl, rfl, rfl, rfl, ⟨rfl, rfl, rfl⟩,
      w, change ⟨s.table, w⟩, hw, rfl, hd.1, hd.2, hg, .inl rfl⟩

theorem passes_outside {table : Table κ} (hq : Quiet s.table table)
    (hf : table.frames = s.table.frames) (hqueue : table.queue = s.table.queue) :
    Passes s { s with table := table } :=
  .outside (fun _ => rfl) rfl (.withTable hq hf hqueue) (.of_history rfl rfl)

/-- Every step that can happen is of one of the kinds. -/
theorem passes_after {l : Label κ} (hs : ∀ w, s.worker = some w → Duty.Sound ⟨s.table, w⟩)
    (he : s.Enabled l) : Passes s (s.after l) := by
  obtain ⟨hdead, he⟩ := he
  have hd : ∀ w, s.worker = some w → w.stage ≠ .dead := by
    intro w hw hst
    simp [isDead, hw, hst] at hdead
  cases l with
  | begin thread call => exact passes_begin he
  | proceed thread grant => exact passes_proceed he grant
  | giveUp => exact passes_giveUp he
  | work answers =>
    cases hw : s.worker with
    | none => simp [Allows, canWork, hw] at he
    | some w =>
      have hcan : (Duty.mk s.table w).canWork := by simpa [Allows, canWork, hw] using he
      have hn : ¬ s.isForeign := by
        simp only [isForeign, hw]
        exact Duty.not_isForeign_of_canWork hcan
      exact passes_onDuty hw (fun d => d.work answers) (fun h => absurd h hn)
        (fun hg => (hs w hw).staged.work_of_gone hg answers) ((hs w hw).work (hd w hw) hcan answers)
  | leave panic =>
    cases hw : s.worker with
    | none => simp [Allows, isForeign, hw] at he
    | some w =>
      have hforeign : (Duty.mk s.table w).isForeign := by simpa [isForeign, hw] using he.1
      exact passes_onDuty hw (fun d => d.leave panic)
        (fun _ => Option.isNone_iff_eq_none.mp he.2)
        (fun hg => absurd hforeign ((hs w hw).staged.not_isForeign_of_gone hg))
        ((hs w hw).leave hforeign panic)
  | becomeReady socket =>
    exact passes_outside (InFlight.State.quiet_becomeReady s.table socket) rfl rfl
  | addReceiver channel =>
    exact passes_outside (.withChannels s.table _) rfl rfl
  | dropReceiver channel =>
    exact passes_outside (.withChannels s.table _) rfl rfl
  | receive channel =>
    exact passes_outside (.withChannels s.table _) rfl rfl

end State

end Dialer.Service
