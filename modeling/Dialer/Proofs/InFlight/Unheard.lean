import Dialer.Proofs.InFlight.Detaching
import Dialer.Proofs.InFlight.Hushed
import Mathlib.Data.List.DropRight

/-!
# Listening changes nothing

A run of a table in which events are published, channels attached and receivers dropped is the run
without any of that, with steps in between that are about listeners alone. Those steps leave what
the other steps depend on as it was, so that the same things happen to the attempts in both. And a
channel that lost its receivers stays attached until the next event and not after it.
-/

namespace Dialer.InFlight

open Readiness (Token)

variable {κ τ : Type} (attaches : τ → Bool)

deriving instance DecidableEq for Action

/-- Whether an action is about listeners alone, wherever it happens. -/
def Action.isAside : Action κ τ → Bool
  | .watchOn _ | .openChannel | .addReceiver _ | .dropReceiver _ | .receive _ => true
  | .enqueue task => attaches task
  | _ => false

/-- What can happen while a task runs that only attaches a channel. It returns. -/
def Action.isApart : Action κ τ → Bool
  | .watchOn _ | .openChannel | .addReceiver _ | .dropReceiver _ | .receive _ => true
  | .enqueue _ | .becomeReady _ => true
  | .leave panic => panic.isNone
  | _ => false

namespace State

/-- Whether a task runs that only attaches a channel. -/
def isAttaching (s : State κ τ) : Bool := s.frames.head?.any (Frame.isAttaching attaches)

/-- Whether an action is about listeners alone: so are the beginning and the end of a task that only
attaches a channel. -/
def isAside (s : State κ τ) (a : Action κ τ) : Bool :=
  match a with
  | .advance _ =>
    match s.frames with
    | .draining _ :: _ => s.queue.head?.any attaches
    | _ => false
  | .takeTask => s.queue.head?.any attaches
  | .leave _ => s.isAttaching attaches
  | a => a.isAside attaches

/-- The actions of a sequence that are not about listeners alone. -/
def essence (s : State κ τ) : List (Action κ τ) → List (Action κ τ)
  | [] => []
  | a :: rest =>
    if s.isAside attaches a then (s.after a).essence rest else a :: (s.after a).essence rest

/-- The tasks that are said to attach a channel do nothing else. -/
def Discreet (s : State κ τ) : List (Action κ τ) → Prop
  | [] => True
  | a :: rest => (s.isAttaching attaches → a.isApart) ∧ (s.after a).Discreet rest

instance decidableDiscreet (s : State κ τ) :
    (actions : List (Action κ τ)) → Decidable (s.Discreet attaches actions)
  | [] => .isTrue trivial
  | a :: rest =>
    haveI := decidableDiscreet (s.after a) rest
    inferInstanceAs (Decidable ((s.isAttaching attaches → a.isApart) ∧
      (s.after a).Discreet attaches rest))

/-- The table as it is when such a task is over. -/
def released (s : State κ τ) : State κ τ :=
  { s with frames := s.frames.dropWhile (Frame.isAttaching attaches) }

/-- What listeners have no part in. -/
def core (s : State κ τ) : State κ τ := (s.hushed attaches).released attaches

/-- No task that only attaches a channel waits or runs. -/
structure Plain (s : State κ τ) : Prop where
  queue : ∀ task ∈ s.queue, attaches task = false
  frames : ∀ task, .task task ∈ s.frames → attaches task = false

variable {attaches} {s t : State κ τ} {a : Action κ τ} {actions : List (Action κ τ)}

theorem uncounted_isAttaching (f : Frame κ τ) :
    f.uncounted.isAttaching attaches = f.isAttaching attaches := by
  cases f <;> rfl

theorem uncounted_uncounted (f : Frame κ τ) : f.uncounted.uncounted = f.uncounted := by
  cases f <;> rfl

theorem hushed_isAttaching (s : State κ τ) :
    (s.hushed attaches).isAttaching attaches = s.isAttaching attaches := by
  cases hs : s.frames with
  | nil => simp [isAttaching, hs]
  | cons f rest => simp [isAttaching, hs, uncounted_isAttaching]

theorem released_of_not_isAttaching (h : s.isAttaching attaches = false) :
    s.released attaches = s := by
  have hframes : s.frames.dropWhile (Frame.isAttaching attaches) = s.frames := by
    cases hs : s.frames with
    | nil => rfl
    | cons f rest =>
      have hf : f.isAttaching attaches = false := by simpa [isAttaching, hs] using h
      rw [List.dropWhile_cons, hf]
      rfl
  rw [released, hframes]

theorem core_of_not_isAttaching (h : s.isAttaching attaches = false) :
    s.core attaches = s.hushed attaches :=
  released_of_not_isAttaching ((hushed_isAttaching s).trans h)

theorem hushed_hushed (s : State κ τ) :
    (s.hushed attaches).hushed attaches = s.hushed attaches := by
  have hframes : Frame.uncounted ∘ Frame.uncounted = (Frame.uncounted : Frame κ τ → Frame κ τ) :=
    funext uncounted_uncounted
  simp [hushed, Readiness.Watch.hushed, List.filter_filter, hframes, -Happening.isOther]

theorem hushed_released (s : State κ τ) :
    (s.released attaches).hushed attaches = s.core attaches := by
  have hp : Frame.isAttaching attaches ∘ Frame.uncounted =
      (Frame.isAttaching attaches : Frame κ τ → Bool) := funext uncounted_isAttaching
  simp [core, released, hushed, List.dropWhile_map, hp]

theorem released_released (s : State κ τ) :
    (s.released attaches).released attaches = s.released attaches := by
  rw [released, released, List.dropWhile_idempotent]

/-! ### One step -/

theorem after_enqueue (s : State κ τ) (task : τ) : s.after (.enqueue task) =
    if s.watch.tasks.receivers = 0 then s
    else { s with watch := { s.watch with
        tasks := { s.watch.tasks with queue := s.queue ++ [task] }
        selector := s.watch.selector.raise .wake } }.note (.accepted task) := by
  simp only [State.after, State.enqueue, Readiness.Watch.enqueue, Channel.send]
  split <;> rfl

theorem raise_hushed (s : State κ τ) (edge : Readiness.Edge) (tasks : Channel τ) :
    { s with watch := { s.watch with
        tasks := tasks, selector := s.watch.selector.raise edge } }.hushed attaches =
      { s with watch := { s.watch with tasks := tasks } }.hushed attaches := by
  simp only [Readiness.Selector.raise]
  split <;> rfl

theorem hushed_enqueue (s : State κ τ) {task : τ} (ht : attaches task = false) :
    (s.after (.enqueue task)).hushed attaches =
      let u := s.hushed attaches
      if u.watch.tasks.receivers = 0 then u
      else { u with watch := { u.watch with
          tasks := { u.watch.tasks with queue := u.queue ++ [task] } } }.note (.accepted task) := by
  rw [after_enqueue]
  change hushed attaches (if s.watch.tasks.receivers = 0 then _ else _) =
    if s.watch.tasks.receivers = 0 then _ else _
  split
  · rfl
  · rw [hushed_note, if_pos (by simp [ht]), raise_hushed]
    simp [hushed, Readiness.Watch.hushed, ht, queue]

theorem hushed_becomeReady (s : State κ τ) (socket : Nat) :
    (s.after (.becomeReady socket)).hushed attaches = s.hushed attaches := by
  simp only [State.after, Readiness.Selector.becomeReady]
  split
  · exact raise_hushed s _ s.watch.tasks
  · rfl

theorem hushed_advance (release : Release)
    (ha : s.isAside attaches (.advance release) = false) :
    (s.advance release).hushed attaches =
      ((s.hushed attaches).advance release).hushed attaches := by
  have hframes : (s.hushed attaches).frames = s.frames.map Frame.uncounted := rfl
  cases hs : s.frames with
  | nil =>
    rw [hs] at hframes
    simp only [State.advance, hs, hframes, List.map_nil, hushed_hushed]
  | cons f rest =>
    rw [hs] at hframes
    cases f with
    | task job =>
      simp only [State.advance, hs, hframes, List.map_cons, Frame.uncounted, hushed_hushed]
    | calling call =>
      simp only [State.advance, hs, hframes, List.map_cons, Frame.uncounted, hushed_hushed]
    | settling batch =>
      cases batch with
      | nil =>
        simp only [State.advance, hs, hframes, List.map_cons, Frame.uncounted]
        exact (hushed_hushed { s with frames := rest }).symm
      | cons item batch =>
        simp only [State.advance, hs, hframes, List.map_cons, Frame.uncounted]
        rw [hushed_resolve, hushed_resolve]
        exact congrArg (resolve · item.1 item.2 release)
          (hushed_hushed { s with frames := .settling batch :: rest }).symm
    | draining taken =>
      have hhead : s.queue.head?.any attaches = false := by simpa [isAside, hs] using ha
      simp only [State.advance, hs, hframes, List.map_cons, Frame.uncounted,
        hushed_takeTask hhead]
      obtain ⟨task, u⟩ := s.takeTask
      cases task with
      | none =>
        simp only [hushed_note]
        exact (hushed_hushed { u with frames := rest }).symm
      | some task =>
        let v : State κ τ := { u with frames := .task task :: .draining (taken + 1) :: rest }
        have hsame : v.hushed attaches = (v.hushed attaches).hushed attaches :=
          (hushed_hushed v).symm
        simp only [hushed_note]
        split
        · exact congrArg (·.note (.started task)) hsame
        · exact hsame
    | closing =>
      simp only [State.advance, hs, hframes, List.map_cons, Frame.uncounted, ← hushed_shut]
      exact (hushed_hushed { s.shut with frames := rest }).symm

theorem exists_of_head? (h : s.queue.head?.any attaches) :
    ∃ task tasks, s.queue = task :: tasks ∧ attaches task := by
  cases hq : s.queue with
  | nil => simp [hq] at h
  | cons task tasks => exact ⟨task, tasks, rfl, by simpa [hq] using h⟩

theorem core_aside (ha : s.isAside attaches a) (hp : s.isAttaching attaches → a.isApart) :
    (s.after a).core attaches = s.core attaches := by
  cases a with
  | enqueue task =>
    have htask : attaches task := ha
    rw [after_enqueue]
    split
    · rfl
    · refine congrArg (released attaches) ?_
      rw [hushed_note, if_neg (by simp [htask]), raise_hushed]
      simp [hushed, Readiness.Watch.hushed, htask, queue]
  | advance release =>
    obtain ⟨taken, rest, hs⟩ : ∃ taken rest, s.frames = .draining taken :: rest := by
      simp only [isAside] at ha
      split at ha
      · exact ⟨_, _, ‹_›⟩
      · cases ha
    obtain ⟨task, tasks, hq, htask⟩ := exists_of_head? (by simpa [isAside, hs] using ha)
    have hbefore : s.core attaches = { s.hushed attaches with
        frames := .draining 0 :: rest.map Frame.uncounted } := by
      simp [core, released, hs, Frame.isAttaching, Frame.uncounted]
    rw [hbefore, ← hushed_takeTask_of_attaches hq htask]
    simp only [State.after, State.advance, hs, takeTask_eq hq]
    rw [core, hushed_note, if_neg (by simp [htask])]
    simp [released, hushed, note, htask, Frame.isAttaching, Frame.uncounted]
  | takeTask =>
    obtain ⟨task, tasks, hq, htask⟩ := exists_of_head? ha
    exact congrArg (released attaches) (hushed_takeTask_of_attaches hq htask)
  | leave panic =>
    obtain rfl : panic = none := by simpa [Action.isApart] using hp ha
    obtain ⟨f, rest, hs, hf⟩ : ∃ f rest, s.frames = f :: rest ∧ f.isAttaching attaches := by
      cases hs : s.frames with
      | nil => simp [isAside, isAttaching, hs] at ha
      | cons f rest => exact ⟨f, rest, rfl, by simpa [isAside, isAttaching, hs] using ha⟩
    rw [← hushed_released, ← hushed_released]
    simp [released, State.after, leave, hs, hf]
  | watchOn monitor => rfl
  | openChannel => rfl
  | addReceiver id => rfl
  | dropReceiver id => rfl
  | receive id => rfl
  | _ => cases ha

theorem hushed_after (ha : s.isAside attaches a = false) :
    (s.after a).hushed attaches = ((s.hushed attaches).after a).hushed attaches := by
  cases a with
  | attempt request reply now => simp only [State.after, hushed_attempt, hushed_hushed]
  | poll report => simp only [State.after, ← hushed_poll, hushed_hushed]
  | expire now order => exact (hushed_hushed (s.after (.expire now order))).symm
  | abort order => simp only [State.after, ← hushed_abort, hushed_hushed]
  | drain => exact (hushed_hushed (s.after .drain)).symm
  | watchOn monitor => cases ha
  | close order => simp only [State.after, ← hushed_close, hushed_hushed]
  | advance release => exact hushed_advance release ha
  | leave panic => simp only [State.after, ← hushed_leave, hushed_hushed]
  | enqueue task =>
    have htask : attaches task = false := ha
    rw [hushed_enqueue s htask, hushed_enqueue _ htask, hushed_hushed]
  | takeTask => simp only [State.after, hushed_takeTask ha, hushed_hushed]
  | becomeReady socket => rw [hushed_becomeReady, hushed_becomeReady, hushed_hushed]
  | openChannel => cases ha
  | addReceiver id => cases ha
  | dropReceiver id => cases ha
  | receive id => cases ha

theorem apart_cases (ha : s.isAside attaches a = false) (hs : s.isAttaching attaches)
    (hp : a.isApart) : (∃ task, a = .enqueue task) ∨ ∃ socket, a = .becomeReady socket := by
  cases a with
  | enqueue task => exact .inl ⟨task, rfl⟩
  | becomeReady socket => exact .inr ⟨socket, rfl⟩
  | leave panic => simp [isAside, hs] at ha
  | watchOn monitor => cases ha
  | openChannel => cases ha
  | addReceiver id => cases ha
  | dropReceiver id => cases ha
  | receive id => cases ha
  | _ => cases hp

theorem released_core (s : State κ τ) : (s.released attaches).core attaches = s.core attaches := by
  rw [core, hushed_released, core, released_released]

/-- What an action that is not about listeners does to the rest is fixed by the rest. -/
theorem core_after (ha : s.isAside attaches a = false) (hp : s.isAttaching attaches → a.isApart) :
    (s.after a).core attaches = ((s.core attaches).after a).core attaches := by
  rw [core, hushed_after ha]
  cases hs : s.isAttaching attaches with
  | false =>
    rw [core_of_not_isAttaching hs]
    rfl
  | true =>
    have hcore : (s.core attaches).after a = ((s.hushed attaches).after a).released attaches := by
      rcases apart_cases ha hs (hp hs) with ⟨task, rfl⟩ | ⟨socket, rfl⟩
      · rw [after_enqueue, after_enqueue]
        change (if (s.hushed attaches).watch.tasks.receivers = 0 then _ else _) = _
        split <;> rfl
      · rfl
    rw [hcore, released_core]
    rfl

/-- Whether an action that is not about listeners can happen is fixed by the rest. -/
theorem enabled_core (ha : s.isAside attaches a = false)
    (hp : s.isAttaching attaches → a.isApart) : a.Enabled (s.core attaches) ↔ a.Enabled s := by
  cases hs : s.isAttaching attaches with
  | false =>
    rw [core_of_not_isAttaching hs]
    have hfree : (s.hushed attaches).isFree = s.isFree := by
      cases hf : s.frames with
      | nil => simp [isFree, hf]
      | cons f rest => cases f <;> simp [isFree, hf, Frame.uncounted]
    have hforeign : (s.hushed attaches).isForeign = s.isForeign := by
      cases hf : s.frames with
      | nil => simp [isForeign, hf]
      | cons f rest => cases f <;> simp [isForeign, hf, Frame.uncounted]
    have hempty : (s.hushed attaches).frames.isEmpty = s.frames.isEmpty := by simp
    have hclosed : (s.hushed attaches).isClosed = s.isClosed := rfl
    have hroom : (s.hushed attaches).hasRoom = s.hasRoom := rfl
    have htoken : ∀ socket, (s.hushed attaches).watch.selector.token? socket =
      s.watch.selector.token? socket := fun _ => rfl
    cases a with
    | enqueue task => exact Iff.rfl
    | watchOn monitor => cases ha
    | openChannel => cases ha
    | addReceiver id => cases ha
    | dropReceiver id => cases ha
    | receive id => cases ha
    | _ => simp only [Action.Enabled, hfree, hforeign, hempty, hclosed, hroom, htoken]
  | true =>
    rcases apart_cases ha hs (hp hs) with ⟨task, rfl⟩ | ⟨socket, rfl⟩ <;> exact Iff.rfl

/-! ### Runs -/

theorem not_isAside (h : s.isAside attaches a = false) : a.isAside attaches = false := by
  cases a with
  | advance release => rfl
  | takeTask => rfl
  | leave panic => rfl
  | _ => exact h

theorem Plain.not_isAttaching (h : s.Plain attaches) : s.isAttaching attaches = false := by
  cases hs : s.frames with
  | nil => simp [isAttaching, hs]
  | cons f rest =>
    have hf : f.isAttaching attaches = false := by
      cases f with
      | task task => exact h.frames task (hs ▸ List.mem_cons_self)
      | _ => rfl
    simp [isAttaching, hs, hf]

/-- Without such tasks it does not matter where an action happens. -/
theorem Plain.isAside_eq (h : s.Plain attaches) : s.isAside attaches a = a.isAside attaches := by
  have hhead : s.queue.head?.any attaches = false := by
    cases hq : s.queue with
    | nil => rfl
    | cons task tasks => exact h.queue task (hq ▸ List.mem_cons_self)
  cases a with
  | advance release =>
    simp only [isAside, Action.isAside]
    split
    · exact hhead
    · rfl
  | takeTask => exact hhead
  | leave panic => exact h.not_isAttaching
  | _ => rfl

theorem Plain.after (h : s.Plain attaches) (hl : Lawful s) (ha : a.Enabled s)
    (hn : a.isAside attaches = false) : (s.after a).Plain attaches where
  queue := fun task hm => by
    rcases hl.queue_after ha hm with hm | rfl
    · exact h.queue task hm
    · exact hn
  frames := fun task hm => (hl.frames_after ha hm).elim (h.frames task) (h.queue task)

/-- A run without the tasks that only attach a channel does what the run with them does, step by
step. -/
theorem essence_run (hl : Lawful t) (ht : t.Plain attaches)
    (hcore : t.core attaches = s.core attaches) (hp : s.Possible actions)
    (hd : s.Discreet attaches actions) :
    t.Possible (s.essence attaches actions) ∧
      (t.run (s.essence attaches actions)).core attaches = (s.run actions).core attaches := by
  induction actions generalizing s t with
  | nil => exact ⟨trivial, hcore⟩
  | cons a rest ih =>
    cases ha : s.isAside attaches a with
    | true =>
      simp only [essence, ha, if_true]
      exact ih hl ht (hcore.trans (core_aside ha hd.1).symm) hp.2 hd.2
    | false =>
      have hn : a.isAside attaches = false := not_isAside ha
      have ha' : t.isAside attaches a = false := ht.isAside_eq.trans hn
      have hapart : t.isAttaching attaches → a.isApart := by simp [ht.not_isAttaching]
      have henabled : a.Enabled t := by
        rw [← enabled_core ha' hapart, hcore, enabled_core ha hd.1]
        exact hp.1
      have hnext : (t.after a).core attaches = (s.after a).core attaches := by
        rw [core_after ha' hapart, hcore, ← core_after ha hd.1]
      obtain ⟨hpossible, hrun⟩ :=
        ih (hl.after henabled).1 (ht.after hl henabled hn) hnext hp.2 hd.2
      simp only [essence, ha]
      exact ⟨⟨henabled, hpossible⟩, hrun⟩

theorem essence_append (s : State κ τ) (xs ys : List (Action κ τ)) :
    s.essence attaches (xs ++ ys) = s.essence attaches xs ++ (s.run xs).essence attaches ys := by
  induction xs generalizing s with
  | nil => rfl
  | cons a xs ih =>
    simp only [List.cons_append, essence]
    split
    · exact ih (s.after a)
    · exact congrArg (a :: ·) (ih (s.after a))

/-- What is left of a sequence can be stopped where the sequence can. -/
theorem exists_of_prefix_essence (s : State κ τ) {part actions : List (Action κ τ)}
    (h : part <+: s.essence attaches actions) :
    ∃ first, first <+: actions ∧ s.essence attaches first = part := by
  induction actions generalizing s part with
  | nil => exact ⟨[], List.nil_prefix, (List.prefix_nil.mp h).symm⟩
  | cons a rest ih =>
    cases ha : s.isAside attaches a with
    | true =>
      simp only [essence, ha, if_true] at h
      obtain ⟨first, hfirst, heq⟩ := ih (s.after a) h
      exact ⟨a :: first, List.cons_prefix_cons.mpr ⟨rfl, hfirst⟩, by simp [essence, ha, heq]⟩
    | false =>
      simp only [essence, ha] at h
      rcases List.prefix_cons_iff.mp h with rfl | ⟨part, rfl, hpart⟩
      · exact ⟨[], List.nil_prefix, rfl⟩
      · obtain ⟨first, hfirst, heq⟩ := ih (s.after a) hpart
        exact ⟨a :: first, List.cons_prefix_cons.mpr ⟨rfl, hfirst⟩, by simp [essence, ha, heq]⟩

theorem Discreet.of_append {xs ys : List (Action κ τ)} (h : s.Discreet attaches (xs ++ ys)) :
    s.Discreet attaches xs := by
  induction xs generalizing s with
  | nil => trivial
  | cons a xs ih => exact ⟨h.1, ih h.2⟩

theorem not_isAside_of_mem_essence (ha : a ∈ s.essence attaches actions) :
    a.isAside attaches = false := by
  induction actions generalizing s with
  | nil => cases ha
  | cons b rest ih =>
    simp only [essence] at ha
    split at ha
    · exact ih ha
    · rename_i hb
      rcases List.mem_cons.mp ha with rfl | ha
      · exact not_isAside (by simpa using hb)
      · exact ih ha

/-! ### Two runs -/

/-- The same attempts are in flight under the same tokens, the same sockets are waited for, and the
same continuations were called, in the same order and with the same outcomes. -/
structure Agrees (s t : State κ τ) : Prop where
  calls : t.calls = s.calls
  entries : t.entries = s.entries
  registered : t.watch.registered = s.watch.registered
  interests : t.watch.selector.interests = s.watch.selector.interests
  next : t.next = s.next

theorem core_calls (s : State κ τ) : (s.core attaches).calls = s.calls := by
  change (s.history.filter (Happening.isOther attaches)).filterMap Happening.call? = s.calls
  rw [List.filterMap_filter]
  refine List.filterMap_congr fun h _ => ?_
  cases h <;> simp

theorem agrees_of_core (h : t.core attaches = s.core attaches) : Agrees s t where
  calls := by rw [← @core_calls κ τ attaches, h, core_calls]
  entries := congrArg (fun s => s.entries) h
  registered := congrArg (fun s => s.watch.registered) h
  interests := congrArg (fun s => s.watch.selector.interests) h
  next := congrArg (fun s => s.next) h

theorem plain_initial (capacity : Nat) (nodelay : Bool) :
    (initial capacity nodelay : State κ τ).Plain attaches where
  queue _ hm := absurd hm List.not_mem_nil
  frames _ hm := absurd hm List.not_mem_nil

/-- Two runs in which the same happens, listeners aside, agree wherever the same happened in both so
far, and there is such a point in the one for each point of the other; they also agree with the run
in which nothing happens but that. And a channel that lost its last receiver stays attached while
there is nothing to tell, and from the first event that there is occasion for no channel is attached
until one is attached anew. -/
theorem runs_agree (attaches : τ → Bool) (capacity : Nat) (nodelay : Bool)
    {actions others : List (Action κ τ)}
    (hp : (initial capacity nodelay).Possible actions)
    (hd : (initial capacity nodelay).Discreet attaches actions)
    (hp' : (initial capacity nodelay).Possible others)
    (hd' : (initial capacity nodelay).Discreet attaches others)
    (hsame : (initial capacity nodelay).essence attaches actions =
      (initial capacity nodelay).essence attaches others) :
    let s₀ := initial capacity nodelay
    (∀ first, first <+: actions →
      ∃ first', first' <+: others ∧ s₀.essence attaches first' = s₀.essence attaches first) ∧
    (∀ first first', first <+: actions → first' <+: others →
      s₀.essence attaches first = s₀.essence attaches first' →
        Agrees (s₀.run first) (s₀.run first')) ∧
    (s₀.Possible (s₀.essence attaches actions) ∧
      (∀ a ∈ s₀.essence attaches actions, a.isAside attaches = false) ∧
      Agrees (s₀.run actions) (s₀.run (s₀.essence attaches actions))) ∧
    ∀ first rest id, actions = first ++ rest → (s₀.run first).monitor = some id →
      id < (s₀.run first).channels.length → (s₀.run first).receivers id = 0 →
      (∀ monitor, .watchOn monitor ∉ rest) →
        ((s₀.run actions).isMonitored ↔
          (s₀.run actions).occasions = (s₀.run first).occasions ∧
            ¬ (s₀.run actions).isClosed) := by
  intro s₀
  have hl : Lawful s₀ := lawful_initial capacity nodelay
  have hplain : s₀.Plain attaches := plain_initial capacity nodelay
  have hrun : ∀ {xs ys : List (Action κ τ)}, s₀.Possible ys → s₀.Discreet attaches ys → xs <+: ys →
      s₀.Possible (s₀.essence attaches xs) ∧
        (s₀.run (s₀.essence attaches xs)).core attaches = (s₀.run xs).core attaches := by
    rintro xs ys hp hd ⟨rest, rfl⟩
    exact essence_run hl hplain rfl (possible_append.mp hp).1 hd.of_append
  refine ⟨?_, ?_, ?_, ?_⟩
  · rintro first ⟨rest, rfl⟩
    refine exists_of_prefix_essence s₀ ?_
    rw [← hsame, essence_append]
    exact List.prefix_append _ _
  · intro first first' hfirst hfirst' heq
    refine @agrees_of_core κ τ attaches _ _ ?_
    rw [← (hrun hp hd hfirst).2, heq, (hrun hp' hd' hfirst').2]
  · obtain ⟨hpossible, hcore⟩ := hrun hp hd List.prefix_rfl
    exact ⟨hpossible, fun a => not_isAside_of_mem_essence, agrees_of_core hcore⟩
  · rintro first rest id rfl hm hlt hr hw
    obtain ⟨hfirst, hrest⟩ := possible_append.mp hp
    rw [run_append]
    exact ((Reachable.initial capacity nodelay).run hfirst).isMonitored_iff hrest hm hlt hr hw

/-- Three requests, the second of which has no usable target. In one run a channel is attached at
once, a task attaches another, and the receivers of that one are dropped before the last request; in
the other run nobody listens. -/
theorem runs_agree_when_dropped :
    let request : Request Nat := ⟨"127.0.0.1", 80, .ofMillis 1, some 0, some 1⟩
    let begun : Reply := { connect := some .nowInProgress }
    let first : List (Action Nat Bool) := [
      .openChannel, .watchOn (some 0), .attempt request begun .origin, .openChannel,
      .enqueue true, .enqueue false, .drain, .advance {}, .watchOn (some 1), .leave none,
      .advance {}, .attempt { request with address := "nowhere" } begun .origin, .leave none,
      .leave none, .advance {}, .dropReceiver 1]
    let rest : List (Action Nat Bool) := [.attempt request begun .origin]
    let others : List (Action Nat Bool) := [
      .attempt request begun .origin, .enqueue false, .drain, .advance {},
      .attempt { request with address := "nowhere" } begun .origin, .leave none, .leave none,
      .advance {}, .attempt request begun .origin]
    let s₀ := initial 16 false
    Agrees (s₀.run (first ++ rest)) (s₀.run others) ∧ (s₀.run others).tokens = [0, 1] ∧
      (s₀.run first).isMonitored ∧ ¬ (s₀.run (first ++ rest)).isMonitored := by
  intro request begun first rest others s₀
  have hsame : s₀.essence id (first ++ rest) = s₀.essence id others := by decide
  obtain ⟨-, hagree, -, hmonitored⟩ := runs_agree id 16 false
    (show s₀.Possible (first ++ rest) by decide) (by decide) (show s₀.Possible others by decide)
    (by decide) hsame
  refine ⟨hagree _ _ List.prefix_rfl List.prefix_rfl hsame, by decide, by decide, ?_⟩
  rw [hmonitored first rest 1 rfl (by decide) (by decide) (by decide) (by simp [rest])]
  decide

end State

end Dialer.InFlight
