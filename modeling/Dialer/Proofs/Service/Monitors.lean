import Dialer.Proofs.Service.Agenda

/-!
# The channel that is kept and the channel that is published on

A call for a monitor puts its channel down in two places: in the slot that the next start reads, and
in a job for the worker. Any number of calls can be at it at once. So each place is left with the
channel that came there last, and these two are the same only if they came in the same order. A call
that gives up waiting for the lock gets to the slot alone.
-/

namespace Dialer.Service

open InFlight.State (Lawful HasReceivers)

variable {κ : Type}

namespace State

variable {s t : State κ} {l : Label κ} {labels : List (Label κ)} {thread : Thread} {c : Nat}

/-- The channel that events go to once the worker has done what is left for it. -/
def heading (s : State κ) : Option Nat := s.ordered.getLast?.or s.table.monitor

/-- The channel that a step leaves for the worker to publish on. -/
def posted? (s : State κ) : Label κ → Option Nat
  | .proceed thread _ =>
    match s.point? thread with
    | some (.sending op) => if s.table.isClosed then none else op.channel?
    | _ => none
  | _ => none

/-- What the steps of a run come to, one after the other. -/
def collect (view : State κ → Label κ → Option Nat) (s : State κ) : List (Label κ) → List Nat
  | [] => []
  | l :: rest => (view s l).toList ++ collect view (s.after l) rest

def stores (s : State κ) (labels : List (Label κ)) : List Nat := collect stored? s labels

def posts (s : State κ) (labels : List (Label κ)) : List Nat := collect posted? s labels

theorem collect_append (view : State κ → Label κ → Option Nat) (s : State κ)
    (xs ys : List (Label κ)) :
    collect view s (xs ++ ys) = collect view s xs ++ collect view (s.run xs) ys := by
  induction xs generalizing s with
  | nil => rfl
  | cons x xs ih => simp [collect, ih, run]

theorem collect_snoc (view : State κ → Label κ → Option Nat) (s : State κ)
    (labels : List (Label κ)) (l : Label κ) :
    collect view s (labels ++ [l]) = collect view s labels ++ (view (s.run labels) l).toList := by
  rw [collect_append, collect, collect, List.append_nil]

theorem mem_offered_of_posted? (h : s.posted? l = some c) : c ∈ s.offered := by
  unfold posted? at h
  split at h
  · split at h
    · next hp =>
      split at h
      · cases h
      · exact mem_offered_of_point? hp h
    · cases h
  · cases h

/-- What a step posts is the channel of the job that it leaves. -/
theorem posted?_eq (s : State κ) (l : Label κ) : s.posted? l = (s.left? l).bind Job.channel? := by
  cases l with
  | proceed thread grant =>
    simp only [posted?, left?]
    cases s.point? thread with
    | none => rfl
    | some p =>
      cases p with
      | sending op =>
        simp only
        split
        · rfl
        · cases op <;> rfl
      | _ => rfl
  | _ => rfl

/-- Where events are to go in the end changes only with what is left for the worker. -/
theorem heading_after (hr : Ruled s) (ho : Opened s) (he : s.Enabled l) (hu : IsUp s)
    (hu' : IsUp (s.after l)) (hg : (s.after l).generations = s.generations)
    (hk : HasReceivers (s.after l).table) :
    (s.after l).heading = (s.posted? l).or s.heading := by
  obtain ⟨hj, hm⟩ := hu.agenda_after hr ho he hu' hg hk
  have hchannels : ∀ job : Option (Job κ),
      (job.toList.filterMap Job.channel?).getLast? = job.bind Job.channel? := by
    intro job
    cases job with
    | none => rfl
    | some job => cases job <;> rfl
  have hordered := congrArg (fun jobs => (jobs.filterMap Job.channel?).getLast?) hj
  simp only [List.filterMap_append, List.getLast?_append, hchannels] at hordered
  rw [heading, hm, ← Option.or_assoc, ordered, ← hordered, posted?_eq, heading, ordered,
    Option.or_assoc]

/-! ### Runs -/

/-- As long as the worker is there and nobody stops receiving, each of the two places is left with
what came there last. -/
theorem Reachable.run_places (hs : Reachable s) (hp : s.Possible labels)
    (hu : IsUp (s.run labels)) (hg : (s.run labels).generations = s.generations)
    (hk : HasReceivers (s.run labels).table) :
    (s.run labels).slot = (s.stores labels).getLast?.or s.slot ∧
      (s.run labels).heading = (s.posts labels).getLast?.or s.heading := by
  induction labels using List.reverseRecOn with
  | nil => exact ⟨rfl, rfl⟩
  | append_singleton labels l ih =>
    obtain ⟨hp, he⟩ := possible_snoc.mp hp
    rw [run_snoc] at hu hg hk ⊢
    have hreach := hs.run hp
    have hr := hreach.ruled
    have hacts := acts_after he
    have hg' : ((s.run labels).after l).generations = (s.run labels).generations := by
      have hbefore := hs.generations_le hp
      have hafter := (passes_after hr.manned.sound he).generations_le
      omega
    have hu' := hu.of_after hr he hg'
    obtain ⟨hslot, hheading⟩ :=
      ih hp hu' (hg'.symm.trans hg) (hacts.tunes.hasReceivers hr.lawful hk)
    have hlast : ∀ view, (collect view s (labels ++ [l])).getLast? =
        (view (s.run labels) l).or (collect view s labels).getLast? := by
      intro view
      rw [collect_snoc, List.getLast?_append]
      cases view (s.run labels) l <;> rfl
    rw [stores, posts, hlast, hlast, Option.or_assoc, Option.or_assoc]
    refine ⟨?_, ?_⟩
    · rw [hacts.slot.resolve_right fun h => hu.held h.1, hslot]
      rfl
    · rw [heading_after hr hreach.opened he hu' hu hg' hk, hheading]
      rfl

/-- What the calls of a run put down are channels that were not there before. -/
theorem Reachable.run_brings (hs : Reachable s) (ho : s.offered = []) (hp : s.Possible labels) :
    s.table.channels.length ≤ (s.run labels).table.channels.length ∧
      (∀ c ∈ (s.run labels).offered, s.table.channels.length ≤ c) ∧
      ∀ c, (c ∈ s.stores labels ∨ c ∈ s.posts labels) → s.table.channels.length ≤ c := by
  induction labels using List.reverseRecOn with
  | nil =>
    refine ⟨Nat.le_refl _, fun c hc => ?_, fun c hc => ?_⟩
    · exact absurd (ho ▸ hc) List.not_mem_nil
    · rcases hc with hc | hc <;> cases hc
  | append_singleton labels l ih =>
    obtain ⟨hp, he⟩ := possible_snoc.mp hp
    obtain ⟨hle, hoffered, hput⟩ := ih hp
    have hacts := acts_after he
    rw [run_snoc]
    refine ⟨Nat.le_trans hle (hacts.tunes.channels_le (hs.run hp).ruled.lawful), fun c hc => ?_,
      fun c hc => ?_⟩
    · exact (hacts.offered c hc).elim (hoffered c) fun hnew => hnew.1 ▸ hle
    · rw [stores, posts, collect_snoc, collect_snoc, List.mem_append, List.mem_append,
        Option.mem_toList, Option.mem_toList] at hc
      rcases hc with (hc | hc) | (hc | hc)
      · exact hput c (.inl hc)
      · exact hoffered c (mem_offered_of_stored? hc)
      · exact hput c (.inr hc)
      · exact hoffered c (mem_offered_of_posted? hc)

/-- No call for a monitor is under way, and none has left anything that is still to be done. -/
structure IsCalm (s : State κ) : Prop where
  offered : s.offered = []
  ordered : s.ordered = []

/-- Where a channel can be that somebody can still publish on. -/
theorem mem_of_isAttached (h : s.isAttached c) : s.slot = some c ∨ s.table.monitor = some c ∨
    c ∈ s.ordered ∨ c ∈ s.offered := by
  simp only [isAttached, Bool.or_eq_true, decide_eq_true_eq, List.any_eq_true] at h
  rcases h with ((h | h) | ⟨job, hm, hj⟩) | ⟨call, hm, hj⟩
  · exact .inl h
  · exact .inr (.inl h)
  · refine .inr (.inr (.inl ?_))
    cases job with
    | watchOn channel =>
      obtain rfl : channel = c := by simpa using hj
      exact List.mem_filterMap.mpr ⟨.watchOn channel, List.mem_append_right _ hm, rfl⟩
    | _ => simp at hj
  · refine .inr (.inr (.inr (List.mem_filterMap.mpr ⟨call, hm, ?_⟩)))
    split at hj <;> rename_i hp <;> simp at hj <;> rw [hp, hj] <;> rfl

theorem IsCalm.isAttached_iff (h : IsCalm s) :
    s.isAttached c ↔ s.slot = some c ∨ s.table.monitor = some c := by
  refine ⟨fun ha => ?_, fun ha => ?_⟩
  · simpa [h.ordered, h.offered] using mem_of_isAttached ha
  · rcases ha with ha | ha <;> simp [isAttached, ha]

/-- Any number of calls for a monitor, in any order of their steps and of the worker's: if the
worker stays meanwhile and nobody stops receiving, then once all of them are over the slot holds the
channel that was stored last, and events go to the channel that was posted last. The two are the
same if and only if the last to be stored was the last to be posted. Nobody publishes on any other.
-/
theorem Reachable.monitors_agree_iff (hs : Reachable s) (hc : IsCalm s)
    (hm : s.table.monitor = s.slot) (hp : s.Possible labels) (hu : IsUp (s.run labels))
    (hg : (s.run labels).generations = s.generations) (hk : HasReceivers (s.run labels).table)
    (hc' : IsCalm (s.run labels)) :
    (s.run labels).slot = (s.stores labels).getLast?.or s.slot ∧
      (s.run labels).table.monitor = (s.posts labels).getLast?.or s.slot ∧
      ((s.run labels).table.monitor = (s.run labels).slot ↔
        (s.posts labels).getLast? = (s.stores labels).getLast?) ∧
      (s.run labels).table.listener? = (s.run labels).table.monitor ∧
      ∀ c, (s.run labels).isAttached c ↔
        (s.run labels).slot = some c ∨ (s.run labels).table.monitor = some c := by
  obtain ⟨hslot, hheading⟩ := hs.run_places hp hu hg hk
  have hmonitor : (s.run labels).table.monitor = (s.posts labels).getLast?.or s.slot := by
    rw [heading, heading, hc.ordered, hc'.ordered, hm] at hheading
    exact hheading
  obtain ⟨-, -, hnew⟩ := hs.run_brings hc.offered hp
  have hold := hs.opened.slot
  refine ⟨hslot, hmonitor, ?_, ?_, fun c => hc'.isAttached_iff⟩
  · rw [hslot, hmonitor]
    refine ⟨fun h => ?_, fun h => by rw [h]⟩
    cases hpost : (s.posts labels).getLast? with
    | none =>
      cases hstore : (s.stores labels).getLast? with
      | none => rfl
      | some c =>
        rw [hpost, hstore] at h
        exact absurd (hold c h) (Nat.not_lt.mpr (hnew c (.inl (List.mem_of_getLast? hstore))))
    | some c =>
      cases hstore : (s.stores labels).getLast? with
      | none =>
        rw [hpost, hstore] at h
        exact absurd (hold c h.symm) (Nat.not_lt.mpr (hnew c (.inr (List.mem_of_getLast? hpost))))
      | some c' =>
        rw [hpost, hstore] at h
        exact h
  · cases hmon : (s.run labels).table.monitor with
    | none => rw [InFlight.State.listener?, hmon]; rfl
    | some c =>
      exact InFlight.State.listener?_of_monitor hmon (hk c ((hs.run hp).opened.monitor c hmon))

/-- Two calls that hold the lock at once, in the same order at the slot as at the queue. -/
theorem monitors_agree_in_order :
    let go (n : Nat) : Label Nat := .proceed (.caller n) {}
    let s : State Nat := (initial { eventCapacity := 1, monitor := true }).run
      [.begin (.caller 0) .start, go 0, go 0, go 0]
    let labels : List (Label Nat) := [.begin (.caller 0) .monitor, .begin (.caller 1) .monitor,
      go 0, go 1, go 1, go 1, go 0, go 0, go 0, go 1] ++ List.replicate 12 (.work {})
    s.stores labels = [1, 0] ∧ s.posts labels = [1, 0] ∧
      (s.run labels).table.listener? = (s.run labels).slot ∧
        ∀ c, (s.run labels).isAttached c ↔ c = 0 := by
  intro go s labels
  have hs : Reachable s := (Reachable.initial _).run (by decide)
  have hp : s.Possible labels := by decide
  have hstores : s.stores labels = [1, 0] := by decide
  have hposts : s.posts labels = [1, 0] := by decide
  have hpanicked : ∀ w ∈ (s.run labels).worker, w.panicked = false := by decide
  have hu : IsUp (s.run labels) := ⟨by decide, by decide, hpanicked⟩
  have hlength : (s.run labels).table.channels.length = 2 := by decide
  have hreceivers : ∀ id < 2, (s.run labels).table.receivers id ≠ 0 := by decide
  have hk : HasReceivers (s.run labels).table := fun id hlt => hreceivers id (hlength ▸ hlt)
  obtain ⟨hslot, hmonitor, hagree, hlistener, hattached⟩ := hs.monitors_agree_iff
    ⟨by decide, by decide⟩ (by decide) hp hu (by decide) hk ⟨by decide, by decide⟩
  rw [hstores] at hslot
  have hsame := hagree.mpr (by rw [hstores, hposts])
  refine ⟨hstores, hposts, hlistener.trans hsame, fun c => ?_⟩
  rw [hattached c, hsame, hslot]
  simp [eq_comm]

/-- The second call stores its channel after the first, but its job comes before: the slot holds the
channel of the second call, events go to that of the first, and both have receivers. -/
theorem monitors_disagree_after_race :
    let go (n : Nat) : Label Nat := .proceed (.caller n) {}
    let s : State Nat := (initial { eventCapacity := 1, monitor := true }).run
      [.begin (.caller 0) .start, go 0, go 0, go 0]
    let labels : List (Label Nat) := [.begin (.caller 0) .monitor, .begin (.caller 1) .monitor,
      go 0, go 1, go 0, go 1, go 1, go 0, go 1, go 0] ++ List.replicate 12 (.work {})
    s.Possible labels ∧ (s.run labels).lifecycle = .running ∧
      (s.run labels).calls.length = 0 ∧ (s.run labels).jobs.length = 0 ∧
      (s.run labels).table.channels.map (·.receivers) = [1, 1] ∧
      (s.run labels).slot = some 1 ∧ (s.run labels).table.listener? = some 0 ∧
      (s.run labels).isAttached 0 ∧ (s.run labels).isAttached 1 := by
  decide

/-- A continuation asks for a monitor while a stop waits for its worker. The call gives up waiting
for the lock and gets to the slot alone; what the worker still does is told on the old channel. -/
example :
    let request : Request Nat := ⟨"127.0.0.1", 80, .ofMillis 0, some 0, some 1⟩
    let answers : Answers := { reply := { connect := some .nowInProgress } }
    let go (n : Nat) : List (Label Nat) := .replicate n (.proceed (.caller 0) {})
    let labels : List (Label Nat) := [.begin (.caller 0) .start] ++ go 3 ++
      [.begin (.caller 0) .monitor] ++ go 4 ++ [.begin (.caller 0) (.submit request)] ++ go 4 ++
      .replicate 18 (.work answers) ++ [.begin (.caller 0) .stop] ++ go 3 ++
      [.begin .worker .monitor, .giveUp]
    let s₀ : State Nat := initial { eventCapacity := 1, monitor := true }
    s₀.Possible labels ∧ s₀.stores labels = [0, 1] ∧ s₀.posts labels = [0] ∧
      (s₀.run labels).slot = some 1 ∧ (s₀.run labels).table.listener? = some 0 := by
  decide

end State

end Dialer.Service
