import Dialer.Proofs.InFlight.Tasks
import Dialer.Proofs.Service.Resolution

/-!
# Requests are issued in the order in which they were accepted

A submission that is accepted gets behind those that wait, and the worker issues the one that waits
longest. Submissions that a stop or a panic leaves in the queue are never issued, and with that
leave the order of the others alone.
-/

namespace Dialer.Service

namespace State

variable {κ : Type} {s t : State κ}

/-- The submissions that were accepted, in order. -/
def admitted (s : State κ) : List Nat := (s.accepts.map (·.1)).reverse

/-- The submissions whose requests were issued, in order. -/
def dialled (s : State κ) : List (Option Nat) := (s.table.issues.map (submission? ·.2)).reverse

/-- The requests that were issued, and behind them those that wait, are in the order in which their
submissions were accepted. -/
def InOrder (s : State κ) : Prop :=
  (s.sequence.map submission?).Sublist (s.admitted.map some)

theorem InOrder.of_sublist (h : InOrder s) (hs : t.sequence.Sublist s.sequence)
    (ha : t.accepts = s.accepts) : InOrder t := by
  rw [InOrder, admitted, ha]
  exact (hs.map submission?).trans h

theorem Unlisted.sequence (h : Unlisted s t) : t.sequence = s.sequence := by
  rw [State.sequence, State.sequence, h.waiting, h.quiet.issues]

theorem sequence_sublist (hw : t.waiting = []) (hi : t.table.issues = s.table.issues) :
    t.sequence.Sublist s.sequence := by
  rw [State.sequence, State.sequence, hw, hi]
  exact (List.Sublist.refl _).append (List.nil_sublist _)

theorem InOrder.accepted (h : InOrder s) {n : Nat} {request : Request (Tagged κ)}
    (hp : Posted s (.dial request) t) (hfor : IsFor request n)
    (ha : t.accepts = (n, s.generation) :: s.accepts) : InOrder t := by
  have hsequence : t.sequence = s.sequence ++ [request] := by
    rw [sequence, sequence, waiting, waiting, hp.jobs, hp.quiet.issues, List.filterMap_append,
      List.append_assoc]
    rfl
  have hadmitted : t.admitted = s.admitted ++ [n] := by
    rw [admitted, ha, List.map_cons, List.reverse_cons]
    rfl
  rw [InOrder, hsequence, hadmitted, List.map_append, List.map_append, List.map_singleton,
    hfor.submission?]
  exact h.append (List.Sublist.refl _)

theorem InOrder.passes (h : InOrder s) (hm : Manned s) (hb : Booked s) (hp : Passes s t) :
    InOrder t := by
  have hunlisted : Unlisted s t → InOrder t := fun hu =>
    h.of_sublist (hu.sequence ▸ List.Sublist.refl _) hu.accepts
  cases hp with
  | call _ hs _ hb =>
    refine hunlisted (hs.unlisted ?_)
    cases hb with
    | keeps hb => exact hb.accepts
    | opens _ _ _ ha => exact ha
    | refuses _ _ ha => exact ha
  | launched hl =>
    have hwait : t.waiting = [] := by
      rw [waiting, jobs, inHand_of_idle (by rw [hl.table]; rfl), hl.table]
      rfl
    exact h.of_sublist (sequence_sublist hwait (by rw [hl.table]; rfl)) hl.books.accepts
  | halted hh => exact hunlisted hh.unlisted
  | @accepted thread n request hp' _ hpost _ ha =>
    have hc : s.carried? thread = some (n, request) := by rw [carried?, hp']; rfl
    exact h.accepted hpost (hb.carried hc).1 ha
  | posted _ _ hpost hb => exact hunlisted (hpost.unlisted rfl hb.accepts)
  | signalled _ _ hpost hb => exact hunlisted (hpost.unlisted rfl hb.accepts)
  | lowered _ _ hl => exact hunlisted hl.unlisted
  | joined hj =>
    have hwait : t.waiting = [] := by rw [waiting, hj.jobs hm.sound]; rfl
    exact h.of_sublist (sequence_sublist hwait (by rw [hj.table]; rfl)) hj.books.accepts
  | abandoned ha => exact hunlisted ha.unlisted
  | worked hw =>
    obtain ⟨w, d, a, ha⟩ := hw.advanced
    exact h.of_sublist ha.sequence hw.books.accepts
  | outside _ _ hs hb => exact hunlisted (hs.unlisted hb.accepts)

theorem Reachable.inOrder (hs : Reachable s) : InOrder s := by
  induction hs with
  | initial settings => exact List.Sublist.refl _
  | step hs hl ih =>
    have h := hs.ruled
    exact ih.passes h.manned h.booked (passes_after h.manned.sound hl)

theorem InOrder.dialled_sublist (h : InOrder s) : s.dialled.Sublist (s.admitted.map some) := by
  have hissued : s.dialled = (s.table.issues.map (·.2)).reverse.map submission? := by
    rw [dialled, List.map_reverse, List.map_map]
    rfl
  rw [hissued]
  exact ((List.sublist_append_left _ _).map submission?).trans h

theorem Booked.admitted_nodup (h : Booked s) : s.admitted.Nodup :=
  List.nodup_reverse.mpr (h.nodup.sublist (List.sublist_append_right _ _))

end State

section Tasks

open InFlight (Contained)
open InFlight.State (initial offered? fetched? drawn? queue_run started_run tends_after
  collect_sublist enqueue_of_closed)

variable {κ τ : Type}

/-- Whatever happens to a table, and in whichever order: the tasks that were taken from its queue
are the beginning of those that it accepted, and the others wait. What drainings take they start to
run, once each and in this order: a task is put on those that run when a draining takes it, and no
other ever is. A draining ends only when no task waits, as long as no panic throws again when it is
got rid of. Once the table was given up, it gives every task back. And so, of a service, requests
are issued in the order in which their submissions were accepted. -/
theorem tasks_in_order :
    (∀ (capacity : Nat) (nodelay : Bool) (actions : List (InFlight.Action κ τ)),
      (initial capacity nodelay).Possible actions →
      let s₀ := initial capacity nodelay
      let s := s₀.run actions
      s₀.collect offered? actions = s₀.collect fetched? actions ++ s.queue ∧
      (s₀.collect drawn? actions).Sublist (s₀.collect fetched? actions) ∧
      s.started = s₀.collect drawn? actions ∧
      (∀ a, a.Enabled s →
        (∀ task, s.drawn? a = some task → (s.after a).running = task :: s.running) ∧
        (s.drawn? a = none → (s.after a).running <:+ s.running) ∧
        (Contained [a] → (s.after a).drainings < s.drainings → s.queue = [])) ∧
      (∀ order, .close order ∈ actions → s.frames = [] →
        ∀ more, s.Possible more → ∀ task, (s.run more).enqueue task = .error task)) ∧
    ∀ s : State κ, s.Reachable → s.admitted.Nodup ∧ s.dialled.Sublist (s.admitted.map some) := by
  refine ⟨fun capacity nodelay actions hp => ?_, fun s hs =>
    ⟨hs.ruled.booked.admitted_nodup, hs.inOrder.dialled_sublist⟩⟩
  have h₀ : (initial capacity nodelay : InFlight.State κ τ).Reachable := .initial capacity nodelay
  refine ⟨queue_run hp, collect_sublist (fun s a task hd => ?_) _ _, started_run hp,
    fun a ha => ?_, fun order hm hf more hmore task => ?_⟩
  · cases a with
    | advance release => exact hd
    | _ => simp [drawn?] at hd
  · have hn := (tends_after ha).nest
    refine ⟨hn.running.1, hn.running.2, fun hc hlt => (hn.drainings hlt).resolve_right ?_⟩
    rintro ⟨text, next, rfl⟩
    exact hc text next List.mem_cons_self
  · have hc := h₀.closed_of_close hp hm hf
    exact enqueue_of_closed ((h₀.run hp).lawful.closed_run hmore hc) task

/-- A task that leaves another one and drains itself, on top of which one ends in a panic, and what
comes too late; and two submissions that are dialled one after the other. -/
theorem tasks_in_order_when_nested :
    let actions : List (InFlight.Action Nat Nat) := [
      .enqueue 1, .enqueue 2, .drain, .advance {}, .enqueue 3, .drain, .advance {},
      .leave (some (.plain none)), .enqueue 4, .advance {}, .leave none, .advance {},
      .leave none, .advance {}, .leave none, .advance {}, .enqueue 5, .takeTask, .enqueue 6,
      .close [], .advance {}]
    let s := (initial 16 false).run actions
    let request : Request Nat := ⟨"127.0.0.1", 80, .ofMillis 0, some 0, some 1⟩
    let answers : Answers := { reply := { connect := some .connectionRefused } }
    let proceed (n : Nat) : List (Label Nat) := .replicate n (.proceed (.caller 0) {})
    let labels : List (Label Nat) := [.begin (.caller 0) .start] ++ proceed 3 ++
      [.begin (.caller 0) (.submit request)] ++ proceed 4 ++
      [.begin (.caller 0) (.submit request)] ++ proceed 4 ++ .replicate 7 (.work answers) ++
      [.leave none] ++ .replicate 3 (.work answers)
    let u := (State.initial { eventCapacity := 1 }).run labels
    let inner := (initial 16 false).run (actions.take 13)
    inner.drainings = 2 ∧ (inner.after (.advance {})).drainings = 1 ∧ inner.queue = [] ∧
    s.started = [1, 2, 3, 4] ∧ s.queue = [6] ∧ (∀ task, s.enqueue task = .error task) ∧
      u.admitted = [0, 1] ∧ u.dialled = [some 0, some 1] ∧
        u.dialled.Sublist (u.admitted.map some) := by
  intro actions s request answers proceed labels u inner
  have hp : (initial 16 false).Possible actions := by decide
  have hl : (State.initial { eventCapacity := 1 }).Possible labels := by decide
  obtain ⟨htable, hservice⟩ := @tasks_in_order Nat Nat
  obtain ⟨hqueue, -, hstarted, -, hdropped⟩ := htable 16 false actions hp
  obtain ⟨-, -, -, hsteps, -⟩ := htable 16 false (actions.take 13) (by decide)
  obtain ⟨-, -, hends⟩ := hsteps (.advance {}) (by decide)
  have hu := hservice u ((State.Reachable.initial _).run hl)
  refine ⟨by decide, by decide, hends (fun text next hm => by simp at hm) (by decide),
    hstarted.trans (by decide), ?_, fun task =>
    hdropped [] (by simp [actions]) rfl [] trivial task,
    by decide, by decide, hu.2⟩
  have hoffered : (initial 16 false).collect offered? actions = [1, 2, 3, 4, 5, 6] := by decide
  have hfetched : (initial 16 false).collect fetched? actions = [1, 2, 3, 4, 5] := by decide
  exact List.append_cancel_left ((hfetched ▸ hqueue).symm.trans hoffered)

/-- A task whose panic throws again takes the draining along: the second of two tasks is left in the
queue of a table that was not given up. -/
theorem draining_cut_short_by_panic :
    let s₀ : InFlight.State Nat Nat := initial 16 false
    let actions : List (InFlight.Action Nat Nat) := [.enqueue 1, .enqueue 2, .drain, .advance {}]
    let throwing : InFlight.Action Nat Nat := .leave (some (.volatile none (.plain none)))
    let s := s₀.run actions
    let t := s.after throwing
    s₀.Possible (actions ++ [throwing]) ∧ s.started = [1] ∧ s.drainings = 1 ∧ t.drainings = 0 ∧
      t.frames = [] ∧ t.queue = [2] ∧ ¬ t.isClosed := by
  decide

end Tasks

end Dialer.Service
