import Dialer.Proofs.InFlight.Owed
import Dialer.Proofs.Service.Draining

/-!
# What a pass of the worker decides

In a pass of its loop the worker looks at ready sockets, drains its queue, looks once more and lets
attempts expire. An attempt whose handshake either look finds to be over is resolved by that, also
if its time is over; the others are resolved when their time is over at the one reading of the
clock, and none of these is left after it. What waited in the queue at the beginning has been issued
before the second look, so that it has its part in all of this.
-/

namespace Dialer.Service

open InFlight (Entry Cause batchOf requests)
open InFlight.State (Lawful Tallied Founded IsComplete Owed Timed accounted_run)
open Readiness (Token)

variable {κ : Type}

namespace Duty

/-- The steps of a pass: they end when the worker is back at the head of its loop. -/
def IsPass (d : Duty κ) : List (Action κ) → Prop
  | [] => d.worker.stage = .head
  | a :: rest => d.worker.stage ≠ .head ∧ d.Enabled a ∧ (d.after a).IsPass rest

instance decidableIsPass (d : Duty κ) :
    (actions : List (Action κ)) → Decidable (d.IsPass actions)
  | [] => inferInstanceAs (Decidable (d.worker.stage = .head))
  | a :: rest =>
    haveI := decidableIsPass (d.after a) rest
    inferInstanceAs (Decidable (d.worker.stage ≠ .head ∧ d.Enabled a ∧ (d.after a).IsPass rest))

/-- A worker that is to begin a pass, with any table that can be reached. -/
structure Begins (d : Duty κ) : Prop where
  reachable : InFlight.State.Reachable d.table
  unclosed : ¬ d.table.isClosed
  frames : d.table.frames = []
  stage : d.worker.stage = .wait
  entered : d.worker.entered = false
  begun : d.worker.begun = false
  panicked : d.worker.panicked = false

/-- Some look of the worker finds the handshake of an attempt in flight over, and first with this
cause. -/
def Finds (d : Duty κ) (actions : List (Action κ)) (e : Entry (Tagged κ)) (cause : Cause) : Prop :=
  ∃ before answers rest report token, actions = before ++ .work answers :: rest ∧
    (d.run before).deed? (.work answers) = some (.poll (.ok report)) ∧
    InFlight.State.entry? (d.run before).table token = some e ∧
    (InFlight.answers report).lookup token = some cause

/-- A call because of time is right in a pass whose table was `t` when the clock was read: the
request was given that time, it was in flight and its time was over at `now`, and neither look found
its handshake over. -/
structure RanOut (d : Duty κ) (actions : List (Action κ)) (t : Table κ) (now : Time.Instant)
    (call : InFlight.Call (Tagged κ)) (timeout : Time.Duration) : Prop where
  requested : ∃ request, (call.ticket, request) ∈ t.issues ∧ request.timeout = timeout
  overdue : ∃ token e, t.entry? token = some e ∧ e.ticket = call.ticket ∧
    timeout.nanos ≤ (now.since e.started).nanos
  unfound : ∀ e cause, e.ticket = call.ticket → ¬ d.Finds actions e cause

variable {d d₀ : Duty κ} {a : Action κ} {b : InFlight.Action (Tagged κ) (Job κ)}
  {actions : List (Action κ)} {answers : Answers} {token : Token} {e : Entry (Tagged κ)}
  {cause : Cause}

/-- What is known of a worker and its table as long as no panic has ended the worker. -/
structure Steady (d : Duty κ) : Prop where
  reachable : InFlight.State.Reachable d.table
  fits : Fits d

theorem Steady.lawful (h : Steady d) : Lawful d.table := h.reachable.lawful

theorem Begins.steady (h : Begins d) : Steady d where
  reachable := h.reachable
  fits :=
    { runs := by
        rw [h.frames, h.begun]
        exact .idle _
      rests := fun _ => h.frames
      unclosed := fun _ => h.unclosed
      covered := fun hs => by simp [h.stage] at hs
      bare := fun hs => by simp [h.stage] at hs }

theorem Steady.after (h : Steady d) (ha : d.Enabled a)
    (hp : (d.after a).worker.panicked = false) : Steady (d.after a) where
  reachable := by
    rw [after_table]
    cases hb : d.deed? a with
    | none => exact h.reachable
    | some b => exact h.reachable.step (h.fits.enabled ha hb)
  fits := h.fits.after h.lawful ha hp

theorem Steady.run (h : Steady d) (hp : d.Possible actions)
    (hq : (d.run actions).worker.panicked = false) : Steady (d.run actions) := by
  induction actions generalizing d with
  | nil => exact h
  | cons a rest ih => exact ih (h.after hp.1 (panicked_run hq)) hp.2 hq

theorem Steady.owed_run (h : Steady d) (hp : d.Possible actions)
    (hq : (d.run actions).worker.panicked = false) (ho : Owed d.table token e cause) :
    Owed (d.run actions).table token e cause := by
  induction actions generalizing d with
  | nil => exact ho
  | cons a rest ih =>
    have hstay := panicked_run (d := d.after a) hq
    refine ih (h.after hp.1 hstay) hp.2 hq ?_
    rw [after_table]
    cases hb : d.deed? a with
    | none => exact ho
    | some b =>
      exact ho.after h.lawful (h.fits.enabled hp.1 hb) (h.fits.keepsBatch h.lawful hp.1 hstay hb)

/-! ### The way through the pass -/

theorem isLate_of_panicked (h : d.worker.panicked = false) (a : Action κ)
    (hp : (d.after a).worker.panicked ≠ false) : (d.after a).worker.stage.isLate := by
  cases a with
  | work answers => exact absurd ((work_panicked d answers).trans h) hp
  | leave panic =>
    simp only [Duty.after, leave] at hp ⊢
    split at hp
    · next hout =>
      rw [if_pos hout, Stage.afterPanic]
      split <;> rfl
    · exact absurd h hp
  | enqueue job => exact absurd h hp
  | lower => exact absurd h hp

theorem isLate_run (h : d.worker.stage.isLate) (actions : List (Action κ)) :
    (d.run actions).worker.stage.isLate := by
  induction actions generalizing d with
  | nil => exact h
  | cons a rest ih => exact ih (isLate_after h a)

theorem IsPass.stage_run (h : d.IsPass actions) : (d.run actions).worker.stage = .head := by
  induction actions generalizing d with
  | nil => exact h
  | cons a rest ih => exact ih h.2.2

theorem IsPass.not_panicked (h : d.IsPass actions) (hp : d.worker.panicked = false) :
    (d.run actions).worker.panicked = false := by
  induction actions generalizing d with
  | nil => exact hp
  | cons a rest ih =>
    refine ih h.2.2 ?_
    by_contra hpanicked
    have hlate := isLate_run (isLate_of_panicked hp a hpanicked) rest
    rw [h.2.2.stage_run] at hlate
    cases hlate

theorem IsPass.possible (h : d.IsPass actions) : d.Possible actions := by
  induction actions generalizing d with
  | nil => trivial
  | cons a rest ih => exact ⟨h.2.1, ih h.2.2⟩

/-- Whenever something is done the worker is in the pass. -/
def Underway (d : Duty κ) (actions : List (Action κ)) : Prop :=
  ∀ first a rest, actions = first ++ a :: rest → (d.run first).worker.place < 8

theorem Underway.of_cons (h : d.Underway (a :: actions)) : (d.after a).Underway actions :=
  fun first b rest heq => h (a :: first) b rest (congrArg (a :: ·) heq)

theorem Underway.of_append {xs ys : List (Action κ)} (h : d.Underway (xs ++ ys)) :
    d.Underway xs ∧ (d.run xs).Underway ys := by
  refine ⟨fun first a rest heq => h first a (rest ++ ys) (by simp [heq]),
    fun first a rest heq => ?_⟩
  rw [← run_append]
  exact h (xs ++ first) a rest (by simp [heq])

theorem Steady.place_le (h : Steady d) (hp : d.Possible actions)
    (hq : (d.run actions).worker.panicked = false) (hway : d.Underway actions) :
    d.worker.place ≤ (d.run actions).worker.place := by
  induction actions generalizing d with
  | nil => exact Nat.le_refl _
  | cons a rest ih =>
    have hstay := panicked_run (d := d.after a) hq
    refine Nat.le_trans ?_ (ih (h.after hp.1 hstay) hp.2 hq hway.of_cons)
    rcases h.fits.place_after h.lawful hp.1 hstay with heq | ⟨answers, rfl, -, hnext⟩
    · exact Nat.le_of_eq heq.symm
    · rw [hnext (hway [] _ _ rfl)]
      exact Nat.le_succ _

theorem IsPass.underway (h : d.IsPass actions) (hs : Steady d) (hlt : d.worker.place < 8)
    (hq : (d.run actions).worker.panicked = false) : d.Underway actions := by
  induction actions generalizing d with
  | nil => exact fun first a rest heq => by simp at heq
  | cons x actions ih =>
    rintro (_ | ⟨y, first⟩) a rest heq
    · exact hlt
    · obtain ⟨rfl, rfl⟩ := List.cons.inj heq
      obtain ⟨-, hx, hrest⟩ := h
      have hstay := panicked_run (d := d.after x) hq
      refine ih hrest (hs.after hx hstay) ?_ hq first a rest rfl
      rcases hs.fits.place_after hs.lawful hx hstay with heq | ⟨answers, rfl, hf, hnext⟩
      · exact heq ▸ hlt
      · by_contra hge
        have hseven : d.worker.place = 7 := by
          have := hnext hlt
          omega
        -- The step ends the pass, which was to go on.
        have hhead : (d.after (.work answers)).worker.stage = .head := by
          rw [after_of_last hseven hf]
          rfl
        cases first with
        | nil => exact hrest.1 hhead
        | cons b first => exact hrest.1 hhead

/-- When the clock is read the last operation begins. -/
theorem place_of_expire {now : Time.Instant} {order : List Token}
    (hb : d.deed? a = some (.expire now order)) :
    d.table.frames = [] ∧ d.worker.place = 6 ∧ (d.after a).worker.place = 7 := by
  cases a with
  | work answers =>
    cases hf : d.table.frames with
    | nil =>
      simp only [deed?, hf] at hb
      split at hb
      · cases hb
      · next hs =>
        have hentered : d.worker.entered = false := by simpa using fun he => hs (.inr he)
        have hstage : d.worker.stage = .expire := by
          cases hst : d.worker.stage <;> simp [hst, Stage.deed?] at hb
          rfl
        have hsix : d.worker.place = 6 := by simp [Worker.place, hstage, hentered]
        refine ⟨rfl, hsix, ?_⟩
        have hwork : d.after (.work answers) = d.workBetween answers := by
          simp only [Duty.after, Duty.work, hf]
        rw [hwork, workBetween_enter (by omega) hentered]
        simp [Worker.place, goOn, hstage]
    | cons f rest =>
      cases f with
      | task job =>
        simp only [deed?, hf] at hb
        split at hb
        · cases hb
        · cases job <;> cases hb
      | calling call =>
        simp only [deed?, hf] at hb
        cases hb
      | _ =>
        simp only [deed?, hf] at hb
        cases hb
  | leave panic => cases hb
  | enqueue job => cases hb
  | lower => cases hb

theorem Steady.not_expire_mem (h : Steady d) (hp : d.Possible actions)
    (hq : (d.run actions).worker.panicked = false) (hway : d.Underway actions)
    (hplace : (d.run actions).worker.place ≤ 6 ∨ 7 ≤ d.worker.place) (now : Time.Instant)
    (order : List Token) : .expire now order ∉ d.deeds actions := by
  induction actions generalizing d with
  | nil => exact List.not_mem_nil
  | cons a rest ih =>
    have hstay := panicked_run (d := d.after a) hq
    have hnext := h.after hp.1 hstay
    have hle := hnext.place_le hp.2 hq hway.of_cons
    have hrest : (d.run (a :: rest)).worker.place = ((d.after a).run rest).worker.place := rfl
    rw [deeds, List.mem_append, not_or, Option.mem_toList]
    refine ⟨fun hb => ?_, ih hnext hp.2 hq hway.of_cons (hplace.imp_right fun hge => ?_)⟩
    · obtain ⟨-, hsix, hseven⟩ := place_of_expire hb
      omega
    · rcases h.fits.place_after h.lawful hp.1 hstay with heq | ⟨_, -, -, hnext⟩
      · exact heq ▸ hge
      · rw [hnext (hway [] _ _ rfl)]
        exact Nat.le_succ_of_le hge

theorem stage_of_two {w : Worker} (h : w.place = 2) : w.stage = .serve ∧ w.entered = false := by
  have := Bool.toNat_le w.entered
  unfold Worker.place at h
  split at h <;> cases he : w.entered <;> simp_all

theorem serving_of_three {w : Worker} (h : w.place = 3) : w.stage.work = .serving := by
  have := Bool.toNat_le w.entered
  unfold Worker.place at h
  split at h <;> cases he : w.entered <;> simp_all [Stage.work]

theorem place_of_serving {w : Worker} (hw : w.stage.work = .serving) :
    w.place = 8 ∨ w.place = 2 + w.entered.toNat := by
  cases hs : w.stage <;> simp [hs, Stage.work] at hw <;> simp [Worker.place, hs]

theorem Steady.request?_eq_none (h : Steady d) (ha : d.Enabled a) (hb : d.deed? a = some b)
    (hlt : d.worker.place < 8) (hplace : 4 ≤ d.worker.place) : b.request? = none := by
  cases a with
  | work answers =>
    rcases h.fits.jobs_work h.lawful ha with hidles | ⟨job, rest, hf, -⟩
    · simpa [hb] using hidles.2.1
    · have := Bool.toNat_le d.worker.entered
      rcases place_of_serving (h.fits.runs.of_task hf).1 with heq | heq <;> omega
  | leave panic =>
    obtain rfl := Option.some.inj hb
    rfl
  | enqueue job =>
    obtain rfl := Option.some.inj hb
    rfl
  | lower => cases hb

theorem Steady.lookup_of_run (h : Steady d) (hp : d.Possible actions)
    (hq : (d.run actions).worker.panicked = false) (hway : d.Underway actions)
    (hplace : 4 ≤ d.worker.place)
    (he : InFlight.State.entry? (d.run actions).table token = some e) :
    d.table.entry? token = some e := by
  induction actions generalizing d with
  | nil => exact he
  | cons a rest ih =>
    have hstay := panicked_run (d := d.after a) hq
    have hone : d.Possible [a] := ⟨hp.1, trivial⟩
    have hway₁ : d.Underway ([a] ++ rest) := hway
    have hle := h.place_le hone hstay hway₁.of_append.1
    have he := ih (h.after hp.1 hstay) hp.2 hq hway.of_cons (Nat.le_trans hplace hle) he
    rw [after_table] at he
    cases hb : d.deed? a with
    | none => simpa [hb, InFlight.State.run] using he
    | some b =>
      rw [hb] at he
      exact (h.lawful.after (h.fits.enabled hp.1 hb)).2.lookup_of_lookup h.lawful.registered
        (h.request?_eq_none hp.1 hb (hway [] _ _ rfl) hplace) he

/-! ### The draining -/

/-- What was outstanding is issued in its order, and what is submitted in time comes behind it. -/
theorem Fits.ledger_run (h : Fits d) (hl : Lawful d.table) (hp : d.Possible actions)
    (hq : (d.run actions).worker.panicked = false) :
    requests (d.deeds actions) ++ (d.run actions).outstanding =
      d.outstanding ++ d.submissions actions := by
  induction actions generalizing d with
  | nil => simp [deeds, requests, run, submissions]
  | cons a rest ih =>
    have hstay := panicked_run (d := d.after a) hq
    have hstep := h.ledger_after hl hp.1 hstay
    have hrest := ih (h.after hl hp.1 hstay) (h.lawful_after hl hp.1) hp.2 hq
    have hrun : d.run (a :: rest) = (d.after a).run rest := rfl
    rw [submissions, ← List.append_assoc, ← hstep, List.append_assoc, ← hrest, hrun, deeds]
    cases hb : d.deed? a with
    | none => simp [requests]
    | some b => cases hr : b.request? <;> simp [requests, hr]

theorem outstanding_of_place (hlt : d.worker.place < 8) :
    d.outstanding = d.jobs.filterMap Job.issue? := by
  have hserved : d.isServed = false := by
    cases hs : d.worker.stage <;> simp [Worker.place, hs] at hlt <;> simp [isServed, hs]
  simp [outstanding, hserved]

/-- How far the worker is with what waited when the pass began: the draining has not begun, or goes
on, or all of it was issued. -/
def Served (d₀ : Duty κ) (actions : List (Action κ)) (d : Duty κ) : Prop :=
  d.worker.place ≤ 2 ∨ (d.worker.place = 3 ∧ d.table.frames ≠ []) ∨
    d₀.outstanding <+: requests (d₀.deeds actions)

theorem Steady.jobs_of_served (h : Steady d) (ha : d.Enabled a)
    (hq : (d.after a).worker.panicked = false) (hserving : d.worker.stage.work = .serving)
    (hne : d.table.frames ≠ []) (hnil : (d.after a).table.frames = []) : (d.after a).jobs = [] := by
  cases a with
  | work answers => exact h.fits.jobs_of_drained h.lawful ha hserving hne hnil
  | leave panic => exact absurd hnil (h.fits.leave_frames_ne_nil h.lawful hserving ha hq)
  | enqueue job => exact absurd ((InFlight.State.quiet_enqueue d.table job).2.symm.trans hnil) hne
  | lower => exact absurd hnil hne

theorem Served.snoc (h : Served d₀ actions (d₀.run actions)) (h₀ : Steady d₀)
    (hp : d₀.Possible (actions ++ [a]))
    (hq : (d₀.run (actions ++ [a])).worker.panicked = false)
    (hway : d₀.Underway (actions ++ [a])) :
    Served d₀ (actions ++ [a]) (d₀.run (actions ++ [a])) := by
  obtain ⟨hp₁, ha, -⟩ := possible_append.mp hp
  have hrun := run_snoc d₀ actions a
  have hs := h₀.run hp₁ (panicked_after (hrun ▸ hq))
  have hlt := hway actions a [] rfl
  have hstep := hs.fits.place_after hs.lawful ha (hrun ▸ hq)
  rcases h with hle | ⟨hthree, hne⟩ | hissued
  · rcases hstep with heq | ⟨answers, rfl, hf, hnext⟩
    · exact .inl (hrun ▸ heq ▸ hle)
    · by_cases htwo : (d₀.run actions).worker.place = 2
      · refine .inr (.inl ⟨by rw [hrun, hnext hlt, htwo], ?_⟩)
        obtain ⟨hstage, hentered⟩ := stage_of_two htwo
        have hwork : (d₀.run actions).after (.work answers) =
            (d₀.run actions).goOn (enter (d₀.run actions).table answers .serve) := by
          rw [← hstage, ← workBetween_enter hlt hentered]
          simp only [Duty.after, Duty.work, hf]
        rw [hrun, hwork]
        exact List.cons_ne_nil _ _
      · refine .inl ?_
        rw [hrun, hnext hlt]
        omega
  · have hserving := serving_of_three hthree
    have hthree' : (d₀.run (actions ++ [a])).worker.place = 3 := by
      rcases hstep with heq | ⟨answers, rfl, hf, -⟩
      · rw [hrun, heq, hthree]
      · exact absurd hf hne
    by_cases hnil : (d₀.run (actions ++ [a])).table.frames = []
    · have hjobs : (d₀.run (actions ++ [a])).jobs = [] :=
        hrun ▸ hs.jobs_of_served ha (hrun ▸ hq) hserving hne (hrun ▸ hnil)
      have hledger := h₀.fits.ledger_run h₀.lawful hp hq
      rw [outstanding_of_place (by omega), hjobs, List.filterMap_nil, List.append_nil] at hledger
      exact .inr (.inr (hledger ▸ List.prefix_append _ _))
    · exact .inr (.inl ⟨hthree', hnil⟩)
  · refine .inr (.inr (hissued.trans ?_))
    simp [deeds_snoc, requests]

theorem Steady.served_run (h : Steady d) (hp : d.Possible actions)
    (hq : (d.run actions).worker.panicked = false) (hway : d.Underway actions)
    (hstart : d.worker.place ≤ 2) : Served d actions (d.run actions) := by
  induction actions using List.reverseRecOn with
  | nil => exact .inl hstart
  | append_singleton actions a ih =>
    have hq₁ := panicked_run (d := d.run actions) (run_append d actions [a] ▸ hq)
    exact (ih (possible_append.mp hp).1 hq₁ hway.of_append.1).snoc h hp hq hway

/-! ### The whole pass -/

theorem Finds.ne_timedOut (h : d.Finds actions e cause) : cause ≠ .timedOut := by
  obtain ⟨-, -, -, report, token, -, -, -, hc⟩ := h
  rintro rfl
  obtain ⟨pre, post, heq, -⟩ := List.lookup_eq_some_iff.mp hc
  have hm : (token, Cause.timedOut) ∈ InFlight.answers report := by simp [heq]
  obtain ⟨⟨_, verdict⟩, -, hr⟩ := List.mem_filterMap.mp hm
  cases verdict <;> simp [Cause.ofVerdict?] at hr

/-- Whose time is over in a run of the worker ran out of it in a run of the table. -/
theorem Steady.timed_run (h : Steady d) (hp : d.Possible actions)
    (hq : (d.run actions).worker.panicked = false) (hb : batchOf d.table.frames = []) :
    Timed d.table (d.deeds actions) (d.run actions).table := by
  induction actions using List.reverseRecOn with
  | nil => exact InFlight.State.timed_nil hb
  | append_singleton actions a ih =>
    obtain ⟨hp₁, ha, -⟩ := possible_append.mp hp
    have hq₁ := panicked_run (d := d.run actions) (run_append d actions [a] ▸ hq)
    have hs := h.run hp₁ hq₁
    have ht := ih hp₁ hq₁
    rw [run_snoc, deeds_snoc, after_table]
    cases hd : (d.run actions).deed? a with
    | none => simpa [InFlight.State.run] using ht
    | some b =>
      have henabled := hs.fits.enabled ha hd
      have hl := hs.lawful
      rw [run_table] at ht henabled hl ⊢
      rw [Option.toList_some, ← InFlight.State.run_append]
      exact ht.snoc hl henabled

theorem hasTable_of_place {w : Worker} (h : w.place < 8) : HasTable w := by
  refine ⟨?_, ?_, ?_⟩ <;> intro hs <;> simp [Worker.place, hs] at h

theorem Steady.accounted (h : Steady d) : Founded d.table ∧ Tallied d.table ∧
    (d.worker.place < 8 → IsComplete d.table) := by
  obtain ⟨capacity, nodelay, earlier, hp, heq⟩ := h.reachable.exists_run
  have hacc := accounted_run capacity nodelay hp
  rw [← heq] at hacc
  exact ⟨hacc.founded, hacc.tallied, fun hlt =>
    hacc.complete.resolve_left fun hc => h.fits.unclosed (hasTable_of_place hlt) hc.2⟩

theorem Steady.called_or_registered (h : Steady d) (hlt : d.worker.place < 8)
    {ticket : Nat} (hticket : ticket < d.table.tickets) :
    (∃ call, d.table.calls.filter (·.ticket = ticket) = [call]) ∨
      ∃ token e, d.table.entry? token = some e ∧ e.ticket = ticket ∧
        token ∈ d.table.watch.registered := by
  have hr := h.lawful.registered
  by_cases hgone : d.table.IsGone ticket
  · exact .inl ((h.accounted.2.2 hlt).called_of_gone hr hticket hgone)
  · obtain ⟨token, e, he, hticket⟩ : ∃ token e, d.table.entry? token = some e ∧
        e.ticket = ticket := by
      simpa [InFlight.State.IsGone] using hgone
    refine .inr ⟨token, e, he, hticket, ?_⟩
    rw [hr.registered]
    exact List.mem_map_of_mem (InFlight.State.mem_entries_of_lookup he)

theorem Steady.possible_deeds (h : Steady d) (hp : d.Possible actions)
    (hq : (d.run actions).worker.panicked = false) : d.table.Possible (d.deeds actions) := by
  induction actions generalizing d with
  | nil => exact trivial
  | cons a rest ih =>
    have hrest := ih (h.after hp.1 (panicked_run hq)) hp.2 hq
    rw [after_table] at hrest
    rw [deeds]
    cases hb : d.deed? a with
    | none => simpa [hb, InFlight.State.run] using hrest
    | some b => exact ⟨h.fits.enabled hp.1 hb, by simpa [hb, InFlight.State.run] using hrest⟩

theorem Begins.issued (h : Begins d) {first : List (Action κ)} (hp : d.Possible first)
    (hq : (d.run first).worker.panicked = false) (hway : d.Underway first)
    (hfour : (d.run first).worker.place = 4) {i : Nat} {request : Request (Tagged κ)}
    (hi : (d.table.queue.filterMap Job.issue?)[i]? = some request) :
    (d.table.tickets + i, request) ∈ (d.run first).table.issues := by
  have hs := h.steady
  have hzero : d.worker.place = 0 := by simp [Worker.place, h.stage, h.entered]
  obtain ⟨more, hmore⟩ : d.outstanding <+: requests (d.deeds first) := by
    have hserved := hs.served_run hp hq hway (by omega)
    rcases hserved with hle | ⟨hthree, -⟩ | hissued
    · omega
    · omega
    · exact hissued
  have houtstanding : d.outstanding = d.table.queue.filterMap Job.issue? := by
    rw [outstanding_of_place (by omega), jobs_of_idle (by simp [h.frames])]
  obtain ⟨capacity, nodelay, earlier, hearlier, heq⟩ := h.reachable.exists_run
  have hbefore := accounted_run capacity nodelay hearlier
  have hafter := accounted_run capacity nodelay (InFlight.State.possible_append.mpr
    ⟨hearlier, heq ▸ hs.possible_deeds hp hq⟩)
  rw [InFlight.State.run_append, ← heq, ← run_table] at hafter
  rw [← heq] at hbefore
  have htickets : d.table.tickets = (requests earlier).length := by
    have hlen := congrArg List.length hbefore.issues_eq
    have hissued := congrArg List.length hbefore.tallied.issued
    simp only [List.length_reverse, List.length_mapIdx, List.length_map, List.length_range]
      at hlen hissued
    omega
  rw [hafter.mem_issues_iff, requests, List.filterMap_append, htickets]
  change (requests earlier ++ requests (d.deeds first))[_]? = _
  rw [List.getElem?_append_right (Nat.le_add_right _ _), Nat.add_sub_cancel_left, ← hmore,
    houtstanding, List.getElem?_append_left (List.getElem?_eq_some_iff.mp hi).1, hi]

section Pass

variable (h : Begins d) (hp : d.IsPass actions)
include h hp

theorem Begins.place_eq : d.worker.place = 0 ∧ (d.run actions).worker.place = 8 :=
  ⟨by simp [Worker.place, h.stage, h.entered], by simp [Worker.place, hp.stage_run]⟩

theorem Begins.underway : d.Underway actions :=
  hp.underway h.steady (by rw [(h.place_eq hp).1]; decide) (hp.not_panicked h.panicked)

theorem Begins.steady_end : Steady (d.run actions) :=
  h.steady.run hp.possible (hp.not_panicked h.panicked)

/-- What is known of a pass where one of its actions is to happen. -/
theorem Begins.steady_before {before rest : List (Action κ)} (heq : actions = before ++ a :: rest) :
    Steady (d.run before) ∧ (d.run before).Enabled a ∧ (d.run before).Possible (a :: rest) ∧
      (d.run before).Underway (a :: rest) ∧
        ((d.run before).run (a :: rest)).worker.panicked = false := by
  have hq := hp.not_panicked h.panicked
  have hway := h.underway hp
  subst heq
  rw [run_append] at hq
  obtain ⟨hbefore, hafter⟩ := possible_append.mp hp.possible
  exact ⟨h.steady.run hbefore (panicked_run hq), hafter.1, hafter, hway.of_append.2, hq⟩

theorem Begins.frames_end : (d.run actions).table.frames = [] :=
  (h.steady_end hp).fits.runs.nil_of_nothing (by rw [hp.stage_run]; rfl)

/-- Whoever is owed something after a step of a pass was called back with it at its end. -/
theorem Begins.called_of_owed {before rest : List (Action κ)} (heq : actions = before ++ a :: rest)
    (ho : Owed ((d.run before).after a).table token e cause) :
    ∃ call, (d.run actions).table.calls.filter (·.ticket = e.ticket) = [call] ∧
      call.continuation = e.continuations.select call.outcome ∧ cause.Gives e call.outcome := by
  obtain ⟨hs, ha, hpossible, -, hq⟩ := h.steady_before hp heq
  have howed := (hs.after ha (panicked_run hq)).owed_run hpossible.2 hq ho
  have hrun : ((d.run before).after a).run rest = d.run actions := by
    rw [heq, run_append]
    rfl
  rw [hrun] at howed
  exact howed.called_once (h.steady_end hp).accounted.2.1 (by rw [h.frames_end hp]; rfl)

theorem Begins.called_of_finds (hf : d.Finds actions e cause) :
    ∃ call, (d.run actions).table.calls.filter (·.ticket = e.ticket) = [call] ∧
      call.continuation = e.continuations.select call.outcome ∧ cause.Gives e call.outcome := by
  obtain ⟨before, answers, rest, report, token, heq, hdeed, he, hc⟩ := hf
  obtain ⟨hs, hanswers, -⟩ := h.steady_before hp heq
  have howed : Owed ((d.run before).after (.work answers)).table token e cause := by
    rw [after_table, hdeed]
    exact hs.lawful.owed_poll (hs.fits.enabled hanswers hdeed) he hc
  exact h.called_of_owed hp heq howed

variable {before rest : List (Action κ)} {expire : Answers}
  (heq : actions = before ++ .work expire :: rest)
  (hdeed : (d.run before).deed? (.work expire) = some (.expire expire.now expire.order))
include heq hdeed

theorem Begins.lt_timeout (he : InFlight.State.entry? (d.run actions).table token = some e) :
    (expire.now.since e.started).nanos < e.timeout.nanos := by
  obtain ⟨hs, -, hpossible, hway, hq⟩ := h.steady_before hp heq
  by_contra hle
  have hold : InFlight.State.entry? (d.run before).table token = some e := by
    refine hs.lookup_of_run hpossible hq hway ?_ ?_
    · rw [(place_of_expire hdeed).2.1]
      decide
    · rwa [heq, run_append] at he
  have howed : Owed ((d.run before).after (.work expire)).table token e .timedOut := by
    rw [after_table, hdeed]
    exact hs.lawful.registered.owed_expire _ hold (Nat.le_of_not_lt hle)
  obtain ⟨call, hcall, -⟩ := h.called_of_owed hp heq howed
  obtain ⟨hm, hticket⟩ := InFlight.State.mem_of_filter_eq_singleton hcall
  have hend := h.steady_end hp
  exact hend.accounted.2.1.gone_of_called hend.lawful.registered hm token e he hticket.symm

/-- Who is called back because of time ran out of it at the one reading of the clock. -/
theorem Begins.runsOut : ∃ news, (d.run actions).table.calls = news ++ d.table.calls ∧
    ∀ call ∈ news, ∀ timeout, call.outcome = .error (.timeout timeout) →
      ∃ token e, InFlight.State.entry? (d.run before).table token = some e ∧
        e.ticket = call.ticket ∧ e.timeout = timeout ∧
          e.timeout.nanos ≤ (expire.now.since e.started).nanos := by
  obtain ⟨hs, hexpire, hpossible, hway, hq⟩ := h.steady_before hp heq
  obtain ⟨hnil, hsix, hseven⟩ := place_of_expire hdeed
  have hstay := panicked_run (d := (d.run before).after (.work expire)) hq
  have hbefore := (possible_append.mp (heq ▸ hp.possible)).1
  have hrest : (d.run before).deeds (.work expire :: rest) =
      .expire expire.now expire.order :: ((d.run before).after (.work expire)).deeds rest := by
    rw [deeds, hdeed]
    rfl
  obtain ⟨earlier, hearlier, hnone⟩ :=
    (h.steady.timed_run hbefore (panicked_run hq) (by rw [h.frames]; rfl)).called
  obtain ⟨later, hlater, hover⟩ := (hs.timed_run hpossible hq (by rw [hnil]; rfl)).called
  refine ⟨later ++ earlier, ?_, fun call hm timeout ho => ?_⟩
  · rw [List.append_assoc, ← hearlier, ← hlater, heq, run_append]
  · rcases List.mem_append.mp hm with hm | hm
    · obtain ⟨token, e, ⟨pre, now, order, post, hsplit, he, hle⟩, hticket, htimeout⟩ :=
        hover call hm timeout ho
      rw [hrest] at hsplit
      cases pre with
      | nil =>
        obtain ⟨hnow, -⟩ := List.cons.inj hsplit
        obtain ⟨rfl, -⟩ := InFlight.Action.expire.inj hnow
        exact ⟨token, e, he, hticket, htimeout, hle⟩
      | cons b pre =>
        obtain ⟨-, hsplit⟩ := List.cons.inj hsplit
        refine absurd ?_ ((hs.after hexpire hstay).not_expire_mem hpossible.2 hq hway.of_cons
          (.inr (Nat.le_of_eq hseven.symm)) now order)
        rw [hsplit]
        exact List.mem_append_right _ List.mem_cons_self
    · obtain ⟨token, e, ⟨pre, now, order, post, hsplit, -⟩, -⟩ := hnone call hm timeout ho
      refine absurd ?_ (h.steady.not_expire_mem hbefore (panicked_run hq)
        (heq ▸ h.underway hp).of_append.1 (.inl (Nat.le_of_eq hsix)) now order)
      rw [hsplit]
      exact List.mem_append_right _ List.mem_cons_self

theorem Begins.ranOut : ∃ news, (d.run actions).table.calls = news ++ d.table.calls ∧
    ∀ call ∈ news, ∀ timeout, call.outcome = .error (.timeout timeout) →
      d.RanOut actions (d.run before).table expire.now call timeout := by
  obtain ⟨hs, -⟩ := h.steady_before hp heq
  obtain ⟨news, hnews, hover⟩ := h.runsOut hp heq hdeed
  refine ⟨news, hnews, fun call hm timeout ho => ?_⟩
  obtain ⟨token, e, he, hticket, rfl, hle⟩ := hover call hm timeout ho
  refine ⟨?_, ⟨token, e, he, hticket, hle⟩, fun e' cause hticket' hf => ?_⟩
  · obtain ⟨request, hissued, -, htimeout, -⟩ :=
      hs.accounted.1.entry _ (InFlight.State.mem_entries_of_lookup he)
    exact ⟨request, hticket ▸ hissued, htimeout.symm⟩
  · obtain ⟨found, hfound, -, hgives⟩ := h.called_of_finds hp hf
    have hmem : call ∈ (d.run actions).table.calls.filter (·.ticket = e'.ticket) := by
      rw [hnews]
      simpa [hticket'] using .inl hm
    rw [hfound, List.mem_singleton] at hmem
    rw [← hmem, ho] at hgives
    exact hf.ne_timedOut hgives.timeout_eq.1

end Pass

/-- A pass of the worker over any table, with anything in the queue and whatever the system answers,
that comes to its end. After it no time is over that was over at its reading of the clock. Who is
called back because of time in it had that time from its own request, was in flight when the clock
was read and out of time then, and neither look of the pass found its handshake over. Whose
handshake a look found over is called back with that, once, also if the time is over. And all that
waited in the queue was issued before the second look, and called back or in flight and watched by
then. -/
theorem Begins.pass_decides (h : Begins d) (hp : d.IsPass actions) :
    ∃ first reconcile second expire rest,
      let middle := first ++ .work reconcile :: second
      actions = middle ++ .work expire :: rest ∧
      (d.run first).deed? (.work reconcile) = some (.poll reconcile.report) ∧
      (d.run middle).deed? (.work expire) = some (.expire expire.now expire.order) ∧
      (∀ token e, InFlight.State.entry? (d.run actions).table token = some e →
        (expire.now.since e.started).nanos < e.timeout.nanos) ∧
      (∃ news, (d.run actions).table.calls = news ++ d.table.calls ∧
        ∀ call ∈ news, ∀ timeout, call.outcome = .error (.timeout timeout) →
          d.RanOut actions (d.run middle).table expire.now call timeout) ∧
      (∀ e cause, d.Finds actions e cause →
        ∃ call, (d.run actions).table.calls.filter (·.ticket = e.ticket) = [call] ∧
          call.continuation = e.continuations.select call.outcome ∧
            cause.Gives e call.outcome) ∧
      ∀ i request, (d.table.queue.filterMap Job.issue?)[i]? = some request →
        let t := (d.run first).table
        let ticket := d.table.tickets + i
        (ticket, request) ∈ t.issues ∧
          ((∃ call, t.calls.filter (·.ticket = ticket) = [call]) ∨
            ∃ token e, t.entry? token = some e ∧ e.ticket = ticket ∧
              token ∈ t.watch.registered) := by
  obtain ⟨hzero, height⟩ := h.place_eq hp
  have hq := hp.not_panicked h.panicked
  obtain ⟨first, reconcile, second, expire, third, last, rest, heq, ⟨hfour, hfour'⟩,
      ⟨hsix, hsix'⟩, -⟩ :=
    h.steady.fits.exists_looks h.steady.lawful hp.possible hq (by omega) (by omega)
  obtain ⟨hreconcile, hn⟩ := stage_of_place.1 hfour
  obtain ⟨hexpire, hn'⟩ := stage_of_place.2.1 hsix
  have hsplit : actions = (first ++ .work reconcile :: second) ++ .work expire ::
      (third ++ .work last :: rest) := by simp [heq]
  have hdeed : (d.run (first ++ .work reconcile :: second)).deed? (.work expire) =
      some (.expire expire.now expire.order) := by
    simp [deed?, hsix', hexpire, hn', Stage.deed?]
  refine ⟨first, reconcile, second, expire, third ++ .work last :: rest, hsplit, ?_, hdeed,
    fun token e he => h.lt_timeout hp hsplit hdeed he, h.ranOut hp hsplit hdeed,
    fun e cause hf => h.called_of_finds hp hf, fun i request hi => ?_⟩
  · simp [deed?, hfour', hreconcile, hn, Stage.deed?]
  · obtain ⟨hfirst, -⟩ := possible_append.mp (heq ▸ hp.possible)
    have hstay := panicked_run (run_append d first _ ▸ heq ▸ hq)
    have hs := h.steady.run hfirst hstay
    have hissued := h.issued hfirst hstay (heq ▸ h.underway hp).of_append.1 hfour hi
    exact ⟨hissued, hs.called_or_registered (by rw [hfour]; decide)
      (hs.accounted.2.1.ticket_lt hissued)⟩

/-- Nobody is given any time. Of two attempts in flight the first is found connected, the one that
waits in the queue is found broken by the second look, and the other one runs out of time. -/
theorem pass_decides_without_time :
    let request (n : Nat) : Request (Tagged Nat) :=
      ⟨"127.0.0.1", 80, .ofMillis 0, some ⟨n, 0⟩, some ⟨n, 1⟩⟩
    let begun : Reply := { connect := some .nowInProgress }
    let d : Duty Nat :=
      { table := (InFlight.State.initial 16 false).run
          [.attempt (request 0) begun .origin, .attempt (request 1) begun .origin,
            .enqueue (.dial (request 2))]
        worker := { stage := .wait } }
    let actions : List (Action Nat) :=
      [.work { report := .ok [(0, .connected)] }, .work {}, .leave none] ++
        List.replicate 4 (.work {}) ++ .work { reply := begun } :: List.replicate 3 (.work {}) ++
        [.work { report := .ok [(2, .failed (.system 111))] }, .work {}, .leave none] ++
        List.replicate 4 (.work {}) ++ .leave none :: List.replicate 2 (.work {})
    d.IsPass actions ∧
      (d.run actions).table.calls.reverse.map (fun call => (call.ticket, call.outcome)) =
        [(0, .ok ⟨0, false⟩), (2, .error (.connectFailed (.system 111))),
          (1, .error (.timeout (.ofMillis 0)))] ∧
      ∃ before now call,
        d.RanOut actions (d.run before).table now call (.ofMillis 0) ∧ call.ticket = 1 := by
  intro request begun d actions
  have hreachable : InFlight.State.Reachable d.table :=
    (InFlight.State.Reachable.initial 16 false).run (by decide)
  have hd : Begins d := ⟨hreachable, by decide, by decide, rfl, rfl, rfl, rfl⟩
  have hp : d.IsPass actions := by decide
  have hcalls : (d.run actions).table.calls.reverse.map (fun call => (call.ticket, call.outcome)) =
      [(0, .ok ⟨0, false⟩), (2, .error (.connectFailed (.system 111))),
        (1, .error (.timeout (.ofMillis 0)))] := by decide
  obtain ⟨first, reconcile, second, expire, rest, -, -, -, -, ⟨news, hnews, hover⟩, -⟩ :=
    hd.pass_decides hp
  obtain ⟨call, hm, heq⟩ := List.mem_map.mp (hcalls ▸ by simp :
    ((1, .error (.timeout (.ofMillis 0))) : Nat × InFlight.Outcome) ∈
      (d.run actions).table.calls.reverse.map fun call => (call.ticket, call.outcome))
  obtain ⟨hticket, houtcome⟩ := Prod.mk.inj heq
  refine ⟨hp, hcalls, _, _, call, hover call ?_ _ houtcome, hticket⟩
  have hnone : d.table.calls = [] := List.length_eq_zero_iff.mp (by decide)
  rw [List.mem_reverse, hnews, hnone, List.append_nil] at hm
  exact hm

/-- A panic that throws again when it is got rid of ends the pass in the middle of a batch. An
attempt that was found connected is aborted when the table is given up. -/
theorem look_lost_in_panic :
    let request : Request (Tagged Nat) := ⟨"127.0.0.1", 80, .ofMillis 0, some ⟨0, 0⟩, some ⟨0, 1⟩⟩
    let begun : Reply := { connect := some .nowInProgress }
    let d : Duty Nat :=
      { table := (InFlight.State.initial 16 false).run
          (.replicate 2 (.attempt request begun .origin))
        worker := { stage := .wait } }
    let report := [(0, Verdict.failed (.system 111)), (1, .connected)]
    let actions : List (Action Nat) :=
      [.work { report := .ok report }, .work {}, .leave (some (.volatile none (.plain none))),
        .work {}, .work {}, .leave none] ++ List.replicate 3 (.work {})
    d.Possible actions ∧ (d.run actions).worker.stage = .gone ∧
      (∃ e, d.Finds actions e .established ∧ e.ticket = 1) ∧
      (d.run actions).table.calls.map (fun call => (call.ticket, call.outcome)) =
        [(1, .error .aborted), (0, .error (.connectFailed (.system 111)))] := by
  intro request begun d report actions
  have hone : (d.table.entry? 1).map (·.ticket) = some 1 := by decide
  have hfree : d.table.frames = [] := List.isEmpty_iff.mp (by decide)
  obtain ⟨e, he, hticket⟩ := Option.map_eq_some_iff.mp hone
  refine ⟨by decide, by decide, ⟨e, ⟨[], { report := .ok report }, _, report, 1, rfl, ?_, he, rfl⟩,
    hticket⟩, by decide⟩
  simp only [run, List.foldl_nil, deed?, hfree]
  rfl

end Duty

end Dialer.Service
