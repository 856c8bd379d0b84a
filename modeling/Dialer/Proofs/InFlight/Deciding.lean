import Dialer.Proofs.InFlight.Resolution

/-!
# Which attempts are aborted

An attempt in flight is decided when a report says that its handshake is over, or when its time is
over. It is then in the batch that is being resolved until it is called back with what decided it,
so that those who are aborted are the others. Only a panic that takes a batch along can leave an
attempt that was decided in flight.
-/

namespace Dialer.InFlight.State

open Readiness (Token)
open Time (Instant)

variable {κ τ : Type}

/-- Whether an action decides the attempt of a request: it is in flight, and its handshake is
reported to be over, or its time is over. -/
def Decides (s : State κ τ) (ticket : Nat) : Action κ τ → Prop
  | .poll (.ok report) => ∃ token e verdict, s.entry? token = some e ∧ e.ticket = ticket ∧
    (token, verdict) ∈ report ∧ verdict ≠ .pending
  | .expire now _ => ∃ token e, s.entry? token = some e ∧ e.ticket = ticket ∧
    e.timeout.nanos ≤ (now.since e.started).nanos
  | _ => False

/-- Whether some action of a sequence decides the attempt of a request. -/
def Decided (s : State κ τ) (actions : List (Action κ τ)) (ticket : Nat) : Prop :=
  ∃ before a rest, actions = before ++ a :: rest ∧ (s.run before).Decides ticket a

/-- Whether the attempt of a request is in flight at some point of a sequence of actions. -/
def Tracked (s : State κ τ) (actions : List (Action κ τ)) (ticket : Nat) : Prop :=
  ∃ before rest, actions = before ++ rest ∧ ¬ (s.run before).IsGone ticket

/-- Whether an action leaves the batch in progress to those who resolve it: if foreign code ends,
the batch below it is still there. -/
def KeepsBatch (s : State κ τ) (a : Action κ τ) : Prop :=
  ∀ panic, a = .leave panic → batchOf (s.leave panic).frames = batchOf s.frames

variable {s t s₀ : State κ τ} {actions : List (Action κ τ)} {a : Action κ τ} {ticket : Nat}
  {token : Token} {cause : Cause} {e : Entry κ}

theorem decided_snoc : s.Decided (actions ++ [a]) ticket ↔
    s.Decided actions ticket ∨ (s.run actions).Decides ticket a := by
  constructor
  · rintro ⟨before, x, rest, heq, hx⟩
    rcases List.eq_nil_or_concat rest with rfl | ⟨rest, y, rfl⟩
    · obtain ⟨rfl, hlast⟩ := List.append_inj' heq rfl
      obtain rfl := (List.cons.inj hlast).1
      exact .inr hx
    · rw [List.concat_eq_append, ← List.cons_append, ← List.append_assoc] at heq
      exact .inl ⟨before, x, rest, (List.append_inj' heq rfl).1, hx⟩
  · rintro (⟨before, x, rest, rfl, hx⟩ | ha)
    · exact ⟨before, x, rest ++ [a], by simp, hx⟩
    · exact ⟨actions, a, [], rfl, ha⟩

theorem tracked_snoc : s.Tracked (actions ++ [a]) ticket ↔
    s.Tracked actions ticket ∨ ¬ (s.run (actions ++ [a])).IsGone ticket := by
  constructor
  · rintro ⟨before, rest, heq, hx⟩
    rcases List.eq_nil_or_concat rest with rfl | ⟨rest, y, rfl⟩
    · rw [List.append_nil] at heq
      exact .inr (heq ▸ hx)
    · rw [List.concat_eq_append, ← List.append_assoc] at heq
      exact .inl ⟨before, rest, (List.append_inj' heq rfl).1, hx⟩
  · rintro (⟨before, rest, rfl, hx⟩ | ha)
    · exact ⟨before, rest ++ [a], by simp, hx⟩
    · exact ⟨actions ++ [a], [], by simp, ha⟩

theorem not_decided_nil : ¬ s.Decided [] ticket := fun ⟨before, a, rest, heq, _⟩ => by simp at heq

theorem decided_singleton : s.Decided [a] ticket ↔ s.Decides ticket a := by
  have h := @decided_snoc κ τ s [] a ticket
  exact h.trans (or_iff_right not_decided_nil)

theorem decided_append (xs ys : List (Action κ τ)) : s.Decided (xs ++ ys) ticket ↔
    s.Decided xs ticket ∨ (s.run xs).Decided ys ticket := by
  induction ys using List.reverseRecOn with
  | nil =>
    rw [List.append_nil]
    exact (or_iff_left not_decided_nil).symm
  | append_singleton ys a ih =>
    rw [← List.append_assoc, decided_snoc, decided_snoc, ih, run_append, or_assoc]

theorem not_isGone_of_entry (he : s.entry? token = some e) : ¬ s.IsGone e.ticket :=
  fun h => h token e he rfl

theorem Decides.not_isGone (h : s.Decides ticket a) : ¬ s.IsGone ticket := by
  cases a with
  | poll report =>
    cases report with
    | ok report =>
      obtain ⟨token, e, verdict, he, rfl, -⟩ := h
      exact not_isGone_of_entry he
    | error fault => exact h.elim
  | expire now order =>
    obtain ⟨token, e, he, rfl, -⟩ := h
    exact not_isGone_of_entry he
  | _ => exact h.elim

theorem Decided.tracked (h : s.Decided actions ticket) : s.Tracked actions ticket := by
  obtain ⟨before, a, rest, rfl, ha⟩ := h
  exact ⟨before, a :: rest, rfl, ha.not_isGone⟩

/-! ### Tickets -/

theorem Tallied.gone_of_called (h : Tallied s) (hr : Registered s) {call : Call κ}
    (hm : call ∈ s.calls) : s.IsGone call.ticket := by
  have honce := h.once call.ticket
  have hcalled : 0 < (s.calls.map (·.ticket)).count call.ticket :=
    List.count_pos_iff.mpr (List.mem_map_of_mem hm)
  rw [tally] at honce
  rw [isGone_iff hr]
  split at honce <;> omega

theorem Tallied.lt_of_not_isGone (h : Tallied s) (hr : Registered s) (hg : ¬ s.IsGone ticket) :
    ticket < s.tickets := by
  have honce := h.once ticket
  rw [isGone_iff hr] at hg
  rw [tally] at honce
  by_contra hlt
  rw [if_neg hlt] at honce
  omega

theorem Tallied.token_unique (h : Tallied s) {token' : Token} {e' : Entry κ}
    (he : s.entry? token = some e) (he' : s.entry? token' = some e') (ht : e.ticket = e'.ticket) :
    token = token' := by
  have honce := h.once e'.ticket
  have hlen : (s.entries.filter (·.2.ticket = e'.ticket)).length ≤ 1 := by
    rw [length_filter_eq_count (fun p : Token × Entry κ => p.2.ticket)]
    rw [tally] at honce
    split at honce <;> omega
  have hm : ∀ {token : Token} {e : Entry κ}, s.entry? token = some e → e.ticket = e'.ticket →
      (token, e) ∈ s.entries.filter (·.2.ticket = e'.ticket) := fun he ht => by
    simpa using ⟨mem_entries_of_lookup he, ht⟩
  have h₁ := hm he ht
  have h₂ := hm he' rfl
  obtain ⟨p, hp⟩ := List.length_eq_one_iff.mp
    (Nat.le_antisymm hlen (List.length_pos_of_mem h₁))
  rw [hp, List.mem_singleton] at h₁ h₂
  exact (Prod.mk.inj (h₁.trans h₂.symm)).1

/-! ### Batches -/

theorem Registered.relevant_eq (h : Registered s) (report : List (Token × Verdict)) :
    s.relevant report = report.filter (s.isPending ·.1) := by
  refine List.filter_congr fun r hm => ?_
  by_cases hp : s.isPending r.1
  · have htoken : r.1 ∈ s.tokens := isPending_iff_mem_tokens.mp hp
    have hheard : r.1 ∈ s.watch.heard (report.map (·.1)) := by
      rw [Readiness.Watch.heard, List.mem_filter]
      refine ⟨List.mem_map_of_mem hm, decide_eq_true ⟨?_, h.registered ▸ htoken⟩⟩
      exact fun heq => h.not_wake (heq ▸ htoken)
    exact (decide_eq_true ⟨hheard, hp⟩).trans hp.symm
  · exact (decide_eq_false fun hr => hp hr.2).trans (Bool.eq_false_iff.mpr hp).symm

theorem Registered.mem_finished (h : Registered s) {report : List (Token × Verdict)} :
    (token, cause) ∈ s.finished report ↔ s.isPending token ∧
      ∃ verdict, (token, verdict) ∈ report ∧ Cause.ofVerdict? verdict = some cause := by
  simp only [finished, h.relevant_eq, List.mem_filterMap, List.mem_filter, Prod.exists]
  constructor
  · rintro ⟨k, verdict, ⟨hm, hp⟩, heq⟩
    obtain ⟨c, hc, heq⟩ := Option.map_eq_some_iff.mp heq
    obtain ⟨rfl, rfl⟩ := Prod.mk.inj heq
    exact ⟨hp, verdict, hm, hc⟩
  · rintro ⟨hp, verdict, hm, hc⟩
    exact ⟨token, verdict, ⟨hm, hp⟩, by simp [hc]⟩

theorem Registered.mem_due (h : Registered s) {now : Instant} :
    (token, cause) ∈ s.due now ↔ cause = .timedOut ∧
      ∃ e, s.entry? token = some e ∧ e.timeout.nanos ≤ (now.since e.started).nanos := by
  simp only [due, List.mem_map, List.mem_filter, Prod.exists, decide_eq_true_eq]
  constructor
  · rintro ⟨k, e, ⟨hm, hle⟩, heq⟩
    obtain ⟨rfl, rfl⟩ := Prod.mk.inj heq
    exact ⟨rfl, e, h.entry?_of_mem hm, hle⟩
  · rintro ⟨rfl, e, he, hle⟩
    exact ⟨token, e, ⟨mem_entries_of_lookup he, hle⟩, rfl⟩

theorem Effect.tickets_le (he : Effect s a t) : s.tickets ≤ t.tickets := by
  cases he with
  | quiet _ h => exact Nat.le_of_eq h.tickets.symm
  | answered _ h => exact h.tickets ▸ Nat.le_succ _
  | begun _ h => exact h.tickets ▸ Nat.le_succ _
  | concluded _ _ h => exact Nat.le_of_eq h.tickets.symm
  | emptied _ h => exact Nat.le_of_eq h.tickets.symm

theorem exists_cause {verdict : Verdict} (h : verdict ≠ .pending) :
    ∃ cause, Cause.ofVerdict? verdict = some cause := by
  cases verdict with
  | connected => exact ⟨_, rfl⟩
  | pending => exact absurd rfl h
  | failed fault => exact ⟨_, rfl⟩

theorem ofVerdict?_ne_aborted {verdict : Verdict} (h : Cause.ofVerdict? verdict = some cause) :
    verdict ≠ .pending ∧ cause ≠ .aborted := by
  cases verdict with
  | connected => exact ⟨by simp, by rintro rfl; simp [Cause.ofVerdict?] at h⟩
  | pending => simp [Cause.ofVerdict?] at h
  | failed fault => exact ⟨by simp, by rintro rfl; simp [Cause.ofVerdict?] at h⟩

/-- Whoever is decided by an action is in the batch that it puts together. -/
theorem Decides.mem_batch (hr : Registered s) (ht : Tallied s) (hd : s.Decides e.ticket a)
    (he : s.entry? token = some e) : ∃ cause, (token, cause) ∈ batchOf (s.after a).frames := by
  cases a with
  | poll report =>
    cases report with
    | ok report =>
      obtain ⟨k, e', verdict, he', heq, hm, hv⟩ := hd
      obtain rfl := ht.token_unique he' he heq
      obtain ⟨cause, hc⟩ := exists_cause hv
      exact ⟨cause, hr.mem_finished.mpr ⟨by simp [isPending, he], verdict, hm, hc⟩⟩
    | error fault => exact hd.elim
  | expire now order =>
    obtain ⟨k, e', he', heq, hle⟩ := hd
    obtain rfl := ht.token_unique he' he heq
    exact ⟨.timedOut, mem_arrange.mpr (hr.mem_due.mpr ⟨rfl, e', he', hle⟩)⟩
  | _ => exact hd.elim

theorem Lawful.batchOf_of_isFree (h : Lawful s) (hf : s.isFree) : batchOf s.frames = [] :=
  (rests_of_isFree h.ordered.stacked hf).batchOf_eq

theorem Lawful.batchOf_of_decides (h : Lawful s) (ha : a.Enabled s) (hd : s.Decides ticket a) :
    batchOf s.frames = [] := by
  cases a with
  | poll report => exact h.batchOf_of_isFree ha.1
  | expire now order => exact h.batchOf_of_isFree ha.1
  | _ => exact hd.elim

/-- While a batch is being resolved, it stays as it is with all attempts, or its first item has its
turn. -/
theorem Lawful.batch_cases (h : Lawful s) (ha : a.Enabled s) (hk : s.KeepsBatch a)
    (hb : batchOf s.frames ≠ []) :
    (batchOf (s.after a).frames = batchOf s.frames ∧ (s.after a).entries = s.entries) ∨
      ∃ release r batch rest, a = .advance release ∧
        s.frames = .settling (r :: batch) :: rest := by
  have hfree : ¬ s.isFree := fun hf => hb (h.batchOf_of_isFree hf)
  cases Meanwhile.of_enabled ha hfree with
  | leave panic =>
    refine .inl ⟨hk panic rfl, ?_⟩
    cases (h.leave ha panic).2 with
    | quiet _ hq => exact hq.entries
    | answered ha' _ => cases ha'
    | begun ha' _ => cases ha'
    | concluded ha' _ _ => cases ha'
    | emptied _ _ _ ht _ =>
      -- Nothing is left of the frames, and so of the batch either.
      rw [← hk panic rfl, ht] at hb
      exact absurd rfl hb
  | advance release hn =>
    obtain ⟨f, rest, hs⟩ := List.exists_cons_of_ne_nil (show s.frames ≠ [] by simpa using ha.1)
    cases f with
    | settling batch =>
      cases batch with
      | nil => simp [hs, batchOf] at hb
      | cons r batch => exact .inr ⟨release, r, batch, rest, rfl, hs⟩
    | draining taken => simp [hs, batchOf] at hb
    | closing => simp [hs, batchOf] at hb
    | task job => exact absurd (isForeign_iff.mpr ⟨_, _, hs, rfl⟩) hn
    | calling call => exact absurd (isForeign_iff.mpr ⟨_, _, hs, rfl⟩) hn
  | outside ho =>
    obtain ⟨hq, hf, -⟩ := quiet_outside ho
    exact .inl ⟨congrArg batchOf hf, hq.entries⟩

theorem Lawful.batch_kept (h : Lawful s) (ha : a.Enabled s) (hk : s.KeepsBatch a)
    {r : Token × Cause} (hr : r ∈ batchOf s.frames) : r ∈ batchOf (s.after a).frames ∨
      ∃ release batch rest, a = .advance release ∧
        s.frames = .settling (r :: batch) :: rest := by
  rcases h.batch_cases ha hk (List.ne_nil_of_mem hr) with
    ⟨heq, -⟩ | ⟨release, ⟨token, cause⟩, batch, rest, rfl, hs⟩
  · exact .inl (heq ▸ hr)
  · rw [hs, batchOf, List.mem_cons] at hr
    rcases hr with rfl | hr
    · exact .inr ⟨release, batch, rest, rfl, hs⟩
    · refine .inl ?_
      rcases h.advance_settling_cases hs release with ⟨-, heq⟩ | ⟨e, call, -, hcon⟩
      · simp only [State.after, heq]
        exact hr
      · simp only [State.after, hcon.frames]
        exact hr

/-! ### Runs -/

/-- How the attempts that were decided stand: those still in flight are in the batch, a batch aborts
those that were not decided and no others, and so it is with those that were called back. -/
structure Judged (s₀ : State κ τ) (actions : List (Action κ τ)) (s : State κ τ) : Prop where
  tracked_lt : ∀ ticket, s₀.Tracked actions ticket → ticket < s.tickets
  batched : ∀ token e, s.entry? token = some e → s₀.Decided actions e.ticket →
    ∃ cause, (token, cause) ∈ batchOf s.frames
  cause : ∀ token cause, (token, cause) ∈ batchOf s.frames → ∀ e, s.entry? token = some e →
    (cause = .aborted ↔ ¬ s₀.Decided actions e.ticket)
  called : ∀ call ∈ s.calls, (call.outcome = .error .aborted ↔
    s₀.Tracked actions call.ticket ∧ ¬ s₀.Decided actions call.ticket)

theorem judged_nil (he : s.entries = []) (hc : s.calls = []) : Judged s [] s where
  tracked_lt := by
    rintro ticket ⟨before, rest, heq, hg⟩
    obtain ⟨rfl, rfl⟩ := List.nil_eq_append_iff.mp heq
    have hgone : s.IsGone ticket := fun token e h =>
      absurd (mem_entries_of_lookup h) (by simp [he])
    exact absurd hgone hg
  batched := fun token e h => absurd (mem_entries_of_lookup h) (by simp [he])
  cause := fun token cause _ e h => absurd (mem_entries_of_lookup h) (by simp [he])
  called := by
    rw [hc]
    exact fun _ h => absurd h List.not_mem_nil

theorem Effect.entry?_before (he : Effect s a t) (hr : Registered s) (h : t.entry? token = some e)
    (hlt : e.ticket < s.tickets) : s.entry? token = some e :=
  hr.entry?_of_mem ((he.entries_cases _ (mem_entries_of_lookup h)).resolve_right
    (Nat.ne_of_lt hlt))

/-- A batch that is being resolved was put together after the last decision. -/
theorem Lawful.decided_of_batch (h : Lawful (s₀.run actions)) (ha : a.Enabled (s₀.run actions))
    {r : Token × Cause} (hr : r ∈ batchOf (s₀.run actions).frames) :
    s₀.Decided (actions ++ [a]) ticket ↔ s₀.Decided actions ticket := by
  rw [decided_snoc]
  refine or_iff_left fun hd => ?_
  simp [h.batchOf_of_decides ha hd] at hr

section Snoc

variable (h : Judged s₀ actions (s₀.run actions)) (hacc : Accounted s₀ actions (s₀.run actions))
  (ha : a.Enabled (s₀.run actions)) (hk : (s₀.run actions).KeepsBatch a)
include h hacc ha

include hk in
theorem Judged.batched_after (he : State.entry? (s₀.run (actions ++ [a])) token = some e)
    (hd : s₀.Decided (actions ++ [a]) e.ticket) :
    ∃ cause, (token, cause) ∈ batchOf (s₀.run (actions ++ [a])).frames := by
  obtain ⟨hl, heff⟩ := hacc.lawful.after ha
  have hr := hacc.lawful.registered
  rw [run_snoc] at he ⊢
  rw [decided_snoc] at hd
  have hlt : e.ticket < (s₀.run actions).tickets := by
    rcases hd with hd | hd
    · exact h.tracked_lt _ hd.tracked
    · exact hacc.tallied.lt_of_not_isGone hr hd.not_isGone
  have hold := heff.entry?_before hr he hlt
  rcases hd with hd | hd
  · obtain ⟨cause, hm⟩ := h.batched token e hold hd
    rcases hacc.lawful.batch_kept ha hk hm with hm | ⟨release, batch, rest, rfl, hf⟩
    · exact ⟨cause, hm⟩
    · -- Its turn has come, so that it is not in flight any more.
      rcases hacc.lawful.advance_settling_cases hf release with ⟨hnone, -⟩ | ⟨e', call, -, hcon⟩
      · simp [hnone] at hold
      · have := mem_entries_of_lookup he
        simp only [State.after, hcon.entries] at this
        simp at this
  · exact hd.mem_batch hr hacc.tallied hold

theorem Judged.cause_after (hm : (token, cause) ∈ batchOf (s₀.run (actions ++ [a])).frames)
    (he : State.entry? (s₀.run (actions ++ [a])) token = some e) :
    cause = .aborted ↔ ¬ s₀.Decided (actions ++ [a]) e.ticket := by
  obtain ⟨hl, heff⟩ := hacc.lawful.after ha
  have hr := hacc.lawful.registered
  rw [run_snoc] at he hm
  have hn : a.request? = none := by
    cases a with
    | attempt request reply now => simp [hacc.lawful.batchOf_attempt ha] at hm
    | _ => rfl
  have hold := heff.lookup_of_lookup hr hn he
  rcases hacc.lawful.batchOf_after ha hm with
    hm | ⟨report, rfl, hm⟩ | ⟨now, order, rfl, hdue⟩ | ⟨order, hwhy, rfl⟩
  · rw [hacc.lawful.decided_of_batch ha hm]
    exact h.cause token cause hm e hold
  · obtain ⟨-, verdict, hm, hc⟩ := hr.mem_finished.mp hm
    obtain ⟨hv, hne⟩ := ofVerdict?_ne_aborted hc
    refine iff_of_false hne (not_not.mpr (decided_snoc.mpr (.inr ?_)))
    exact ⟨token, e, verdict, hold, rfl, hm, hv⟩
  · obtain ⟨rfl, e', he', hle⟩ := hr.mem_due.mp hdue
    obtain rfl := Option.some.inj (he'.symm.trans hold)
    refine iff_of_false (by simp) (not_not.mpr (decided_snoc.mpr (.inr ?_)))
    exact ⟨token, e', hold, rfl, hle⟩
  · -- Nothing was decided and not resolved when all are aborted.
    refine iff_of_true rfl fun hd => ?_
    have hbatch : batchOf (s₀.run actions).frames = [] := by
      rcases hwhy with rfl | rfl
      · exact hacc.lawful.batchOf_of_isFree ha.1
      · have hf : (s₀.run actions).frames = [] := by simpa using ha.1
        rw [hf]
        rfl
    rcases decided_snoc.mp hd with hd | hd
    · obtain ⟨c, hm⟩ := h.batched token e hold hd
      simp [hbatch] at hm
    · rcases hwhy with rfl | rfl <;> exact hd.elim

theorem Judged.called_after {call : Call κ} (hm : call ∈ (s₀.run (actions ++ [a])).calls) :
    call.outcome = .error .aborted ↔ s₀.Tracked (actions ++ [a]) call.ticket ∧
      ¬ s₀.Decided (actions ++ [a]) call.ticket := by
  obtain ⟨hl, heff⟩ := hacc.lawful.after ha
  have hr := hacc.lawful.registered
  have hgone' : (s₀.run (actions ++ [a])).IsGone call.ticket := by
    rw [run_snoc] at hm ⊢
    exact (hacc.tallied.effect hr heff).gone_of_called hl.registered hm
  have htracked : s₀.Tracked (actions ++ [a]) call.ticket ↔ s₀.Tracked actions call.ticket := by
    rw [tracked_snoc]
    exact or_iff_left (not_not.mpr hgone')
  rw [htracked]
  have hold : call ∈ (s₀.run actions).calls → (call.outcome = .error .aborted ↔
      s₀.Tracked actions call.ticket ∧ ¬ s₀.Decided (actions ++ [a]) call.ticket) := by
    intro hm
    have hdecided : s₀.Decided (actions ++ [a]) call.ticket ↔ s₀.Decided actions call.ticket := by
      rw [decided_snoc]
      exact or_iff_left fun hd => hd.not_isGone (hacc.tallied.gone_of_called hr hm)
    rw [hdecided]
    exact h.called call hm
  rw [run_snoc] at hm
  cases heff with
  | quiet _ hq => exact hold (hq.calls ▸ hm)
  | emptied _ hem => exact hold (hem.calls ▸ hm)
  | begun _ hb => exact hold (hb.calls ▸ hm)
  | answered _ hans =>
    rw [hans.calls, List.mem_cons] at hm
    rcases hm with rfl | hm
    · refine iff_of_false ?_ fun ht => ?_
      · rcases hans.outcome with ⟨nodelay, hout, -⟩ | ⟨error, -, hout⟩ | ⟨fault, -, hout⟩ <;>
          simp [hout]
      · exact Nat.ne_of_lt (h.tracked_lt _ ht.1) hans.ticket
    · exact hold hm
  | @concluded _ token cause _ _ _ _ _ hf hcon =>
    rw [hcon.calls, List.mem_cons] at hm
    rcases hm with rfl | hm
    · have hb : (token, cause) ∈ batchOf (s₀.run actions).frames := by
        rw [hf]
        exact List.mem_cons_self
      rw [hcon.outcome.aborted_iff, hcon.ticket, hacc.lawful.decided_of_batch ha hb,
        h.cause _ _ hb _ hcon.entry]
      exact (and_iff_right ⟨actions, [], by simp, not_isGone_of_entry hcon.entry⟩).symm
    · exact hold hm

include hk in
theorem Judged.snoc : Judged s₀ (actions ++ [a]) (s₀.run (actions ++ [a])) where
  tracked_lt := by
    intro ticket ht
    obtain ⟨hl, heff⟩ := hacc.lawful.after ha
    rcases tracked_snoc.mp ht with ht | hg
    · rw [run_snoc]
      exact Nat.lt_of_lt_of_le (h.tracked_lt ticket ht) heff.tickets_le
    · rw [run_snoc] at hg ⊢
      exact (hacc.tallied.effect hacc.lawful.registered heff).lt_of_not_isGone hl.registered hg
  batched := fun _ _ he hd => h.batched_after hacc ha hk he hd
  cause := fun _ _ hm _ he => h.cause_after hacc ha hm he
  called := fun _ hm => h.called_after hacc ha hm

end Snoc

end Dialer.InFlight.State
