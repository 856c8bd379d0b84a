import Dialer.Proofs.InFlight.Reports

/-!
# What attempts are owed

Once an attempt is in a batch, what it will be called back with is settled: whatever happens next,
it stays there with its cause until its turn comes, and the call that it then gets stays on record.
Nobody is called back because of its time but those whose time was over when the clock was read.
-/

namespace Dialer.InFlight

open Readiness (Token)
open Time (Duration Instant)

variable {κ τ : Type}

/-- Only the end of its time gives that an attempt timed out, and it is its own time. -/
theorem Cause.Gives.timeout_eq {e : Entry κ} {cause : Cause} {timeout : Duration}
    (h : cause.Gives e (.error (.timeout timeout))) : cause = .timedOut ∧ e.timeout = timeout := by
  cases cause with
  | established =>
    obtain ⟨nodelay, hok⟩ := h
    cases hok
  | broken fault => cases h
  | timedOut => exact ⟨rfl, (Failure.timeout.inj (Except.error.inj h)).symm⟩
  | aborted => cases h

namespace State

/-- The outcome of an attempt is settled: it is in flight and the batch names it with the cause
first, or it was called back with what the cause gives. -/
inductive Owed (s : State κ τ) (token : Token) (e : Entry κ) (cause : Cause) : Prop
  | waits (he : s.entry? token = some e) (hb : (batchOf s.frames).lookup token = some cause)
  | called (call : Call κ) (hm : call ∈ s.calls) (ht : call.ticket = e.ticket)
      (hc : call.continuation = e.continuations.select call.outcome)
      (hg : cause.Gives e call.outcome)

variable {s t s₀ : State κ τ} {a : Action κ τ} {actions : List (Action κ τ)} {token : Token}
  {e : Entry κ} {cause : Cause}

theorem Owed.after (h : Owed s token e cause) (hl : Lawful s) (ha : a.Enabled s)
    (hk : s.KeepsBatch a) : Owed (s.after a) token e cause := by
  cases h with
  | called call hm ht hc hg => exact .called call ((hl.after ha).2.calls_subset call hm) ht hc hg
  | waits he hb =>
    have hne : batchOf s.frames ≠ [] := fun hnil => by simp [hnil] at hb
    rcases hl.batch_cases ha hk hne with
      ⟨heq, hentries⟩ | ⟨release, ⟨k, c⟩, batch, rest, rfl, hs⟩
    · exact .waits ((entry?_congr hentries token).trans he) (heq ▸ hb)
    · rw [hs, batchOf, List.lookup_cons] at hb
      by_cases hk : token = k
      · -- It is its turn now.
        subst hk
        obtain rfl : c = cause := by simpa using hb
        rcases hl.advance_settling_cases hs release with ⟨hnone, -⟩ | ⟨e', call, -, hcon⟩
        · simp [hnone] at he
        · obtain rfl := Option.some.inj (hcon.entry.symm.trans he)
          refine .called call ?_ hcon.ticket hcon.continuation hcon.outcome
          exact hcon.calls ▸ List.mem_cons_self
      · rw [beq_false_of_ne hk] at hb
        rcases hl.advance_settling_cases hs release with ⟨-, heq⟩ | ⟨e', call, -, hcon⟩
        · simp only [State.after, heq]
          exact .waits he hb
        · refine .waits ?_ ?_
          · rw [State.after, State.entry?, hcon.entries, lookup_filter_ne, if_neg hk]
            exact he
          · simp only [State.after, hcon.frames]
            exact hb

theorem Lawful.owed_poll (h : Lawful s) {report : List (Token × Verdict)}
    (ha : (Action.poll (.ok report)).Enabled s) (he : s.entry? token = some e)
    (hc : (answers report).lookup token = some cause) :
    Owed (s.after (.poll (.ok report))) token e cause := by
  obtain ⟨-, hq, -, hframes⟩ := h.poll_spec ha
  have hp : s.isPending token := by simp [isPending, he]
  refine .waits ((entry?_congr hq.entries token).trans he) ?_
  rw [hframes, batchOf, h.registered.lookup_finished report hp, hc]

/-- Whose time is over at a reading of the clock is owed that, whatever comes next. -/
theorem Registered.owed_expire (h : Registered s) {now : Instant} (order : List Token)
    (he : s.entry? token = some e) (hle : e.timeout.nanos ≤ (now.since e.started).nanos) :
    Owed (s.after (.expire now order)) token e .timedOut := by
  refine .waits he ?_
  change (arrange order (s.due now)).lookup token = some .timedOut
  have hm : (token, Cause.timedOut) ∈ arrange order (s.due now) :=
    mem_arrange.mpr (h.mem_due.mpr ⟨rfl, e, he, hle⟩)
  cases hlookup : (arrange order (s.due now)).lookup token with
  | none => exact absurd hlookup (mem_map_iff_lookup.mp (List.mem_map_of_mem hm))
  | some cause =>
    obtain ⟨xs, ys, heq, -⟩ := List.lookup_eq_some_iff.mp hlookup
    have hmem : (token, cause) ∈ arrange order (s.due now) := by simp [heq]
    rw [(h.mem_due.mp (mem_arrange.mp hmem)).1]

theorem Tallied.calls_filter (h : Tallied s) {call : Call κ} (hm : call ∈ s.calls) :
    s.calls.filter (·.ticket = call.ticket) = [call] := by
  have hmem : call ∈ s.calls.filter (·.ticket = call.ticket) := by simpa using hm
  have hlen : (s.calls.filter (·.ticket = call.ticket)).length ≤ 1 := by
    have honce := h.once call.ticket
    rw [length_filter_eq_count fun c : Call κ => c.ticket]
    rw [tally] at honce
    split at honce <;> omega
  obtain ⟨only, honly⟩ := List.length_eq_one_iff.mp
    (Nat.le_antisymm hlen (List.length_pos_of_mem hmem))
  rw [honly, List.mem_singleton] at hmem
  rw [honly, hmem]

theorem Owed.called_once (h : Owed s token e cause) (ht : Tallied s)
    (hb : batchOf s.frames = []) :
    ∃ call, s.calls.filter (·.ticket = e.ticket) = [call] ∧
      call.continuation = e.continuations.select call.outcome ∧ cause.Gives e call.outcome := by
  cases h with
  | waits _ hlookup => simp [hb] at hlookup
  | called call hm hticket hc hg => exact ⟨call, hticket ▸ ht.calls_filter hm, hc, hg⟩

/-! ### Time -/

/-- Whether the clock is read at a time when that of an attempt in flight is over. -/
def RunsOut (s : State κ τ) (actions : List (Action κ τ)) (token : Token) (e : Entry κ) : Prop :=
  ∃ before now order rest, actions = before ++ .expire now order :: rest ∧
    State.entry? (s.run before) token = some e ∧ e.timeout.nanos ≤ (now.since e.started).nanos

theorem RunsOut.append (h : s.RunsOut actions token e) (more : List (Action κ τ)) :
    s.RunsOut (actions ++ more) token e := by
  obtain ⟨before, now, order, rest, rfl, h⟩ := h
  exact ⟨before, now, order, rest ++ more, by simp, h⟩

/-- Who is called back because of its time since `s₀`, or is going to be, ran out of it since. -/
structure Timed (s₀ : State κ τ) (actions : List (Action κ τ)) (s : State κ τ) : Prop where
  batch : ∀ token e, (token, .timedOut) ∈ batchOf s.frames → s.entry? token = some e →
    s₀.RunsOut actions token e
  called : ∃ news, s.calls = news ++ s₀.calls ∧
    ∀ call ∈ news, ∀ timeout, call.outcome = .error (.timeout timeout) →
      ∃ token e, s₀.RunsOut actions token e ∧ e.ticket = call.ticket ∧ e.timeout = timeout

theorem timed_nil (hb : batchOf s.frames = []) : Timed s [] s where
  batch := fun token e hm => by simp [hb] at hm
  called := ⟨[], rfl, fun call hm => absurd hm List.not_mem_nil⟩

section Snoc

variable (h : Timed s₀ actions (s₀.run actions)) (hl : Lawful (s₀.run actions))
  (ha : a.Enabled (s₀.run actions))
include h hl ha

theorem Timed.batch_snoc (hm : (token, .timedOut) ∈ batchOf ((s₀.run actions).after a).frames)
    (he : State.entry? ((s₀.run actions).after a) token = some e) :
    s₀.RunsOut (actions ++ [a]) token e := by
  have hn : a.request? = none := by
    cases a with
    | attempt request reply now => simp [hl.batchOf_attempt ha] at hm
    | _ => rfl
  have he := (hl.after ha).2.lookup_of_lookup hl.registered hn he
  rcases hl.batchOf_after ha hm with hm | ⟨report, rfl, hm⟩ | ⟨now, order, rfl, hdue⟩ |
    ⟨-, -, hc⟩
  · exact (h.batch token e hm he).append [a]
  · obtain ⟨-, verdict, -, hc⟩ := hl.registered.mem_finished.mp hm
    cases verdict <;> cases hc
  · obtain ⟨-, e', he', hle⟩ := hl.registered.mem_due.mp hdue
    obtain rfl := Option.some.inj (he'.symm.trans he)
    exact ⟨actions, now, order, [], rfl, he, hle⟩
  · cases hc

/-- A call that is new and says that the time is over is for an attempt of the batch. -/
theorem Timed.called_snoc {call : Call κ} {timeout : Time.Duration}
    (hc : ((s₀.run actions).after a).calls = call :: (s₀.run actions).calls)
    (ho : call.outcome = .error (.timeout timeout)) :
    ∃ token e, s₀.RunsOut (actions ++ [a]) token e ∧ e.ticket = call.ticket ∧
      e.timeout = timeout := by
  cases (hl.after ha).2 with
  | quiet _ hq => exact absurd (hq.calls.symm.trans hc) (List.cons_ne_self _ _).symm
  | begun _ hb => exact absurd (hb.calls.symm.trans hc) (List.cons_ne_self _ _).symm
  | emptied _ hem => exact absurd (hem.calls.symm.trans hc) (List.cons_ne_self _ _).symm
  | answered _ hans =>
    obtain ⟨rfl, -⟩ := List.cons.inj (hans.calls.symm.trans hc)
    rcases hans.outcome with ⟨_, hc, -⟩ | ⟨_, -, hc⟩ | ⟨_, -, hc⟩ <;> simp [hc] at ho
  | @concluded _ token cause batch rest e call _ hf hcon =>
    obtain ⟨rfl, -⟩ := List.cons.inj (hcon.calls.symm.trans hc)
    have hg := hcon.outcome
    rw [ho] at hg
    obtain ⟨rfl, htimeout⟩ := Cause.Gives.timeout_eq hg
    refine ⟨token, e, (h.batch token e ?_ hcon.entry).append [a], hcon.ticket.symm, htimeout⟩
    rw [hf]
    exact List.mem_cons_self

theorem Timed.snoc : Timed s₀ (actions ++ [a]) (s₀.run (actions ++ [a])) := by
  obtain ⟨news, hnews, hcalled⟩ := h.called
  have hold : ∀ call ∈ news, ∀ timeout, call.outcome = .error (.timeout timeout) →
      ∃ token e, s₀.RunsOut (actions ++ [a]) token e ∧ e.ticket = call.ticket ∧
        e.timeout = timeout := by
    intro call hm timeout ho
    obtain ⟨token, e, hr, h⟩ := hcalled call hm timeout ho
    exact ⟨token, e, hr.append [a], h⟩
  rw [run_snoc]
  refine ⟨fun _ _ => h.batch_snoc hl ha, ?_⟩
  rcases (hl.after ha).2.calls_cases with hcalls | ⟨call, hcalls, -⟩
  · exact ⟨news, hcalls.trans hnews, hold⟩
  · refine ⟨call :: news, hcalls.trans (congrArg (call :: ·) hnews), fun c hm timeout ho => ?_⟩
    rcases List.mem_cons.mp hm with rfl | hm
    · exact h.called_snoc hl ha hcalls ho
    · exact hold c hm timeout ho

end Snoc

end State

end Dialer.InFlight
