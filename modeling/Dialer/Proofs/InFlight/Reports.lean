import Dialer.Proofs.InFlight.Deciding
import Dialer.Proofs.InFlight.Interests
import Dialer.Proofs.InFlight.Record
import Dialer.Proofs.InFlight.Settling

/-!
# What a report resolves

A report of the system names tokens in any order, some of them more than once and some of no
attempt, each with a look at the socket. All looks come first. Then those attempts are resolved of
which some look says that the handshake is over, each once and with what the first such look says,
in the order of these looks; every other attempt stays in the table and in the watch as it is. The
foreign code that is called back in between has no part in this, as long as none of it ends in a
panic that throws again when it is got rid of.
-/

namespace Dialer.InFlight

open Readiness (Token)

variable {κ τ : Type}

/-- The looks of a report that are a cause to resolve something, in order. -/
def answers (report : List (Token × Verdict)) : List (Token × Cause) :=
  report.filterMap fun r => (Cause.ofVerdict? r.2).map (r.1, ·)

namespace State

variable {s t u : State κ τ} {report : List (Token × Verdict)} {actions others : List (Action κ τ)}

/-- A pass over a report, from the moment when the table has taken it until it has no frame left but
those on which it took it. -/
structure Finishes (s : State κ τ) (report : List (Token × Verdict)) (actions : List (Action κ τ)) :
    Prop where
  within : (s.after (.poll (.ok report))).Within s.frames.length actions
  ends : ((s.after (.poll (.ok report))).run actions).frames.length ≤ s.frames.length

instance (s : State κ τ) (report : List (Token × Verdict)) (actions : List (Action κ τ)) :
    Decidable (s.Finishes report actions) :=
  decidable_of_iff _ ⟨fun h => ⟨h.1, h.2⟩, fun h => And.intro h.within h.ends⟩

/-- The batch that a report is put together to: its answers for attempts in flight. -/
theorem Registered.finished_eq (h : Registered s) (report : List (Token × Verdict)) :
    s.finished report = (answers report).filter (s.isPending ·.1) := by
  rw [finished, h.relevant_eq, answers, List.filterMap_filter, List.filter_filterMap]
  refine List.filterMap_congr fun r _ => ?_
  cases Cause.ofVerdict? r.2 with
  | none => simp
  | some cause => by_cases hp : s.isPending r.1 <;> simp [Option.filter_some, hp]

theorem Registered.resolved_finished (h : Registered s) (report : List (Token × Verdict)) :
    resolved s.entries (s.finished report) = resolved s.entries (answers report) := by
  rw [h.finished_eq, resolved, List.filter_filter, resolved]
  exact congrArg _ (List.filter_congr fun r _ => Bool.and_self _)

theorem mem_map_iff_lookup {batch : List (Token × Cause)} {token : Token} :
    token ∈ batch.map (·.1) ↔ batch.lookup token ≠ none := by
  induction batch with
  | nil => simp
  | cons r batch ih =>
    rw [List.map_cons, List.mem_cons, List.lookup_cons, ih]
    by_cases hr : token = r.1
    · simp [hr]
    · simp [hr, beq_false_of_ne hr]

theorem Registered.lookup_finished (h : Registered s) (report : List (Token × Verdict))
    {token : Token} (hp : s.isPending token) :
    (s.finished report).lookup token = (answers report).lookup token := by
  rw [h.finished_eq, lookup_filter_fst s.isPending, if_pos hp]

theorem Registered.filter_finished (h : Registered s) (report : List (Token × Verdict)) :
    s.entries.filter (·.1 ∉ (s.finished report).map (·.1)) =
      s.entries.filter fun e => (answers report).lookup e.1 = none := by
  refine List.filter_congr fun e he => decide_eq_decide.mpr ?_
  have hp : s.isPending e.1 := isPending_iff_mem_tokens.mpr (List.mem_map_of_mem he)
  rw [mem_map_iff_lookup, h.lookup_finished report hp, not_not]

theorem map_answers_sublist (report : List (Token × Verdict)) :
    ((answers report).map (·.1)).Sublist (report.map (·.1)) := by
  induction report with
  | nil => exact .slnil
  | cons r report ih =>
    cases hc : Cause.ofVerdict? r.2 with
    | none =>
      rw [answers, List.filterMap_cons_none (by rw [hc]; rfl)]
      exact ih.cons _
    | some cause =>
      rw [answers, List.filterMap_cons_some (b := (r.1, cause)) (by rw [hc]; rfl)]
      exact ih.cons_cons _

theorem Registered.length_finished (h : Registered s) (hn : (report.map (·.1)).Nodup) :
    (s.finished report).length = (resolved s.entries (answers report)).length := by
  have hsub : ((s.finished report).map (·.1)).Sublist (report.map (·.1)) := by
    rw [h.finished_eq]
    exact (List.filter_sublist.map _).trans (map_answers_sublist report)
  rw [← h.resolved_finished, resolved_eq_self (hn.sublist hsub)]
  intro r hr
  rw [h.finished_eq, List.mem_filter] at hr
  exact hr.2

/-- What becomes of a table that took a report and has finished with it. Each attempt that the
report has an answer for was called back with the first one, in the order of these answers, and the
others are in flight and watched as they were. The system is interested in these alone, if it never
refused to give anything up. -/
structure Resolves (s : State κ τ) (report : List (Token × Verdict)) (u : State κ τ)
    (calls : List (Call κ)) : Prop where
  calls_eq : u.calls = calls.reverse ++ s.calls
  outcomes : List.Forall₂ (fun r call => ∃ e, s.entry? r.1 = some e ∧ call.ticket = e.ticket ∧
    call.continuation = e.continuations.select call.outcome ∧ r.2.Gives e call.outcome)
      (resolved s.entries (answers report)) calls
  entries : u.entries = s.entries.filter fun e => (answers report).lookup e.1 = none
  registered : u.watch.registered = u.tokens
  watched : (u.entries.map interestOf).Sublist u.watch.selector.interests
  interests : u.refusals = [] → u.watch.selector.interests = u.entries.map interestOf
  frames : u.frames = s.frames

/-- A table that takes a report has taken every look by then, and nothing was called back or given
up. -/
theorem Lawful.poll_spec (h : Lawful s) (ha : (Action.poll (.ok report)).Enabled s) :
    let t := s.after (.poll (.ok report))
    Lawful t ∧ Quiet s t ∧ t.nodelay = s.nodelay ∧
      t.frames = .settling (s.finished report) :: s.frames := by
  obtain ⟨hl, hq⟩ := h.poll (rests_of_isFree h.ordered.stacked ha.1) ha.2 (.ok report)
  refine ⟨hl, hq, ?_, ?_⟩
  · exact @foldl_spurious κ τ _ State.nodelay (fun _ _ => rfl) (s.spurious report) s
  · exact congrArg _ (@foldl_spurious κ τ _ State.frames (fun _ _ => rfl) (s.spurious report) s)

theorem Reachable.resolves (h : Reachable s) (ha : (Action.poll (.ok report)).Enabled s)
    (hf : s.Finishes report actions) (hc : Contained actions) :
    s.Resolves report ((s.after (.poll (.ok report))).run actions)
      (settlement s.nodelay s.entries (s.finished report) (preparations actions)) := by
  obtain ⟨hl, hq, hn, hframes⟩ := h.lawful.poll_spec ha
  obtain ⟨hst, hbase⟩ := hl.settled hframes hf.within hc hf.ends
  have hr := h.lawful.registered
  refine ⟨?_, ?_, ?_, hst.lawful.registered.registered, hst.lawful.registered.interests,
    ((h.step ha).run hf.within.possible).excused.interests_eq hst.lawful.registered, hbase⟩
  · rw [hst.calls, hq.entries, hq.calls, hn]
  · rw [← hr.resolved_finished]
    refine (settlement_resolved s.nodelay s.entries _ hst.length_le).imp fun r call hcall => ?_
    obtain ⟨e, preparation, he, rfl⟩ := hcall
    exact ⟨e, he, rfl, rfl, e.gives s.nodelay preparation r.2⟩
  · rw [hst.entries, hq.entries, hr.filter_finished]

/-- What a report resolves, and with what, is fixed when the table has taken it: by then every look
was taken and nothing was called back. The pass over it comes to an end from wherever it stands, and
when it has, exactly the attempts in flight that the report has an answer for were called back, each
once, with the first answer for it and in the order of these answers, and all others are as they
were; the number that the table answers is theirs if the report repeats no token. Whatever else the
foreign code of another such pass does, its calls are the same, to the system's last answer. -/
theorem Reachable.poll_resolves (h : Reachable s) (ha : (Action.poll (.ok report)).Enabled s) :
    let t := s.after (.poll (.ok report))
    Quiet s t ∧
      (∀ token cause, (token, cause) ∈ resolved s.entries (answers report) ↔
        s.isPending token ∧ (answers report).lookup token = some cause) ∧
      ((resolved s.entries (answers report)).map (·.1)).Nodup ∧
      (∀ actions, t.Within s.frames.length actions → Contained actions →
        ∃ more, s.Finishes report (actions ++ more) ∧ Contained (actions ++ more)) ∧
      ∀ actions, s.Finishes report actions → Contained actions →
        (∃ calls, s.Resolves report (t.run actions) calls ∧
          ((report.map (·.1)).Nodup → (s.poll (.ok report)).1 = calls.length)) ∧
        ∀ others, s.Finishes report others → Contained others →
          preparations others = preparations actions →
            (t.run others).calls = (t.run actions).calls := by
  intro t
  have hl := h.lawful
  obtain ⟨hlt, hq, hn, hframes⟩ := hl.poll_spec ha
  refine ⟨hq, fun token cause => mem_resolved, nodup_resolved _ _, fun actions hw hc => ?_,
    fun actions hf hc => ⟨⟨_, h.resolves ha hf hc, fun hnodup => ?_⟩,
      fun others hf' hc' heq => ?_⟩⟩
  · obtain ⟨done, rest, hst⟩ := hlt.standing_run (.inl hframes) hw hc
    rcases hst.frames with hs | ⟨-, hbase⟩
    · obtain ⟨more, hw', hc', hend⟩ := hst.lawful.exists_settled hs
      refine ⟨more, ⟨Within.append.mpr ⟨hw, hw'⟩, ?_⟩, hc.append hc'⟩
      rw [run_append, hend]
    · refine ⟨[], ⟨by rwa [List.append_nil], ?_⟩, by rwa [List.append_nil]⟩
      rw [List.append_nil, hbase]
  · have hlen := (h.resolves ha hf hc).outcomes.length_eq
    exact (hl.registered.length_finished hnodup).trans hlen
  · rw [(h.resolves ha hf hc).calls_eq, (h.resolves ha hf' hc').calls_eq, heq]

/-- Of three attempts one is reported as connecting still and another one twice, beside a token that
nobody has. The first continuation panics, the second leaves a task. -/
theorem poll_resolves_while_called :
    let request : Request Nat := ⟨"127.0.0.1", 80, .ofMillis 1, some 0, some 1⟩
    let begun : Reply := { connect := some .nowInProgress }
    let s := (initial 16 false : State Nat Nat).run (.replicate 3 (.attempt request begun .origin))
    let report := [(7, .connected), (2, .connected), (0, .pending), (2, .failed (.system 111)),
      (1, .failed (.system 111))]
    let actions := [.advance {}, .leave (some (.plain none)), .advance {}, .advance {},
      .enqueue 5, .leave none, .advance {}]
    resolved s.entries (answers report) = [(2, .established), (1, .broken (.system 111))] ∧
      ∃ calls, s.Resolves report ((s.after (.poll (.ok report))).run actions) calls := by
  intro request begun s report actions
  have hs : Reachable s := (Reachable.initial 16 false).run (by decide)
  have hf : s.Finishes report actions := by decide
  have hc : Contained actions := fun text next hm => by simp [actions] at hm
  obtain ⟨calls, hr, -⟩ := ((hs.poll_resolves (by decide)).2.2.2.2 actions hf hc).1
  exact ⟨by decide, calls, hr⟩

/-- A continuation whose panic throws again takes the rest of the batch along: of two attempts with
an answer the second one is called back if the first continuation returns, and stays in flight if
it throws. -/
theorem batch_lost_in_panic :
    let request : Request Nat := ⟨"127.0.0.1", 80, .ofMillis 1, some 0, some 1⟩
    let begun : Reply := { connect := some .nowInProgress }
    let s := (initial 16 false : State Nat Nat).run (.replicate 2 (.attempt request begun .origin))
    let report := [(0, .failed (.system 111)), (1, .connected)]
    let t := s.after (.poll (.ok report))
    let returning := [.advance {}, .leave none, .advance {}, .leave none, .advance {}]
    let throwing := [.advance {}, .leave (some (.volatile none (.plain none)))]
    s.Finishes report returning ∧ (t.run returning).calls.map (·.ticket) = [1, 0] ∧
      s.Finishes report throwing ∧ (t.run throwing).calls.map (·.ticket) = [0] ∧
      s.isPending 1 ∧ (answers report).lookup 1 = some .established ∧
      (t.run throwing).isPending 1 := by
  decide

end State

end Dialer.InFlight
