import Dialer.Proofs.InFlight.Lawful
import Mathlib.Data.List.Perm.Basic

/-!
# Where a request is

A request that was issued is among the attempts or among the calls, and there once. Only the giving
up of a table can lose one, if a panic breaks it off. What stands among the attempts and the calls
is what the request came with.
-/

namespace Dialer.InFlight.State

open Readiness (Token)

variable {κ τ : Type} {s t : State κ τ} {a : Action κ τ}

/-- How often a ticket stands among the attempts and the calls. -/
def tally (s : State κ τ) (ticket : Nat) : Nat :=
  (s.entries.map (·.2.ticket)).count ticket + (s.calls.map (·.ticket)).count ticket

theorem length_filter_eq_count {α : Type} (f : α → Nat) (l : List α) (k : Nat) :
    (l.filter (f · = k)).length = (l.map f).count k := by
  rw [List.count_eq_countP, List.countP_map, List.countP_eq_length_filter]
  exact congrArg List.length (List.filter_congr fun x _ => by simp [beq_eq_decide])

theorem mem_of_filter_eq_singleton {α : Type} {f : α → Nat} {l : List α} {k : Nat} {x : α}
    (h : l.filter (f · = k) = [x]) : x ∈ l ∧ f x = k := by
  have hm : x ∈ l.filter (f · = k) := h ▸ List.mem_singleton_self x
  simpa only [List.mem_filter, decide_eq_true_eq] using hm

structure Tallied (s : State κ τ) : Prop where
  issued : s.issues.map (·.1) = (List.range s.tickets).reverse
  once : ∀ ticket, s.tally ticket ≤ if ticket < s.tickets then 1 else 0

/-- No request was lost. -/
def IsComplete (s : State κ τ) : Prop := ∀ ticket < s.tickets, s.tally ticket = 1

/-- An action in which a panic breaks the giving up of the table off before its last attempt. -/
structure BreaksOff (s : State κ τ) (a : Action κ τ) (t : State κ τ) : Prop where
  closing : .closing ∈ s.frames
  pending : s.tokens ≠ []
  closed : t.isClosed
  panic : ∃ text next, a = .leave (some (.volatile text next))

section Tally

theorem Quiet.tally (h : Quiet s t) (k : Nat) : t.tally k = s.tally k := by
  rw [State.tally, State.tally, h.entries, h.calls]

theorem Answered.tally {request : Request κ} {reply : Reply} {call : Call κ}
    (h : Answered s request reply call t) (k : Nat) :
    t.tally k = s.tally k + if s.tickets = k then 1 else 0 := by
  rw [State.tally, State.tally, h.entries, h.calls, List.map_cons, List.count_cons, h.ticket]
  simp only [beq_iff_eq, Nat.add_assoc]

theorem Begun.tally {request : Request κ} {token : Token} {e : Entry κ}
    (h : Begun s request token e t) (k : Nat) :
    t.tally k = s.tally k + if s.tickets = k then 1 else 0 := by
  rw [State.tally, State.tally, h.entries, h.calls, List.map_append, List.count_append]
  simp only [List.map_cons, List.map_nil, List.count_cons, List.count_nil, h.ticket, beq_iff_eq]
  omega

theorem Registered.entries_perm (h : Registered s) {token : Token} {e : Entry κ}
    (he : s.entry? token = some e) :
    s.entries.Perm ((token, e) :: s.entries.filter (·.1 ≠ token)) := by
  obtain ⟨xs, ys, heq, hxs⟩ := List.lookup_eq_some_iff.mp he
  have hys : ∀ p ∈ ys, p.1 ≠ token := fun p hp ht => by
    have hn := h.tokens_nodup
    rw [tokens, heq, List.map_append, List.map_cons, List.nodup_append] at hn
    exact (List.nodup_cons.mp hn.2.1).1 (List.mem_map.mpr ⟨p, hp, ht⟩)
  have hxs : ∀ p ∈ xs, p.1 ≠ token := fun p hp ht => by simpa [ht] using hxs p hp
  have hfilter : s.entries.filter (·.1 ≠ token) = xs ++ ys := by
    rw [heq, List.filter_append, List.filter_cons_of_neg (by simp),
      List.filter_eq_self.mpr fun p hp => decide_eq_true (hxs p hp),
      List.filter_eq_self.mpr fun p hp => decide_eq_true (hys p hp)]
  rw [hfilter, heq]
  exact List.perm_middle

theorem Concluded.tally {token : Token} {e : Entry κ} {cause : Cause} {call : Call κ}
    (h : Concluded s token e cause call t) (hr : Registered s) (k : Nat) :
    t.tally k = s.tally k := by
  have hperm := (hr.entries_perm h.entry).map (·.2.ticket)
  rw [State.tally, State.tally, h.entries, h.calls, hperm.count_eq, List.map_cons, List.map_cons,
    List.count_cons, List.count_cons, h.ticket]
  dsimp only
  omega

theorem Emptied.tally_le (h : Emptied s t) (k : Nat) : t.tally k ≤ s.tally k := by
  rw [State.tally, State.tally, h.entries, h.calls]
  simp

theorem Emptied.tally (h : Emptied s t) (hn : s.tokens = []) (k : Nat) :
    t.tally k = s.tally k := by
  have he : s.entries = [] := List.map_eq_nil_iff.mp hn
  rw [State.tally, State.tally, h.entries, h.calls, he]

end Tally

theorem Tallied.effect (h : Tallied s) (hr : Registered s) (he : Effect s a t) : Tallied t := by
  -- A fresh ticket was nowhere before.
  have hfresh : ∀ k, s.tally k + (if s.tickets = k then 1 else 0) ≤
      if k < s.tickets + 1 then 1 else 0 := by
    intro k
    have := h.once k
    split at this <;> split <;> split <;> omega
  have hissued : (s.tickets :: s.issues.map (·.1)) = (List.range (s.tickets + 1)).reverse := by
    rw [h.issued, List.range_succ, List.reverse_append]
    rfl
  cases he with
  | quiet _ hq =>
    refine ⟨?_, fun k => ?_⟩
    · rw [hq.issues, hq.tickets]
      exact h.issued
    · rw [hq.tally, hq.tickets]
      exact h.once k
  | answered _ hans =>
    refine ⟨?_, fun k => ?_⟩
    · rw [hans.issues, hans.tickets]
      exact hissued
    · rw [hans.tally, hans.tickets]
      exact hfresh k
  | begun _ hb =>
    refine ⟨?_, fun k => ?_⟩
    · rw [hb.issues, hb.tickets]
      exact hissued
    · rw [hb.tally, hb.tickets]
      exact hfresh k
  | concluded _ _ hc =>
    refine ⟨?_, fun k => ?_⟩
    · rw [hc.issues, hc.tickets]
      exact h.issued
    · rw [hc.tally ((Quiet.withFrames s _).registered_of hr), hc.tickets]
      exact h.once k
  | emptied _ hem =>
    refine ⟨?_, fun k => ?_⟩
    · rw [hem.issues, hem.tickets]
      exact h.issued
    · rw [hem.tickets]
      exact Nat.le_trans (hem.tally_le k) (h.once k)

/-- No request is lost unless the giving up is broken off. -/
theorem IsComplete.effect (h : IsComplete s) (ht : Tallied s) (hl : Lawful s)
    (he : Effect s a t) (hkeep : ¬ BreaksOff s a t) : IsComplete t := by
  have hfresh : ∀ k < s.tickets + 1, s.tally k + (if s.tickets = k then 1 else 0) = 1 := by
    intro k hk
    have honce := ht.once k
    by_cases heq : s.tickets = k
    · simp only [heq, Nat.lt_irrefl, ↓reduceIte] at honce ⊢
      omega
    · rw [h k (by omega), if_neg heq]
  intro k hk
  cases he with
  | quiet _ hq => rw [hq.tally, h k (hq.tickets ▸ hk)]
  | answered _ hans => rw [hans.tally, hfresh k (hans.tickets ▸ hk)]
  | begun _ hb => rw [hb.tally, hfresh k (hb.tickets ▸ hk)]
  | concluded _ _ hc =>
    rw [hc.tally ((Quiet.withFrames s _).registered_of hl.registered)]
    exact h k (hc.tickets ▸ hk)
  | emptied _ hem hclosing _ hwhy =>
    by_cases hn : s.tokens = []
    · rw [hem.tally hn, h k (hem.tickets ▸ hk)]
    · exact absurd ⟨hclosing, hn, hem.isClosed hl, hwhy.resolve_left hn⟩ hkeep

/-- What stands among the attempts and the calls goes back to a request that was issued, and sockets
are opened for one request each. -/
structure Founded (s : State κ τ) : Prop where
  entry : ∀ p ∈ s.entries, ∃ request, (p.2.ticket, request) ∈ s.issues ∧
    request.continuations? = some p.2.continuations ∧ p.2.timeout = request.timeout ∧
      (p.2.ticket, p.2.socket) ∈ s.openings
  call : ∀ call ∈ s.calls, ∃ request c, (call.ticket, request) ∈ s.issues ∧
    request.continuations? = some c ∧ call.continuation = c.select call.outcome ∧
      ∀ handed, call.outcome = .ok handed → (call.ticket, handed.socket) ∈ s.openings
  opened_lt : ∀ o ∈ s.openings, o.1 < s.tickets ∧ o.2 < s.sockets
  opened_nodup : (s.openings.map (·.2)).Nodup

theorem Founded.opened_next (h : Founded s)
    (ho : (t.openings = s.openings ∧ t.sockets = s.sockets) ∨
      (t.openings = (s.tickets, s.sockets) :: s.openings ∧ t.sockets = s.sockets + 1))
    (ht : t.tickets = s.tickets + 1) :
    (∀ o ∈ t.openings, o.1 < t.tickets ∧ o.2 < t.sockets) ∧ (t.openings.map (·.2)).Nodup ∧
      ∀ o ∈ s.openings, o ∈ t.openings := by
  have hlt := h.opened_lt
  rcases ho with ⟨ho, hs⟩ | ⟨ho, hs⟩ <;> rw [ho, ht, hs]
  · exact ⟨fun o hm => ⟨Nat.lt_succ_of_lt (hlt o hm).1, (hlt o hm).2⟩, h.opened_nodup, fun _ => id⟩
  · refine ⟨fun o hm => ?_, ?_, fun _ => List.mem_cons_of_mem _⟩
    · rcases List.mem_cons.mp hm with rfl | hm
      · exact ⟨Nat.lt_succ_self _, Nat.lt_succ_self _⟩
      · exact ⟨Nat.lt_succ_of_lt (hlt o hm).1, Nat.lt_succ_of_lt (hlt o hm).2⟩
    · refine List.nodup_cons.mpr ⟨fun hm => ?_, h.opened_nodup⟩
      obtain ⟨o, hm, heq⟩ := List.mem_map.mp hm
      exact Nat.ne_of_lt (hlt o hm).2 heq

theorem Founded.answered (h : Founded s) {request : Request κ} {reply : Reply} {call : Call κ}
    (hans : Answered s request reply call t) : Founded t := by
  obtain ⟨hlt, hn, hmono⟩ := h.opened_next hans.openings hans.tickets
  refine ⟨fun p hp => ?_, fun c hc => ?_, hlt, hn⟩
  · rw [hans.entries] at hp
    obtain ⟨r, hi, hc, hto, ho⟩ := h.entry p hp
    exact ⟨r, hans.issues ▸ List.mem_cons_of_mem _ hi, hc, hto, hmono _ ho⟩
  · rw [hans.calls, List.mem_cons] at hc
    rcases hc with rfl | hc
    · obtain ⟨cs, hcs, hsel⟩ := hans.continuation
      refine ⟨request, cs, ?_, hcs, hsel, fun handed heq => ?_⟩
      · rw [hans.issues, hans.ticket]
        exact List.mem_cons_self
      · rcases hans.outcome with ⟨nodelay, hok, ho⟩ | ⟨_, _, herr⟩ | ⟨_, _, herr⟩
        · obtain rfl := Except.ok.inj (heq.symm.trans hok)
          rwa [hans.ticket]
        · simp [herr] at heq
        · simp [herr] at heq
    · obtain ⟨r, cs, hi, hcs, hsel, ho⟩ := h.call c hc
      exact ⟨r, cs, hans.issues ▸ List.mem_cons_of_mem _ hi, hcs, hsel,
        fun handed heq => hmono _ (ho handed heq)⟩

theorem Founded.begun (h : Founded s) {request : Request κ} {token : Token} {e : Entry κ}
    (hb : Begun s request token e t) : Founded t := by
  obtain ⟨hlt, hn, hmono⟩ := h.opened_next (.inr ⟨hb.openings, hb.sockets⟩) hb.tickets
  refine ⟨fun p hp => ?_, fun c hc => ?_, hlt, hn⟩
  · rw [hb.entries, List.mem_append, List.mem_singleton] at hp
    rcases hp with hp | rfl
    · obtain ⟨r, hi, hc, hto, ho⟩ := h.entry p hp
      exact ⟨r, hb.issues ▸ List.mem_cons_of_mem _ hi, hc, hto, hmono _ ho⟩
    · refine ⟨request, ?_, hb.continuations, hb.timeout, ?_⟩
      · rw [hb.issues, hb.ticket]
        exact List.mem_cons_self
      · rw [hb.openings, hb.ticket, hb.socket]
        exact List.mem_cons_self
  · rw [hb.calls] at hc
    obtain ⟨r, cs, hi, hcs, hsel, ho⟩ := h.call c hc
    exact ⟨r, cs, hb.issues ▸ List.mem_cons_of_mem _ hi, hcs, hsel,
      fun handed heq => hmono _ (ho handed heq)⟩

theorem Founded.concluded (h : Founded s) {token : Token} {e : Entry κ} {cause : Cause}
    {call : Call κ} {frames : List (Frame κ τ)}
    (hc : Concluded { s with frames := frames } token e cause call t) : Founded t := by
  have hm : (token, e) ∈ s.entries := mem_entries_of_lookup (s := s) hc.entry
  refine ⟨fun p hp => ?_, fun c hcall => ?_, ?_, ?_⟩
  · rw [hc.entries] at hp
    rw [hc.issues, hc.openings]
    exact h.entry p (List.mem_of_mem_filter hp)
  · rw [hc.calls, List.mem_cons] at hcall
    rw [hc.issues, hc.openings]
    rcases hcall with rfl | hcall
    · obtain ⟨r, hi, hcs, -, ho⟩ := h.entry _ hm
      refine ⟨r, e.continuations, hc.ticket ▸ hi, hcs, hc.continuation, fun handed heq => ?_⟩
      have hg := hc.outcome
      rw [heq] at hg
      rw [hg.socket_eq]
      exact hc.ticket ▸ ho
    · exact h.call c hcall
  · rw [hc.openings, hc.tickets, hc.sockets]
    exact h.opened_lt
  · rw [hc.openings]
    exact h.opened_nodup

theorem Founded.effect (h : Founded s) (he : Effect s a t) : Founded t := by
  cases he with
  | quiet _ hq =>
    constructor <;> simp only [hq.entries, hq.issues, hq.calls, hq.openings, hq.tickets, hq.sockets]
    exacts [h.entry, h.call, h.opened_lt, h.opened_nodup]
  | emptied _ hem =>
    constructor <;>
      simp only [hem.entries, hem.issues, hem.calls, hem.openings, hem.tickets, hem.sockets]
    exacts [fun _ hp => absurd hp List.not_mem_nil, h.call, h.opened_lt, h.opened_nodup]
  | answered _ hans => exact h.answered hans
  | begun _ hb => exact h.begun hb
  | concluded _ _ hc => exact h.concluded hc

/-! ### What is new after an action -/

theorem Effect.issues_cases (he : Effect s a t) : t.issues = s.issues ∨
    ∃ request, a.request? = some request ∧ t.issues = (s.tickets, request) :: s.issues := by
  cases he with
  | quiet _ h => exact .inl h.issues
  | answered ha h =>
    obtain ⟨c, hc, -⟩ := h.continuation
    exact .inr ⟨_, by rw [ha, Action.request?, hc]; rfl, h.issues⟩
  | begun ha h => exact .inr ⟨_, by rw [ha, Action.request?, h.continuations]; rfl, h.issues⟩
  | concluded _ _ h => exact .inl h.issues
  | emptied _ h => exact .inl h.issues

theorem Effect.entries_cases (he : Effect s a t) :
    ∀ p ∈ t.entries, p ∈ s.entries ∨ p.2.ticket = s.tickets := by
  intro p hp
  cases he with
  | quiet _ h => exact .inl (h.entries ▸ hp)
  | answered _ h => exact .inl (h.entries ▸ hp)
  | begun _ h =>
    rw [h.entries, List.mem_append, List.mem_singleton] at hp
    rcases hp with hp | rfl
    · exact .inl hp
    · exact .inr h.ticket
  | concluded _ _ h =>
    rw [h.entries] at hp
    exact .inl (List.mem_of_mem_filter hp)
  | emptied _ h =>
    rw [h.entries] at hp
    exact absurd hp List.not_mem_nil

theorem Effect.calls_cases (he : Effect s a t) : t.calls = s.calls ∨
    ∃ call, t.calls = call :: s.calls ∧
      (call.ticket = s.tickets ∨ ∃ p ∈ s.entries, p.2.ticket = call.ticket) := by
  cases he with
  | quiet _ h => exact .inl h.calls
  | answered _ h => exact .inr ⟨_, h.calls, .inl h.ticket⟩
  | begun _ h => exact .inl h.calls
  | concluded _ _ h =>
    exact .inr ⟨_, h.calls, .inr ⟨_, mem_entries_of_lookup h.entry, h.ticket.symm⟩⟩
  | emptied _ h => exact .inl h.calls

theorem Tallied.ticket_lt (h : Tallied s) {k : Nat} {request : Request κ}
    (hm : (k, request) ∈ s.issues) : k < s.tickets := by
  have hk := List.mem_map_of_mem (f := Prod.fst) hm
  rwa [h.issued, List.mem_reverse, List.mem_range] at hk

theorem Tallied.request_unique (h : Tallied s) {k : Nat} {r r' : Request κ}
    (hr : (k, r) ∈ s.issues) (hr' : (k, r') ∈ s.issues) : r = r' := by
  have hn : (s.issues.map (·.1)).Nodup := by
    rw [h.issued]
    exact List.nodup_reverse.mpr List.nodup_range
  exact (Prod.mk.inj (List.inj_on_of_nodup_map hn hr hr' rfl)).2

theorem Effect.mem_issues (he : Effect s a t) {k : Nat} {request : Request κ}
    (hm : (k, request) ∈ t.issues) :
    (k, request) ∈ s.issues ∨ (k = s.tickets ∧ a.request? = some request) := by
  rcases he.issues_cases with hi | ⟨r, hr, hi⟩
  · exact .inl (hi ▸ hm)
  · rw [hi, List.mem_cons] at hm
    rcases hm with heq | hm
    · obtain ⟨rfl, rfl⟩ := Prod.mk.inj heq
      exact .inr ⟨rfl, hr⟩
    · exact .inl hm

theorem Effect.issues_subset (he : Effect s a t) : ∀ i ∈ s.issues, i ∈ t.issues := by
  intro i hi
  rcases he.issues_cases with heq | ⟨r, -, heq⟩
  · exact heq ▸ hi
  · exact heq ▸ List.mem_cons_of_mem _ hi

theorem Effect.calls_subset (he : Effect s a t) : ∀ call ∈ s.calls, call ∈ t.calls := by
  intro call hc
  rcases he.calls_cases with heq | ⟨_, heq, -⟩
  · exact heq ▸ hc
  · exact heq ▸ List.mem_cons_of_mem _ hc

end Dialer.InFlight.State
