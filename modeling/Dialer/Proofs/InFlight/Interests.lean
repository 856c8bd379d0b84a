import Dialer.Proofs.InFlight.Lawful
import Mathlib.Data.List.Perm.Subperm

/-!
# What the system is interested in

The system takes up an interest in a socket when its attempt comes into the table, and is asked to
give it up when the attempt resolves. It may refuse. The token is given up all the same and the
socket goes its way, so that a socket which is closed is out of the system's mind anyway; one that
is handed over may stay there. Where the system never refused, its interests are the attempts.
-/

namespace Dialer.InFlight

open Readiness (Token wakeToken)

variable {κ τ : Type}

namespace State

variable {s t : State κ τ} {a : Action κ τ}

/-- An interest for which there is no attempt is in a socket that was handed over, and it is on
record that the system refused to give it up. -/
def Excused (s : State κ τ) : Prop :=
  ∀ i ∈ s.watch.selector.interests, i ∉ s.entries.map interestOf →
    i.2 ∈ s.refusals ∧ ∃ call ∈ s.calls, ∃ nodelay, call.outcome = .ok ⟨i.1, nodelay⟩

theorem Excused.mono (h : Excused s)
    (hi : t.watch.selector.interests.Sublist s.watch.selector.interests)
    (hn : ∀ i ∈ t.watch.selector.interests, i ∉ t.entries.map interestOf →
      i ∉ s.entries.map interestOf)
    (hr : s.refusals.Sublist t.refusals) (hc : s.calls ⊆ t.calls) : Excused t := by
  intro i hm hne
  obtain ⟨hrefused, call, hcall, hout⟩ := h i (hi.subset hm) (hn i hm hne)
  exact ⟨hr.subset hrefused, call, hc hcall, hout⟩

theorem Excused.quiet (h : Excused s) (hq : Quiet s t) : Excused t :=
  h.mono (hq.interests ▸ .refl _) (fun _ _ hne => hq.entries ▸ hne) hq.refusals
    (hq.calls ▸ List.Subset.refl _)

theorem Excused.concluded (h : Excused s) (hr : Registered s) {token : Token} {e : Entry κ}
    {cause : Cause} {call : Call κ} (hc : Concluded s token e cause call t) : Excused t := by
  have hm := mem_entries_of_lookup hc.entry
  have hcalls : s.calls ⊆ t.calls := hc.calls ▸ List.subset_cons_self _ _
  -- Only the interest in the socket of the attempt can have lost it.
  have hkept : ∀ i, i ∉ t.entries.map interestOf → i ∈ s.entries.map interestOf →
      i = (e.socket, token) := by
    intro i hne hi
    obtain ⟨f, hf, rfl⟩ := List.mem_map.mp hi
    by_contra hother
    refine hne (List.mem_map_of_mem ?_)
    rw [hc.entries, List.mem_filter]
    refine ⟨hf, decide_eq_true fun htoken => hother ?_⟩
    rw [hr.eq_of_token hf hm htoken]
    rfl
  rcases hc.interests with hi | ⟨rfl, hi, hrefused⟩
  · refine h.mono (hi ▸ List.filter_sublist) (fun i hmi hne hold => ?_) hc.refusals hcalls
    obtain rfl := hkept i hne hold
    rw [hi, List.mem_filter] at hmi
    simp at hmi
  · intro i hmi hne
    by_cases hold : i ∈ s.entries.map interestOf
    · obtain rfl := hkept i hne hold
      obtain ⟨nodelay, hout⟩ := hc.outcome
      exact ⟨hrefused, call, hc.calls ▸ List.mem_cons_self, nodelay, hout⟩
    · obtain ⟨hpast, call', hcall, hout⟩ := h i (hi ▸ hmi) hold
      exact ⟨hc.refusals.subset hpast, call', hcalls hcall, hout⟩

theorem Excused.after (h : Excused s) (hl : Lawful s) (ha : a.Enabled s) :
    Excused (s.after a) := by
  cases (hl.after ha).2 with
  | quiet _ hq => exact h.quiet hq
  | answered _ hans =>
    exact h.mono (hans.interests ▸ .refl _) (fun i _ hne => hans.entries ▸ hne) hans.refusals
      (hans.calls ▸ List.subset_cons_self _ _)
  | begun _ hb =>
    intro i hi hne
    rw [hb.entries, List.map_append, List.mem_append, not_or] at hne
    rw [hb.interests, List.mem_append] at hi
    obtain ⟨hrefused, call, hcall, hout⟩ := h i (hi.resolve_right hne.2) hne.1
    exact ⟨hb.refusals.subset hrefused, call, hb.calls ▸ hcall, hout⟩
  | @concluded release token cause batch rest e call heq hf hc =>
    have hq := Quiet.withFrames s (.settling batch :: rest)
    exact Excused.concluded (s := { s with frames := .settling batch :: rest }) h
      (hq.registered_of hl.registered) hc
  | emptied _ hem =>
    intro i hi
    rw [hem.interests] at hi
    exact absurd hi List.not_mem_nil

theorem Excused.run (h : Excused s) (hl : Lawful s) {actions : List (Action κ τ)}
    (hp : s.Possible actions) : Excused (s.run actions) := by
  induction actions generalizing s with
  | nil => exact h
  | cons a rest ih => exact ih (h.after hl hp.1) (hl.after hp.1).1 hp.2

/-- Only the next socket that is opened can become one that the system is interested in. -/
theorem Lawful.interests_after (h : Lawful s) (ha : a.Enabled s) {i : Nat × Token}
    (hi : i ∈ (s.after a).watch.selector.interests) :
    i ∈ s.watch.selector.interests ∨ i.1 = s.sockets := by
  cases (h.after ha).2 with
  | quiet _ hq => exact .inl (hq.interests ▸ hi)
  | answered _ hans => exact .inl (hans.interests ▸ hi)
  | begun _ hb =>
    rw [hb.interests, List.mem_append, List.mem_singleton] at hi
    refine hi.imp_right fun heq => ?_
    rw [heq]
    exact hb.socket
  | concluded _ _ hc =>
    rcases hc.interests with heq | ⟨-, heq, -⟩
    · exact .inl (List.mem_of_mem_filter (heq ▸ hi))
    · exact .inl (heq ▸ hi)
  | emptied _ hem =>
    rw [hem.interests] at hi
    exact absurd hi List.not_mem_nil

/-- Where the system never refused, it is interested in the attempts alone. -/
theorem Excused.interests_eq (h : Excused s) (hr : Registered s) (hn : s.refusals = []) :
    s.watch.selector.interests = s.entries.map interestOf := by
  have hsub : s.watch.selector.interests ⊆ s.entries.map interestOf := fun i hi => by
    by_contra hne
    have hm := (h i hi hne).1
    rw [hn] at hm
    exact absurd hm List.not_mem_nil
  refine (hr.interests.eq_of_length_le ?_).symm
  exact (List.Nodup.subperm (List.Nodup.of_map _ hr.interests_nodup) hsub).length_le

theorem Reachable.excused (h : Reachable s) : Excused s := by
  induction h with
  | initial capacity nodelay => exact fun _ hi => absurd hi List.not_mem_nil
  | step hs ha ih => exact ih.after hs.lawful ha

/-- In every state, also while a continuation runs, the watch wants to hear of exactly the tokens of
the attempts, and the system is interested in their sockets, each once and under the token of its
attempt. It is interested in nothing else, unless it refused to give up a socket that was handed
over. The token of the task queue is none of them. -/
theorem Reachable.registrations_agree (h : Reachable s) :
    s.watch.registered.Nodup ∧ (∀ token, token ∈ s.watch.registered ↔ s.isPending token) ∧
      (∀ token e, s.entry? token = some e → (e.socket, token) ∈ s.watch.selector.interests) ∧
      (∀ socket token, (socket, token) ∈ s.watch.selector.interests →
        (∃ e, s.entry? token = some e ∧ e.socket = socket) ∨
          token ∈ s.refusals ∧ ∃ call ∈ s.calls, ∃ nodelay, call.outcome = .ok ⟨socket, nodelay⟩) ∧
      (s.watch.selector.interests.map (·.1)).Nodup ∧
      (s.refusals = [] →
        (∀ socket token, (socket, token) ∈ s.watch.selector.interests ↔
          ∃ e, s.entry? token = some e ∧ e.socket = socket) ∧
        (s.watch.selector.interests.map (·.2)).Nodup) ∧
      wakeToken ∉ s.watch.registered ∧ ¬ s.isPending wakeToken ∧
      wakeToken ∉ s.watch.selector.interests.map (·.2) := by
  have hr := h.lawful.registered
  have hknown : ∀ token e, s.entry? token = some e →
      (e.socket, token) ∈ s.watch.selector.interests :=
    fun token e he => hr.interest_mem (mem_entries_of_lookup he)
  have hwhy : ∀ socket token, (socket, token) ∈ s.watch.selector.interests →
      (∃ e, s.entry? token = some e ∧ e.socket = socket) ∨
        token ∈ s.refusals ∧ ∃ call ∈ s.calls, ∃ nodelay, call.outcome = .ok ⟨socket, nodelay⟩ := by
    intro socket token hi
    by_cases hm : (socket, token) ∈ s.entries.map interestOf
    · obtain ⟨⟨t, e⟩, he, heq⟩ := List.mem_map.mp hm
      obtain ⟨rfl, rfl⟩ := Prod.mk.inj heq
      exact .inl ⟨e, hr.entry?_of_mem he, rfl⟩
    · exact .inr (h.excused _ hi hm)
  rw [hr.registered, isPending_iff_mem_tokens]
  refine ⟨hr.tokens_nodup, fun token => isPending_iff_mem_tokens.symm, hknown, hwhy,
    hr.interests_nodup, fun hn => ⟨fun socket token => ⟨fun hi => ?_, ?_⟩, ?_⟩, hr.not_wake,
    hr.not_wake, fun hm => ?_⟩
  · refine (hwhy socket token hi).resolve_right fun hrefused => ?_
    rw [hn] at hrefused
    exact absurd hrefused.1 List.not_mem_nil
  · rintro ⟨e, he, rfl⟩
    exact hknown token e he
  · rw [h.excused.interests_eq hr hn, List.map_map]
    exact hr.tokens_nodup
  · obtain ⟨i, hi, hw⟩ := List.mem_map.mp hm
    exact hr.interest_ne i hi hw

/-- Two attempts in flight, and a third one that was just called back because the system refuses to
watch its socket. -/
theorem registrations_agree_while_called :
    let request : Request Nat := ⟨"127.0.0.1", 80, .ofMillis 1, some 0, some 1⟩
    let begun : Reply := { connect := some .nowInProgress }
    let s := (initial 16 false : State Nat Nat).run [.attempt request begun .origin,
      .attempt request begun .origin,
      .attempt request { begun with registration := some .notRegistered } .origin]
    s.isForeign ∧ s.watch.registered = [0, 1] ∧ s.refusals = [] ∧
      (∀ token, token ∈ s.watch.registered ↔ s.isPending token) ∧
      ∀ socket token, (socket, token) ∈ s.watch.selector.interests ↔
        ∃ e, s.entry? token = some e ∧ e.socket = socket := by
  intro request begun s
  have hs : Reachable s := (Reachable.initial 16 false).run (by decide)
  have hn : s.refusals = [] := by decide
  have hagree := hs.registrations_agree
  exact ⟨by decide, by decide, hn, hagree.2.1, (hagree.2.2.2.2.2.1 hn).1⟩

/-- Of two attempts the system refuses to give up the first, which is handed over, and then the
second, which is closed. -/
example :
    let request : Request Nat := ⟨"127.0.0.1", 80, .ofMillis 1, some 0, some 1⟩
    let begun : Reply := { connect := some .nowInProgress }
    let refused : Action Nat Nat := .advance { removal := some .notRegistered }
    let s := (initial 16 false : State Nat Nat).run [.attempt request begun .origin,
      .attempt request begun .origin, .poll (.ok [(0, .connected), (1, .failed (.system 111))]),
      refused, .leave none, refused, .leave none]
    s.tokens = [] ∧ s.watch.registered = [] ∧ s.refusals = [1, 0] ∧
      s.watch.selector.interests = [(0, 0)] := by
  decide

end State

end Dialer.InFlight
