import Dialer.Proofs.InFlight.Lawful

/-!
# The search, turn by turn

The search for a free token is a loop with nothing in it that gets smaller: each turn looks at the
token where the search stands and goes one place on, and the first free token ends it. It ends
exactly if it comes to a free place, and with fewer attempts than places it does so before it has
looked at one place more than there are attempts. What `allocate` answers is what the loop finds.
-/

namespace Dialer.InFlight.State

open Readiness (Token wakeToken)

variable {κ τ : Type} {s : State κ τ} {used : Token → Bool} {t found next : Token} {turns : Nat}

/-- The loop from a token on: the number of its turns, the token that it finds, and the token from
which the next search starts. A turn goes one place on also when it ends the search. -/
inductive Searches (used : Token → Bool) : Token → Nat → Token → Token → Prop
  | found {t : Token} (h : used t = false) : Searches used t 1 t (following t)
  | passed {t found next : Token} {turns : Nat} (h : used t)
      (rest : Searches used (following t) turns found next) :
      Searches used t (turns + 1) found next

theorem searches_placeFrom {i : Nat} (hused : ∀ j < i, used (placeFrom t j))
    (hfree : used (placeFrom t i) = false) :
    Searches used t (i + 1) (placeFrom t i) (following (placeFrom t i)) := by
  induction i generalizing t with
  | zero => exact .found hfree
  | succ i ih =>
    have hrest : ∀ j < i, used (placeFrom (following t) j) :=
      fun j hj => hused (j + 1) (Nat.succ_lt_succ hj)
    exact .passed (hused 0 (Nat.succ_pos i)) (ih hrest hfree)

/-- The search ends at the first free place and nowhere else. -/
theorem searches_iff :
    Searches used t turns found next ↔ ∃ i, turns = i + 1 ∧ found = placeFrom t i ∧
      next = following found ∧ (∀ j < i, used (placeFrom t j)) ∧
        used (placeFrom t i) = false := by
  constructor
  · intro h
    induction h with
    | found h => exact ⟨0, rfl, rfl, rfl, fun j hj => absurd hj (Nat.not_lt_zero j), h⟩
    | passed h _ ih =>
      obtain ⟨i, rfl, rfl, rfl, hused, hfree⟩ := ih
      refine ⟨i + 1, rfl, rfl, rfl, fun j hj => ?_, hfree⟩
      cases j with
      | zero => exact h
      | succ j => exact hused j (Nat.lt_of_succ_lt_succ hj)
  · rintro ⟨i, rfl, rfl, rfl, hused, hfree⟩
    exact searches_placeFrom hused hfree

theorem Searches.unique {turns' : Nat} {found' next' : Token}
    (h : Searches used t turns found next) (h' : Searches used t turns' found' next') :
    turns' = turns ∧ found' = found ∧ next' = next := by
  induction h generalizing turns' found' next' with
  | found h =>
    cases h' with
    | found _ => exact ⟨rfl, rfl, rfl⟩
    | passed hused _ => simp [h] at hused
  | passed h _ ih =>
    cases h' with
    | found hfree => simp [h] at hfree
    | passed _ rest =>
      obtain ⟨rfl, rfl, rfl⟩ := ih rest
      exact ⟨rfl, rfl, rfl⟩

/-! ### Searches in a table -/

/-- What a search in a table starts from: there is a free token, and neither a token in use nor the
one where the search starts is that of the task queue. -/
structure Searchable (s : State κ τ) : Prop where
  room : s.entries.length < wakeToken.toNat
  below : ∀ token ∈ s.tokens, token < wakeToken
  start : s.next < wakeToken

/-- What the search in a table comes to when it passes so many tokens over. -/
structure Allocates (s : State κ τ) (passed : Nat) : Prop where
  passed_le : passed ≤ s.entries.length
  /-- The loop ends, and it ends in this way only. -/
  loop : ∀ turns found next, Searches s.isPending s.next turns found next ↔
    turns = passed + 1 ∧ found = s.allocate.1 ∧ next = s.allocate.2.next
  place : s.allocate.1.toNat = (s.next.toNat + passed) % wakeToken.toNat
  /-- Every place before it on the circle is taken. -/
  first : ∀ i < passed, ∃ token ∈ s.tokens,
    token.toNat = (s.next.toNat + i) % wakeToken.toNat
  free : s.allocate.1 ∉ s.tokens
  below : s.allocate.1 < wakeToken ∧ s.allocate.2.next < wakeToken
  /-- No turn adds one to the largest number there is. -/
  bounded : ∀ i ≤ passed, (placeFrom s.next i).toNat + 1 < UInt64.size

theorem lt_wakeToken_iff : t < wakeToken ↔ t ≠ wakeToken := by
  have hw : wakeToken.toNat = 2 ^ 64 - 1 := rfl
  rw [UInt64.lt_iff_toNat_lt, ne_eq, ← UInt64.toNat_inj]
  have := t.toNat_lt
  omega

theorem toNat_placeFrom_succ_lt (ht : t ≠ wakeToken) (i : Nat) :
    (placeFrom t i).toNat + 1 < UInt64.size := by
  have hlt := UInt64.lt_iff_toNat_lt.mp (lt_wakeToken_iff.mpr (placeFrom_ne_wakeToken ht i))
  have hw : wakeToken.toNat + 1 = UInt64.size := rfl
  omega

theorem Searchable.allocates (h : s.Searchable) : ∃ passed, s.Allocates passed := by
  have hnext : s.next ≠ wakeToken := lt_wakeToken_iff.mp h.start
  obtain ⟨i, hi, heq, hused, hfree⟩ := freeToken_spec (by simpa [hasRoom] using h.room) hnext
  have hfound : s.allocate.1 = placeFrom s.next i := heq
  have hafter : s.allocate.2.next = following s.allocate.1 := rfl
  have hsearch : Searches s.isPending s.next (i + 1) s.allocate.1 s.allocate.2.next := by
    rw [hafter, hfound]
    refine searches_placeFrom (fun j hj => isPending_iff_mem_tokens.mpr (hused j hj)) ?_
    exact Bool.eq_false_iff.mpr fun hp => hfree (isPending_iff_mem_tokens.mp hp)
  refine ⟨i, hi, fun turns found next => ⟨hsearch.unique, ?_⟩, ?_, fun j hj => ?_, ?_, ?_,
    fun j _ => toNat_placeFrom_succ_lt hnext j⟩
  · rintro ⟨rfl, rfl, rfl⟩
    exact hsearch
  · rw [hfound, toNat_placeFrom hnext]
  · exact ⟨_, hused j hj, toNat_placeFrom hnext j⟩
  · rwa [hfound]
  · rw [hafter, hfound]
    exact ⟨lt_wakeToken_iff.mpr (placeFrom_ne_wakeToken hnext i),
      lt_wakeToken_iff.mpr (following_ne_wakeToken _)⟩

theorem Registered.searchable (h : Registered s) (hroom : s.hasRoom) : s.Searchable where
  room := by simpa [hasRoom] using hroom
  below := fun token hm => lt_wakeToken_iff.mpr fun heq => h.not_wake (heq ▸ hm)
  start := lt_wakeToken_iff.mpr h.next_ne

/-- In a table without room every token is in use, and the search for one goes on for ever. -/
theorem Registered.searches_iff_hasRoom (h : Registered s) :
    (∃ turns found next, Searches s.isPending s.next turns found next) ↔ s.hasRoom := by
  constructor
  · rintro ⟨turns, found, next, hs⟩
    obtain ⟨i, -, -, -, -, hfree⟩ := searches_iff.mp hs
    have hnot : placeFrom s.next i ∉ s.tokens := fun hm => by
      simp [isPending_iff_mem_tokens.mpr hm] at hfree
    -- A free place and the tokens in use are different numbers below the token of the task queue.
    have hnodup : ((placeFrom s.next i :: s.tokens).map UInt64.toNat).Nodup :=
      (List.nodup_cons.mpr ⟨hnot, h.tokens_nodup⟩).map fun _ _ => UInt64.toNat_inj.mp
    have hsub : (placeFrom s.next i :: s.tokens).map UInt64.toNat ⊆
        List.range wakeToken.toNat := by
      intro n hn
      obtain ⟨token, hm, rfl⟩ := List.mem_map.mp hn
      have hne : token ≠ wakeToken := by
        rcases List.mem_cons.mp hm with rfl | hm
        · exact placeFrom_ne_wakeToken h.next_ne i
        · exact fun heq => h.not_wake (heq ▸ hm)
      exact List.mem_range.mpr (UInt64.lt_iff_toNat_lt.mp (lt_wakeToken_iff.mpr hne))
    have hle := hnodup.length_le_of_subset hsub
    rw [List.length_map, List.length_cons, tokens, List.length_map, List.length_range] at hle
    exact decide_eq_true hle
  · intro hroom
    obtain ⟨passed, ha⟩ := (h.searchable hroom).allocates
    exact ⟨_, _, _, (ha.loop _ _ _).mpr ⟨rfl, rfl, rfl⟩⟩

/-- With fewer attempts than there are tokens the search ends, after one turn more than there are
attempts at the latest. It finds the first token on the circle that no attempt has, never that of
the task queue, starts the next search below that one too, and adds past no number. Every table that
can be reached has what this takes as long as there is room for one more attempt. -/
theorem allocate_searches :
    (∀ s : State κ τ, s.Searchable → ∃ passed, s.Allocates passed) ∧
      ∀ s : State κ τ, s.Reachable → s.hasRoom → s.Searchable :=
  ⟨fun _ hs => hs.allocates, fun _ hs hroom => hs.lawful.registered.searchable hroom⟩

/-- A search that starts at the last token passes over the end of the circle, and one in a table
that was reached starts where the search before it ended. -/
theorem allocate_searches_around :
    let request : Request Nat := ⟨"127.0.0.1", 80, .ofMillis 1, some 0, some 1⟩
    let begun : Reply := { connect := some .nowInProgress }
    let s := (initial 16 false : State Nat Nat).run (.replicate 3 (.attempt request begun .origin))
    let last : Token := wakeToken - 1
    let t : State Nat Nat := { s with
      next := last
      entries := s.entries.map fun e => (if e.1 = 2 then last else e.1, e.2) }
    (s.allocate.1 = 3 ∧ ∃ passed, s.Allocates passed) ∧
      t.tokens = [0, 1, last] ∧ t.allocate.1 = 2 ∧ ∃ passed, t.Allocates passed := by
  intro request begun s last t
  have hs : s.Reachable := (Reachable.initial 16 false).run (by decide)
  have hroom : s.hasRoom := by decide
  have htokens : t.tokens = [0, 1, last] := by decide
  have hbelow : ∀ token ∈ t.tokens, token < wakeToken := by
    rw [htokens, List.forall_mem_cons, List.forall_mem_cons, List.forall_mem_singleton]
    decide
  have ht : t.Searchable := ⟨by decide, hbelow, by decide⟩
  obtain ⟨hallocates, hsearchable⟩ := allocate_searches (κ := Nat) (τ := Nat)
  exact ⟨⟨by decide, hallocates s (hsearchable s hs hroom)⟩, htokens, by decide, hallocates t ht⟩

end Dialer.InFlight.State
