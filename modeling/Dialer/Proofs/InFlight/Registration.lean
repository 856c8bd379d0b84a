import Dialer.Proofs.InFlight.Tokens
import Dialer.Proofs.InFlight.Views

/-!
# The table, the watch and the system know the same sockets

Every attempt is known in three places: the table holds it under its token, the watch wants to hear
of the token, and the system is interested in its socket under that token. The first two lists run
in parallel whatever happens, also while a batch is being resolved. The third one holds all that
they do, in their order; the system may have more in it, as it may refuse to give an interest up.
-/

namespace Dialer.InFlight

open Address (SocketAddress)
open Readiness (Token Watch Selector wakeToken)
open Time (Duration Instant)

namespace State

variable {κ τ : Type} {s t : State κ τ}

/-- What the system should be interested in for the sake of an attempt. -/
def interestOf (e : Token × Entry κ) : Nat × Token := (e.2.socket, e.1)

/-- What the three places agree on. Tokens and sockets are each in use once. -/
structure Registered (s : State κ τ) : Prop where
  registered : s.watch.registered = s.tokens
  interests : (s.entries.map interestOf).Sublist s.watch.selector.interests
  tokens_nodup : s.tokens.Nodup
  interests_nodup : (s.watch.selector.interests.map (·.1)).Nodup
  interest_lt : ∀ i ∈ s.watch.selector.interests, i.1 < s.sockets
  interest_ne : ∀ i ∈ s.watch.selector.interests, i.2 ≠ wakeToken
  next_ne : s.next ≠ wakeToken

theorem registered_of_empty (he : s.entries = []) (hr : s.watch.registered = [])
    (hi : s.watch.selector.interests = []) (hn : s.next ≠ wakeToken) : Registered s where
  registered := by simp [tokens, he, hr]
  interests := by simp [he]
  tokens_nodup := by simp [tokens, he]
  interests_nodup := by simp [hi]
  interest_lt := by simp [hi]
  interest_ne := by simp [hi]
  next_ne := hn

theorem Registered.interest_mem (h : Registered s) {e : Token × Entry κ} (he : e ∈ s.entries) :
    interestOf e ∈ s.watch.selector.interests :=
  h.interests.subset (List.mem_map_of_mem he)

theorem Registered.sockets_nodup (h : Registered s) : (s.entries.map (·.2.socket)).Nodup := by
  have hsub := h.interests.map (·.1)
  rw [List.map_map] at hsub
  exact h.interests_nodup.sublist hsub

theorem Registered.not_wake (h : Registered s) : wakeToken ∉ s.tokens := fun hm => by
  obtain ⟨e, he, hw⟩ := List.mem_map.mp hm
  exact h.interest_ne _ (h.interest_mem he) hw

theorem lookup_filter_fst {α β : Type} [BEq α] [LawfulBEq α] (p : α → Bool) (xs : List (α × β))
    (key : α) : (xs.filter fun x => p x.1).lookup key = if p key then xs.lookup key else none := by
  induction xs with
  | nil => simp
  | cons x xs ih =>
    obtain ⟨k, x⟩ := x
    by_cases hk : key = k
    · subst hk
      by_cases hp : p key
      · simp [hp]
      · rw [List.filter_cons_of_neg (by simpa using hp), ih]
        simp [hp]
    · by_cases hp : p k
      · rw [List.filter_cons_of_pos (by simpa using hp), List.lookup_cons, List.lookup_cons, ih]
        simp [beq_false_of_ne hk]
      · rw [List.filter_cons_of_neg (by simpa using hp), ih, List.lookup_cons]
        simp [beq_false_of_ne hk]

theorem lookup_filter_ne {α β : Type} [BEq α] [LawfulBEq α] [DecidableEq α] (xs : List (α × β))
    (key other : α) :
    (xs.filter (·.1 ≠ key)).lookup other = if other = key then none else xs.lookup other := by
  rw [lookup_filter_fst (fun k => decide (k ≠ key))]
  by_cases ho : other = key <;> simp [ho]

theorem mem_entries_of_lookup {token : Token} {e : Entry κ} (h : s.entry? token = some e) :
    (token, e) ∈ s.entries := by
  obtain ⟨xs, ys, heq, -⟩ := List.lookup_eq_some_iff.mp h
  simp [heq]

theorem entry?_congr (h : t.entries = s.entries) (token : Token) :
    t.entry? token = s.entry? token :=
  congrArg (List.lookup token) h

theorem Registered.entry?_of_mem (h : Registered s) {token : Token} {e : Entry κ}
    (he : (token, e) ∈ s.entries) : s.entry? token = some e := by
  obtain ⟨xs, ys, heq⟩ := List.append_of_mem he
  refine List.lookup_eq_some_iff.mpr ⟨xs, ys, heq, fun p hp => ?_⟩
  have hn := h.tokens_nodup
  rw [tokens, heq, List.map_append, List.map_cons, List.nodup_append] at hn
  have hne := hn.2.2 p.1 (List.mem_map_of_mem hp) token List.mem_cons_self
  simpa using hne.symm

theorem Registered.eq_of_token (h : Registered s) {e f : Token × Entry κ} (he : e ∈ s.entries)
    (hf : f ∈ s.entries) (ht : e.1 = f.1) : e = f :=
  List.inj_on_of_nodup_map h.tokens_nodup he hf ht

theorem Registered.eq_of_socket (h : Registered s) {e f : Token × Entry κ} (he : e ∈ s.entries)
    (hf : f ∈ s.entries) (ht : e.2.socket = f.2.socket) : e = f :=
  List.inj_on_of_nodup_map h.sockets_nodup he hf ht

theorem Registered.congr (h : Registered s) (he : t.entries = s.entries)
    (hr : t.watch.registered = s.watch.registered)
    (hi : t.watch.selector.interests = s.watch.selector.interests) (hn : t.next = s.next)
    (hs : s.sockets ≤ t.sockets) : Registered t := by
  obtain ⟨hreg, hint, htok, hnodup, hlt, hwake, hnext⟩ := h
  constructor <;> simp only [tokens, he, hr, hi, hn] at *
  · exact hreg
  · exact hint
  · exact htok
  · exact hnodup
  · exact fun i hm => Nat.lt_of_lt_of_le (hlt i hm) hs
  · exact hwake
  · exact hnext

/-- What the system is interested in may become less, as long as nothing of an attempt goes. -/
theorem Registered.forget (h : Registered s) {watch : Watch τ}
    (hr : watch.registered = s.watch.registered)
    (hi : (s.entries.map interestOf).Sublist watch.selector.interests)
    (hsub : watch.selector.interests.Sublist s.watch.selector.interests) :
    Registered { s with watch := watch } where
  registered := hr.trans h.registered
  interests := hi
  tokens_nodup := h.tokens_nodup
  interests_nodup := h.interests_nodup.sublist (hsub.map _)
  interest_lt := fun i hm => h.interest_lt i (hsub.subset hm)
  interest_ne := fun i hm => h.interest_ne i (hsub.subset hm)
  next_ne := h.next_ne

theorem Registered.note (h : Registered s) (x : Happening κ τ) : Registered (s.note x) :=
  h.congr rfl rfl rfl rfl (Nat.le_refl _)

theorem Registered.publish (h : Registered s) (event : Event) : Registered (s.publish event) :=
  h.congr (by simp) (by simp) (by simp) (by simp) (by simp)

theorem Registered.call (h : Registered s) (call : Call κ) : Registered (s.call call) :=
  h.congr rfl rfl rfl rfl (Nat.le_refl _)

theorem Registered.fail (h : Registered s) (ticket : Nat) (continuations : Continuations κ)
    (address : Option SocketAddress) (failure : Failure) :
    Registered (s.fail ticket continuations address failure) :=
  (h.publish _).call _

theorem Registered.handOff (h : Registered s) (ticket : Nat) (continuations : Continuations κ)
    (address : SocketAddress) (socket : Nat) (preparation : Option Fault) :
    Registered (s.handOff ticket continuations address socket preparation) := by
  obtain ⟨nodelay, t, ht, heq⟩ := handOff_eq (s := s) ticket continuations address socket
    preparation
  have hr : Registered t := by
    rcases ht with rfl | ⟨fault, rfl⟩
    · exact h
    · exact h.note _
  rw [heq]
  exact (hr.publish _).call _

theorem Registered.openSocket (h : Registered s) (ticket : Nat) :
    Registered (s.openSocket ticket) :=
  h.congr rfl rfl rfl rfl (Nat.le_succ _)

/-- Closing a socket that no attempt has takes nothing away from any of them. -/
theorem Registered.closeSocket (h : Registered s) {socket : Nat}
    (hfree : ∀ e ∈ s.entries, e.2.socket ≠ socket) : Registered (s.closeSocket socket) := by
  have hall : (s.entries.map interestOf).filter (·.1 ≠ socket) = s.entries.map interestOf := by
    rw [List.filter_eq_self, List.forall_mem_map]
    exact fun e he => decide_eq_true (hfree e he)
  let watch := { s.watch with selector := s.watch.selector.forget socket }
  have hforget : Registered { s with watch := watch } :=
    h.forget rfl (hall ▸ h.interests.filter _) List.filter_sublist
  exact hforget.note (.closed socket)

theorem Registered.interest_free (h : Registered s) :
    ∀ i ∈ s.watch.selector.interests, i.1 ≠ s.sockets :=
  fun i hi => Nat.ne_of_lt (h.interest_lt i hi)

theorem Registered.entries_free (h : Registered s) {socket : Nat}
    (hfree : ∀ i ∈ s.watch.selector.interests, i.1 ≠ socket) :
    ∀ e ∈ s.entries, e.2.socket ≠ socket :=
  fun _ he => hfree _ (h.interest_mem he)

theorem Registered.filter_interests (h : Registered s) {token : Token} {e : Entry κ}
    (he : s.entry? token = some e) :
    (s.entries.map interestOf).filter (·.1 ≠ e.socket) =
      (s.entries.filter (·.1 ≠ token)).map interestOf := by
  rw [List.filter_map]
  congr 1
  refine List.filter_congr fun f hf => ?_
  have hm := mem_entries_of_lookup he
  simp only [interestOf, Function.comp_apply, ne_eq, decide_not, Bool.not_eq_eq_eq_not,
    Bool.not_not]
  by_cases hsock : f.2.socket = e.socket
  · have : f = (token, e) := h.eq_of_socket hf hm hsock
    simp [this]
  · have : f.1 ≠ token := fun ht => hsock (by rw [h.eq_of_token hf hm ht])
    simp [hsock, this]

theorem Registered.token?_isSome (h : Registered s) {e : Token × Entry κ} (he : e ∈ s.entries) :
    (s.watch.selector.token? e.2.socket).isSome := by
  rw [Selector.token?, List.lookup_isSome_iff]
  exact ⟨_, h.interest_mem he, by simp [interestOf]⟩

/-- The token is given up in any case; the interest of the system stays if the system refuses to
give it up. -/
theorem Registered.untrack_eq (h : Registered s) {token : Token} {e : Entry κ}
    (he : s.entry? token = some e) (removal : Option Fault) :
    s.untrack token e removal =
      let kept := { s with
        entries := s.entries.filter (·.1 ≠ token)
        watch := { s.watch with registered := s.watch.registered.filter (· ≠ token) } }
      match removal with
      | none => { kept with watch := { kept.watch with
          selector := s.watch.selector.forget e.socket } }
      | some fault => kept.note (.unwatched token fault) := by
  have hknown := h.token?_isSome (mem_entries_of_lookup he)
  cases removal with
  | none => simp [untrack, Watch.remove, Selector.deregister, hknown]
  | some fault => rfl

theorem Registered.untrack (h : Registered s) {token : Token} {e : Entry κ}
    (he : s.entry? token = some e) (removal : Option Fault) :
    Registered (s.untrack token e removal) := by
  have hsub : (s.entries.filter (·.1 ≠ token)).Sublist s.entries := List.filter_sublist
  have hkept : Registered { s with
      entries := s.entries.filter (·.1 ≠ token)
      watch := { s.watch with registered := s.watch.registered.filter (· ≠ token) } } :=
    { registered := by
        simp only [h.registered, tokens, List.filter_map]
        rfl
      interests := (hsub.map _).trans h.interests
      tokens_nodup := h.tokens_nodup.sublist (hsub.map _)
      interests_nodup := h.interests_nodup
      interest_lt := h.interest_lt
      interest_ne := h.interest_ne
      next_ne := h.next_ne }
  rw [h.untrack_eq he]
  cases removal with
  | none =>
    refine hkept.forget rfl ?_ List.filter_sublist
    exact h.filter_interests he ▸ h.interests.filter _
  | some fault => exact hkept.note _

/-- What the system is interested in when an attempt lost its place. -/
theorem Registered.untrack_interests (h : Registered s) {token : Token} {e : Entry κ}
    (he : s.entry? token = some e) (removal : Option Fault) :
    (s.untrack token e removal).watch.selector.interests = match removal with
      | none => s.watch.selector.interests.filter (·.1 ≠ e.socket)
      | some _ => s.watch.selector.interests := by
  rw [h.untrack_eq he]
  cases removal <;> rfl

theorem Registered.untrack_entries (h : Registered s) {token : Token} {e : Entry κ}
    (he : s.entry? token = some e) (removal : Option Fault) :
    (s.untrack token e removal).entries = s.entries.filter (·.1 ≠ token) := by
  rw [h.untrack_eq he]
  cases removal <;> rfl

theorem Registered.untracked_free (h : Registered s) {token : Token} {e : Entry κ}
    (he : s.entry? token = some e) (removal : Option Fault) :
    ∀ f ∈ (s.untrack token e removal).entries, f.2.socket ≠ e.socket := by
  rw [h.untrack_entries he]
  intro f hf hsock
  have hf : f ∈ s.entries ∧ f.1 ≠ token := by simpa using hf
  have heq : f = (token, e) := h.eq_of_socket hf.1 (mem_entries_of_lookup he) hsock
  exact hf.2 (by rw [heq])

theorem Registered.allocate (h : Registered s) : Registered s.allocate.2 :=
  { h with next_ne := following_ne_wakeToken _ }

theorem Registered.add_eq (h : Registered s) {socket : Nat} {token : Token}
    (hsocket : ∀ i ∈ s.watch.selector.interests, i.1 ≠ socket) (htoken : token ∉ s.tokens) :
    s.watch.add socket token = .ok { s.watch with
      selector := { s.watch.selector with
        interests := s.watch.selector.interests ++ [(socket, token)] }
      registered := s.watch.registered ++ [token] } := by
  have hunknown : (s.watch.selector.token? socket).isSome = false := by
    rw [Bool.eq_false_iff, ne_eq, Selector.token?, List.lookup_isSome_iff]
    rintro ⟨i, hi, heq⟩
    exact hsocket i hi (beq_iff_eq.mp heq).symm
  simp only [Watch.add, Selector.register, hunknown, Bool.false_eq_true, ↓reduceIte,
    h.registered, htoken]
  rfl

theorem Registered.tracked (h : Registered s) {token : Token} {e : Entry κ} {watch : Watch τ}
    (hsocket : ∀ i ∈ s.watch.selector.interests, i.1 ≠ e.socket) (hlt : e.socket < s.sockets)
    (htoken : token ∉ s.tokens) (hwake : token ≠ wakeToken)
    (hadd : s.watch.add e.socket token = .ok watch) :
    Registered { s with watch := watch, entries := s.entries ++ [(token, e)] } := by
  rw [h.add_eq hsocket htoken] at hadd
  obtain rfl := Except.ok.inj hadd
  have hmem : ∀ i ∈ s.watch.selector.interests ++ [(e.socket, token)],
      i ∈ s.watch.selector.interests ∨ i = (e.socket, token) := fun i hi => by
    simpa using hi
  constructor
  · simp [tokens, h.registered]
  · rw [List.map_append]
    exact h.interests.append (.refl _)
  · rw [tokens, List.map_append, List.map_singleton, ← List.concat_eq_append]
    exact h.tokens_nodup.concat htoken
  · rw [List.map_append, List.map_singleton, ← List.concat_eq_append]
    refine h.interests_nodup.concat fun hm => ?_
    obtain ⟨i, hi, heq⟩ := List.mem_map.mp hm
    exact hsocket i hi heq
  · intro i hi
    rcases hmem i hi with hi | rfl
    · exact h.interest_lt i hi
    · exact hlt
  · intro i hi
    rcases hmem i hi with hi | rfl
    · exact h.interest_ne i hi
    · exact hwake
  · exact h.next_ne

end State

end Dialer.InFlight
