import Dialer.Proofs.InFlight.Resolution

/-!
# What a batch comes to

A batch is put together first and resolved item by item, and every call it makes runs foreign code
before the next item has its turn. Whatever that code does meanwhile, the calls of the batch are
fixed when it is put together: each attempt that it names is called back for the first item that
names it, in the order of the items, and every other attempt stays as it is. Only a panic that
throws again when it is got rid of can take the rest of a batch along.
-/

namespace Dialer.InFlight

open Address (SocketAddress)
open Readiness (Token)

variable {κ τ : Type}

/-- What an attempt resolves in for a cause. `nodelay` says whether its socket is to be set up, and
`preparation` is the system's answer to that. -/
def Entry.outcome (e : Entry κ) (nodelay : Bool) (preparation : Option Fault) : Cause → Outcome
  | .established => .ok ⟨e.socket, nodelay && preparation.isNone⟩
  | .broken fault => .error (.connectFailed fault)
  | .timedOut => .error (.timeout e.timeout)
  | .aborted => .error .aborted

/-- The call that an attempt is resolved with. -/
def Entry.call (e : Entry κ) (nodelay : Bool) (preparation : Option Fault) (cause : Cause) :
    Call κ :=
  ⟨e.ticket, e.continuations.select (e.outcome nodelay preparation cause),
    e.outcome nodelay preparation cause⟩

theorem Entry.gives (e : Entry κ) (nodelay : Bool) (preparation : Option Fault) (cause : Cause) :
    cause.Gives e (e.outcome nodelay preparation cause) := by
  cases cause with
  | established => exact ⟨_, rfl⟩
  | broken fault => rfl
  | timedOut => rfl
  | aborted => rfl

/-- The calls that a batch comes to, one item after the other. The system's answers stand beside the
items they belong to. -/
def settlement (nodelay : Bool) (entries : List (Token × Entry κ)) :
    List (Token × Cause) → List (Option Fault) → List (Call κ)
  | (token, cause) :: batch, preparation :: more =>
    match entries.lookup token with
    | none => settlement nodelay entries batch more
    | some e => e.call nodelay preparation cause ::
        settlement nodelay (entries.filter (·.1 ≠ token)) batch more
  | _, _ => []

/-- The attempts that a batch resolves: each item but those that name an attempt again or none. -/
def resolved (entries : List (Token × Entry κ)) (batch : List (Token × Cause)) :
    List (Token × Cause) :=
  (batch.filter fun r => (entries.lookup r.1).isSome).eraseDupsBy fun r r' => r.1 == r'.1

/-- The answer to setting up a socket that the table takes as it goes on. -/
def Action.preparation? : Action κ τ → Option (Option Fault)
  | .advance release => some release.preparation
  | _ => none

theorem Action.preparation?_of_isOutside {a : Action κ τ} (ha : a.isOutside) :
    a.preparation? = none := by
  cases a with
  | advance release => cases ha
  | _ => rfl

def preparations (actions : List (Action κ τ)) : List (Option Fault) :=
  actions.filterMap Action.preparation?

namespace State

variable {s t u : State κ τ} {base : List (Frame κ τ)} {batch : List (Token × Cause)}
  {actions : List (Action κ τ)} {a : Action κ τ} {token : Token} {cause : Cause} {e : Entry κ}

/-- The actions happen one after the other while there are more than `depth` frames. -/
def Within (depth : Nat) (s : State κ τ) : List (Action κ τ) → Prop
  | [] => True
  | a :: rest => depth < s.frames.length ∧ a.Enabled s ∧ (s.after a).Within depth rest

instance decidableWithin (depth : Nat) (s : State κ τ) :
    (actions : List (Action κ τ)) → Decidable (s.Within depth actions)
  | [] => .isTrue trivial
  | a :: rest =>
    haveI := decidableWithin depth (s.after a) rest
    inferInstanceAs (Decidable (depth < s.frames.length ∧ a.Enabled s ∧
      (s.after a).Within depth rest))

theorem Within.append {depth : Nat} {xs ys : List (Action κ τ)} :
    s.Within depth (xs ++ ys) ↔ s.Within depth xs ∧ (s.run xs).Within depth ys := by
  induction xs generalizing s with
  | nil => simp [Within, State.run]
  | cons x xs ih => simp [Within, ih, State.run, and_assoc]

theorem Within.possible {depth : Nat} (h : s.Within depth actions) : s.Possible actions := by
  induction actions generalizing s with
  | nil => trivial
  | cons a rest ih => exact ⟨h.2.1, ih h.2.2⟩

/-- A batch is being resolved on top of other frames: the table goes on with it, or it called
something back and waits. -/
def Settling (base : List (Frame κ τ)) (batch : List (Token × Cause)) (s : State κ τ) : Prop :=
  s.frames = .settling batch :: base ∨ ∃ call, s.frames = .calling call :: .settling batch :: base

theorem Settling.lt_length (h : Settling base batch s) : base.length < s.frames.length := by
  rcases h with h | ⟨call, h⟩ <;> simp only [h, List.length_cons] <;> omega

theorem Settling.congr (h : Settling base batch s) (hf : t.frames = s.frames) :
    Settling base batch t := by
  rwa [Settling, hf]

theorem Settling.not_isFree (h : Settling base batch s) : ¬ s.isFree := by
  rcases h with h | ⟨call, h⟩ <;> simp [isFree, h]

/-! ### One step -/

@[simp] theorem publish_nodelay (s : State κ τ) (event : Event) :
    (s.publish event).nodelay = s.nodelay := by
  rcases publish_cases s event with h | ⟨_, _, h⟩ | h <;> rw [h] <;> rfl

theorem prepare_spec (s : State κ τ) (address : SocketAddress) (preparation : Option Fault) :
    (s.prepare address preparation).1 = (s.nodelay && preparation.isNone) ∧
      (s.prepare address preparation).2.calls = s.calls ∧
      (s.prepare address preparation).2.nodelay = s.nodelay := by
  unfold prepare
  cases hn : s.nodelay with
  | false => exact ⟨rfl, rfl, hn⟩
  | true =>
    cases preparation with
    | none => exact ⟨rfl, rfl, hn⟩
    | some fault => exact ⟨rfl, rfl, hn⟩

theorem handOff_calls (s : State κ τ) (e : Entry κ) (preparation : Option Fault) :
    (s.handOff e.ticket e.continuations e.address e.socket preparation).calls =
        e.call s.nodelay preparation .established :: s.calls ∧
      (s.handOff e.ticket e.continuations e.address e.socket preparation).nodelay = s.nodelay := by
  obtain ⟨hfst, hcalls, hnodelay⟩ := prepare_spec s e.address preparation
  simp only [calls] at hcalls
  refine ⟨?_, (publish_nodelay _ _).trans hnodelay⟩
  simp only [handOff, calls, call_history, List.filterMap_cons, Happening.call?, publish_calls,
    hcalls, hfst]
  rfl

/-- The call that resolving makes is fixed by the attempt, the cause and the system's answer. -/
theorem Registered.resolve_calls (h : Registered s) (he : s.entry? token = some e) (cause : Cause)
    (release : Release) :
    (s.resolve token cause release).calls =
        e.call s.nodelay release.preparation cause :: s.calls ∧
      (s.resolve token cause release).nodelay = s.nodelay := by
  obtain ⟨hcalls, hnodelay⟩ : (s.untrack token e release.removal).calls = s.calls ∧
      (s.untrack token e release.removal).nodelay = s.nodelay := by
    rw [h.untrack_eq he]
    cases release.removal <;> exact ⟨rfl, rfl⟩
  have hfail : ∀ (t : State κ τ) (address : Option SocketAddress) (failure : Failure),
      t.calls = s.calls → t.nodelay = s.nodelay →
        (t.fail e.ticket e.continuations address failure).calls =
            failureCall e.ticket e.continuations failure :: s.calls ∧
          (t.fail e.ticket e.continuations address failure).nodelay = s.nodelay := by
    intro t address failure hc hn
    refine ⟨?_, (publish_nodelay t _).trans hn⟩
    rw [← hc]
    simp [fail_eq]
  simp only [State.resolve, he]
  cases cause with
  | established =>
    let t := (s.untrack token e release.removal).note (.established e.address)
    have hc : t.calls = s.calls := hcalls
    have hn : t.nodelay = s.nodelay := hnodelay
    exact hc ▸ hn ▸ handOff_calls t e release.preparation
  | broken fault => exact hfail _ _ _ hcalls hnodelay
  | timedOut => exact hfail _ _ _ hcalls hnodelay
  | aborted => exact hfail _ _ _ hcalls hnodelay

theorem leave_nodelay {f : Frame κ τ} {rest : List (Frame κ τ)} (hs : s.frames = f :: rest)
    (hf : f.isForeign) {panic : Option Panic}
    (hp : ∀ text next, panic ≠ some (.volatile text next)) :
    (s.leave panic).nodelay = s.nodelay := by
  rcases panic with _ | (text | ⟨text, next⟩)
  · rfl
  · obtain ⟨site, heq⟩ := unwind_plain hf text rest s
    rw [leave, hs, heq]
    rfl
  · exact absurd rfl (hp text next)

/-- What can happen while a batch is being resolved: nothing to the batch and the attempts; the end
of the batch; or the turn of its first item. -/
inductive Turn (base : List (Frame κ τ)) (batch : List (Token × Cause)) (s : State κ τ) :
    Action κ τ → State κ τ → Prop
  | still {a : Action κ τ} {t : State κ τ} (ha : a.preparation? = none) (h : Quiet s t)
      (hn : t.nodelay = s.nodelay) (hf : Settling base batch t) : Turn base batch s a t
  | ended {release : Release} (hb : batch = []) :
      Turn base batch s (.advance release) { s with frames := base }
  | missed {release : Release} {token : Token} {cause : Cause}
      {rest : List (Token × Cause)} (hb : batch = (token, cause) :: rest)
      (he : s.entry? token = none) :
      Turn base batch s (.advance release) { s with frames := .settling rest :: base }
  | called {release : Release} {token : Token} {cause : Cause}
      {rest : List (Token × Cause)} {e : Entry κ} {t : State κ τ}
      (hb : batch = (token, cause) :: rest) (he : s.entry? token = some e)
      (hentries : t.entries = s.entries.filter (·.1 ≠ token))
      (hinterests : cause ≠ .established →
        t.watch.selector.interests = s.watch.selector.interests.filter (·.1 ≠ e.socket))
      (hcalls : t.calls = e.call s.nodelay release.preparation cause :: s.calls)
      (hn : t.nodelay = s.nodelay)
      (hf : t.frames =
        .calling (e.call s.nodelay release.preparation cause) :: .settling rest :: base) :
      Turn base batch s (.advance release) t

/-- The loop goes on with the batch. -/
theorem Lawful.turn_advance (h : Lawful s) (hs : s.frames = .settling batch :: base)
    (release : Release) :
    Turn base batch s (.advance release) (s.advance release) := by
  cases batch with
  | nil =>
    have hadv : s.advance release = { s with frames := base } := by
      simp only [State.advance, hs]
    exact hadv ▸ .ended rfl
  | cons item rest =>
    obtain ⟨token, cause⟩ := item
    rcases h.advance_settling_cases hs release with ⟨he, heq⟩ | ⟨e, call, -, hcon⟩
    · exact heq ▸ .missed rfl he
    · have hadv : s.advance release =
          { s with frames := .settling rest :: base }.resolve token cause release := by
        simp only [State.advance, hs]
      have hr := (Quiet.withFrames s (.settling rest :: base)).registered_of h.registered
      obtain ⟨hcalls, hn⟩ := hr.resolve_calls hcon.entry cause release
      rw [← hadv] at hcalls hn
      obtain rfl : call = e.call s.nodelay release.preparation cause :=
        (List.cons.inj (hcon.calls.symm.trans hcalls)).1
      have hinterests : cause ≠ .established → _ := fun hne =>
        hcon.interests.resolve_right fun hkept => hne hkept.1
      exact .called rfl hcon.entry hcon.entries hinterests hcalls hn hcon.frames

/-- One step of a batch, if no panic takes it along. -/
theorem Lawful.turn (h : Lawful s) (hs : Settling base batch s) (ha : a.Enabled s)
    (hc : ∀ text next, a ≠ .leave (some (.volatile text next))) :
    Turn base batch s a (s.after a) := by
  cases Meanwhile.of_enabled ha hs.not_isFree with
  | advance release hn =>
    rcases hs with hs | ⟨call, hs⟩
    · exact h.turn_advance hs release
    · exact absurd (isForeign_iff.mpr ⟨_, _, hs, rfl⟩) hn
  | leave panic hl =>
    obtain ⟨f, rest, hf, hforeign⟩ := isForeign_iff.mp hl
    rcases hs with hs | ⟨call, hs⟩
    · obtain ⟨rfl, -⟩ := List.cons.inj (hs.symm.trans hf)
      simp [Frame.isForeign] at hforeign
    · have hp : ∀ text next, panic ≠ some (.volatile text next) :=
        fun text next heq => hc text next (heq ▸ rfl)
      obtain ⟨hq, hfr, -⟩ := leave_innermost hs rfl hp
      exact .still rfl hq (leave_nodelay hs rfl hp) (.inl hfr)
  | outside ho =>
    obtain ⟨hq, hf, hn⟩ := quiet_outside ho
    exact .still (Action.preparation?_of_isOutside ho) hq hn (hs.congr hf)

/-! ### Runs -/

theorem filter_turn (entries : List (Token × Entry κ)) (token : Token) (cause : Cause)
    (done : List (Token × Cause)) :
    (entries.filter (·.1 ≠ token)).filter (·.1 ∉ done.map (·.1)) =
      entries.filter (·.1 ∉ ((token, cause) :: done).map (·.1)) := by
  rw [List.filter_filter]
  refine List.filter_congr fun e _ => ?_
  rw [← Bool.decide_and]
  exact decide_eq_decide.mpr (by rw [List.map_cons, List.mem_cons, not_or, and_comm])

theorem filter_missing {entries : List (Token × Entry κ)} {token : Token}
    (he : entries.lookup token = none) : entries.filter (·.1 ≠ token) = entries := by
  refine List.filter_eq_self.mpr fun e hm => decide_eq_true fun heq => ?_
  rw [List.lookup_eq_none_iff] at he
  exact absurd (he e hm) (by simp [heq])

/-- What the system is interested in, but for the sockets of the attempts under some tokens. -/
def interestsBut (s : State κ τ) (tokens : List Token) : List (Nat × Token) :=
  s.watch.selector.interests.filter fun i => ∀ e ∈ s.entries, e.1 ∈ tokens → e.2.socket ≠ i.1

theorem interestsBut_nil (s : State κ τ) : s.interestsBut [] = s.watch.selector.interests :=
  List.filter_eq_self.mpr fun _ _ => decide_eq_true fun _ _ hm => absurd hm List.not_mem_nil

theorem interestsBut_missing (he : s.entry? token = none) (tokens : List Token) :
    s.interestsBut (token :: tokens) = s.interestsBut tokens := by
  refine List.filter_congr fun i _ => decide_eq_decide.mpr (forall₂_congr fun f hf => ?_)
  have hne : f.1 ≠ token := fun heq => by
    have hfree := List.lookup_eq_none_iff.mp he f hf
    simp [heq] at hfree
  rw [List.mem_cons, or_iff_right hne]

theorem Registered.interestsBut_turn (h : Registered s) (he : s.entry? token = some e)
    (hentries : t.entries = s.entries.filter (·.1 ≠ token))
    (hinterests : t.watch.selector.interests =
      s.watch.selector.interests.filter (·.1 ≠ e.socket)) (tokens : List Token) :
    t.interestsBut tokens = s.interestsBut (token :: tokens) := by
  have hm := mem_entries_of_lookup he
  rw [interestsBut, interestsBut, hinterests, hentries, List.filter_filter]
  refine List.filter_congr fun i _ => ?_
  rw [← Bool.decide_and]
  refine decide_eq_decide.mpr ⟨fun ⟨hother, hne⟩ f hf hmf => ?_,
    fun hall => ⟨fun f hf hmf => ?_, ?_⟩⟩
  · by_cases htoken : f.1 = token
    · rw [h.eq_of_token hf hm htoken]
      exact hne.symm
    · have hmf := (List.mem_cons.mp hmf).resolve_left htoken
      exact hother f (List.mem_filter.mpr ⟨hf, decide_eq_true htoken⟩) hmf
  · exact hall f (List.mem_filter.mp hf).1 (List.mem_cons_of_mem _ hmf)
  · exact (hall (token, e) hm List.mem_cons_self).symm

/-- Where a batch of `s` stands in `u`, after some answers of the system: part of it had its turn
and made its calls, and what is left of it is being resolved, or nothing is and the batch is over. -/
structure Standing (base : List (Frame κ τ)) (batch : List (Token × Cause)) (s : State κ τ)
    (answers : List (Option Fault)) (u : State κ τ) (done rest : List (Token × Cause)) : Prop where
  batch_eq : batch = done ++ rest
  lawful : Lawful u
  entries : u.entries = s.entries.filter (·.1 ∉ done.map (·.1))
  interests : (∀ r ∈ done, r.2 ≠ .established) →
    u.watch.selector.interests = s.interestsBut (done.map (·.1))
  calls : u.calls = (settlement s.nodelay s.entries done answers).reverse ++ s.calls
  length_le : done.length ≤ answers.length
  frames : Settling base rest u ∨ rest = [] ∧ u.frames = base

/-- Along a run the batch is resolved item by item, whatever foreign code does in between. -/
theorem Lawful.standing_run (h : Lawful s) (hs : Settling base batch s)
    (hw : s.Within base.length actions) (hc : Contained actions) :
    ∃ done rest, Standing base batch s (preparations actions) (s.run actions) done rest := by
  induction actions generalizing s batch with
  | nil =>
    exact ⟨[], batch, rfl, h, by simp [State.run], fun _ => s.interestsBut_nil.symm, rfl,
      Nat.le_refl _, .inl hs⟩
  | cons a actions ih =>
    obtain ⟨hlt, ha, hw⟩ := hw
    obtain ⟨hne, hrest⟩ := hc.of_cons
    have hl := (h.after ha).1
    have hturn := h.turn hs ha hne
    rw [show s.run (a :: actions) = (s.after a).run actions from rfl]
    generalize s.after a = t at *
    cases hturn with
    | still hp hq hn hf =>
      obtain ⟨done, rest, hst⟩ := ih hl hf hw hrest
      rw [show preparations (a :: actions) = preparations actions from List.filterMap_cons_none hp]
      refine ⟨done, rest, hst.batch_eq, hst.lawful, ?_, fun hne => ?_, ?_, hst.length_le,
        hst.frames⟩
      · rw [hst.entries, hq.entries]
      · rw [hst.interests hne, interestsBut, interestsBut, hq.entries, hq.interests]
      · rw [hst.calls, hq.entries, hq.calls, hn]
    | ended hb =>
      -- With the batch over there is nothing left to happen within it.
      obtain rfl : actions = [] := by
        cases actions with
        | nil => rfl
        | cons b rest => exact absurd hw.1 (Nat.lt_irrefl _)
      subst hb
      exact ⟨[], [], rfl, hl, by simp [State.run], fun _ => s.interestsBut_nil.symm, rfl,
        Nat.zero_le _, .inr ⟨rfl, rfl⟩⟩
    | @missed _ token cause rest hb he =>
      obtain ⟨done, rest, hst⟩ := ih hl (.inl rfl) hw hrest
      refine ⟨(token, cause) :: done, rest, by rw [hb, hst.batch_eq]; rfl, hst.lawful, ?_,
        fun hne => ?_, ?_, Nat.succ_le_succ hst.length_le, hst.frames⟩
      · rw [hst.entries, ← filter_turn, filter_missing he]
      · rw [hst.interests fun r hr => hne r (List.mem_cons_of_mem _ hr), List.map_cons,
          interestsBut_missing he]
        rfl
      · rw [hst.calls]
        simp only [preparations, Action.preparation?, List.filterMap_cons, settlement]
        rw [show s.entries.lookup token = none from he]
        rfl
    | @called _ token cause rest e _ hb he hentries hinterests hcalls hn hf =>
      obtain ⟨done, rest, hst⟩ := ih hl (.inr ⟨_, hf⟩) hw hrest
      refine ⟨(token, cause) :: done, rest, by rw [hb, hst.batch_eq]; rfl, hst.lawful, ?_,
        fun hne => ?_, ?_, Nat.succ_le_succ hst.length_le, hst.frames⟩
      · rw [hst.entries, hentries, filter_turn]
      · rw [hst.interests fun r hr => hne r (List.mem_cons_of_mem _ hr), List.map_cons]
        exact h.registered.interestsBut_turn he hentries (hinterests (hne _ List.mem_cons_self)) _
      · rw [hst.calls, hentries, hcalls, hn]
        simp only [preparations, Action.preparation?, List.filterMap_cons, settlement]
        rw [show s.entries.lookup token = some e from he]
        simp

/-- When the table is back at the frames below a batch, every item had its turn. -/
theorem Lawful.settled (h : Lawful s) (hf : s.frames = .settling batch :: base)
    (hw : s.Within base.length actions) (hc : Contained actions)
    (hend : (s.run actions).frames.length ≤ base.length) :
    Standing base batch s (preparations actions) (s.run actions) batch [] ∧
      (s.run actions).frames = base := by
  obtain ⟨done, rest, hst⟩ := h.standing_run (.inl hf) hw hc
  rcases hst.frames with hs | ⟨rfl, hbase⟩
  · exact absurd hs.lt_length (Nat.not_lt.mpr hend)
  · obtain rfl : batch = done := by rw [hst.batch_eq, List.append_nil]
    exact ⟨hst, hbase⟩

theorem contained_singleton (h : ∀ text next, a ≠ .leave (some (.volatile text next))) :
    Contained [a] :=
  fun text next hm => h text next (List.mem_singleton.mp hm).symm

/-- The loops go on, foreign code returns, and nothing else happens. -/
def Uneventful (actions : List (Action κ τ)) : Prop :=
  ∀ a ∈ actions, a = .advance {} ∨ a = .leave none

theorem Uneventful.contained (h : Uneventful actions) : Contained actions := by
  intro text next hm
  rcases h _ hm with heq | heq <;> cases heq

theorem Uneventful.append {xs ys : List (Action κ τ)} (hx : Uneventful xs) (hy : Uneventful ys) :
    Uneventful (xs ++ ys) :=
  fun a hm => (List.mem_append.mp hm).elim (hx a) (hy a)

theorem Lawful.exists_returned (h : Lawful s) {call : Call κ}
    (hf : s.frames = .calling call :: .settling batch :: base) :
    s.Within base.length [.leave none] ∧ Lawful (s.after (.leave none)) ∧
      (s.after (.leave none)).frames = .settling batch :: base := by
  have ha : (Action.leave none : Action κ τ).Enabled s := isForeign_iff.mpr ⟨_, _, hf, rfl⟩
  refine ⟨⟨Settling.lt_length (.inr ⟨call, hf⟩), ha, trivial⟩, (h.after ha).1, ?_⟩
  simp [State.after, State.leave, hf]

/-- Wherever a batch stands, it is over once the table went on with it and what it calls back
returned. -/
theorem Lawful.exists_resumed (h : Lawful s) (hs : Settling base batch s) :
    ∃ more, s.Within base.length more ∧ Uneventful more ∧ (s.run more).frames = base := by
  have hreturns : Uneventful [(.leave none : Action κ τ)] := by simp [Uneventful]
  have hadvances : Uneventful [(.advance {} : Action κ τ)] := by simp [Uneventful]
  have happend : ∀ {s : State κ τ} (xs : List (Action κ τ)), s.Within base.length xs →
      Uneventful xs → (∃ more, (s.run xs).Within base.length more ∧ Uneventful more ∧
        ((s.run xs).run more).frames = base) →
          ∃ more, s.Within base.length more ∧ Uneventful more ∧ (s.run more).frames = base := by
    rintro s xs hw hc ⟨more, hw', hc', hf⟩
    exact ⟨xs ++ more, Within.append.mpr ⟨hw, hw'⟩, hc.append hc', by rwa [run_append]⟩
  have hhead : ∀ {s : State κ τ}, Lawful s → s.frames = .settling batch :: base →
      ∃ more, s.Within base.length more ∧ Uneventful more ∧ (s.run more).frames = base := by
    clear hs
    induction batch with
    | nil =>
      intro s h hf
      have ha : (Action.advance {} : Action κ τ).Enabled s := by
        simp [Action.Enabled, isForeign, hf]
      refine ⟨[.advance {}], ⟨Settling.lt_length (.inl hf), ha, trivial⟩, hadvances, ?_⟩
      simp [State.run, State.after, State.advance, hf]
    | cons item batch ih =>
      intro s h hf
      have ha : (Action.advance {} : Action κ τ).Enabled s := by
        simp [Action.Enabled, isForeign, hf]
      refine happend [.advance {}] ⟨Settling.lt_length (.inl hf), ha, trivial⟩ hadvances ?_
      rcases h.advance_settling_cases hf {} with ⟨-, heq⟩ | ⟨e, call, -, hcon⟩
      · exact ih (h.after ha).1 (congrArg State.frames heq)
      · obtain ⟨hw, hl, hf'⟩ := (h.after ha).1.exists_returned hcon.frames
        exact happend _ hw hreturns (ih hl hf')
  rcases hs with hf | ⟨call, hf⟩
  · exact hhead h hf
  · obtain ⟨hw, hl, hf'⟩ := h.exists_returned hf
    exact happend _ hw hreturns (hhead hl hf')

/-- Wherever a batch stands, the table can go on until it is over. -/
theorem Lawful.exists_settled (h : Lawful s) (hs : Settling base batch s) :
    ∃ more, s.Within base.length more ∧ Contained more ∧ (s.run more).frames = base := by
  obtain ⟨more, hw, hu, hf⟩ := h.exists_resumed hs
  exact ⟨more, hw, hu.contained, hf⟩

end State

/-! ### The calls of a batch -/

section Lists

open State (lookup_filter_ne)

variable {entries : List (Token × Entry κ)} {batch : List (Token × Cause)} {token : Token}
  {cause : Cause}

theorem resolved_cons_of_none (he : entries.lookup token = none) :
    resolved entries ((token, cause) :: batch) = resolved entries batch := by
  rw [resolved, List.filter_cons_of_neg (by simp [he]), resolved]

theorem resolved_cons_of_some {e : Entry κ} (he : entries.lookup token = some e) :
    resolved entries ((token, cause) :: batch) =
      (token, cause) :: resolved (entries.filter (·.1 ≠ token)) batch := by
  have hkept : (batch.filter fun r => (entries.lookup r.1).isSome).filter (fun r => r.1 ≠ token) =
      batch.filter fun r => ((entries.filter (·.1 ≠ token)).lookup r.1).isSome := by
    rw [List.filter_filter]
    refine List.filter_congr fun r _ => ?_
    rw [lookup_filter_ne]
    by_cases hr : r.1 = token <;> simp [hr]
  rw [resolved, List.filter_cons_of_pos (by simp [he]), List.eraseDupsBy_cons, resolved, ← hkept]
  simp

/-- A batch calls back exactly what it resolves, in that order, each with its own outcome. -/
theorem settlement_resolved (nodelay : Bool) (entries : List (Token × Entry κ))
    (batch : List (Token × Cause)) {answers : List (Option Fault)}
    (hlen : batch.length ≤ answers.length) :
    List.Forall₂ (fun r call => ∃ e preparation, entries.lookup r.1 = some e ∧
      call = e.call nodelay preparation r.2) (resolved entries batch)
        (settlement nodelay entries batch answers) := by
  induction batch generalizing entries answers with
  | nil => simp [resolved, settlement]
  | cons item batch ih =>
    obtain ⟨token, cause⟩ := item
    cases answers with
    | nil => simp at hlen
    | cons preparation more =>
      replace hlen : batch.length ≤ more.length := Nat.le_of_succ_le_succ hlen
      cases he : entries.lookup token with
      | none =>
        rw [resolved_cons_of_none he, settlement, he]
        exact ih entries hlen
      | some e =>
        rw [resolved_cons_of_some he, settlement, he]
        refine .cons ⟨e, preparation, he, rfl⟩ ((ih _ hlen).imp fun r call hr => ?_)
        obtain ⟨e', preparation', he', hcall⟩ := hr
        rw [lookup_filter_ne] at he'
        split at he'
        · cases he'
        · exact ⟨e', preparation', he', hcall⟩

theorem mem_resolved : (token, cause) ∈ resolved entries batch ↔
    (entries.lookup token).isSome ∧ batch.lookup token = some cause := by
  induction batch generalizing entries with
  | nil => simp [resolved]
  | cons item batch ih =>
    obtain ⟨k, c⟩ := item
    rw [List.lookup_cons]
    cases he : entries.lookup k with
    | none =>
      rw [resolved_cons_of_none he, ih]
      by_cases hk : token = k
      · simp [hk, he]
      · rw [beq_false_of_ne hk]
    | some e =>
      rw [resolved_cons_of_some he, List.mem_cons, ih, lookup_filter_ne]
      by_cases hk : token = k
      · simp [hk, he, eq_comm]
      · simp [hk, beq_false_of_ne hk]

theorem nodup_resolved (entries : List (Token × Entry κ)) (batch : List (Token × Cause)) :
    ((resolved entries batch).map (·.1)).Nodup := by
  induction batch generalizing entries with
  | nil => simp [resolved]
  | cons item batch ih =>
    obtain ⟨k, c⟩ := item
    cases he : entries.lookup k with
    | none =>
      rw [resolved_cons_of_none he]
      exact ih entries
    | some e =>
      rw [resolved_cons_of_some he, List.map_cons, List.nodup_cons]
      refine ⟨fun hm => ?_, ih _⟩
      obtain ⟨r, hr, rfl⟩ := List.mem_map.mp hm
      have hsome := (mem_resolved.mp hr).1
      rw [lookup_filter_ne, if_pos rfl] at hsome
      cases hsome

theorem resolved_eq_self (hn : (batch.map (·.1)).Nodup)
    (hb : ∀ r ∈ batch, (entries.lookup r.1).isSome) : resolved entries batch = batch := by
  induction batch generalizing entries with
  | nil => rfl
  | cons item batch ih =>
    obtain ⟨k, c⟩ := item
    rw [List.map_cons, List.nodup_cons] at hn
    obtain ⟨e, he⟩ := Option.isSome_iff_exists.mp (hb _ List.mem_cons_self)
    rw [resolved_cons_of_some he, ih hn.2 fun r hr => ?_]
    rw [lookup_filter_ne, if_neg]
    · exact hb r (List.mem_cons_of_mem _ hr)
    · rintro rfl
      exact hn.1 (List.mem_map.mpr ⟨r, hr, rfl⟩)

end Lists

end Dialer.InFlight
