import Dialer.Proofs.InFlight.Accounting
import Mathlib.Data.List.Induction

/-!
# What becomes of a request

A sequence of actions issues its complete requests in order, and the place of a request among them
is its ticket. Each of them waits under one token or was called back once, with its own socket or
with an error of its own; none waits any more once the table was given up.
-/

namespace Dialer.InFlight

open Readiness (Token)
open Time (Instant)

variable {κ τ : Type}

/-- The requests that a sequence of actions issues. -/
def requests (actions : List (Action κ τ)) : List (Request κ) := actions.filterMap Action.request?

/-- No foreign code ends in a panic that throws again when it is got rid of. -/
def Contained (actions : List (Action κ τ)) : Prop :=
  ∀ text next, .leave (some (.volatile text next)) ∉ actions

theorem Contained.of_cons {a : Action κ τ} {actions : List (Action κ τ)}
    (h : Contained (a :: actions)) :
    (∀ text next, a ≠ .leave (some (.volatile text next))) ∧ Contained actions :=
  ⟨fun text next heq => h text next (heq ▸ List.mem_cons_self),
    fun text next hm => h text next (List.mem_cons_of_mem a hm)⟩

theorem Contained.append {xs ys : List (Action κ τ)} (hx : Contained xs) (hy : Contained ys) :
    Contained (xs ++ ys) :=
  fun text next hm => (List.mem_append.mp hm).elim (hx text next) (hy text next)

namespace State

/-- Whether an action tells of a fault of a request: the request is issued and answered with the
fault, or its attempt is in flight and its socket is reported with the fault. -/
def Tells (s : State κ τ) (ticket : Nat) (fault : Fault) : Action κ τ → Prop
  | .attempt request reply _ =>
    s.tickets = ticket ∧ request.continuations?.isSome ∧ reply.fault? = some fault
  | .poll (.ok report) =>
    ∃ token e, s.entry? token = some e ∧ e.ticket = ticket ∧ (token, .failed fault) ∈ report
  | _ => False

/-- Whether some action of a sequence tells of a fault of a request. -/
def Told (s : State κ τ) (actions : List (Action κ τ)) (ticket : Nat) (fault : Fault) : Prop :=
  ∃ before a rest, actions = before ++ a :: rest ∧ (s.run before).Tells ticket fault a

/-- What a request may fail with: that its table aborts it, that its own time is over, that its own
target cannot be used, or a fault that the system told of it. -/
inductive Excuses (s : State κ τ) (actions : List (Action κ τ)) (ticket : Nat)
    (request : Request κ) : Failure → Prop
  | aborted : Excuses s actions ticket request .aborted
  | timeout : Excuses s actions ticket request (.timeout request.timeout)
  | target {error : TargetError}
      (h : Target.ofRequest request.address request.port = .error error) :
      Excuses s actions ticket request (.connectFailed (.custom .invalidInput (.target error)))
  | fault {fault : Fault} (h : s.Told actions ticket fault) :
      Excuses s actions ticket request (.connectFailed fault)

/-- No attempt of a request is in flight. -/
def IsGone (s : State κ τ) (ticket : Nat) : Prop :=
  ∀ token e, s.entry? token = some e → e.ticket ≠ ticket

/-- A request was not called back. -/
def IsUncalled (s : State κ τ) (ticket : Nat) : Prop := ∀ call ∈ s.calls, call.ticket ≠ ticket

/-- The attempt of a request is in flight under one token. -/
def IsPendingOnce (s : State κ τ) (ticket : Nat) (request : Request κ) : Prop :=
  ∃! token, ∃ e, s.entry? token = some e ∧ e.ticket = ticket ∧
    request.continuations? = some e.continuations

/-- A call is right for a request: the continuation is the one for the outcome, a socket was opened
for this request and no other, and a failure is excused. -/
structure Answers (s₀ : State κ τ) (actions : List (Action κ τ)) (ticket : Nat)
    (request : Request κ) (call : Call κ) : Prop where
  continuation : ∃ c, request.continuations? = some c ∧
    call.continuation = c.select call.outcome
  socket : ∀ handed, call.outcome = .ok handed →
    ∀ k, (k, handed.socket) ∈ (s₀.run actions).openings ↔ k = ticket
  failure : ∀ f, call.outcome = .error f → s₀.Excuses actions ticket request f

/-- A panic that throws again when it is got rid of broke the giving up of the table off. -/
def BrokenOff (s : State κ τ) (actions : List (Action κ τ)) : Prop :=
  ∃ before a rest, actions = before ++ a :: rest ∧
    BreaksOff (s.run before) a (s.run (before ++ [a]))

variable {s s₀ : State κ τ} {actions : List (Action κ τ)} {a : Action κ τ} {ticket : Nat}
  {fault : Fault}

theorem not_brokenOff (h : Contained actions) (s : State κ τ) : ¬ s.BrokenOff actions := by
  rintro ⟨before, a, rest, rfl, hb⟩
  obtain ⟨text, next, rfl⟩ := hb.panic
  exact h text next (by simp)

theorem run_snoc (s : State κ τ) (actions : List (Action κ τ)) (a : Action κ τ) :
    s.run (actions ++ [a]) = (s.run actions).after a := run_append s actions [a]

theorem possible_append {xs ys : List (Action κ τ)} :
    s.Possible (xs ++ ys) ↔ s.Possible xs ∧ (s.run xs).Possible ys := by
  induction xs generalizing s with
  | nil => simp [Possible, State.run]
  | cons x xs ih => simp [Possible, ih, and_assoc, State.run]

theorem Told.append (h : s.Told actions ticket fault) (more : List (Action κ τ)) :
    s.Told (actions ++ more) ticket fault := by
  obtain ⟨before, a, rest, rfl, ha⟩ := h
  exact ⟨before, a, rest ++ more, by simp, ha⟩

theorem Tells.told (h : (s.run actions).Tells ticket fault a) :
    s.Told (actions ++ [a]) ticket fault :=
  ⟨actions, a, [], rfl, h⟩

theorem Excuses.append {request : Request κ} {f : Failure}
    (h : s.Excuses actions ticket request f) (more : List (Action κ τ)) :
    s.Excuses (actions ++ more) ticket request f := by
  cases h with
  | aborted => exact .aborted
  | timeout => exact .timeout
  | target h => exact .target h
  | fault h => exact .fault (h.append more)

theorem Lawful.batchOf_attempt (h : Lawful s) {request : Request κ} {reply : Reply}
    {now : Instant} (ha : (Action.attempt request reply now).Enabled s) :
    batchOf (s.after (.attempt request reply now)).frames = [] := by
  obtain ⟨hf, -, hroom⟩ := ha
  have hrests := rests_of_isFree h.ordered.stacked hf
  cases hc : request.continuations? with
  | none =>
    simp only [State.after, attempt_incomplete hc]
    exact hrests.batchOf_eq
  | some c =>
    obtain ⟨-, ⟨-, call, hans⟩ | ⟨token, e, -, hb⟩⟩ :=
      h.registered.attempt_complete hroom hc reply now
    · simp only [State.after, hans.frames]
      exact hrests.batchOf_calling
    · simp only [State.after, hb.frames]
      exact hrests.batchOf_eq

theorem batchOf_abort {order : List Token} {r : Token × Cause}
    (hr : r ∈ batchOf (s.abort order).2.frames) : r.2 = .aborted := by
  rw [abort_frames] at hr
  obtain ⟨token, -, rfl⟩ := List.mem_map.mp (mem_arrange.mp hr)
  rfl

theorem Lawful.batchOf_advance (h : Lawful s) {release : Release}
    (ha : (Action.advance release).Enabled s) {r : Token × Cause}
    (hr : r ∈ batchOf (s.advance release).frames) : r ∈ batchOf s.frames := by
  have hst := h.ordered.stacked
  have hnone : batchOf (s.advance release).frames ≠ [] := fun hf => by simp [hf] at hr
  obtain ⟨f, rest, hs⟩ := List.exists_cons_of_ne_nil (show s.frames ≠ [] by simpa using ha.1)
  cases f with
  | settling batch =>
    cases batch with
    | nil =>
      refine absurd ?_ hnone
      simp only [State.advance, hs]
      rw [hs] at hst
      cases hst with
      | rests h => cases h
      | settling _ h =>
        rcases h with h | rfl
        · exact h.batchOf_eq
        · rfl
    | cons item batch =>
      obtain ⟨token, cause⟩ := item
      rw [hs]
      refine List.mem_cons_of_mem _ ?_
      rcases h.advance_settling_cases hs release with ⟨-, heq⟩ | ⟨e, call, -, hcon⟩
      · rwa [heq] at hr
      · rwa [hcon.frames] at hr
  | draining taken => exact absurd (h.advance_draining hs release).2.batchOf_eq hnone
  | closing =>
    refine absurd ?_ hnone
    obtain rfl : rest = [] := hst.closing_last (show s.frames = [] ++ .closing :: rest from hs)
    simp only [State.advance, hs]
    rfl
  | task job => exact absurd (isForeign_iff.mpr ⟨_, _, hs, rfl⟩) ha.2
  | calling call => exact absurd (isForeign_iff.mpr ⟨_, _, hs, rfl⟩) ha.2

theorem Lawful.batchOf_leave (h : Lawful s) (hn : s.isForeign) {panic : Option Panic}
    {r : Token × Cause} (hr : r ∈ batchOf (s.leave panic).frames) : r ∈ batchOf s.frames := by
  have hst := h.ordered.stacked
  have hnone : batchOf (s.leave panic).frames ≠ [] := fun hf => by simp [hf] at hr
  have hleft : ∀ pre f, f.isForeign → s.frames = pre ++ f :: (s.leave panic).frames →
      r ∈ batchOf s.frames := by
    intro pre f hf heq
    rcases (hst.of_foreign heq hf).2 with hb | ⟨hb, -⟩
    · exact hb ▸ hr
    · exact absurd hb hnone
  cases panic with
  | none =>
    obtain ⟨f, rest, hs, hf⟩ := isForeign_iff.mp hn
    exact hleft [] f hf (by simp [hs, State.leave])
  | some panic =>
    rcases unwind_cases panic s.frames s (fun pre post => hst.closing_last) with
      ⟨pre, f, hf, -, heq, -⟩ | ⟨hnil, -⟩
    · exact hleft pre f hf heq
    · refine absurd ?_ hnone
      simp only [State.leave, hnil]
      rfl

/-- A batch holds what it held before, or was put together by this action. -/
theorem Lawful.batchOf_after (h : Lawful s) (ha : a.Enabled s) {r : Token × Cause}
    (hr : r ∈ batchOf (s.after a).frames) :
    r ∈ batchOf s.frames ∨ (∃ report, a = .poll (.ok report) ∧ r ∈ s.finished report) ∨
      (∃ now order, a = .expire now order ∧ r ∈ s.due now) ∨
      (∃ order, (a = .abort order ∨ a = .close order) ∧ r.2 = .aborted) := by
  have hsame : (s.after a).frames = s.frames → r ∈ batchOf s.frames := fun hf => hf ▸ hr
  have hnone : batchOf (s.after a).frames ≠ [] := fun hf => by simp [hf] at hr
  cases a with
  | attempt request reply now => exact absurd (h.batchOf_attempt ha) hnone
  | poll report =>
    cases report with
    | ok report => exact .inr (.inl ⟨report, rfl, hr⟩)
    | error fault =>
      refine .inl (hsame ?_)
      simp only [State.after, State.poll]
      split <;> rfl
  | expire now order => exact .inr (.inr (.inl ⟨now, order, rfl, mem_arrange.mp hr⟩))
  | abort order => exact .inr (.inr (.inr ⟨order, .inl rfl, batchOf_abort hr⟩))
  | drain => exact absurd rfl hnone
  | watchOn monitor => exact .inl (hsame rfl)
  | close order =>
    refine .inr (.inr (.inr ⟨order, .inr rfl, ?_⟩))
    simp only [State.after, State.close] at hr
    split at hr
    · simp [batchOf] at hr
    · exact batchOf_abort hr
  | advance release => exact .inl (h.batchOf_advance ha hr)
  | leave panic => exact .inl (h.batchOf_leave ha hr)
  | enqueue task => exact .inl (hsame (quiet_enqueue s task).2)
  | takeTask => exact .inl (hsame (quiet_takeTask s).2)
  | becomeReady socket => exact .inl (hsame rfl)
  | openChannel => exact .inl (hsame rfl)
  | addReceiver id => exact .inl (hsame rfl)
  | dropReceiver id => exact .inl (hsame rfl)
  | receive id => exact .inl (hsame rfl)

/-- What is known after a sequence of actions from a table with nothing in it. -/
structure Accounted (s₀ : State κ τ) (actions : List (Action κ τ)) (s : State κ τ) : Prop where
  lawful : Lawful s
  tallied : Tallied s
  founded : Founded s
  issued : s.issues.map (·.2) = (requests actions).reverse
  excused : ∀ call ∈ s.calls, ∀ f, call.outcome = .error f →
    ∃ request, (call.ticket, request) ∈ s.issues ∧ s₀.Excuses actions call.ticket request f
  blamed : ∀ token fault, (token, .broken fault) ∈ batchOf s.frames →
    ∀ e, s.entry? token = some e → s₀.Told actions e.ticket fault
  complete : (s₀.BrokenOff actions ∧ s.isClosed) ∨ IsComplete s

theorem requests_snoc (actions : List (Action κ τ)) (a : Action κ τ) :
    (requests (actions ++ [a])).reverse = a.request?.toList ++ (requests actions).reverse := by
  cases h : a.request? <;> simp [requests, h]

theorem Effect.issued {t : State κ τ} (he : Effect s a t)
    (h : s.issues.map (·.2) = (requests actions).reverse) :
    t.issues.map (·.2) = (requests (actions ++ [a])).reverse := by
  rw [requests_snoc]
  cases he with
  | quiet hn hq => rw [hn, hq.issues, h]; rfl
  | emptied hn hem => rw [hn, hem.issues, h]; rfl
  | concluded ha _ hc => rw [ha, show t.issues = s.issues from hc.issues, h]; rfl
  | answered ha hans =>
    obtain ⟨c, hc, -⟩ := hans.continuation
    rw [ha, hans.issues, List.map_cons, h]
    simp [Action.request?, hc]
  | begun ha hb =>
    rw [ha, hb.issues, List.map_cons, h]
    simp [Action.request?, hb.continuations]

/-- An action makes at most one call, and a failure it calls back with is excused. -/
theorem Accounted.excused_after (h : Accounted s₀ actions (s₀.run actions))
    {t : State κ τ} (he : Effect (s₀.run actions) a t) :
    ∀ call ∈ t.calls, ∀ f, call.outcome = .error f →
      ∃ request, (call.ticket, request) ∈ t.issues ∧
        s₀.Excuses (actions ++ [a]) call.ticket request f := by
  have hold : ∀ call ∈ (s₀.run actions).calls, ∀ f, call.outcome = .error f →
      ∃ request, (call.ticket, request) ∈ t.issues ∧
        s₀.Excuses (actions ++ [a]) call.ticket request f := by
    intro call hm f hf
    obtain ⟨request, hi, hx⟩ := h.excused call hm f hf
    exact ⟨request, he.issues_subset _ hi, hx.append [a]⟩
  intro call hm f hf
  cases he with
  | quiet _ hq => exact hold call (hq.calls ▸ hm) f hf
  | emptied _ hem => exact hold call (hem.calls ▸ hm) f hf
  | begun _ hb => exact hold call (hb.calls ▸ hm) f hf
  | @answered request reply now call' ha hans =>
    rw [hans.calls, List.mem_cons] at hm
    rcases hm with rfl | hm
    · refine ⟨request, hans.issues ▸ hans.ticket ▸ List.mem_cons_self, ?_⟩
      rcases hans.outcome with ⟨nodelay, hok, -⟩ | ⟨error, he, herr⟩ | ⟨fault, hfault, herr⟩
      · simp [hok] at hf
      · obtain rfl := Except.error.inj (hf.symm.trans herr)
        exact .target he
      · obtain rfl := Except.error.inj (hf.symm.trans herr)
        obtain ⟨c, hc, -⟩ := hans.continuation
        exact .fault (Tells.told (ha ▸ ⟨hans.ticket.symm, by simp [hc], hfault⟩))
    · exact hold call hm f hf
  | @concluded _ token cause batch rest e call' ha hfr hc =>
    rw [hc.calls, List.mem_cons] at hm
    rcases hm with rfl | hm
    · obtain ⟨request, hi, -, hto, -⟩ :=
        h.founded.entry _ (mem_entries_of_lookup (s := s₀.run actions) hc.entry)
      refine ⟨request, hc.issues ▸ hc.ticket ▸ hi, ?_⟩
      have hg := hc.outcome
      rw [hf] at hg
      cases cause with
      | established =>
        obtain ⟨nodelay, hok⟩ := hg
        simp at hok
      | broken fault =>
        obtain rfl := Except.error.inj hg
        have hb : (token, .broken fault) ∈ batchOf (s₀.run actions).frames := by
          rw [hfr]
          exact List.mem_cons_self
        exact hc.ticket ▸ .fault ((h.blamed token fault hb e hc.entry).append [a])
      | timedOut =>
        obtain rfl := Except.error.inj hg
        exact hto ▸ .timeout
      | aborted =>
        obtain rfl := Except.error.inj hg
        exact .aborted
    · exact hold call hm f hf

/-- Among the attempts nothing is new unless a request is issued. -/
theorem Effect.lookup_of_lookup {t : State κ τ} (he : Effect s a t) (hs : Registered s)
    (hn : a.request? = none) {token : Token} {e : Entry κ} (hm : t.entry? token = some e) :
    s.entry? token = some e := by
  have hm := mem_entries_of_lookup hm
  refine hs.entry?_of_mem ?_
  cases he with
  | quiet _ hq => exact hq.entries ▸ hm
  | emptied _ hem => exact absurd hm (by simp [hem.entries])
  | answered _ hans => exact hans.entries ▸ hm
  | begun ha hb => simp [ha, Action.request?, hb.continuations] at hn
  | concluded _ _ hc => exact List.mem_of_mem_filter (hc.entries ▸ hm)

theorem Accounted.blamed_after (h : Accounted s₀ actions (s₀.run actions))
    (ha : a.Enabled (s₀.run actions)) {token : Token}
    (hb : (token, .broken fault) ∈ batchOf ((s₀.run actions).after a).frames) {e : Entry κ}
    (he : State.entry? ((s₀.run actions).after a) token = some e) :
    s₀.Told (actions ++ [a]) e.ticket fault := by
  obtain ⟨-, heff⟩ := h.lawful.after ha
  have hn : a.request? = none := by
    cases a with
    | attempt request reply now => simp [h.lawful.batchOf_attempt ha] at hb
    | _ => rfl
  have hpending := heff.lookup_of_lookup h.lawful.registered hn he
  rcases h.lawful.batchOf_after ha hb with hold | ⟨report, rfl, hm⟩ | ⟨now, -, -, hm⟩ | ⟨-, -, hc⟩
  · exact (h.blamed token fault hold e hpending).append [a]
  · obtain ⟨⟨k, verdict⟩, hrelevant, heq⟩ := List.mem_filterMap.mp hm
    have hreported := List.mem_of_mem_filter hrelevant
    cases verdict with
    | connected => simp [Cause.ofVerdict?] at heq
    | pending => simp [Cause.ofVerdict?] at heq
    | failed f =>
      simp only [Cause.ofVerdict?, Option.map_some, Option.some.injEq, Prod.mk.injEq,
        Cause.broken.injEq] at heq
      obtain ⟨rfl, rfl⟩ := heq
      exact Tells.told ⟨k, e, hpending, rfl, hreported⟩
  · simp [due] at hm
  · simp at hc

theorem Accounted.snoc (h : Accounted s₀ actions (s₀.run actions))
    (ha : a.Enabled (s₀.run actions)) :
    Accounted s₀ (actions ++ [a]) (s₀.run (actions ++ [a])) := by
  have hrun := run_snoc s₀ actions a
  obtain ⟨hl, he⟩ := h.lawful.after ha
  rw [hrun]
  have hr := h.lawful.registered
  refine ⟨hl, h.tallied.effect hr he, h.founded.effect he, he.issued h.issued, h.excused_after he,
    fun _ _ hb _ => h.blamed_after ha hb, ?_⟩
  rcases h.complete with ⟨⟨before, x, rest, rfl, hx⟩, hclosed⟩ | hc
  · exact .inl ⟨⟨before, x, rest ++ [a], by simp, hx⟩, he.isClosed hclosed⟩
  · by_cases hb : BreaksOff (s₀.run actions) a ((s₀.run actions).after a)
    · exact .inl ⟨⟨actions, a, [], rfl, hrun ▸ hb⟩, hb.closed⟩
    · exact .inr (hc.effect h.tallied h.lawful he hb)

theorem accounted_nil (hl : Lawful s) (he : s.entries = []) (hh : s.history = [])
    (ht : s.tickets = 0) : Accounted s [] s := by
  have hcalls : s.calls = [] := by simp [hh]
  have hissues : s.issues = [] := by simp [hh]
  have hopenings : s.openings = [] := by simp [hh]
  exact
    { lawful := hl
      tallied :=
        { issued := by rw [hissues, ht]; rfl
          once := fun k => by simp [tally, he, hh] }
      founded :=
        { entry := by rw [he]; exact fun _ h => absurd h List.not_mem_nil
          call := by rw [hcalls]; exact fun _ h => absurd h List.not_mem_nil
          opened_lt := by rw [hopenings]; exact fun _ h => absurd h List.not_mem_nil
          opened_nodup := by rw [hopenings]; exact List.nodup_nil }
      issued := by rw [hissues]; rfl
      excused := by rw [hcalls]; exact fun _ h => absurd h List.not_mem_nil
      blamed := fun token _ _ e h => by
        have := mem_entries_of_lookup h
        simp [he] at this
      complete := .inr fun _ h => absurd (ht ▸ h) (Nat.not_lt_zero _) }

theorem accounted_run (capacity : Nat) (nodelay : Bool) {actions : List (Action κ τ)}
    (hp : (initial capacity nodelay).Possible actions) :
    Accounted (initial capacity nodelay) actions ((initial capacity nodelay).run actions) := by
  induction actions using List.reverseRecOn with
  | nil => exact accounted_nil (lawful_initial capacity nodelay) rfl rfl rfl
  | append_singleton actions a ih =>
    obtain ⟨hp, ha⟩ := possible_append.mp hp
    exact (ih hp).snoc ha.1

theorem Reachable.exists_run (h : Reachable s) : ∃ capacity nodelay actions,
    (State.initial capacity nodelay).Possible actions ∧
      s = (State.initial capacity nodelay).run actions := by
  induction h with
  | initial capacity nodelay => exact ⟨capacity, nodelay, [], trivial, rfl⟩
  | @step s a _ ha ih =>
    obtain ⟨capacity, nodelay, actions, hp, rfl⟩ := ih
    refine ⟨capacity, nodelay, actions ++ [a], possible_append.mpr ⟨hp, ha, trivial⟩, ?_⟩
    rw [run_snoc]

theorem Accounted.issues_eq (h : Accounted s₀ actions s) :
    s.issues.reverse = (requests actions).mapIdx Prod.mk := by
  have hfst : s.issues.reverse.map (·.1) = List.range s.tickets := by
    rw [List.map_reverse, h.tallied.issued, List.reverse_reverse]
  have hsnd : s.issues.reverse.map (·.2) = requests actions := by
    rw [List.map_reverse, h.issued, List.reverse_reverse]
  refine List.ext_getElem? fun i => ?_
  have hi : (s.issues.reverse[i]?).map (·.1) = (List.range s.tickets)[i]? := by
    rw [← hfst, List.getElem?_map]
  rw [List.getElem?_mapIdx, ← hsnd, List.getElem?_map]
  cases heq : s.issues.reverse[i]? with
  | none => rfl
  | some issue =>
    rw [heq] at hi
    have hplace := (List.getElem?_eq_some_iff.mp hi.symm).2
    rw [List.getElem_range] at hplace
    exact congrArg some (Prod.ext hplace.symm rfl)

theorem Accounted.mem_issues_iff (h : Accounted s₀ actions s) {request : Request κ} :
    (ticket, request) ∈ s.issues ↔ (requests actions)[ticket]? = some request := by
  rw [← List.mem_reverse, h.issues_eq, List.mem_iff_getElem?]
  constructor
  · rintro ⟨i, hi⟩
    rw [List.getElem?_mapIdx] at hi
    obtain ⟨r, hr, heq⟩ := Option.map_eq_some_iff.mp hi
    obtain ⟨rfl, rfl⟩ := Prod.mk.inj heq
    exact hr
  · intro hr
    exact ⟨ticket, by rw [List.getElem?_mapIdx, hr]; rfl⟩

theorem isGone_iff (h : Registered s) :
    s.IsGone ticket ↔ (s.entries.map (·.2.ticket)).count ticket = 0 := by
  rw [List.count_eq_zero]
  constructor
  · intro hg hm
    obtain ⟨⟨token, e⟩, he, heq⟩ := List.mem_map.mp hm
    exact hg token e (h.entry?_of_mem he) heq
  · exact fun hm token e he heq =>
      hm (List.mem_map.mpr ⟨(token, e), mem_entries_of_lookup he, heq⟩)

/-- Of a table that lost no request, one that is not in flight was called back once. -/
theorem IsComplete.called_of_gone (h : IsComplete s) (hr : Registered s) (hlt : ticket < s.tickets)
    (hg : s.IsGone ticket) : ∃ call, s.calls.filter (·.ticket = ticket) = [call] := by
  have hone := h ticket hlt
  rwa [tally, (isGone_iff hr).mp hg, Nat.zero_add, ← length_filter_eq_count Call.ticket,
    List.length_eq_one_iff] at hone

theorem isUncalled_iff : s.IsUncalled ticket ↔ (s.calls.map (·.ticket)).count ticket = 0 := by
  rw [List.count_eq_zero, List.mem_map]
  exact ⟨fun h ⟨call, hm, heq⟩ => h call hm heq, fun h call hm heq => h ⟨call, hm, heq⟩⟩

theorem Accounted.isPendingOnce (h : Accounted s₀ actions s) {request : Request κ}
    (hr : (requests actions)[ticket]? = some request)
    (hc : (s.entries.map (·.2.ticket)).count ticket = 1) : s.IsPendingOnce ticket request := by
  rw [← length_filter_eq_count, List.length_eq_one_iff] at hc
  obtain ⟨⟨token, e⟩, hone⟩ := hc
  have hm : (token, e) ∈ s.entries ∧ e.ticket = ticket := mem_of_filter_eq_singleton hone
  obtain ⟨r, hi, hcs, -⟩ := h.founded.entry _ hm.1
  have hi : (ticket, r) ∈ s.issues := hm.2 ▸ hi
  obtain rfl : r = request := Option.some.inj ((h.mem_issues_iff.mp hi).symm.trans hr)
  refine ⟨token, ⟨e, h.lawful.registered.entry?_of_mem hm.1, hm.2, hcs⟩, ?_⟩
  rintro token' ⟨e', he', ht', -⟩
  have hm' : (token', e') ∈ s.entries.filter (·.2.ticket = ticket) := by
    simpa using ⟨mem_entries_of_lookup he', ht'⟩
  rw [hone, List.mem_singleton] at hm'
  exact (Prod.mk.inj hm').1

theorem Accounted.answers (h : Accounted s₀ actions (s₀.run actions)) {request : Request κ}
    {call : Call κ} (hr : (requests actions)[call.ticket]? = some request)
    (hm : call ∈ (s₀.run actions).calls) : Answers s₀ actions call.ticket request call := by
  obtain ⟨r, c, hi, hc, hsel, hopen⟩ := h.founded.call call hm
  obtain rfl : r = request := Option.some.inj ((h.mem_issues_iff.mp hi).symm.trans hr)
  refine ⟨⟨c, hc, hsel⟩, fun handed hok k => ⟨fun hk => ?_, ?_⟩, fun f hf => ?_⟩
  · have := List.inj_on_of_nodup_map h.founded.opened_nodup hk (hopen handed hok) rfl
    exact (Prod.mk.inj this).1
  · rintro rfl
    exact hopen handed hok
  · obtain ⟨r', hi', hx⟩ := h.excused call hm f hf
    obtain rfl : r' = r := Option.some.inj ((h.mem_issues_iff.mp hi').symm.trans hr)
    exact hx

/-- After any sequence of actions, and so also while a continuation runs, each complete request that
was issued is in flight under one token and was not called back, or it is in flight no more and was
called back once, with its own continuation and its own outcome. Nothing else is called back, and
nothing is in flight once the table was given up. It takes that no panic broke the giving up off. -/
theorem run_resolves (capacity : Nat) (nodelay : Bool) {actions : List (Action κ τ)}
    (hp : (initial capacity nodelay).Possible actions)
    (hb : ¬ (initial capacity nodelay).BrokenOff actions) :
    let s₀ := initial capacity nodelay
    let s := s₀.run actions
    (∀ ticket request, (requests actions)[ticket]? = some request →
      (s.IsPendingOnce ticket request ∧ s.IsUncalled ticket) ∨
      (s.IsGone ticket ∧ ∃ call, s.calls.filter (·.ticket = ticket) = [call] ∧
        Answers s₀ actions ticket request call)) ∧
    (∀ call ∈ s.calls, ∃ request, (requests actions)[call.ticket]? = some request) ∧
    (s.isClosed → ∀ ticket, s.IsGone ticket) := by
  intro s₀ s
  have h : Accounted s₀ actions s := accounted_run capacity nodelay hp
  have hcomplete : IsComplete s := h.complete.resolve_left fun hx => hb hx.1
  refine ⟨fun ticket request hr => ?_, fun call hm => ?_, fun hc ticket token e he => ?_⟩
  · have hlt : ticket < s.tickets := h.tallied.ticket_lt (h.mem_issues_iff.mpr hr)
    by_cases hgone : s.IsGone ticket
    · obtain ⟨call, hcall⟩ := hcomplete.called_of_gone h.lawful.registered hlt hgone
      obtain ⟨hm, rfl⟩ := mem_of_filter_eq_singleton hcall
      exact .inr ⟨hgone, call, hcall, h.answers hr hm⟩
    · have hone := hcomplete ticket hlt
      rw [isGone_iff h.lawful.registered] at hgone
      rw [tally] at hone
      exact .inl ⟨h.isPendingOnce hr (by omega), isUncalled_iff.mpr (by omega)⟩
  · obtain ⟨request, -, hi, -⟩ := h.founded.call call hm
    exact ⟨request, h.mem_issues_iff.mp hi⟩
  · have := mem_entries_of_lookup he
    rw [(h.lawful.ordered.closed hc).1] at this
    exact absurd this List.not_mem_nil

/-- One request whose system refuses it, and one in flight when the table is given up; the call of
the latter ends in a panic. Both were called back once. -/
theorem run_resolves_at_close :
    let request : Request Nat := ⟨"127.0.0.1", 80, .ofMillis 1, some 0, some 1⟩
    let s₀ : State Nat Nat := initial 16 false
    let actions : List (Action Nat Nat) := [
      .attempt request { connect := some .connectionRefused } .origin, .leave none,
      .attempt request { connect := some .nowInProgress } .origin, .close [], .advance {},
      .leave (some (.plain none)), .advance {}, .advance {}]
    (s₀.run actions).isClosed ∧ ∀ ticket < 2, ∃ call,
      (s₀.run actions).calls.filter (·.ticket = ticket) = [call] ∧
        Answers s₀ actions ticket request call := by
  intro request s₀ actions
  have hp : s₀.Possible actions := by decide
  have hc : Contained actions := fun text next hm => by simp [actions] at hm
  have hcalls : ∀ ticket < 2, ticket ∈ (s₀.run actions).calls.map (·.ticket) := by decide
  have hrequests : requests actions = [request, request] := rfl
  refine ⟨by decide, fun ticket hlt => ?_⟩
  obtain ⟨call, hm, ht⟩ := List.mem_map.mp (hcalls ticket hlt)
  have hr : (requests actions)[ticket]? = some request := by
    rw [hrequests]
    obtain rfl | rfl : ticket = 0 ∨ ticket = 1 := by omega
    · rfl
    · rfl
  rcases (run_resolves 16 false hp (not_brokenOff hc _)).1 ticket request hr with
    ⟨-, hu⟩ | ⟨-, hone⟩
  · exact absurd ht (hu call hm)
  · exact hone

/-- A continuation whose panic throws again breaks the giving up of the table off: of two requests
in flight the second one is given up with the table and was not called back. -/
theorem request_lost_in_panic :
    let request : Request Nat := ⟨"127.0.0.1", 80, .ofMillis 1, some 0, some 1⟩
    let begun : Reply := { connect := some .nowInProgress }
    let s₀ : State Nat Nat := initial 16 false
    let actions : List (Action Nat Nat) := [.attempt request begun .origin,
      .attempt request begun .origin, .close [], .advance {},
      .leave (some (.volatile none (.plain none)))]
    let s := s₀.run actions
    s₀.Possible actions ∧ (requests actions)[1]? = some request ∧ s.isClosed ∧ s.frames = [] ∧
      s.calls.map (·.ticket) = [0] ∧ s.IsGone 1 ∧ s.IsUncalled 1 := by
  intro request begun s₀ actions s
  have hcalls : s.calls.map (·.ticket) = [0] := by decide
  refine ⟨by decide, rfl, by decide, by decide, hcalls, fun token e he => ?_, ?_⟩
  · have hnone : s.entries = [] := by decide
    exact absurd (mem_entries_of_lookup he) (by simp [hnone])
  · rw [isUncalled_iff, hcalls]
    decide

end State

end Dialer.InFlight
