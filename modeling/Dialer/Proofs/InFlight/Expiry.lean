import Dialer.Proofs.InFlight.Deciding
import Dialer.Proofs.InFlight.Settling

/-!
# What an expiry resolves

An expiry at a point in time resolves those attempts whose time is over by then, whatever order the
batch of them comes in, and leaves all others as they are. A clock behind the start of an attempt
shows no time elapsed, and the time elapsed is always a duration. Whose time is over early is over
late, so that an early expiry before a late one makes no difference to what comes of both, and after
a late one an early one finds nothing to do.
-/

namespace Dialer.InFlight

open Readiness (Token)
open Time (Instant longest)

variable {κ τ : Type}

namespace Entry

variable {e : Entry κ} {now t₁ t₂ : Instant}

/-- Whether the time of an attempt is over. -/
def isOver (e : Entry κ) (now : Instant) : Bool :=
  e.timeout.nanos ≤ (now.since e.started).nanos

/-- The call of an attempt whose time is over. -/
def lapse (e : Entry κ) : Call κ :=
  ⟨e.ticket, e.continuations.onFailure, .error (.timeout e.timeout)⟩

theorem elapsed_eq (now started : Instant) :
    ((now.since started).nanos : Int) = max 0 (now.nanos - started.nanos) ∧
      max 0 (now.nanos - started.nanos) < longest := by
  have hb := (now.since started).bounded
  rw [Instant.nanos_since] at *
  omega

theorem isOver_iff :
    e.isOver now ↔ (e.timeout.nanos : Int) ≤ max 0 (now.nanos - e.started.nanos) := by
  rw [isOver, decide_eq_true_iff, ← (elapsed_eq now e.started).1, Int.ofNat_le]

theorem isOver_mono (h : t₁.nanos ≤ t₂.nanos) (ho : e.isOver t₁) : e.isOver t₂ := by
  rw [isOver, decide_eq_true_iff] at *
  exact ho.trans (Instant.since_mono h e.started)

theorem call_timedOut (nodelay : Bool) (preparation : Option Fault) :
    e.call nodelay preparation .timedOut = e.lapse := rfl

end Entry

namespace State

variable {s t u : State κ τ} {batch : List (Token × Cause)} {actions : List (Action κ τ)}
  {now t₁ t₂ : Instant} {order : List Token}

/-- An expiry at `now` that comes to the attempts in some order, until nothing is left of it on the
frames it was called on. -/
structure Expiry (s : State κ τ) (now : Instant) (order : List Token) (actions : List (Action κ τ))
    (u : State κ τ) : Prop where
  enabled : (Action.expire now order).Enabled s
  within : (s.after (.expire now order)).Within s.frames.length actions
  contained : Contained actions
  run : (s.after (.expire now order)).run actions = u
  ends : u.frames.length ≤ s.frames.length

/-- Some expiry at `now` leads from `s` to `u`. -/
def Expires (s : State κ τ) (now : Instant) (u : State κ τ) : Prop :=
  ∃ order actions, s.Expiry now order actions u

/-- What becomes of a table by an expiry at `now`. The attempts whose time is over were called back
with their own timeout, each once, and the system is not interested in their sockets any more; the
others are in flight and watched as they were. -/
structure Expired (s : State κ τ) (now : Instant) (u : State κ τ) : Prop where
  calls : ∃ calls, u.calls = calls ++ s.calls ∧
    calls.Perm ((s.entries.filter (·.2.isOver now)).map (·.2.lapse))
  entries : u.entries = s.entries.filter (!·.2.isOver now)
  registered : u.watch.registered = u.tokens
  watched : (u.entries.map interestOf).Sublist u.watch.selector.interests
  interests : u.watch.selector.interests = s.watch.selector.interests.filter fun i =>
    ∀ e ∈ s.entries, e.2.isOver now → e.2.socket ≠ i.1
  frames : u.frames = s.frames

/-! ### The batch -/

theorem due_eq (s : State κ τ) (now : Instant) :
    s.due now = (s.entries.filter (·.2.isOver now)).map fun e => (e.1, .timedOut) := rfl

theorem Registered.nodup_due (h : Registered s) (now : Instant) :
    ((s.due now).map (·.1)).Nodup := by
  rw [due_eq, List.map_map]
  exact h.tokens_nodup.sublist (List.filter_sublist.map _)

theorem Registered.mem_tokens_due (h : Registered s) (ho : batch.Perm (s.due now))
    {e : Token × Entry κ} (he : e ∈ s.entries) : e.1 ∈ batch.map (·.1) ↔ e.2.isOver now := by
  rw [(ho.map _).mem_iff, due_eq, List.map_map, List.mem_map]
  constructor
  · rintro ⟨f, hf, heq⟩
    obtain ⟨hm, hover⟩ := List.mem_filter.mp hf
    exact h.eq_of_token hm he heq ▸ hover
  · exact fun hover => ⟨e, List.mem_filter.mpr ⟨he, hover⟩, rfl⟩

theorem Registered.filter_due (h : Registered s) (ho : batch.Perm (s.due now)) :
    s.entries.filter (·.1 ∉ batch.map (·.1)) = s.entries.filter (!·.2.isOver now) := by
  refine List.filter_congr fun e he => ?_
  rw [Bool.eq_iff_iff, decide_eq_true_iff, h.mem_tokens_due ho he, Bool.not_eq_true',
    Bool.not_eq_true]

theorem Registered.interestsBut_due (h : Registered s) (ho : batch.Perm (s.due now)) :
    s.interestsBut (batch.map (·.1)) = s.watch.selector.interests.filter fun i =>
      ∀ e ∈ s.entries, e.2.isOver now → e.2.socket ≠ i.1 := by
  refine List.filter_congr fun i _ => decide_eq_decide.mpr (forall₂_congr fun e he => ?_)
  rw [h.mem_tokens_due ho he]

theorem ne_established_of_due (ho : batch.Perm (s.due now)) : ∀ r ∈ batch, r.2 ≠ .established := by
  intro r hr
  obtain ⟨e, -, rfl⟩ := List.mem_map.mp (ho.mem_iff.mp hr)
  exact Cause.noConfusion

/-- What calls back for the items of a batch that resolves each attempt it names once. -/
theorem filterMap_of_forall₂ {α β : Type} {R : α → β → Prop} {f : α → Option β} {xs : List α}
    {ys : List β} (h : List.Forall₂ R xs ys) (hf : ∀ x ∈ xs, ∀ y, R x y → f x = some y) :
    ys = xs.filterMap f := by
  induction h with
  | nil => rfl
  | cons hr _ ih =>
    rw [List.filterMap_cons_some (hf _ List.mem_cons_self _ hr),
      ← ih fun x hx => hf x (List.mem_cons_of_mem _ hx)]

theorem Registered.settlement_due (h : Registered s) (ho : batch.Perm (s.due now)) (nodelay : Bool)
    {answers : List (Option Fault)} (hlen : batch.length ≤ answers.length) :
    (settlement nodelay s.entries batch answers).Perm
      ((s.entries.filter (·.2.isOver now)).map (·.2.lapse)) := by
  have hdue : ∀ r ∈ batch, r.2 = .timedOut ∧ (s.entries.lookup r.1).isSome := fun r hr => by
    obtain ⟨hcause, e, he, -⟩ := h.mem_due.mp (ho.mem_iff.mp hr)
    exact ⟨hcause, Option.isSome_iff_exists.mpr ⟨e, he⟩⟩
  have hself : resolved s.entries batch = batch :=
    resolved_eq_self ((ho.map _).nodup_iff.mpr (h.nodup_due now)) fun r hr => (hdue r hr).2
  have hcalls := settlement_resolved nodelay s.entries batch hlen
  rw [hself] at hcalls
  have heq := filterMap_of_forall₂ (f := fun r => (s.entries.lookup r.1).map Entry.lapse) hcalls
    fun r hr call ⟨e, preparation, he, hcall⟩ => by
      rw [he, hcall, (hdue r hr).1, Entry.call_timedOut]
      rfl
  rw [heq]
  refine (ho.filterMap _).trans (.of_eq ?_)
  rw [due_eq, List.filterMap_map, ← List.filterMap_eq_map]
  refine List.filterMap_congr fun e he => ?_
  have hentry : s.entries.lookup e.1 = some e.2 := h.entry?_of_mem (List.mem_filter.mp he).1
  rw [Function.comp_apply, Function.comp_apply, hentry]
  rfl

/-! ### The expiry -/

theorem after_expire (s : State κ τ) (now : Instant) (order : List Token) :
    s.after (.expire now order) = s.push (.settling (arrange order (s.due now))) := rfl

theorem Lawful.expired (h : Lawful s) (hx : s.Expires now u) : Lawful u ∧ s.Expired now u := by
  obtain ⟨order, actions, hx⟩ := hx
  obtain rfl := hx.run
  have ho := arrange_perm order (s.due now)
  obtain ⟨hst, hbase⟩ := (h.after hx.enabled).1.settled rfl hx.within hx.contained hx.ends
  refine ⟨hst.lawful, ⟨_, hst.calls, ?_⟩, ?_, hst.lawful.registered.registered,
    hst.lawful.registered.interests, ?_, hbase⟩
  · exact (List.reverse_perm _).trans (h.registered.settlement_due ho _ hst.length_le)
  · exact hst.entries.trans (h.registered.filter_due ho)
  · exact (hst.interests (ne_established_of_due ho)).trans (h.registered.interestsBut_due ho)

theorem Lawful.isClosed_run (h : Lawful s) {base : List (Frame κ τ)} (hs : Settling base batch s)
    (hbase : .closing ∉ base) (hw : s.Within base.length actions) (hc : Contained actions) :
    (s.run actions).isClosed = s.isClosed := by
  induction actions using List.reverseRecOn with
  | nil => rfl
  | append_singleton xs a ih =>
    obtain ⟨hwx, hlt, ha, -⟩ := Within.append.mp hw
    have hcx : Contained xs := fun text next hm => hc text next (List.mem_append_left _ hm)
    obtain ⟨done, rest, hst⟩ := h.standing_run hs hwx hcx
    have hclosing : .closing ∉ (s.run xs).frames := by
      rcases hst.frames with (hf | ⟨call, hf⟩) | ⟨-, hf⟩ <;> simp [hf, hbase]
    rw [run_append, ← ih hwx hcx]
    exact (hst.lawful.after ha).2.isClosed_eq hclosing

theorem Lawful.expire_enabled (h : Lawful s) (hx : s.Expires now u) (t : Instant)
    (order : List Token) : (Action.expire t order : Action κ τ).Enabled u := by
  have hframes := (h.expired hx).2.frames
  obtain ⟨order', actions, hx⟩ := hx
  obtain rfl := hx.run
  have hrests := rests_of_isFree h.ordered.stacked hx.enabled.1
  have hclosed := (h.after hx.enabled).1.isClosed_run (.inl rfl) hrests.closing_not_mem
    hx.within hx.contained
  refine ⟨?_, ?_⟩
  · rw [isFree, hframes]
    exact hx.enabled.1
  · rw [hclosed]
    exact hx.enabled.2

/-- From wherever it stands, an expiry can go on until it is over. -/
theorem Lawful.exists_expires (h : Lawful s) (ha : (Action.expire now order).Enabled s)
    (hw : (s.after (.expire now order)).Within s.frames.length actions) (hc : Contained actions) :
    ∃ more u, s.Expiry now order (actions ++ more) u := by
  obtain ⟨done, rest, hst⟩ := (h.after ha).1.standing_run (.inl rfl) hw hc
  rcases hst.frames with hs | ⟨-, hbase⟩
  · obtain ⟨more, hw', hc', hend⟩ := hst.lawful.exists_settled hs
    refine ⟨more, _, ha, Within.append.mpr ⟨hw, hw'⟩, hc.append hc', rfl, ?_⟩
    rw [run_append, hend]
  · refine ⟨[], _, ha, by rwa [List.append_nil], by rwa [List.append_nil], rfl, ?_⟩
    rw [List.append_nil, hbase]

/-! ### Expiries in a row -/

theorem Expired.lapsed_perm (h : s.Expired now u) :
    u.calls.Perm ((s.entries.filter (·.2.isOver now)).map (·.2.lapse) ++ s.calls) := by
  obtain ⟨calls, heq, hperm⟩ := h.calls
  exact heq ▸ hperm.append_right _

theorem filter_isOver (entries : List (Token × Entry κ)) (h : t₁.nanos ≤ t₂.nanos) :
    (entries.filter (·.2.isOver t₂)).filter (·.2.isOver t₁) = entries.filter (·.2.isOver t₁) := by
  rw [List.filter_filter]
  refine List.filter_congr fun e _ => ?_
  cases ho : e.2.isOver t₁ with
  | false => rfl
  | true => rw [Entry.isOver_mono h ho]; rfl

/-- After an early expiry a late one comes to the same as the late one alone. -/
theorem Expired.trans (h : t₁.nanos ≤ t₂.nanos) {u₁ u₂ : State κ τ} (hx₁ : s.Expired t₁ u₁)
    (hx₂ : u₁.Expired t₂ u₂) (hx : s.Expired t₂ u) : u₂.entries = u.entries ∧
      u₂.watch.selector.interests = u.watch.selector.interests ∧ u₂.calls.Perm u.calls := by
  have hlate : ∀ e : Entry κ, (!e.isOver t₁ && !e.isOver t₂) = !e.isOver t₂ := fun e => by
    cases ho : e.isOver t₁ with
    | false => simp
    | true => simp [Entry.isOver_mono h ho]
  refine ⟨?_, ?_, ?_⟩
  · rw [hx₂.entries, hx₁.entries, hx.entries, List.filter_filter]
    refine List.filter_congr fun e _ => ?_
    rw [Bool.and_comm, hlate]
  · rw [hx₂.interests, hx₁.interests, hx₁.entries, hx.interests, List.filter_filter]
    refine List.filter_congr fun i _ => ?_
    rw [← Bool.decide_and]
    refine decide_eq_decide.mpr ⟨fun ⟨hlater, hearly⟩ e he ho => ?_, fun hall => ⟨?_, ?_⟩⟩
    · cases ho₁ : e.2.isOver t₁ with
      | true => exact hearly e he ho₁
      | false => exact hlater e (List.mem_filter.mpr ⟨he, by simp [ho₁]⟩) ho
    · exact fun e he => hall e (List.mem_filter.mp he).1
    · exact fun e he ho₁ => hall e he (Entry.isOver_mono h ho₁)
  · refine (hx₂.lapsed_perm.trans (hx₁.lapsed_perm.append_left _)).trans ?_
    refine .trans ?_ hx.lapsed_perm.symm
    rw [← List.append_assoc, ← List.map_append, hx₁.entries]
    refine (List.Perm.map _ ?_).append_right _
    -- Who is over late was over early, or was left by the early expiry.
    refine .trans ?_ (List.filter_append_perm (·.2.isOver t₁) (s.entries.filter (·.2.isOver t₂)))
    rw [filter_isOver s.entries h, List.filter_filter, List.filter_filter]
    refine List.perm_append_comm.trans (.append_left _ (.of_eq ?_))
    exact List.filter_congr fun e _ => Bool.and_comm _ _

theorem Expired.due_eq_nil (h : t₁.nanos ≤ t₂.nanos) (hx : s.Expired t₂ u) : u.due t₁ = [] := by
  rw [due_eq, hx.entries, List.filter_filter, List.map_eq_nil_iff, List.filter_eq_nil_iff]
  intro e _ ho
  obtain ⟨ho₁, ho₂⟩ := Bool.and_eq_true_iff.mp ho
  simp [Entry.isOver_mono h ho₁] at ho₂

/-- After a late expiry an early one leaves everything as it is. -/
theorem Expired.kept_by_early (h : t₁.nanos ≤ t₂.nanos) (hx : s.Expired t₂ u)
    (hv : u.Expired t₁ v) : v.entries = u.entries ∧ v.watch.registered = u.watch.registered ∧
      v.watch.selector.interests = u.watch.selector.interests ∧ v.calls = u.calls := by
  have hnone : u.entries.filter (·.2.isOver t₁) = [] := by
    have hnil := hx.due_eq_nil h
    rwa [due_eq, List.map_eq_nil_iff] at hnil
  have hentries : v.entries = u.entries := by
    rw [hv.entries, List.filter_eq_self]
    exact fun e hm => by simpa using List.filter_eq_nil_iff.mp hnone e hm
  obtain ⟨calls, hcalls, hperm⟩ := hv.calls
  refine ⟨hentries, ?_, ?_, ?_⟩
  · rw [hv.registered, tokens, hentries, hx.registered, tokens]
  · rw [hv.interests, List.filter_eq_self]
    refine fun i _ => decide_eq_true fun e hm ho => ?_
    exact absurd ho (List.filter_eq_nil_iff.mp hnone e hm)
  · rw [hnone, List.map_nil, List.perm_nil] at hperm
    rw [hcalls, hperm, List.nil_append]

/-- An expiry resolves with their own timeouts exactly the attempts whose time is over, answers with
their number, and leaves the others as they are, whatever the clock shows, in whatever order the
batch comes and whatever foreign code does meanwhile; it comes to its end from wherever it stands,
and another one can follow. Before a later expiry an early one makes no difference to what both come
to, and after a late one nothing is left for it to do. -/
theorem Reachable.expire_resolves (h : Reachable s) :
    (∀ e ∈ s.entries, ∀ now : Instant, let elapsed := max 0 (now.nanos - e.2.started.nanos)
      ((now.since e.2.started).nanos : Int) = elapsed ∧ elapsed < longest ∧
        (e.2.isOver now ↔ (e.2.timeout.nanos : Int) ≤ elapsed)) ∧
    (∀ now batch, batch.Perm (s.due now) ↔
      ∃ order, s.after (.expire now order) = s.push (.settling batch)) ∧
    (∀ now order, (Action.expire now order).Enabled s →
      (s.expire now order).1 = (s.entries.filter (·.2.isOver now)).length ∧
      ∀ actions, (s.after (.expire now order)).Within s.frames.length actions →
        Contained actions → ∃ more u, s.Expiry now order (actions ++ more) u) ∧
    (∀ now u, s.Expires now u →
      s.Expired now u ∧ ∀ t order, (Action.expire t order).Enabled u) ∧
    ∀ t₁ t₂ : Instant, t₁.nanos ≤ t₂.nanos → ∀ u, s.Expires t₂ u →
      (∀ u₁ u₂, s.Expires t₁ u₁ → u₁.Expires t₂ u₂ → u₂.entries = u.entries ∧
        u₂.watch.registered = u.watch.registered ∧
        u₂.watch.selector.interests = u.watch.selector.interests ∧ u₂.calls.Perm u.calls) ∧
      (∀ order, (u.expire t₁ order).1 = 0 ∧
        ∀ release, (u.after (.expire t₁ order)).after (.advance release) = u) ∧
      ∀ v, u.Expires t₁ v → v.entries = u.entries ∧ v.watch.registered = u.watch.registered ∧
        v.watch.selector.interests = u.watch.selector.interests ∧ v.calls = u.calls := by
  have hl := h.lawful
  refine ⟨fun e _ now => ⟨(Entry.elapsed_eq _ _).1, (Entry.elapsed_eq _ _).2, Entry.isOver_iff⟩,
    fun now batch => ⟨fun ho => ⟨batch.map (·.1), ?_⟩, fun ⟨order, heq⟩ => ?_⟩,
    fun now order ha => ⟨?_, fun actions hw hc => hl.exists_expires ha hw hc⟩,
    fun now u hx => ⟨(hl.expired hx).2, hl.expire_enabled hx⟩,
    fun t₁ t₂ hle u hx => ⟨fun u₁ u₂ hx₁ hx₂ => ?_, fun order => ⟨?_, fun release => ?_⟩,
      fun v hv => ?_⟩⟩
  · rw [after_expire, arrange_of_perm ho (hl.registered.nodup_due now)]
  · have hframes := congrArg frames heq
    rw [after_expire, push_frames, push_frames, List.cons.injEq, Frame.settling.injEq] at hframes
    exact hframes.1 ▸ arrange_perm order (s.due now)
  · exact (length_arrange order (s.due now)).trans (List.length_map _)
  · obtain ⟨hl₁, he₁⟩ := hl.expired hx₁
    obtain ⟨-, he₂⟩ := hl₁.expired hx₂
    have he := (hl.expired hx).2
    obtain ⟨hentries, hinterests, hcalls⟩ := he₁.trans hle he₂ he
    refine ⟨hentries, ?_, hinterests, hcalls⟩
    rw [he₂.registered, he.registered, tokens, hentries, tokens]
  · rw [State.expire, (hl.expired hx).2.due_eq_nil hle, arrange_nil]
    rfl
  · rw [after_expire, (hl.expired hx).2.due_eq_nil hle, arrange_nil]
    rfl
  · obtain ⟨hlu, he⟩ := hl.expired hx
    exact he.kept_by_early hle (hlu.expired hv).2

/-- Of three attempts one has run out of time, one has none and began after the point in time that
the expiry is about, and one has time left. The first continuation panics, and while the second one
runs a task is left. -/
theorem expire_resolves_while_called :
    let request (nanos : Nat) : Request Nat := ⟨"127.0.0.1", 80, .ofNanos nanos, some 0, some 1⟩
    let begun : Reply := { connect := some .nowInProgress }
    let s := (initial 16 false : State Nat Nat).run [.attempt (request 1000) begun .origin,
      .attempt (request 0) begun (Instant.origin.shift 5000),
      .attempt (request (longest - 1)) begun .origin]
    let now := Instant.origin.shift 2000
    let u := (s.after (.expire now [1])).run [.advance {}, .leave (some (.plain none)),
      .advance {}, .enqueue 5, .leave none, .advance {}]
    s.Expires now u ∧ s.Expired now u ∧ u.calls.map (·.ticket) = [0, 1] ∧ u.tokens = [2] := by
  intro request begun s now u
  have hs : Reachable s := (Reachable.initial 16 false).run (by decide)
  have hc : Contained [(.advance {} : Action Nat Nat), .leave (some (.plain none)), .advance {},
      .enqueue 5, .leave none, .advance {}] := fun text next hm => by simp at hm
  have hx : s.Expires now u :=
    ⟨[1], _, by decide, by decide, hc, rfl, by decide⟩
  exact ⟨hx, (hs.expire_resolves.2.2.2.1 now u hx).1, by decide, by decide⟩

/-- A continuation whose panic throws again takes the rest of the batch along: of two attempts whose
time is over the second one stays in flight. -/
theorem expiry_lost_in_panic :
    let request : Request Nat := ⟨"127.0.0.1", 80, .ofMillis 1, some 0, some 1⟩
    let begun : Reply := { connect := some .nowInProgress }
    let s := (initial 16 false : State Nat Nat).run (.replicate 2 (.attempt request begun .origin))
    let now := Instant.origin.shift 1000000
    let t := s.after (.expire now [])
    let throwing := [.advance {}, .leave (some (.volatile none (.plain none)))]
    (Action.expire now []).Enabled s ∧ (s.expire now []).1 = 2 ∧
      t.Within s.frames.length throwing ∧ (t.run throwing).frames = [] ∧
      (t.run throwing).calls.map (·.ticket) = [0] ∧ (t.run throwing).tokens = [1] ∧
      ∀ e ∈ (t.run throwing).entries, e.2.isOver now := by
  decide

end State

end Dialer.InFlight
