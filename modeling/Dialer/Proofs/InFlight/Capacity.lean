import Dialer.Proofs.InFlight.Expiry
import Dialer.Proofs.InFlight.Owed
import Dialer.Proofs.InFlight.Sized

/-!
# More finished attempts than one report takes

When more handshakes are over than a table takes edges at once, it takes several reports to resolve
them. An edge is reported once, so whatever a report leaves has to wait for the next one, and
whatever it takes has to be resolved. Round after round the table resolves as many attempts as it
takes edges, in the order in which these came, until none is left; how many rounds that takes is all
that depends on the number of edges.
-/

namespace Dialer.InFlight

open Address (SocketAddress)
open Readiness (Token Edge)

variable {κ τ : Type}

/-- What a look at a socket says whose handshake is over; a fault is what it failed with. -/
def seen : Option Fault → Verdict
  | none => .connected
  | some fault => .failed fault

/-- What the end of a handshake is a cause for. -/
def Cause.ofEnding : Option Fault → Cause
  | none => .established
  | some fault => .broken fault

theorem Cause.ofVerdict?_seen (ending : Option Fault) :
    Cause.ofVerdict? (seen ending) = some (.ofEnding ending) := by
  cases ending <;> rfl

/-- Who was called back, and with what. Whether the system set the socket up as asked is left out:
it may answer that differently each time. -/
def Call.told (call : Call κ) : Nat × κ × Except Failure Nat :=
  (call.ticket, call.continuation, call.outcome.map (·.socket))

/-- What the attempt of an entry is told at the end of its handshake. -/
def Entry.told (e : Entry κ) (ending : Option Fault) : Nat × κ × Except Failure Nat :=
  (e.call false none (.ofEnding ending)).told

theorem Entry.call_told (e : Entry κ) (nodelay : Bool) (preparation ending : Option Fault) :
    (e.call nodelay preparation (.ofEnding ending)).told = e.told ending := by
  cases ending <;> rfl

/-- The edge that says that the handshake of an attempt is over. -/
def edgeOf (e : Token × Entry κ) : Edge := .socket e.2.socket

/-- Whether an action gives the system something new to report. -/
def Action.disturbs : Action κ τ → Bool
  | .enqueue _ => true
  | .becomeReady _ => true
  | _ => false

def Undisturbed (actions : List (Action κ τ)) : Prop := ∀ a ∈ actions, a.disturbs = false

instance (actions : List (Action κ τ)) : Decidable (Undisturbed actions) :=
  inferInstanceAs (Decidable (∀ a ∈ actions, a.disturbs = false))

/-- Whether an action only concerns those who listen for events. -/
def Action.listens : Action κ τ → Bool
  | .watchOn _ => true
  | .openChannel => true
  | .addReceiver _ => true
  | .dropReceiver _ => true
  | .receive _ => true
  | _ => false

namespace State

/-- The table when exactly these attempts are still to be reported, whatever was reported before. -/
def facing (s : State κ τ) (pool : List (Token × Entry κ)) : State κ τ :=
  { s with watch := { s.watch with
      selector := { s.watch.selector with ready := pool.map edgeOf } } }

/-- The sockets of these attempts become ready. -/
def readies (pool : List (Token × Entry κ)) : List (Action κ τ) :=
  pool.map fun e => .becomeReady e.2.socket

/-- The table when it has taken the next report. -/
def reported (s : State κ τ) : State κ τ := { s with watch := s.watch.report.2 }

/-- The next report, with a look at each socket that it names; all their handshakes are over. -/
def nextReport (s : State κ τ) (endings : Token → Option Fault) : List (Token × Verdict) :=
  s.watch.report.1.map fun token => (token, seen (endings token))

/-- The table takes a report and resolves what it names, and meanwhile nothing new is to be
reported. It answers with a count. -/
structure Round (endings : Token → Option Fault) (s : State κ τ) (count : Nat)
    (actions : List (Action κ τ)) (u : State κ τ) : Prop where
  enabled : (Action.poll (.ok (s.nextReport endings))).Enabled s
  finishes : s.reported.Finishes (s.nextReport endings) actions
  contained : Contained actions
  undisturbed : Undisturbed actions
  count_eq : (s.reported.poll (.ok (s.nextReport endings))).1 = count
  run : (s.reported.after (.poll (.ok (s.nextReport endings)))).run actions = u

/-- Rounds, one after the other, with their counts. In between listeners may come and go. -/
inductive Rounds (endings : Token → Option Fault) : State κ τ → List Nat → State κ τ → Prop
  | nil (s : State κ τ) : Rounds endings s [] s
  | cons {s t u : State κ τ} {count : Nat} {counts : List Nat} {actions : List (Action κ τ)}
      (hr : Round endings s count actions t) (rest : Rounds endings t counts u) :
      Rounds endings s (count :: counts) u
  | aside {s u : State κ τ} {counts : List Nat} {a : Action κ τ} (hl : a.listens) (ha : a.Enabled s)
      (rest : Rounds endings (s.after a) counts u) : Rounds endings s counts u

/-- A table that can take a report, and attempts that are in flight. -/
structure Awaits (s : State κ τ) (pool : List (Token × Entry κ)) : Prop where
  free : s.isFree
  isOpen : ¬ s.isClosed
  nodup : pool.Nodup
  sub : ∀ e ∈ pool, e ∈ s.entries

variable {s t u v : State κ τ} {endings : Token → Option Fault} {c count : Nat} {counts : List Nat}
  {pool done left xs : List (Token × Entry κ)} {actions : List (Action κ τ)} {a : Action κ τ}
  {base : List (Frame κ τ)} {batch : List (Token × Cause)} {token : Token} {e : Entry κ}

theorem Uneventful.undisturbed (h : Uneventful actions) : Undisturbed actions := by
  intro a hm
  rcases h a hm with rfl | rfl <;> rfl

/-! ### What a report names -/

theorem Registered.token?_of_mem (h : Registered s) {e : Token × Entry κ} (he : e ∈ s.entries) :
    s.watch.selector.token? e.2.socket = some e.1 := by
  obtain ⟨xs, ys, heq⟩ := List.append_of_mem (h.interest_mem he)
  have hn := h.interests_nodup
  rw [heq, List.map_append, List.map_cons, List.nodup_append] at hn
  refine List.lookup_eq_some_iff.mpr ⟨xs, ys, heq, fun p hp => ?_⟩
  have hne := hn.2.2 p.1 (List.mem_map_of_mem hp) e.2.socket List.mem_cons_self
  simpa using hne.symm

/-- The looks at attempts whose handshakes are over. -/
def looks (endings : Token → Option Fault) (xs : List (Token × Entry κ)) :
    List (Token × Verdict) :=
  xs.map fun e => (e.1, seen (endings e.1))

/-- The batch that these looks come to. -/
def items (endings : Token → Option Fault) (xs : List (Token × Entry κ)) : List (Token × Cause) :=
  xs.map fun e => (e.1, .ofEnding (endings e.1))

@[simp] theorem map_fst_items (endings : Token → Option Fault) (xs : List (Token × Entry κ)) :
    (items endings xs).map (·.1) = xs.map (·.1) := by
  rw [items, List.map_map]
  rfl

/-- A report names as many attempts as the table takes edges, in their order. -/
theorem Registered.nextReport_eq (h : Registered s)
    (hready : s.watch.selector.ready = xs.map edgeOf) (hsub : ∀ e ∈ xs, e ∈ s.entries) :
    s.nextReport endings = looks endings (xs.take s.watch.capacity) := by
  have htokens : s.watch.report.1 = (xs.take s.watch.capacity).map (·.1) := by
    change (s.watch.selector.ready.take s.watch.capacity).filterMap s.watch.selector.tokenOf? = _
    rw [hready, ← List.map_take, List.filterMap_map, ← List.filterMap_eq_map]
    exact List.filterMap_congr fun e he => h.token?_of_mem (hsub e (List.mem_of_mem_take he))
  rw [nextReport, htokens, List.map_map]
  rfl

theorem Registered.finished_looks (h : Registered s) (hsub : ∀ e ∈ xs, e ∈ s.entries) :
    s.finished (looks endings xs) = items endings xs := by
  have hanswers : answers (looks endings xs) = items endings xs := by
    rw [answers, looks, List.filterMap_map, items, ← List.filterMap_eq_map]
    exact List.filterMap_congr fun e _ => by
      rw [Function.comp_apply, Cause.ofVerdict?_seen]
      rfl
  rw [h.finished_eq, hanswers, List.filter_eq_self]
  intro r hr
  obtain ⟨e, he, rfl⟩ := List.mem_map.mp hr
  exact isPending_iff_mem_tokens.mpr (List.mem_map_of_mem (hsub e he))

theorem Registered.nodup_map_fst (h : Registered s) (hn : xs.Nodup)
    (hsub : ∀ e ∈ xs, e ∈ s.entries) : (xs.map (·.1)).Nodup :=
  hn.map_on fun e he f hf => h.eq_of_token (hsub e he) (hsub f hf)

/-- Each attempt of a batch is told how its own handshake ended. -/
theorem Registered.settlement_told (h : Registered s) (hn : xs.Nodup)
    (hsub : ∀ e ∈ xs, e ∈ s.entries) (nodelay : Bool) {answers : List (Option Fault)}
    (hlen : xs.length ≤ answers.length) :
    (settlement nodelay s.entries (items endings xs) answers).map Call.told =
      xs.map fun e => e.2.told (endings e.1) := by
  have hpending : ∀ r ∈ items endings xs, (s.entries.lookup r.1).isSome := by
    intro r hr
    obtain ⟨e, he, rfl⟩ := List.mem_map.mp hr
    exact Option.isSome_iff_exists.mpr ⟨e.2, h.entry?_of_mem (hsub e he)⟩
  have hself : resolved s.entries (items endings xs) = items endings xs :=
    resolved_eq_self (by simpa using h.nodup_map_fst hn hsub) hpending
  have hitems : (items endings xs).length ≤ answers.length := by simpa [items] using hlen
  have hcalls := settlement_resolved nodelay s.entries (items endings xs) hitems
  rw [hself, items, List.forall₂_map_left_iff] at hcalls
  have htold : List.Forall₂ (fun e told => ∃ e', s.entries.lookup e.1 = some e' ∧
      told = e'.told (endings e.1)) xs
        ((settlement nodelay s.entries (items endings xs) answers).map Call.told) := by
    refine List.forall₂_map_right_iff.mpr (hcalls.imp fun e call hcall => ?_)
    obtain ⟨e', preparation, he', rfl⟩ := hcall
    exact ⟨e', he', e'.call_told nodelay preparation _⟩
  rw [filterMap_of_forall₂ (f := fun e => (s.entries.lookup e.1).map (·.told (endings e.1))) htold,
    ← List.filterMap_eq_map]
  · refine List.filterMap_congr fun e he => ?_
    rw [show s.entries.lookup e.1 = some e.2 from h.entry?_of_mem (hsub e he)]
    rfl
  · rintro e - told ⟨e', he', rfl⟩
    rw [he']
    rfl

/-! ### What is left to be reported -/

theorem quiet_facing (s : State κ τ) (pool : List (Token × Entry κ)) : Quiet s (s.facing pool) :=
  .withWatch s rfl rfl rfl

theorem quiet_reported (s : State κ τ) : Quiet s s.reported := .withWatch s rfl rfl rfl

theorem Tallied.quiet (h : Tallied s) (hr : Registered s) (hq : Quiet s t) : Tallied t :=
  h.effect (a := .drain) hr (.quiet rfl hq)

/-- Attempts whose sockets become ready one after the other have to be reported in this order. -/
theorem Registered.run_readies (h : Registered s) (hn : (done ++ pool).Nodup)
    (hsub : ∀ e ∈ done ++ pool, e ∈ s.entries) :
    (s.facing done).Possible (readies pool) ∧
      (s.facing done).run (readies pool) = s.facing (done ++ pool) := by
  induction pool generalizing done with
  | nil => exact ⟨trivial, by rw [List.append_nil]; rfl⟩
  | cons e pool ih =>
    have he : e ∈ s.entries := hsub e (List.mem_append_right _ List.mem_cons_self)
    have htoken : (s.facing done).watch.selector.token? e.2.socket = some e.1 := h.token?_of_mem he
    have hfresh : .socket e.2.socket ∉ (s.facing done).watch.selector.ready := by
      intro hm
      obtain ⟨f, hf, hfe⟩ := List.mem_map.mp hm
      have hfs : f ∈ s.entries := hsub f (List.mem_append_left _ hf)
      obtain rfl := h.eq_of_socket hfs he (Edge.socket.inj hfe)
      exact (List.nodup_append.mp hn).2.2 f hf f List.mem_cons_self rfl
    have hafter : (s.facing done).after (.becomeReady e.2.socket) = s.facing (done ++ [e]) := by
      simp only [State.after, Readiness.Selector.becomeReady, htoken, Option.isSome_some, if_true,
        Readiness.Selector.raise]
      rw [if_neg hfresh]
      simp only [facing, List.map_append]
      rfl
    have hsplit : done ++ e :: pool = done ++ [e] ++ pool := by simp
    rw [hsplit] at hn hsub ⊢
    obtain ⟨hp, hr⟩ := ih hn hsub
    refine ⟨⟨?_, hafter ▸ hp⟩, ?_⟩
    · exact Option.isSome_iff_exists.mpr ⟨e.1, htoken⟩
    · exact (congrArg (run · (readies pool)) hafter).trans hr

/-- Resolving takes away the edge of the attempt at most. -/
theorem Registered.resolve_ready (h : Registered s) (he : s.entry? token = some e) (cause : Cause)
    (release : Release) (hkept : edgeOf (token, e) ∉ s.watch.selector.ready) :
    (s.resolve token cause release).watch.selector.ready = s.watch.selector.ready := by
  have hforget : s.watch.selector.ready.filter (· ≠ .socket e.socket) = s.watch.selector.ready := by
    refine List.filter_eq_self.mpr fun edge hm => decide_eq_true ?_
    rintro rfl
    exact hkept hm
  have huntrack : (s.untrack token e release.removal).watch.selector.ready =
      s.watch.selector.ready := by
    rw [h.untrack_eq he]
    cases release.removal with
    | none => exact hforget
    | some fault => rfl
  have hfailed : ∀ (t : State κ τ) (address : Option SocketAddress) (failure : Failure),
      t.watch.selector.ready = s.watch.selector.ready →
        let u := (t.closeSocket e.socket).fail e.ticket e.continuations address failure
        u.watch.selector.ready = s.watch.selector.ready := by
    intro t address failure ht u
    have hu : u = _ := fail_eq e.ticket e.continuations address failure
    rw [hu, call_watch, publish_watch, closeSocket_watch]
    change t.watch.selector.ready.filter (· ≠ .socket e.socket) = _
    rw [ht, hforget]
  simp only [State.resolve, he]
  cases cause with
  | established =>
    let t := (s.untrack token e release.removal).note (.established e.address)
    obtain ⟨nodelay, u, hu, heq⟩ := handOff_eq (s := t) e.ticket e.continuations e.address e.socket
      release.preparation
    rw [heq, call_watch, publish_watch]
    rcases hu with rfl | ⟨fault, rfl⟩ <;> exact huntrack
  | broken fault => exact hfailed _ _ _ huntrack
  | timedOut => exact hfailed _ _ _ huntrack
  | aborted => exact hfailed _ _ _ huntrack

/-- One step of a batch takes away no edge of anything else. -/
theorem Lawful.ready_after (h : Lawful s) (hs : Settling base batch s) (ha : a.Enabled s)
    (hc : ∀ text next, a ≠ .leave (some (.volatile text next))) (hu : a.disturbs = false)
    (hkept : ∀ e ∈ s.entries, e.1 ∈ batch.map (·.1) → edgeOf e ∉ s.watch.selector.ready) :
    (s.after a).watch.selector.ready = s.watch.selector.ready := by
  cases Meanwhile.of_enabled ha hs.not_isFree with
  | advance release hn =>
    rcases hs with hs | ⟨call, hs⟩
    · cases batch with
      | nil => simp only [State.after, State.advance, hs]
      | cons item rest =>
        obtain ⟨token, cause⟩ := item
        let t : State κ τ := { s with frames := .settling rest :: base }
        have hr : Registered t := (Quiet.withFrames s _).registered_of h.registered
        have hadv : s.advance release = t.resolve token cause release := by
          simp only [State.advance, hs]
          rfl
        rw [State.after, hadv]
        cases he : s.entry? token with
        | none => rw [resolve_missing (s := t) he]
        | some e =>
          exact hr.resolve_ready he cause release
            (hkept _ (mem_entries_of_lookup he) List.mem_cons_self)
    · exact absurd (isForeign_iff.mpr ⟨_, _, hs, rfl⟩) hn
  | leave panic hl =>
    obtain ⟨f, rest, hf, hforeign⟩ := isForeign_iff.mp hl
    rcases panic with _ | (text | ⟨text, next⟩)
    · rfl
    · obtain ⟨site, heq⟩ := unwind_plain hforeign text rest s
      rw [State.after, State.leave, hf, heq]
      rfl
    · exact absurd rfl (hc text next)
  | outside ho =>
    cases a with
    | enqueue task => cases hu
    | becomeReady socket => cases hu
    | openChannel => rfl
    | addReceiver id => rfl
    | dropReceiver id => rfl
    | receive id => rfl
    | _ => cases ho

/-- A batch takes away no edge of anything else, whatever foreign code does meanwhile. -/
theorem Lawful.ready_run (h : Lawful s) (hs : Settling base batch s)
    (hw : s.Within base.length actions) (hc : Contained actions) (hu : Undisturbed actions)
    (hkept : ∀ e ∈ s.entries, e.1 ∈ batch.map (·.1) → edgeOf e ∉ s.watch.selector.ready) :
    (s.run actions).watch.selector.ready = s.watch.selector.ready := by
  induction actions using List.reverseRecOn with
  | nil => rfl
  | append_singleton xs a ih =>
    obtain ⟨hwx, hlt, ha, -⟩ := Within.append.mp hw
    have hcx : Contained xs := fun text next hm => hc text next (List.mem_append_left _ hm)
    have hready := ih hwx hcx fun b hm => hu b (List.mem_append_left _ hm)
    obtain ⟨done, rest, hst⟩ := h.standing_run hs hwx hcx
    have hset : Settling base rest (s.run xs) :=
      hst.frames.resolve_right fun ⟨_, hf⟩ => Nat.lt_irrefl _ (hf ▸ hlt)
    have hlast : a ∈ xs ++ [a] := List.mem_append_right _ (List.mem_singleton_self a)
    rw [run_snoc, ← hready]
    refine hst.lawful.ready_after hset ha (fun text next heq => hc text next (heq ▸ hlast))
      (hu a hlast) fun e he hm => ?_
    rw [hready]
    refine hkept e ?_ ?_
    · rw [hst.entries] at he
      exact (List.mem_filter.mp he).1
    · rw [hst.batch_eq, List.map_append]
      exact List.mem_append_right _ hm

theorem Lawful.tallied_run {depth : Nat} (h : Lawful s) (ht : Tallied s)
    (hw : s.Within depth actions) : Tallied (s.run actions) := by
  induction actions generalizing s with
  | nil => exact ht
  | cons a actions ih =>
    obtain ⟨-, ha, hw⟩ := hw
    obtain ⟨hl, heffect⟩ := h.after ha
    exact ih hl (ht.effect h.registered heffect) hw

/-! ### Rounds -/

/-- Where a table stands between two rounds since `s`: some attempts are `done`, and the edges of
those that are `left` are what the system has to report. -/
structure Midway (endings : Token → Option Fault) (s : State κ τ) (c : Nat)
    (done left : List (Token × Entry κ)) (u : State κ τ) : Prop where
  lawful : Lawful u
  tallied : Tallied u
  excused : Excused u
  capacity : u.watch.capacity = c
  awaits : u.Awaits left
  ready : u.watch.selector.ready = left.map edgeOf
  told : u.calls.map Call.told =
    (done.map fun e => e.2.told (endings e.1)).reverse ++ s.calls.map Call.told
  entries : u.entries = s.entries.filter (·.1 ∉ done.map (·.1))
  frames : u.frames = s.frames

theorem isFree_congr (h : t.frames = s.frames) : t.isFree = s.isFree := by
  rw [isFree, h, isFree]

/-- What only concerns listeners makes no difference to the rounds. -/
theorem Midway.quiet (h : Midway endings s c done left u) (hq : Quiet u v)
    (hw : v.watch = u.watch) (hf : v.frames = u.frames) : Midway endings s c done left v where
  lawful := h.lawful.still hq hf
  tallied := h.tallied.quiet h.lawful.registered hq
  excused := h.excused.quiet hq
  capacity := hw ▸ h.capacity
  awaits :=
    { free := isFree_congr hf ▸ h.awaits.free
      isOpen := hq.isClosed ▸ h.awaits.isOpen
      nodup := h.awaits.nodup
      sub := hq.entries ▸ h.awaits.sub }
  ready := hw ▸ h.ready
  told := hq.calls ▸ h.told
  entries := hq.entries.trans h.entries
  frames := hf.trans h.frames

theorem Midway.aside (h : Midway endings s c done left u) (hl : a.listens) :
    Midway endings s c done left (u.after a) := by
  cases a with
  | watchOn monitor => exact h.quiet (.withMonitor u monitor) rfl rfl
  | openChannel => exact h.quiet (.withChannels u _) rfl rfl
  | addReceiver id => exact h.quiet (.withChannels u _) rfl rfl
  | dropReceiver id => exact h.quiet (.withChannels u _) rfl rfl
  | receive id => exact h.quiet (.withChannels u _) rfl rfl
  | _ => cases hl

theorem midway_facing (hl : Lawful s) (ht : Tallied s) (he : Excused s) (ha : s.Awaits pool) :
    Midway endings s s.watch.capacity [] pool (s.facing pool) where
  lawful := hl.still (quiet_facing s pool) rfl
  tallied := ht.quiet hl.registered (quiet_facing s pool)
  excused := he.quiet (quiet_facing s pool)
  capacity := rfl
  awaits := { ha with }
  ready := rfl
  told := rfl
  entries := by simp [facing]
  frames := rfl

/-- What a table is like that has taken the next report: the attempts it names are in the batch. -/
structure Begins (endings : Token → Option Fault) (u : State κ τ) (xs : List (Token × Entry κ))
    (t : State κ τ) : Prop where
  lawful : Lawful t
  tallied : Tallied t
  excused : Excused t
  quiet : Quiet u t
  frames : t.frames = .settling (items endings xs) :: u.frames
  ready : t.watch.selector.ready = u.watch.selector.ready.drop u.watch.capacity
  capacity : t.watch.capacity = u.watch.capacity

theorem Midway.enabled (h : Midway endings s c done left u)
    (report : Except Fault (List (Token × Verdict))) : (Action.poll report).Enabled u :=
  ⟨h.awaits.free, h.awaits.isOpen⟩

theorem Midway.finished_eq (h : Midway endings s c done left u) :
    u.reported.finished (u.nextReport endings) = items endings (left.take c) := by
  have hr := h.lawful.registered
  rw [hr.nextReport_eq h.ready h.awaits.sub, h.capacity]
  exact ((quiet_reported u).registered_of hr).finished_looks
    fun e he => h.awaits.sub e (List.mem_of_mem_take he)

theorem Midway.begins (h : Midway endings s c done left u) :
    Begins endings u (left.take c) (u.reported.after (.poll (.ok (u.nextReport endings)))) := by
  have hq := quiet_reported u
  have hl : Lawful u.reported := h.lawful.still hq rfl
  have ha : (Action.poll (.ok (u.nextReport endings))).Enabled u.reported :=
    ⟨h.awaits.free, h.awaits.isOpen⟩
  obtain ⟨hlt, hqt, -, hframes⟩ := hl.poll_spec ha
  have ht : Tallied u.reported := h.tallied.quiet h.lawful.registered hq
  rw [h.finished_eq] at hframes
  refine ⟨hlt, ht.effect hl.registered (hl.after ha).2, h.excused.quiet (hq.trans hqt),
    hq.trans hqt, hframes, ?_, ?_⟩
  · exact @foldl_spurious κ τ _ (fun s => s.watch.selector.ready) (fun _ _ => rfl) _ u.reported
  · exact after_capacity u.reported _

theorem Awaits.disjoint (h : s.Awaits left) (hr : Registered s) {e f : Token × Entry κ}
    (he : e ∈ left.take c) (hf : f ∈ left.drop c) : e.1 ≠ f.1 ∧ e.2.socket ≠ f.2.socket := by
  have hne : e ≠ f := fun heq =>
    List.disjoint_take_drop h.nodup (Nat.le_refl c) he (heq ▸ hf)
  have hes := h.sub e (List.mem_of_mem_take he)
  have hfs := h.sub f (List.mem_of_mem_drop hf)
  exact ⟨fun heq => hne (hr.eq_of_token hes hfs heq), fun heq => hne (hr.eq_of_socket hes hfs heq)⟩

theorem Begins.named (hb : Begins endings u (left.take c) t) (h : u.Awaits left) :
    ∀ e ∈ left.take c, e ∈ t.entries :=
  fun e he => hb.quiet.entries ▸ h.sub e (List.mem_of_mem_take he)

/-- No edge that a report leaves is that of an attempt which it names. -/
theorem Midway.edge_not_mem (h : Midway endings s c done left u)
    (hb : Begins endings u (left.take c) t) :
    ∀ e ∈ t.entries, e.1 ∈ (items endings (left.take c)).map (·.1) →
      edgeOf e ∉ t.watch.selector.ready := by
  intro e he hm hready
  rw [map_fst_items] at hm
  obtain ⟨f, hf, hfe⟩ := List.mem_map.mp hm
  obtain rfl := hb.lawful.registered.eq_of_token (hb.named h.awaits f hf) he hfe
  rw [hb.ready, h.ready, h.capacity, ← List.map_drop] at hready
  obtain ⟨g, hg, hgf⟩ := List.mem_map.mp hready
  exact (h.awaits.disjoint h.lawful.registered hf hg).2 (Edge.socket.inj hgf).symm

theorem Midway.mem_kept (h : Midway endings s c done left u) :
    ∀ e ∈ left.drop c, e ∈ u.entries.filter (·.1 ∉ (left.take c).map (·.1)) := by
  intro e he
  refine List.mem_filter.mpr ⟨h.awaits.sub e (List.mem_of_mem_drop he), decide_eq_true fun hm => ?_⟩
  obtain ⟨f, hf, hfe⟩ := List.mem_map.mp hm
  exact (h.awaits.disjoint h.lawful.registered hf he).1 hfe

/-- A round resolves as many attempts as the table takes edges, or all that are left. -/
theorem Midway.round (h : Midway endings s c done left u) (hr : Round endings u count actions v) :
    count = min c left.length ∧ Midway endings s c (done ++ left.take c) (left.drop c) v := by
  have hb := h.begins
  obtain rfl := hr.run
  set t := u.reported.after (.poll (.ok (u.nextReport endings)))
  have hw := hr.finishes.within
  obtain ⟨hst, hbase⟩ := hb.lawful.settled hb.frames hw hr.contained hr.finishes.ends
  have hcount : count = min c left.length := by
    rw [← hr.count_eq]
    change (u.reported.finished (u.nextReport endings)).length = _
    rw [h.finished_eq, items, List.length_map, List.length_take]
  have hentries : (t.run actions).entries =
      u.entries.filter (·.1 ∉ (left.take c).map (·.1)) := by
    rw [hst.entries, map_fst_items, hb.quiet.entries]
  have hclosed : (t.run actions).isClosed = u.isClosed := by
    have hrests := rests_of_isFree h.lawful.ordered.stacked h.awaits.free
    rw [hb.lawful.isClosed_run (.inl hb.frames) hrests.closing_not_mem hw hr.contained,
      hb.quiet.isClosed]
  have hready : (t.run actions).watch.selector.ready = (left.drop c).map edgeOf := by
    rw [hb.lawful.ready_run (.inl hb.frames) hw hr.contained hr.undisturbed (h.edge_not_mem hb),
      hb.ready, h.ready, h.capacity, List.map_drop]
  have htold : (t.run actions).calls.map Call.told =
      ((left.take c).map fun e => e.2.told (endings e.1)).reverse ++ u.calls.map Call.told := by
    have hn := h.awaits.nodup.sublist (List.take_sublist c left)
    have hlen : (left.take c).length ≤ (preparations actions).length := by
      simpa [items] using hst.length_le
    rw [hst.calls, List.map_append, List.map_reverse,
      hb.lawful.registered.settlement_told hn (hb.named h.awaits) _ hlen, hb.quiet.calls]
  refine ⟨hcount,
    { lawful := hst.lawful
      tallied := hb.lawful.tallied_run hb.tallied hw
      excused := hb.excused.run hb.lawful hw.possible
      capacity := by rw [run_capacity, hb.capacity, h.capacity]
      awaits :=
        { free := isFree_congr hbase ▸ h.awaits.free
          isOpen := hclosed ▸ h.awaits.isOpen
          nodup := h.awaits.nodup.sublist (List.drop_sublist c left)
          sub := hentries ▸ h.mem_kept }
      ready := hready
      told := by rw [htold, h.told]; simp
      entries := ?_
      frames := hbase.trans h.frames }⟩
  rw [hentries, h.entries, List.filter_filter]
  refine List.filter_congr fun e _ => ?_
  rw [← Bool.decide_and]
  exact decide_eq_decide.mpr (by rw [List.map_append, List.mem_append, not_or, and_comm])

/-- Rounds in a row resolve the attempts in the order of their edges, as many in each as the table
takes edges. -/
theorem Midway.rounds (h : Midway endings s c done left u) (hr : Rounds endings u counts v) :
    counts = (List.range counts.length).map (fun i => min c (left.length - i * c)) ∧
      Midway endings s c (done ++ left.take (counts.length * c)) (left.drop (counts.length * c))
        v := by
  induction hr generalizing done left with
  | nil => exact ⟨rfl, by simpa using h⟩
  | aside hl _ _ ih => exact ih (h.aside hl)
  | @cons _ _ _ count counts _ hr _ ih =>
    obtain ⟨hcount, hmid⟩ := h.round hr
    obtain ⟨hcounts, hend⟩ := ih hmid
    have hlen : (count :: counts).length * c = c + counts.length * c := by
      rw [List.length_cons, Nat.succ_mul, Nat.add_comm]
    constructor
    · rw [List.length_cons, List.range_succ_eq_map, List.map_cons, List.map_map, hcount,
        Nat.zero_mul, Nat.sub_zero]
      refine congrArg _ (hcounts.trans (List.map_congr_left fun i _ => ?_))
      rw [List.length_drop, Function.comp_apply, Nat.succ_mul, Nat.add_comm, Nat.sub_sub]
    · rw [hlen, List.take_add, ← List.append_assoc, ← List.drop_drop]
      exact hend

/-- Who had its turn was called back once, and told how its own handshake ended. -/
theorem Midway.once (h : Midway endings s c done left u) {e : Token × Entry κ} (he : e ∈ done) :
    ∃ call, u.calls.filter (·.ticket = e.2.ticket) = [call] ∧
      call.told = e.2.told (endings e.1) := by
  have hm : e.2.told (endings e.1) ∈ u.calls.map Call.told := by
    rw [h.told, List.mem_append, List.mem_reverse]
    exact .inl (List.mem_map_of_mem he)
  obtain ⟨call, hcall, htold⟩ := List.mem_map.mp hm
  have hticket : call.ticket = e.2.ticket := congrArg Prod.fst htold
  exact ⟨call, hticket ▸ h.tallied.calls_filter hcall, htold⟩

/-- A round can follow, and it comes to its end from wherever it stands: all it takes is that the
table goes on and that foreign code returns. -/
structure Continues (endings : Token → Option Fault) (u : State κ τ) : Prop where
  enabled : (Action.poll (.ok (u.nextReport endings))).Enabled u
  ends : ∀ started,
    (u.reported.after (.poll (.ok (u.nextReport endings)))).Within u.frames.length started →
      Contained started → Undisturbed started → ∃ more count v, Uneventful more ∧
        Round endings u count (started ++ more) v

theorem Midway.continues (h : Midway endings s c done left u) : Continues endings u where
  enabled := h.enabled _
  ends := by
    intro started hw hc hu
    have hb := h.begins
    obtain ⟨done', rest, hst⟩ := hb.lawful.standing_run (.inl hb.frames) hw hc
    rcases hst.frames with hs | ⟨-, hbase⟩
    · obtain ⟨more, hw', hmore, hend⟩ := hst.lawful.exists_resumed hs
      have hall : Undisturbed (started ++ more) := fun a hm =>
        (List.mem_append.mp hm).elim (hu a) (hmore.undisturbed a)
      refine ⟨more, _, _, hmore, h.enabled _, ⟨Within.append.mpr ⟨hw, hw'⟩, ?_⟩,
        hc.append hmore.contained, hall, rfl, rfl⟩
      rw [run_append, hend]
      rfl
    · have hnone : started ++ [] = started := List.append_nil _
      refine ⟨[], _, _, fun a hm => absurd hm List.not_mem_nil, h.enabled _, ?_, ?_, ?_, rfl, rfl⟩
      · exact ⟨hnone.symm ▸ hw, by rw [hnone, hbase]; rfl⟩
      · exact hnone.symm ▸ hc
      · exact hnone.symm ▸ hu

theorem Midway.exists_rounds (h : Midway endings s c done left u) (k : Nat) :
    ∃ counts v, counts.length = k ∧ Rounds endings u counts v := by
  induction k generalizing done left u with
  | zero => exact ⟨[], u, rfl, .nil u⟩
  | succ k ih =>
    obtain ⟨more, count, t, -, hr⟩ :=
      h.continues.ends [] trivial (fun _ _ hm => absurd hm List.not_mem_nil)
        fun _ hm => absurd hm List.not_mem_nil
    obtain ⟨counts, v, hlen, hrest⟩ := ih (h.round hr).2
    exact ⟨count :: counts, v, congrArg Nat.succ hlen, .cons hr hrest⟩

/-- What so many rounds come to. The first attempts had their turn, as many in each round as the
table takes edges, and those that are left are in flight and watched as they were. The system is
interested in these alone, if it never refused to give anything up. -/
structure Serves (endings : Token → Option Fault) (s : State κ τ) (c : Nat)
    (pool : List (Token × Entry κ)) (counts : List Nat) (u : State κ τ) : Prop where
  counts_eq : counts = (List.range counts.length).map fun i => min c (pool.length - i * c)
  told : u.calls.map Call.told =
    ((pool.take (counts.length * c)).map fun e => e.2.told (endings e.1)).reverse ++
      s.calls.map Call.told
  once : ∀ e ∈ pool.take (counts.length * c), ∃ call,
    u.calls.filter (·.ticket = e.2.ticket) = [call] ∧ call.told = e.2.told (endings e.1)
  entries : u.entries = s.entries.filter (·.1 ∉ (pool.take (counts.length * c)).map (·.1))
  ready : u.watch.selector.ready = (pool.drop (counts.length * c)).map edgeOf
  registered : u.watch.registered = u.tokens
  watched : (u.entries.map interestOf).Sublist u.watch.selector.interests
  interests : u.refusals = [] → u.watch.selector.interests = u.entries.map interestOf
  frames : u.frames = s.frames

theorem Midway.serves (h : Midway endings s c [] pool u) (hr : Rounds endings u counts v) :
    s.Serves endings c pool counts v := by
  obtain ⟨hcounts, hend⟩ := h.rounds hr
  rw [List.nil_append] at hend
  exact
    { counts_eq := hcounts
      told := hend.told
      once := fun e he => hend.once he
      entries := hend.entries
      ready := hend.ready
      registered := hend.lawful.registered.registered
      watched := hend.lawful.registered.interests
      interests := hend.excused.interests_eq hend.lawful.registered
      frames := hend.frames }

/-- When all have had their turn, the order of their edges and the number of edges in a report made
no difference. -/
theorem Serves.same {s' u' : State κ τ} {c' : Nat} {pool' : List (Token × Entry κ)}
    {counts' : List Nat} (h : s.Serves endings c pool counts u)
    (h' : s'.Serves endings c' pool' counts' u') (hperm : pool'.Perm pool)
    (hentries : s'.entries = s.entries) (hcalls : s'.calls = s.calls)
    (hall : pool.length ≤ counts.length * c) (hall' : pool.length ≤ counts'.length * c') :
    u'.entries = u.entries ∧ (u'.calls.map Call.told).Perm (u.calls.map Call.told) := by
  have htake : pool.take (counts.length * c) = pool := List.take_of_length_le hall
  have htake' : pool'.take (counts'.length * c') = pool' :=
    List.take_of_length_le (hperm.length_eq ▸ hall')
  constructor
  · rw [h.entries, h'.entries, htake, htake', hentries]
    exact List.filter_congr fun e _ => decide_eq_decide.mpr
      (not_congr (hperm.map _).mem_iff)
  · rw [h.told, h'.told, htake, htake', hcalls]
    refine List.Perm.append_right _ ?_
    exact (List.reverse_perm _).trans ((hperm.map _).trans (List.reverse_perm _).symm)

theorem midway_run (capacity : Nat) (nodelay : Bool)
    (hp : (initial capacity nodelay).Possible actions)
    (ha : ((initial capacity nodelay).run actions).Awaits pool) :
    Midway endings ((initial capacity nodelay).run actions) (max capacity 1) [] pool
      (((initial capacity nodelay).run actions).facing pool) := by
  have hcap : ((initial capacity nodelay).run actions).watch.capacity = max capacity 1 :=
    run_capacity _ actions
  have hacc := accounted_run capacity nodelay hp
  have hreachable := (Reachable.initial capacity nodelay).run hp
  exact hcap ▸ midway_facing hacc.lawful hacc.tallied hreachable.excused ha

theorem Awaits.sized (h : s.Awaits pool) {pool' : List (Token × Entry κ)}
    (hperm : pool'.Perm pool) (c : Nat) : (s.sized c).Awaits pool' where
  free := h.free
  isOpen := h.isOpen
  nodup := hperm.nodup_iff.mpr h.nodup
  sub := fun e he => h.sub e (hperm.mem_iff.mp he)

/-- However many edges a table takes at once, attempts whose handshakes are over all come to the
same. They are what the system has to report if nothing was left and then their sockets became
ready. Each round of a report and what it names resolves as many of them as the table takes edges,
or all that are left; the first ones first, each once and with the end of its own handshake, while
the others stay as they are until their turn comes. Any number of rounds can follow each other, and
each comes to its end from wherever it stands. Another table, to which the same happened and which
takes any other number of edges, has told the same to the same attempts when all have had their
turn; a single round does it if the table takes as many edges as there are attempts. -/
theorem rounds_resolve (capacity : Nat) (nodelay : Bool) {actions : List (Action κ τ)}
    (hp : (initial capacity nodelay).Possible actions)
    (hs : (initial capacity nodelay).run actions = s) (ha : s.Awaits pool)
    (endings : Token → Option Fault) :
    (s.facing []).Possible (readies pool) ∧ (s.facing []).run (readies pool) = s.facing pool ∧
    (∀ counts u, Rounds endings (s.facing pool) counts u →
      s.Serves endings (max capacity 1) pool counts u ∧ Continues endings u) ∧
    (∀ k, ∃ counts u, counts.length = k ∧ Rounds endings (s.facing pool) counts u) ∧
    ∀ capacity', let s' := (initial capacity' nodelay).run actions
      (initial capacity' nodelay).Possible actions ∧ s' = s.sized (max capacity' 1) ∧
      ∀ pool', pool'.Perm pool → ∀ counts' u', Rounds endings (s'.facing pool') counts' u' →
        s'.Serves endings (max capacity' 1) pool' counts' u' ∧
        (pool.length ≤ capacity' → counts'.length = 1 → counts' = [pool.length]) ∧
        ∀ counts u, Rounds endings (s.facing pool) counts u →
          pool.length ≤ counts.length * max capacity 1 →
          pool.length ≤ counts'.length * max capacity' 1 →
            u'.entries = u.entries ∧ (u'.calls.map Call.told).Perm (u.calls.map Call.told) := by
  subst hs
  have hm : Midway endings _ (max capacity 1) [] pool _ := midway_run capacity nodelay hp ha
  have hreg := (accounted_run capacity nodelay hp).lawful.registered
  obtain ⟨hpossible, hfacing⟩ := hreg.run_readies (show ([] ++ pool).Nodup from ha.nodup) ha.sub
  refine ⟨hpossible, hfacing, fun counts u hr => ⟨hm.serves hr, (hm.rounds hr).2.continues⟩,
    hm.exists_rounds, fun capacity' => ?_⟩
  intro s'
  have hp' : (initial capacity' nodelay).Possible actions := by
    rw [← initial_sized capacity' capacity, possible_sized]
    exact hp
  have hs' : s' = ((initial capacity nodelay).run actions).sized (max capacity' 1) :=
    run_initial_sized capacity capacity' nodelay actions
  refine ⟨hp', hs', fun pool' hperm counts' u' hr' => ?_⟩
  have ha' : s'.Awaits pool' := by
    rw [hs']
    exact ha.sized hperm _
  have hm' : Midway endings s' (max capacity' 1) [] pool' _ := midway_run capacity' nodelay hp' ha'
  have hserves := hm'.serves hr'
  refine ⟨hserves, fun hle hone => ?_, fun counts u hr => ?_⟩
  · rw [hserves.counts_eq, hone, hperm.length_eq, List.range_one, List.map_singleton, Nat.zero_mul,
      Nat.sub_zero, Nat.min_eq_right (hle.trans (Nat.le_max_left _ _))]
  · exact (hm.serves hr).same hserves hperm (by rw [hs']; rfl) (by rw [hs']; rfl)

/-- Of three attempts the first one is refused, and its continuation panics. A table that takes two
edges at once needs two rounds for them, and somebody begins to listen in between; one that takes
more needs one, here in the opposite order. -/
theorem rounds_resolve_of_three :
    let request : Request Nat := ⟨"127.0.0.1", 80, .ofMillis 1, some 0, some 1⟩
    let begun : Reply := { connect := some .nowInProgress }
    let actions : List (Action Nat Nat) := .replicate 3 (.attempt request begun .origin)
    let endings (token : Token) : Option Fault := if token = 0 then some (.system 111) else none
    let next (t : State Nat Nat) (actions : List (Action Nat Nat)) : State Nat Nat :=
      (t.reported.after (.poll (.ok (t.nextReport endings)))).run actions
    let s := (initial 2 true).run actions
    let t := next (s.facing s.entries) [.advance {}, .leave (some (.plain none)),
      .advance { preparation := some (.system 22) }, .leave none, .advance {}]
    let u := next (t.after .openChannel) [.advance {}, .leave none, .advance {}]
    let s' := (initial 16 true).run actions
    let u' := next (s'.facing s.entries.reverse) [.advance {}, .leave none, .advance {},
      .leave none, .advance {}, .leave (some (.plain none)), .advance {}]
    s.Serves endings 2 s.entries [2, 1] u ∧ u.tokens = [] ∧ u.calls.map (·.ticket) = [2, 1, 0] ∧
      u'.entries = u.entries ∧ u'.calls.map (·.ticket) = [0, 1, 2] ∧
      (u'.calls.map Call.told).Perm (u.calls.map Call.told) := by
  intro request begun actions endings next s t u s' u'
  have hp : (initial 2 true : State Nat Nat).Possible actions := by decide
  have ha : s.Awaits s.entries :=
    ⟨by decide, by decide, List.Nodup.of_map (·.1) (by decide), fun _ he => he⟩
  have hfirst : Round endings (s.facing s.entries) 2 _ t :=
    ⟨by decide, by decide, fun text next hm => by simp at hm, by decide, by decide,
      rfl⟩
  have hsecond : Round endings (t.after .openChannel) 1 _ u :=
    ⟨by decide, by decide, fun text next hm => by simp at hm, by decide, by decide,
      rfl⟩
  have honly : Round endings (s'.facing s.entries.reverse) 3 _ u' :=
    ⟨by decide, by decide, fun text next hm => by simp at hm, by decide, by decide,
      rfl⟩
  have hr : Rounds endings (s.facing s.entries) [2, 1] u :=
    .cons hfirst (.aside (a := .openChannel) rfl trivial (.cons hsecond (.nil u)))
  obtain ⟨-, -, hserves, -, hsame⟩ := rounds_resolve 2 true hp rfl ha endings
  obtain ⟨-, -, hmore⟩ := hsame 16
  obtain ⟨-, -, hend⟩ := hmore _ (List.reverse_perm _) [3] u' (.cons honly (.nil u'))
  obtain ⟨hentries, htold⟩ := hend [2, 1] u hr (by decide) (by decide)
  exact ⟨(hserves _ _ hr).1, by decide, by decide, hentries, by decide, htold⟩

/-- Of two attempts the first one's continuation panics, and throws again when that is got rid of.
A table that takes both edges at once leaves the second attempt in flight, and nothing will be
reported of it any more; a table that takes them one by one resolves it in its second round. -/
theorem round_lost_in_panic :
    let request : Request Nat := ⟨"127.0.0.1", 80, .ofMillis 1, some 0, some 1⟩
    let begun : Reply := { connect := some .nowInProgress }
    let actions : List (Action Nat Nat) := .replicate 2 (.attempt request begun .origin)
    let endings (token : Token) : Option Fault := if token = 0 then some (.system 111) else none
    let throwing : List (Action Nat Nat) :=
      [.advance {}, .leave (some (.volatile none (.plain none)))]
    let returning : List (Action Nat Nat) := [.advance {}, .leave none, .advance {}]
    let next (t : State Nat Nat) (actions : List (Action Nat Nat)) : State Nat Nat :=
      (t.reported.after (.poll (.ok (t.nextReport endings)))).run actions
    let s := (initial 2 false).run actions
    let t := s.facing s.entries
    let u := next t throwing
    let s' := (initial 1 false).run actions
    let t' := s'.facing s'.entries
    let u' := next t' throwing
    (t.nextReport endings = [(0, .failed (.system 111)), (1, .connected)] ∧
      t.reported.Finishes (t.nextReport endings) throwing ∧ Undisturbed throwing ∧
      u.calls.map (·.ticket) = [0] ∧ u.tokens = [1] ∧ u.nextReport endings = []) ∧
    t'.reported.Finishes (t'.nextReport endings) throwing ∧
      u'.nextReport endings = [(1, .connected)] ∧
      u'.reported.Finishes (u'.nextReport endings) returning ∧
      (next u' returning).calls.map (·.ticket) = [1, 0] ∧ (next u' returning).tokens = [] := by
  decide

end State

end Dialer.InFlight
