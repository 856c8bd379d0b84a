import Dialer.Proofs.Service.Attachments

/-!
# What receivers get to see

What was received from a channel in a run and what is still queued in it are together what was
published on it, in order. If the events of one channel all came before those of the next, the
streams one after the other are the whole sequence.
-/

namespace Dialer.Service

open InFlight (heardOn)

variable {κ : Type}

namespace State

variable {s t : State κ} {l : Label κ} {labels : List (Label κ)} {c : Nat}

/-- The event that a step receives from a channel. -/
def heard? (s : State κ) (c : Nat) : Label κ → Option Event
  | .receive channel => if channel = c then (s.table.backlog c).head? else none
  | _ => none

/-- The events that the steps of a run receive from a channel, one after the other. -/
def heard (s : State κ) (c : Nat) : List (Label κ) → List Event
  | [] => []
  | l :: rest => (s.heard? c l).toList ++ (s.after l).heard c rest

/-- All that receivers of a channel get to see of a run, if they wait long enough. -/
def stream (s : State κ) (labels : List (Label κ)) (c : Nat) : List Event :=
  s.heard c labels ++ (s.run labels).table.backlog c

theorem heard_snoc (s : State κ) (c : Nat) (labels : List (Label κ)) (l : Label κ) :
    s.heard c (labels ++ [l]) = s.heard c labels ++ ((s.run labels).heard? c l).toList := by
  induction labels generalizing s with
  | nil => simp [heard, run]
  | cons x xs ih => simp [heard, ih, run]

/-- What is published from `s` to `t` is queued behind what is not received yet. -/
structure Queues (s : State κ) (l : Label κ) (news : List (Nat × Event)) (t : State κ) : Prop where
  published : t.table.published = s.table.published ++ news
  backlog : ∀ c, (s.heard? c l).toList ++ t.table.backlog c =
    s.table.backlog c ++ heardOn c news

theorem published_congr (h : t.table.record = s.table.record) :
    t.table.published = s.table.published := by
  rw [InFlight.State.published, InFlight.State.deliveries_eq, h, ← InFlight.State.deliveries_eq]
  rfl

theorem queues_nothing (hr : t.table.record = s.table.record)
    (hb : ∀ c, (s.heard? c l).toList ++ t.table.backlog c = s.table.backlog c) :
    Queues s l [] t :=
  ⟨by rw [published_congr hr, List.append_nil], fun c => (hb c).trans (List.append_nil _).symm⟩

theorem queues_same (hr : t.table.record = s.table.record)
    (hc : t.table.channels = s.table.channels) (hl : ∀ c, s.heard? c l = none) :
    Queues s l [] t :=
  queues_nothing hr fun c => by
    rw [hl, InFlight.State.backlog, hc, ← InFlight.State.backlog]
    rfl

theorem backlog_onChannel (s : State κ) (channel : Nat)
    (change : Channel Event → Channel Event) (c : Nat) :
    (s.table.onChannel channel change).backlog c = if channel = c
      then ((s.table.channels[c]?.map change).map (·.queue)).getD [] else s.table.backlog c := by
  rw [InFlight.State.backlog, InFlight.State.onChannel, List.getElem?_modify]
  split <;> simp_all [InFlight.State.backlog]

theorem queues_receivers (channel : Nat) (change : Channel Event → Channel Event)
    (hq : ∀ x, (change x).queue = x.queue) (hl : ∀ c, s.heard? c l = none) :
    Queues s l [] { s with table := s.table.onChannel channel change } :=
  queues_nothing rfl fun c => by
    rw [hl, backlog_onChannel]
    split
    · simp [InFlight.State.backlog, Option.map_map, Function.comp_def, hq]
    · rfl

theorem queues_receive (s : State κ) (channel : Nat) :
    Queues s (.receive channel) [] (s.after (.receive channel)) := by
  refine queues_nothing rfl fun c => ?_
  have htable : (s.after (.receive channel)).table =
      s.table.onChannel channel fun x => (x.take?.map (·.2)).getD x := rfl
  rw [htable, backlog_onChannel, heard?]
  split
  · next heq =>
    cases hx : s.table.channels[c]? with
    | none => simp [InFlight.State.backlog, hx]
    | some x => cases hq : x.queue <;> simp [InFlight.State.backlog, hx, Channel.take?, hq]
  · rfl

theorem queues_onDuty (s : State κ) {a : Duty.Action κ} (hl : ∀ c, s.heard? c l = none) :
    ∃ news, Queues s l news (s.onDuty (·.after a)) := by
  cases hw : s.worker with
  | none =>
    simp only [onDuty, hw]
    exact ⟨[], queues_same rfl rfl hl⟩
  | some w =>
    have hfront := front_onDuty (s := s) (·.after a) hw
    rw [Duty.after_table] at hfront
    obtain ⟨-, hc, -, -, hr⟩ := front_congr hfront
    cases hb : Duty.deed? ⟨s.table, w⟩ a with
    | none =>
      rw [hb] at hc hr
      exact ⟨[], queues_same hr hc hl⟩
    | some b =>
      rw [hb] at hc hr
      by_cases hwatch : ∃ monitor, b = .watchOn monitor
      · obtain ⟨monitor, rfl⟩ := hwatch
        exact ⟨[], queues_same hr hc hl⟩
      · obtain ⟨news, hd, hq⟩ := (InFlight.State.speaks_after s.table
          (fun monitor heq => hwatch ⟨monitor, heq⟩) (Duty.isReceiving_of_deed? hb)).queued
        refine ⟨news.reverse, ?_, fun c => ?_⟩
        · rw [InFlight.State.published, InFlight.State.deliveries_eq, hr,
            ← InFlight.State.deliveries_eq]
          exact (congrArg List.reverse hd).trans (List.reverse_append ..)
        · rw [hl, InFlight.State.backlog, hc, ← InFlight.State.backlog]
          exact hq c

theorem queues_after (s : State κ) (l : Label κ) : ∃ news, Queues s l news (s.after l) := by
  cases hl : l.isCall with
  | true =>
    have hnone : ∀ c, s.heard? c l = none := by
      intro c
      cases l <;> first | rfl | cases hl
    obtain ⟨hc, hr⟩ := call_channels s hl
    refine ⟨[], queues_nothing hr fun c => ?_⟩
    rw [hnone, InFlight.State.backlog, hc, List.getElem?_append]
    split
    · rfl
    · next hlt =>
      have hnew : s.table.channels[c]? = none := List.getElem?_eq_none (Nat.not_lt.mp hlt)
      rw [InFlight.State.backlog, hnew, List.getElem?_replicate]
      split <;> rfl
  | false =>
    cases l with
    | work answers => exact queues_onDuty s (a := .work answers) fun _ => rfl
    | leave panic => exact queues_onDuty s (a := .leave panic) fun _ => rfl
    | becomeReady socket => exact ⟨[], queues_same rfl rfl fun _ => rfl⟩
    | addReceiver channel => exact ⟨[], queues_receivers channel _ (fun _ => rfl) fun _ => rfl⟩
    | dropReceiver channel => exact ⟨[], queues_receivers channel _ (fun _ => rfl) fun _ => rfl⟩
    | receive channel => exact ⟨[], queues_receive s channel⟩
    | _ => cases hl

/-- Nothing that was published on a channel is lost on the way to its receivers, or comes twice or
in another order. -/
theorem stream_eq (settings : Settings) (labels : List (Label κ)) (c : Nat) :
    (initial settings : State κ).stream labels c =
      heardOn c ((initial settings : State κ).run labels).table.published := by
  induction labels using List.reverseRecOn with
  | nil => rfl
  | append_singleton labels l ih =>
    obtain ⟨news, hp, hb⟩ := queues_after ((initial settings : State κ).run labels) l
    rw [stream, run_snoc, heard_snoc, List.append_assoc, hb, ← List.append_assoc, ← stream, ih, hp,
      heardOn, heardOn, heardOn, List.filterMap_append]

/-! ### One stream after the other -/

theorem heardOn_eq_nil {pubs : List (Nat × Event)} (h : ∀ p ∈ pubs, p.1 ≠ c) :
    heardOn c pubs = [] :=
  List.filterMap_eq_nil_iff.mpr fun p hp => if_neg (h p hp)

theorem flatMap_heardOn {cs : List Nat} {pubs : List (Nat × Event)} (hcs : cs.Pairwise (· < ·))
    (hp : (pubs.map (·.1)).Pairwise (· ≤ ·)) (hm : ∀ p ∈ pubs, p.1 ∈ cs) :
    cs.flatMap (fun c => heardOn c pubs) = pubs.map (·.2) := by
  induction pubs using List.reverseRecOn with
  | nil => simp [heardOn]
  | append_singleton pubs p ih =>
    obtain ⟨c, event⟩ := p
    rw [List.map_append, List.pairwise_append] at hp
    obtain ⟨hsorted, -, hle⟩ := hp
    have hle : ∀ p ∈ pubs, p.1 ≤ c := fun p hp =>
      hle p.1 (List.mem_map_of_mem hp) c List.mem_cons_self
    obtain ⟨hold, hc⟩ := List.forall_mem_append.mp hm
    obtain ⟨xs, ys, rfl⟩ := List.append_of_mem (hc _ List.mem_cons_self)
    have ih := ih hsorted hold
    obtain ⟨-, hys, hxs⟩ := List.pairwise_append.mp hcs
    obtain ⟨hys, -⟩ := List.pairwise_cons.mp hys
    -- Nothing goes to a later channel yet.
    have hlater : ∀ more, (∀ p ∈ more, p.1 ≤ c) → ys.flatMap (fun d => heardOn d more) = [] :=
      fun more hmore => List.flatMap_eq_nil_iff.mpr fun d hd =>
        heardOn_eq_nil fun p hp => Nat.ne_of_lt (Nat.lt_of_le_of_lt (hmore p hp) (hys d hd))
    have hearlier : xs.flatMap (fun d => heardOn d (pubs ++ [(c, event)])) =
        xs.flatMap fun d => heardOn d pubs := by
      refine List.flatMap_congr fun d hd => ?_
      have hne : c ≠ d := Nat.ne_of_gt (hxs d hd c List.mem_cons_self)
      simp [heardOn, hne]
    rw [List.flatMap_append, List.flatMap_cons, hlater pubs hle, List.append_nil] at ih
    have hall : ∀ p ∈ pubs ++ [(c, event)], p.1 ≤ c :=
      List.forall_mem_append.mpr ⟨hle, by simp⟩
    rw [List.flatMap_append, List.flatMap_cons, hearlier, hlater _ hall, List.append_nil,
      List.map_append, ← ih, List.append_assoc]
    simp [heardOn]

end State

end Dialer.Service
