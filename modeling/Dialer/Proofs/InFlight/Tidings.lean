import Dialer.Proofs.InFlight.Accounting
import Dialer.Proofs.InFlight.Speech

/-!
# What is to be told

There are two occasions for an event: a request with a usable target is issued, and a request is
called back. Each time the event is told at once to whoever listens then, and nothing else is ever
told.
-/

namespace Dialer

/-- Whether an event is the first that is told of a request. -/
def Event.Introduces {κ : Type} (request : Request κ) : Event → Prop
  | .attempting address => request.destination? = some address
  | .failed address _ => address = none ∧ request.destination? = none
  | .connected _ => False

instance {κ : Type} (request : Request κ) (event : Event) :
    Decidable (event.Introduces request) := by
  cases event <;> unfold Event.Introduces <;> infer_instance

namespace InFlight

variable {κ τ : Type}

/-- The address that the request under a ticket is aimed at, if its target can be used. -/
def aim? (record : List (Happening κ τ)) (ticket : Nat) : Option Address.SocketAddress :=
  ((record.filterMap Happening.issue?).lookup ticket).bind Request.destination?

/-- The events that there were occasions for, the latest first. -/
def tidings : List (Happening κ τ) → List Event
  | .issued _ request :: rest => (request.destination?.map .attempting).toList ++ tidings rest
  | .called call :: rest => (call.outcome.event? (aim? rest call.ticket)).toList ++ tidings rest
  | _ :: rest => tidings rest
  | [] => []

section Tidings

variable {rest : List (Happening κ τ)}

theorem aim?_append {news : List (Happening κ τ)} (h : ∀ x ∈ news, x.issue? = none)
    (ticket : Nat) : aim? (news ++ rest) ticket = aim? rest ticket := by
  rw [aim?, aim?, List.filterMap_append, List.filterMap_eq_nil_iff.mpr h, List.nil_append]

theorem tidings_append {news : List (Happening κ τ)}
    (h : ∀ x ∈ news, x.issue? = none ∧ x.call? = none) :
    tidings (news ++ rest) = tidings rest := by
  induction news with
  | nil => rfl
  | cons x news ih =>
    obtain ⟨hx, hnews⟩ := List.forall_mem_cons.mp h
    cases x
    case issued => simp at hx
    case called => simp at hx
    all_goals exact ih hnews

end Tidings

namespace State

variable {s t u : State κ τ} {a : Action κ τ}

/-- The events that there were occasions for, in order. -/
def occasions (s : State κ τ) : List Event := (tidings s.record).reverse

/-- The same news on one channel, or nowhere if there is none. -/
def spread (channel : Option Nat) (news : List Event) : List (Nat × Event) :=
  channel.toList.flatMap fun c => news.map (c, ·)

/-- From `s` to `t` there was occasion for some news, and these, and nothing else, were published on
one channel. -/
structure Conveys (s : State κ τ) (channel : Option Nat) (news : List Event) (t : State κ τ) :
    Prop where
  occasions : t.occasions = s.occasions ++ news
  published : t.published = s.published ++ spread channel news

theorem deliveries_eq (s : State κ τ) : s.deliveries = s.record.filterMap Happening.delivery? :=
  (filterMap_record fun h hw => by cases h <;> simp_all).symm

theorem Conveys.elsewhere {channel other : Option Nat} (h : Conveys s channel [] t) :
    Conveys s other [] t :=
  ⟨h.occasions, by rw [h.published]; cases channel <;> cases other <;> rfl⟩

theorem conveys_of_record {piece : List (Happening κ τ)} {channel : Option Nat}
    {news : List Event} (hr : t.record = piece ++ s.record)
    (ht : tidings t.record = news.reverse ++ tidings s.record)
    (hd : (piece.filterMap Happening.delivery?).reverse = spread channel news) :
    Conveys s channel news t where
  occasions := by rw [State.occasions, ht, List.reverse_append, List.reverse_reverse, occasions]
  published := by
    rw [State.published, deliveries_eq, hr, List.filterMap_append, List.reverse_append, hd,
      State.published, deliveries_eq]

theorem Conveys.congr {channel : Option Nat} {news : List Event} (h : Conveys s channel news t)
    (hr : u.record = t.record) : Conveys s channel news u where
  occasions := by rw [State.occasions, hr]; exact h.occasions
  published := by
    rw [State.published, deliveries_eq, hr, ← deliveries_eq]
    exact h.published

theorem conveys_nothing (channel : Option Nat) (hr : t.record = s.record) :
    Conveys s channel [] t := by
  have hpiece : t.record = [] ++ s.record := hr
  exact conveys_of_record hpiece (by rw [hr]; rfl) (by cases channel <;> rfl)

section Pieces

variable (s : State κ τ) (request : Request κ) (sockets : List Nat) (call : Call κ)
  (address : Option Address.SocketAddress) (rest : List (Happening κ τ))

theorem tidings_introduction : tidings (s.introduction request sockets ++ rest) =
    (request.destination?.map .attempting).toList ++ tidings rest := by
  rw [introduction, List.append_assoc, tidings_append]
  · rfl
  · intro x hx
    simp only [List.mem_append, List.mem_map, List.mem_flatMap, announced] at hx
    rcases hx with ⟨socket, -, rfl⟩ | ⟨b, -, id, -, rfl⟩ <;> exact ⟨rfl, rfl⟩

theorem aim?_introduction :
    aim? (s.introduction request sockets ++ rest) s.tickets = request.destination? := by
  rw [introduction, List.append_assoc, aim?_append]
  · simp [aim?]
  · intro x hx
    simp only [List.mem_append, List.mem_map, List.mem_flatMap, announced] at hx
    rcases hx with ⟨socket, -, rfl⟩ | ⟨b, -, id, -, rfl⟩ <;> rfl

theorem tidings_resolution : tidings (s.resolution address sockets call ++ rest) =
    (call.outcome.event? (aim? rest call.ticket)).toList ++ tidings rest := by
  have hpiece : ∀ x ∈ (call.outcome.event? address).toList.flatMap s.announced ++
      (call.outcome.closes sockets).map (Happening.closed (κ := κ) (τ := τ)),
      x.issue? = none ∧ x.call? = none := by
    intro x hx
    simp only [List.mem_append, List.mem_map, List.mem_flatMap, announced] at hx
    rcases hx with ⟨e, -, id, -, rfl⟩ | ⟨socket, -, rfl⟩ <;> exact ⟨rfl, rfl⟩
  rw [resolution, List.cons_append, tidings, aim?_append (fun x hx => (hpiece x hx).1),
    tidings_append hpiece]

theorem introduction_deliveries :
    ((s.introduction request sockets).filterMap Happening.delivery?).reverse =
      spread s.listener? (request.destination?.map .attempting).toList := by
  have hopened : (sockets.map (.opened s.tickets)).filterMap
      (Happening.delivery? (κ := κ) (τ := τ)) = [] := by
    simp [List.filterMap_map, Function.comp_def]
  rw [introduction, List.filterMap_append, List.filterMap_append, hopened]
  cases request.destination? <;> cases hl : s.listener? <;>
    simp [announced, hl, spread]

theorem resolution_deliveries :
    ((s.resolution address sockets call).filterMap Happening.delivery?).reverse =
      spread s.listener? (call.outcome.event? address).toList := by
  have hclosed : ((call.outcome.closes sockets).map .closed).filterMap
      (Happening.delivery? (κ := κ) (τ := τ)) = [] := by
    simp [List.filterMap_map, Function.comp_def]
  rw [resolution, List.filterMap_cons_none rfl, List.filterMap_append, hclosed]
  cases call.outcome.event? address <;> cases hl : s.listener? <;>
    simp [announced, hl, spread]

end Pieces

/-- The address of an attempt is the one that its request is aimed at. -/
def Addressed (s : State κ τ) : Prop := ∀ p ∈ s.entries,
  ∃ request, (p.2.ticket, request) ∈ s.issues ∧ request.destination? = some p.2.address

theorem issues_eq (s : State κ τ) : s.issues = s.record.filterMap Happening.issue? :=
  (filterMap_record fun x hw => by cases x <;> simp_all).symm

theorem Addressed.congr (h : Addressed s) (he : t.entries = s.entries)
    (hr : t.record = s.record) : Addressed t := by
  intro p hp
  rw [issues_eq, hr, ← issues_eq]
  exact h p (he ▸ hp)

theorem Addressed.aim? (h : Addressed s) (ht : Tallied s) {p : Readiness.Token × Entry κ}
    (hp : p ∈ s.entries) : aim? s.record p.2.ticket = some p.2.address := by
  obtain ⟨request, hi, hd⟩ := h p hp
  rw [InFlight.aim?, ← issues_eq]
  cases hl : s.issues.lookup p.2.ticket with
  | none =>
    have hnone := List.lookup_eq_none_iff.mp hl (p.2.ticket, request) hi
    simp at hnone
  | some r =>
    obtain ⟨xs, ys, heq, -⟩ := List.lookup_eq_some_iff.mp hl
    obtain rfl : r = request := ht.request_unique (heq ▸ by simp) hi
    exact hd

theorem Recorded.addressed (h : Recorded s a t) (ha : Addressed s) : Addressed t := by
  intro p hp
  cases h with
  | quiet _ hq => exact hq.issues ▸ ha p (hq.entries ▸ hp)
  | answered _ hans =>
    obtain ⟨r, hi, hd⟩ := ha p (hans.entries ▸ hp)
    exact ⟨r, hans.issues ▸ List.mem_cons_of_mem _ hi, hd⟩
  | begun _ hb hd =>
    rw [hb.entries, List.mem_append, List.mem_singleton] at hp
    rw [hb.issues]
    rcases hp with hp | rfl
    · obtain ⟨r, hi, hd⟩ := ha p hp
      exact ⟨r, List.mem_cons_of_mem _ hi, hd⟩
    · exact ⟨_, hb.ticket ▸ List.mem_cons_self, hd⟩
  | concluded _ _ hc =>
    rw [hc.entries] at hp
    rw [hc.issues]
    exact ha p (List.mem_of_mem_filter hp)
  | emptied _ he => simp [he.entries] at hp

/-- What there is occasion for in a step is told to whoever listens. A request that is issued is
introduced first; without one there is only something to tell of an attempt in flight. -/
structure Reports (s : State κ τ) (a : Action κ τ) (news : List Event) (t : State κ τ) : Prop
    extends Conveys s s.listener? news t where
  why : news ≠ [] → (a.request?).isSome ∨ s.entries ≠ []
  opening : ∀ request, a.request? = some request →
    ∃ event, news.head? = some event ∧ event.Introduces request
  issues : t.issues = (a.request?.map (s.tickets, ·)).toList ++ s.issues

theorem reports_nothing (hn : a.request? = none) (h : Conveys s s.listener? [] t)
    (hi : t.issues = s.issues) : Reports s a [] t :=
  ⟨h, fun hne => absurd rfl hne, fun r hr => by simp [hn] at hr, by rw [hn, hi]; rfl⟩

theorem Recorded.reports (h : Recorded s a t) (ha : Addressed s) (ht : Tallied s) :
    ∃ news, Reports s a news t := by
  cases h with
  | quiet hn hq hr => exact ⟨[], reports_nothing hn (conveys_nothing _ hr) hq.issues⟩
  | @answered request reply now call sockets event heq hans he _ hr =>
    obtain ⟨c, hc, -⟩ := hans.continuation
    have hreq : a.request? = some request := by simp [heq, Action.request?, hc]
    refine ⟨(request.destination?.map .attempting).toList ++ [event],
      conveys_of_record hr ?_ ?_, fun _ => .inl (by rw [hreq]; rfl), fun r hr' => ?_,
      by rw [hreq, hans.issues]; rfl⟩
    · rw [hr, List.append_assoc, tidings_resolution, hans.ticket, aim?_introduction, he,
        tidings_introduction]
      cases request.destination? <;> simp
    · rw [List.filterMap_append, List.reverse_append, introduction_deliveries,
        resolution_deliveries, he]
      cases s.listener? <;> simp [spread]
    · obtain rfl := Option.some.inj (hreq.symm.trans hr')
      cases hd : request.destination? with
      | some address => exact ⟨_, rfl, hd⟩
      | none =>
        rw [hd] at he
        cases ho : call.outcome with
        | ok handed => simp [ho, Outcome.event?] at he
        | error failure =>
          rw [ho] at he
          obtain rfl := Option.some.inj he
          exact ⟨_, rfl, rfl, hd⟩
  | @begun request reply now token e heq hb hd hr =>
    have hreq : a.request? = some request := by simp [heq, Action.request?, hb.continuations]
    refine ⟨[.attempting e.address], conveys_of_record hr ?_ ?_,
      fun _ => .inl (by rw [hreq]; rfl), fun r hr' => ?_, by rw [hreq, hb.issues]; rfl⟩
    · rw [hr, tidings_introduction, hd]
      rfl
    · rw [introduction_deliveries, hd]
      rfl
    · obtain rfl := Option.some.inj (hreq.symm.trans hr')
      exact ⟨_, rfl, hd⟩
  | @concluded release token cause batch rest e call heq hf hc hr =>
    have hentry : (token, e) ∈ s.entries := mem_entries_of_lookup (s := s) hc.entry
    refine ⟨(call.outcome.event? (some e.address)).toList,
      conveys_of_record hr ?_ (resolution_deliveries s _ _ _),
      fun _ => .inr (List.ne_nil_of_mem hentry), fun r hr' => ?_, ?_⟩
    · rw [hr, tidings_resolution, hc.ticket, ha.aim? ht hentry]
      cases call.outcome.event? (some e.address) <;> rfl
    · simp [heq, Action.request?] at hr'
    · rw [heq, hc.issues]
      rfl
  | emptied hn he _ _ hr =>
    have hpiece : ∀ x ∈ s.leftovers, ∃ socket, x = .closed socket := by
      intro x hx
      obtain ⟨e, -, rfl⟩ := List.mem_map.mp (List.mem_reverse.mp hx)
      exact ⟨_, rfl⟩
    refine ⟨[], reports_nothing hn (conveys_of_record hr ?_ ?_) he.issues⟩
    · rw [hr, tidings_append]
      · rfl
      · intro x hx
        obtain ⟨socket, rfl⟩ := hpiece x hx
        exact ⟨rfl, rfl⟩
    · rw [List.filterMap_eq_nil_iff.mpr]
      · cases s.listener? <;> rfl
      · intro x hx
        obtain ⟨socket, rfl⟩ := hpiece x hx
        rfl

end State

end InFlight

end Dialer
