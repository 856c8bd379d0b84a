import Dialer.Proofs.InFlight.Listener
import Dialer.Proofs.InFlight.Resolution

/-!
# The events of a run are explained by its requests

A channel that is attached from the beginning and keeps a receiver gets the story of every request
that is issued: its attempt is announced, if its target can be used, and its outcome is announced
right before it is called back. Nothing else is published, so that for every address as many
attempts were announced as outcomes, but for those in flight.
-/

namespace Dialer

open Address (SocketAddress)

/-- Whether an event tells that an attempt to an address failed. -/
def Event.fails (address : SocketAddress) : Event → Bool
  | .failed a _ => a = some address
  | _ => false

namespace InFlight

open Readiness (Token)
open Time (Instant)

variable {κ τ : Type}

@[simp] def Happening.event? : Happening κ τ → Option Event
  | .published _ event => some event
  | _ => none

namespace State

variable {s t s₀ : State κ τ} {a : Action κ τ} {actions : List (Action κ τ)}

/-- The events that were published, in order. -/
def events (s : State κ τ) : List Event := s.history.reverse.filterMap Happening.event?

/-- Which request an event on record is about: the one that is called back right after it, or the
one that was issued right before it. -/
def attributed : List (Happening κ τ) → List (Nat × Event)
  | .called call :: .published _ event :: rest => (call.ticket, event) :: attributed rest
  | .published _ event :: .issued ticket _ :: rest => (ticket, event) :: attributed rest
  | _ :: rest => attributed rest
  | [] => []

/-- The events that were published, each with the ticket of the request that it is about. -/
def story (s : State κ τ) : List (Nat × Event) := (attributed s.record).reverse

def ofTicket (ticket : Nat) (item : Nat × Event) : Option Event :=
  if item.1 = ticket then some item.2 else none

theorem ofTicket_self (ticket : Nat) (event : Event) :
    ofTicket ticket (ticket, event) = some event := if_pos rfl

theorem ofTicket_of_ne {ticket : Nat} {item : Nat × Event} (hne : item.1 ≠ ticket) :
    ofTicket ticket item = none := if_neg hne

/-- The events that are about one request. -/
def storyOf (s : State κ τ) (ticket : Nat) : List Event := s.story.filterMap (ofTicket ticket)

section Attributed

variable {id : Nat} {event : Event} {call : Call κ} {address : Option SocketAddress}
  {old : List (Happening κ τ)}

theorem attributed_opened (ticket : Nat) (sockets : List Nat) (old : List (Happening κ τ)) :
    attributed (sockets.map (.opened ticket) ++ old) = attributed old := by
  induction sockets with
  | nil => rfl
  | cons socket sockets ih => simpa [attributed] using ih

theorem attributed_closed (sockets : List Nat) (old : List (Happening κ τ)) :
    attributed (sockets.map .closed ++ old) = attributed old := by
  induction sockets with
  | nil => rfl
  | cons socket sockets ih => simpa [attributed] using ih

theorem attributed_introduction (hl : s.listener? = some id) (request : Request κ)
    (sockets : List Nat) (old : List (Happening κ τ)) :
    attributed (s.introduction request sockets ++ old) =
      request.destination?.toList.map (fun a => (s.tickets, .attempting a)) ++ attributed old := by
  rw [introduction, List.append_assoc, List.append_assoc, attributed_opened]
  cases request.destination? <;> simp [announced, hl, attributed]

theorem attributed_resolution (hl : s.listener? = some id)
    (he : call.outcome.event? address = some event) (sockets : List Nat)
    (old : List (Happening κ τ)) :
    attributed (s.resolution address sockets call ++ old) =
      (call.ticket, event) :: attributed old := by
  simp [resolution, he, announced, hl, attributed, attributed_closed]

theorem introduction_events (hl : s.listener? = some id) (request : Request κ)
    (sockets : List Nat) :
    (s.introduction request sockets).filterMap Happening.event? =
      request.destination?.toList.map .attempting := by
  have hopened : (sockets.map (.opened s.tickets)).filterMap
      (Happening.event? (κ := κ) (τ := τ)) = [] := by
    simp [List.filterMap_map, Function.comp_def]
  rw [introduction, List.filterMap_append, List.filterMap_append, hopened]
  cases request.destination? <;> simp [announced, hl, List.filterMap_cons]

theorem resolution_events (hl : s.listener? = some id)
    (he : call.outcome.event? address = some event) (sockets : List Nat) :
    (s.resolution address sockets call).filterMap Happening.event? = [event] := by
  simp [resolution, he, announced, hl, List.filterMap_cons, List.filterMap_map, Function.comp_def]

end Attributed

/-- What the record tells of requests: every event is about one that was issued, the events about
one are its attempting and what its calls announce, and an announcement comes right before its
call. -/
structure Explained (s : State κ τ) (id : Nat) : Prop where
  complete : (attributed s.record).map (·.2) = s.record.filterMap Happening.event?
  ticket_lt : ∀ item ∈ attributed s.record, item.1 < s.tickets
  told : ∀ ticket request, (ticket, request) ∈ s.issues →
    (attributed s.record).filterMap (ofTicket ticket) =
      ((s.calls.filter (·.ticket = ticket)).flatMap fun call =>
        (call.outcome.event? request.destination?).toList) ++
          request.destination?.toList.map .attempting
  address : ∀ p ∈ s.entries, ∃ request, (p.2.ticket, request) ∈ s.issues ∧
    request.destination? = some p.2.address
  unusable : ∀ ticket request, (ticket, request) ∈ s.issues → request.destination? = none →
    ∃ call ∈ s.calls, call.ticket = ticket ∧ ∃ fault, call.outcome = .error (.connectFailed fault)
  announced_first : ∀ after call before, s.record = after ++ .called call :: before →
    ∃ request event, (call.ticket, request) ∈ s.issues ∧
      call.outcome.event? request.destination? = some event ∧
        before.head? = some (.published id event)

section Explained

variable {id : Nat} {request : Request κ} {call : Call κ} {event : Event}

theorem Explained.ofTicket_fresh (h : Explained s id) :
    (attributed s.record).filterMap (ofTicket s.tickets) = [] := by
  rw [List.filterMap_eq_nil_iff]
  intro item hm
  exact ofTicket_of_ne (Nat.ne_of_lt (h.ticket_lt item hm))

theorem Founded.calls_fresh (h : Founded s) (ht : Tallied s) :
    s.calls.filter (·.ticket = s.tickets) = [] := by
  rw [List.filter_eq_nil_iff]
  intro call hm
  obtain ⟨request, -, hi, -⟩ := h.call call hm
  simpa using Nat.ne_of_lt (ht.ticket_lt hi)

theorem Tallied.issue_fresh (h : Tallied s) (request : Request κ) :
    (s.tickets, request) ∉ s.issues := fun hm => Nat.lt_irrefl _ (h.ticket_lt hm)

theorem Explained.quiet (h : Explained s id) (hq : Quiet s t) (hr : t.record = s.record) :
    Explained t id := by
  obtain ⟨hc, hlt, htold, ha, hu, hf⟩ := h
  constructor <;> simp only [hr, hq.tickets, hq.issues, hq.calls, hq.entries]
  · exact hc
  · exact hlt
  · exact htold
  · exact ha
  · exact hu
  · exact hf

/-- What was told before stays so when a request is taken up. -/
theorem Explained.issued_before (h : Explained s id) {ticket : Nat} (hne : ticket ≠ s.tickets)
    (hi : t.issues = (s.tickets, request) :: s.issues) {r : Request κ}
    (hm : (ticket, r) ∈ t.issues) {calls : List (Call κ)}
    (hcalls : ∀ call ∈ calls, call.ticket = s.tickets) {items : List (Nat × Event)}
    (hitems : ∀ item ∈ items, item.1 = s.tickets) :
    (items ++ attributed s.record).filterMap (ofTicket ticket) =
      (((calls ++ s.calls).filter (·.ticket = ticket)).flatMap fun call =>
        (call.outcome.event? r.destination?).toList) ++ r.destination?.toList.map .attempting := by
  have hold : (ticket, r) ∈ s.issues := by
    rw [hi, List.mem_cons] at hm
    exact hm.resolve_left fun heq => hne (Prod.mk.inj heq).1
  have hnone : items.filterMap (ofTicket ticket) = [] :=
    List.filterMap_eq_nil_iff.mpr fun item hm => ofTicket_of_ne (hitems item hm ▸ hne.symm)
  have hno : calls.filter (·.ticket = ticket) = [] :=
    List.filter_eq_nil_iff.mpr fun call hm => by simpa using hcalls call hm ▸ hne.symm
  rw [List.filterMap_append, hnone, List.filter_append, hno]
  exact h.told ticket r hold

theorem Explained.issued_now (h : Explained s id) (hf : Founded s) (hl : Tallied s)
    (hi : t.issues = (s.tickets, request) :: s.issues) {r : Request κ}
    (hm : (s.tickets, r) ∈ t.issues) {calls : List (Call κ)} {events : List Event}
    (hcalls : ∀ call ∈ calls, call.ticket = s.tickets)
    (hevents : events = (calls.flatMap fun call =>
      (call.outcome.event? request.destination?).toList) ++
        request.destination?.toList.map .attempting) :
    (events.map (s.tickets, ·) ++ attributed s.record).filterMap (ofTicket s.tickets) =
      (((calls ++ s.calls).filter (·.ticket = s.tickets)).flatMap fun call =>
        (call.outcome.event? r.destination?).toList) ++ r.destination?.toList.map .attempting := by
  obtain rfl : r = request := by
    rw [hi, List.mem_cons] at hm
    exact (Prod.mk.inj (hm.resolve_right (hl.issue_fresh r))).2
  have hall : calls.filter (·.ticket = s.tickets) = calls :=
    List.filter_eq_self.mpr fun call hm => decide_eq_true (hcalls call hm)
  have hpick : (events.map (s.tickets, ·)).filterMap (ofTicket s.tickets) = events := by
    simp [List.filterMap_map, Function.comp_def, ofTicket]
  rw [List.filterMap_append, hpick, h.ofTicket_fresh, List.filter_append, hall, hf.calls_fresh hl,
    List.append_nil, List.append_nil, hevents]

theorem Explained.answered (h : Explained s id) (hf : Founded s) (hl : Tallied s)
    (hlisten : s.listener? = some id) {reply : Reply} {sockets : List Nat}
    (ha : Answered s request reply call t)
    (he : call.outcome.event? request.destination? = some event)
    (hr : t.record = s.resolution request.destination? sockets call ++
      s.introduction request sockets ++ s.record) : Explained t id := by
  have hitems : attributed t.record =
      (event :: request.destination?.toList.map .attempting).map (s.tickets, ·) ++
        attributed s.record := by
    rw [hr, List.append_assoc, attributed_resolution hlisten he, attributed_introduction hlisten,
      ha.ticket]
    simp
  have hmem : (s.tickets, request) ∈ t.issues := ha.issues ▸ List.mem_cons_self
  refine ⟨?_, ?_, fun ticket r hm => ?_, ?_, ?_, ?_⟩
  · rw [hitems, hr, List.filterMap_append, List.filterMap_append, resolution_events hlisten he,
      introduction_events hlisten, ← h.complete]
    simp
  · intro item hm
    rw [hitems, List.mem_append] at hm
    rw [ha.tickets]
    rcases hm with hm | hm
    · obtain ⟨-, -, rfl⟩ := List.mem_map.mp hm
      exact Nat.lt_succ_self _
    · exact Nat.lt_succ_of_lt (h.ticket_lt item hm)
  · have hcalls : t.calls = [call] ++ s.calls := ha.calls
    rw [hitems, hcalls]
    by_cases hne : ticket = s.tickets
    · subst hne
      refine h.issued_now hf hl ha.issues hm (fun c hc => ?_) (by simp [he])
      rw [List.mem_singleton.mp hc, ha.ticket]
    · refine h.issued_before hne ha.issues hm (fun c hc => ?_) (fun item hi => ?_)
      · rw [List.mem_singleton.mp hc, ha.ticket]
      · obtain ⟨-, -, rfl⟩ := List.mem_map.mp hi
        rfl
  · intro p hp
    obtain ⟨r, hi, hd⟩ := h.address p (ha.entries ▸ hp)
    exact ⟨r, ha.issues ▸ List.mem_cons_of_mem _ hi, hd⟩
  · intro ticket r hm hd
    rw [ha.issues, List.mem_cons] at hm
    rw [ha.calls]
    rcases hm with heq | hm
    · obtain ⟨rfl, rfl⟩ := Prod.mk.inj heq
      refine ⟨call, List.mem_cons_self, ha.ticket, ?_⟩
      rcases ha.outcome with ⟨nodelay, hok, -⟩ | ⟨error, -, herr⟩ | ⟨fault, -, herr⟩
      · simp [hok, hd, Outcome.event?] at he
      · exact ⟨_, herr⟩
      · exact ⟨_, herr⟩
    · obtain ⟨c, hc, hrest⟩ := h.unusable ticket r hm hd
      exact ⟨c, List.mem_cons_of_mem _ hc, hrest⟩
  · intro after c before hrec
    rw [hr, List.append_assoc] at hrec
    rcases called_of_resolution hrec with ⟨rfl, rfl⟩ | ⟨after', hold⟩
    · exact ⟨request, event, ha.ticket ▸ hmem, he, by simp [he, announced, hlisten]⟩
    · obtain ⟨after'', hold⟩ := called_of_append hold (introduction_calls s request sockets)
      obtain ⟨r, e, hi, he', hb⟩ := h.announced_first after'' c before hold
      exact ⟨r, e, ha.issues ▸ List.mem_cons_of_mem _ hi, he', hb⟩

theorem Explained.begun (h : Explained s id) (hf : Founded s) (hl : Tallied s)
    (hlisten : s.listener? = some id) {token : Token} {e : Entry κ}
    (hb : Begun s request token e t) (hd : request.destination? = some e.address)
    (hr : t.record = s.introduction request [s.sockets] ++ s.record) : Explained t id := by
  have hitems : attributed t.record =
      [Event.attempting e.address].map (s.tickets, ·) ++ attributed s.record := by
    rw [hr, attributed_introduction hlisten, hd]
    rfl
  refine ⟨?_, ?_, fun ticket r hm => ?_, ?_, ?_, ?_⟩
  · rw [hitems, hr, List.filterMap_append, introduction_events hlisten, ← h.complete, hd]
    simp
  · intro item hm
    rw [hitems, List.mem_append] at hm
    rw [hb.tickets]
    rcases hm with hm | hm
    · obtain ⟨-, -, rfl⟩ := List.mem_map.mp hm
      exact Nat.lt_succ_self _
    · exact Nat.lt_succ_of_lt (h.ticket_lt item hm)
  · have hcalls : t.calls = [] ++ s.calls := hb.calls
    rw [hitems, hcalls]
    by_cases hne : ticket = s.tickets
    · subst hne
      exact h.issued_now hf hl hb.issues hm (fun _ hc => absurd hc List.not_mem_nil) (by simp [hd])
    · refine h.issued_before hne hb.issues hm (fun _ hc => absurd hc List.not_mem_nil) ?_
      intro item hi
      obtain ⟨-, -, rfl⟩ := List.mem_map.mp hi
      rfl
  · intro p hp
    rw [hb.entries, List.mem_append, List.mem_singleton] at hp
    rw [hb.issues]
    rcases hp with hp | rfl
    · obtain ⟨r, hi, hd⟩ := h.address p hp
      exact ⟨r, List.mem_cons_of_mem _ hi, hd⟩
    · exact ⟨request, hb.ticket ▸ List.mem_cons_self, hd⟩
  · intro ticket r hm hnone
    rw [hb.issues, List.mem_cons] at hm
    rw [hb.calls]
    rcases hm with heq | hm
    · obtain ⟨rfl, rfl⟩ := Prod.mk.inj heq
      simp [hd] at hnone
    · exact h.unusable ticket r hm hnone
  · intro after c before hrec
    rw [hr] at hrec
    obtain ⟨after', hold⟩ := called_of_append hrec (introduction_calls s request [s.sockets])
    obtain ⟨r, e, hi, he', hb'⟩ := h.announced_first after' c before hold
    exact ⟨r, e, hb.issues ▸ List.mem_cons_of_mem _ hi, he', hb'⟩

theorem Explained.concluded (h : Explained s id) (hl : Tallied s)
    (hlisten : s.listener? = some id) {token : Token} {e : Entry κ} {cause : Cause}
    {frames : List (Frame κ τ)} (hc : Concluded { s with frames := frames } token e cause call t)
    (hr : t.record = s.resolution (some e.address) [e.socket] call ++ s.record) :
    Explained t id := by
  obtain ⟨event, he⟩ := event?_some e.address call.outcome
  have hentry : (token, e) ∈ s.entries := mem_entries_of_lookup (s := s) hc.entry
  obtain ⟨request, hissue, hd⟩ := h.address _ hentry
  have hitems : attributed t.record = (e.ticket, event) :: attributed s.record := by
    rw [hr, attributed_resolution hlisten he, hc.ticket]
  have hissues : t.issues = s.issues := hc.issues
  have hcalls : t.calls = call :: s.calls := hc.calls
  refine ⟨?_, ?_, fun ticket r hm => ?_, ?_, ?_, ?_⟩
  · rw [hitems, hr, List.filterMap_append, resolution_events hlisten he, ← h.complete]
    rfl
  · have htickets : t.tickets = s.tickets := hc.tickets
    rw [hitems, htickets]
    exact List.forall_mem_cons.mpr ⟨hl.ticket_lt hissue, h.ticket_lt⟩
  · rw [hissues] at hm
    rw [hitems, hcalls]
    by_cases hne : e.ticket = ticket
    · subst hne
      obtain rfl : r = request := hl.request_unique hm hissue
      rw [List.filterMap_cons_some (ofTicket_self _ _),
        List.filter_cons_of_pos (by simp [hc.ticket]), h.told _ r hm, hd, List.flatMap_cons, he]
      rfl
    · rw [List.filterMap_cons_none (ofTicket_of_ne hne),
        List.filter_cons_of_neg (by simp [hc.ticket, hne])]
      exact h.told ticket r hm
  · intro p hp
    rw [hc.entries] at hp
    rw [hissues]
    exact h.address p (List.mem_of_mem_filter hp)
  · intro ticket r hi hnone
    obtain ⟨c, hm, hrest⟩ := h.unusable ticket r (hissues ▸ hi) hnone
    exact ⟨c, hcalls ▸ List.mem_cons_of_mem _ hm, hrest⟩
  · intro after c before hrec
    rw [hr] at hrec
    rw [hissues]
    rcases called_of_resolution hrec with ⟨rfl, rfl⟩ | ⟨after', hold⟩
    · exact ⟨request, event, hc.ticket ▸ hissue, hd ▸ he, by simp [he, announced, hlisten]⟩
    · exact h.announced_first after' c before hold

theorem Explained.emptied (h : Explained s id) (he : Emptied s t)
    (hr : t.record = s.leftovers ++ s.record) : Explained t id := by
  have hleft : s.leftovers = (s.entries.map (·.2.socket)).reverse.map .closed := by
    simp [leftovers, ← List.map_reverse]
  have hitems : attributed t.record = attributed s.record := by
    rw [hr, hleft, attributed_closed]
  have hnone : (s.leftovers).filterMap Happening.event? = [] := by
    rw [hleft]
    simp [List.filterMap_map, Function.comp_def]
  obtain ⟨hc, hlt, htold, ha, hu, hf⟩ := h
  constructor <;> simp only [hitems, he.tickets, he.issues, he.calls, he.entries]
  · rw [hr, List.filterMap_append, hnone]
    exact hc
  · exact hlt
  · exact htold
  · exact fun p hp => absurd hp List.not_mem_nil
  · exact hu
  · intro after call before hrec
    rw [hr] at hrec
    obtain ⟨after', hold⟩ := called_of_append hrec (by
      rw [hleft]
      simp [List.filterMap_map, Function.comp_def])
    exact hf after' call before hold

end Explained

/-- For every address as many attempts were announced as outcomes, but for those in flight. -/
def Balances (events : List Event) (entries : List (Token × Entry κ)) : Prop :=
  ∀ a, events.count (.attempting a) =
    events.count (.connected a) + events.countP (Event.fails a) +
      entries.countP (·.2.address = a)

def Balanced (s : State κ τ) : Prop :=
  Balances (s.record.filterMap Happening.event?) s.entries

section Balanced

variable {id : Nat} {request : Request κ} {call : Call κ} {event : Event}

theorem counts_of_event? {address : Option SocketAddress} {outcome : Outcome}
    (he : outcome.event? address = some event) (a : SocketAddress) :
    [event].count (.attempting a) = 0 ∧
      [event].count (.connected a) + [event].countP (Event.fails a) =
        if address = some a then 1 else 0 := by
  cases outcome with
  | ok handed =>
    obtain ⟨b, rfl, rfl⟩ := Option.map_eq_some_iff.mp he
    by_cases hb : b = a <;> simp [Event.fails, hb]
  | error failure =>
    obtain rfl := Option.some.inj he
    by_cases hb : address = some a <;> simp [Event.fails, hb]

theorem counts_attempting (address : Option SocketAddress) (a : SocketAddress) :
    (address.toList.map Event.attempting).count (.attempting a) =
        (if address = some a then 1 else 0) ∧
      (address.toList.map Event.attempting).count (.connected a) = 0 ∧
      (address.toList.map Event.attempting).countP (Event.fails a) = 0 := by
  cases address with
  | none => simp
  | some b => by_cases hb : b = a <;> simp [Event.fails, hb]

theorem Balanced.answered (h : Balanced s) (hlisten : s.listener? = some id) {sockets : List Nat}
    (hentries : t.entries = s.entries)
    (he : call.outcome.event? request.destination? = some event)
    (hr : t.record = s.resolution request.destination? sockets call ++
      s.introduction request sockets ++ s.record) : Balanced t := by
  intro a
  have hbefore := h a
  obtain ⟨hc, hsum⟩ := counts_of_event? he a
  obtain ⟨hc', hk, hf⟩ := counts_attempting request.destination? a
  rw [hr, hentries, List.filterMap_append, List.filterMap_append, resolution_events hlisten he,
    introduction_events hlisten]
  simp only [List.count_append, List.countP_append]
  omega

theorem Balanced.begun (h : Balanced s) (hlisten : s.listener? = some id) {token : Token}
    {e : Entry κ} {sockets : List Nat} (hentries : t.entries = s.entries ++ [(token, e)])
    (hd : request.destination? = some e.address)
    (hr : t.record = s.introduction request sockets ++ s.record) : Balanced t := by
  intro a
  have hbefore := h a
  obtain ⟨hc, hk, hf⟩ := counts_attempting request.destination? a
  have hpending : [(token, e)].countP (fun p : Token × Entry κ => p.2.address = a) =
      if request.destination? = some a then 1 else 0 := by
    rw [hd]
    by_cases hb : e.address = a <;> simp [hb]
  rw [hr, hentries, List.filterMap_append, introduction_events hlisten]
  simp only [List.count_append, List.countP_append]
  omega

theorem Balanced.concluded (h : Balanced s) (hreg : Registered s)
    (hlisten : s.listener? = some id) {token : Token} {e : Entry κ}
    (hentry : s.entry? token = some e)
    (hentries : t.entries = s.entries.filter (·.1 ≠ token)) {sockets : List Nat}
    (hr : t.record = s.resolution (some e.address) sockets call ++ s.record) : Balanced t := by
  intro a
  have hbefore := h a
  obtain ⟨event, he⟩ := event?_some e.address call.outcome
  obtain ⟨hc, hsum⟩ := counts_of_event? he a
  have hperm := (hreg.entries_perm hentry).countP_eq fun p => p.2.address = a
  have hpending : [(token, e)].countP (fun p : Token × Entry κ => p.2.address = a) =
      if some e.address = some a then 1 else 0 := by
    by_cases hb : e.address = a <;> simp [hb]
  rw [← List.singleton_append, List.countP_append] at hperm
  rw [hr, hentries, List.filterMap_append, resolution_events hlisten he]
  simp only [List.count_append, List.countP_append]
  omega

end Balanced

section Recorded

variable {id : Nat}

theorem listener?_of_request (hl : s.isClosed ∨ s.listener? = some id) (ha : a.Enabled s)
    {request : Request κ} {reply : Reply} {now : Instant} (heq : a = .attempt request reply now) :
    s.listener? = some id := by
  subst heq
  exact hl.resolve_left ha.2.1

theorem Lawful.listener?_of_entry (hs : Lawful s) (hl : s.isClosed ∨ s.listener? = some id)
    {token : Token} {e : Entry κ} (he : s.entry? token = some e) : s.listener? = some id :=
  hl.resolve_left (hs.open_of_tokens (mem_entries_of_lookup he))

theorem Explained.recorded (h : Explained s id) (hs : Lawful s) (ht : Tallied s) (hf : Founded s)
    (ha : a.Enabled s) (hl : s.isClosed ∨ s.listener? = some id) (hr : Recorded s a t) :
    Explained t id := by
  cases hr with
  | quiet _ hq hr => exact h.quiet hq hr
  | answered heq hans he _ hr =>
    exact h.answered hf ht (listener?_of_request hl ha heq) hans he hr
  | begun heq hb hd hr => exact h.begun hf ht (listener?_of_request hl ha heq) hb hd hr
  | concluded _ _ hc hr => exact h.concluded ht (hs.listener?_of_entry hl hc.entry) hc hr
  | emptied _ he _ _ hr => exact h.emptied he hr

theorem Balanced.recorded (h : Balanced s) (hs : Lawful s) (ha : a.Enabled s)
    (hl : s.isClosed ∨ s.listener? = some id) (hr : Recorded s a t) :
    BreaksOff s a t ∨ Balanced t := by
  cases hr with
  | quiet _ hq hr =>
    refine .inr ?_
    rw [Balanced, hr, hq.entries]
    exact h
  | answered heq hans he _ hr =>
    exact .inr (h.answered (listener?_of_request hl ha heq) hans.entries he hr)
  | begun heq hb hd hr => exact .inr (h.begun (listener?_of_request hl ha heq) hb.entries hd hr)
  | concluded _ _ hc hr =>
    exact .inr (h.concluded hs.registered (hs.listener?_of_entry hl hc.entry) hc.entry hc.entries
      hr)
  | emptied _ he hclosing hwhy hr =>
    by_cases hn : s.tokens = []
    · have hentries : s.entries = [] := List.map_eq_nil_iff.mp hn
      refine .inr ?_
      rw [Balanced, hentries] at h
      rw [Balanced, hr, he.entries, leftovers, hentries]
      exact h
    · exact .inl ⟨hclosing, hn, he.isClosed hs, hwhy.resolve_left hn⟩

end Recorded

/-- A run in which a channel is attached at the beginning and no other later. -/
theorem explained_run (capacity : Nat) (nodelay : Bool)
    (hp : (initial capacity nodelay).Possible (.openChannel :: .watchOn (some 0) :: actions))
    (hw : ∀ monitor, .watchOn monitor ∉ actions) :
    let s₀ := initial capacity nodelay
    let s := s₀.run (.openChannel :: .watchOn (some 0) :: actions)
    Attached s 0 ∧ (s.receivers 0 ≠ 0 → Explained s 0 ∧
      ((s₀.BrokenOff (.openChannel :: .watchOn (some 0) :: actions) ∧ s.isClosed) ∨
        Balanced s)) := by
  intro s₀
  induction actions using List.reverseRecOn with
  | nil =>
    refine ⟨⟨Nat.zero_lt_one, fun _ => .inr rfl⟩, fun _ => ⟨?_, .inr fun _ => rfl⟩⟩
    exact
      { complete := rfl
        ticket_lt := fun _ h => absurd h List.not_mem_nil
        told := fun _ _ h => absurd h List.not_mem_nil
        address := fun _ h => absurd h List.not_mem_nil
        unusable := fun _ _ h => absurd h List.not_mem_nil
        announced_first := fun _ _ _ h => absurd (congrArg List.length h) (by
          simp only [List.length_append, List.length_cons]
          exact Nat.ne_of_lt (by show 0 < _; omega)) }
  | append_singleton actions a ih =>
    intro t
    obtain ⟨hp, ha⟩ := possible_append.mp (show s₀.Possible
      ((.openChannel :: .watchOn (some 0) :: actions) ++ [a]) from hp)
    have hacc : Accounted s₀ (.openChannel :: .watchOn (some 0) :: actions) _ :=
      accounted_run capacity nodelay hp
    obtain ⟨hatt, hex⟩ := ih hp fun monitor hm => hw monitor (List.mem_append_left _ hm)
    have ht : t = (s₀.run (.openChannel :: .watchOn (some 0) :: actions)).after a :=
      run_snoc s₀ (.openChannel :: .watchOn (some 0) :: actions) a
    have hwatch : ∀ monitor, a ≠ .watchOn monitor :=
      fun monitor heq => hw monitor (heq ▸ List.mem_append_right _ List.mem_cons_self)
    have hrec := hacc.lawful.receivers_after (fun _ => ha.1) hatt.opened
    refine ⟨ht ▸ hatt.after hacc.lawful ha.1 hwatch, fun hne => ?_⟩
    rw [ht] at hne ⊢
    have hr := hacc.lawful.recorded ha.1
    have hl := hatt.listens (hrec hne)
    obtain ⟨he, hb⟩ := hex (hrec hne)
    refine ⟨he.recorded hacc.lawful hacc.tallied hacc.founded ha.1 hl hr, ?_⟩
    rcases hb with ⟨⟨before, x, rest, heq, hx⟩, hclosed⟩ | hb
    · have hlonger : .openChannel :: .watchOn (some 0) :: (actions ++ [a]) =
          before ++ x :: (rest ++ [a]) := by
        rw [← List.cons_append, ← List.cons_append, heq]
        simp
      exact .inl ⟨⟨before, x, rest ++ [a], hlonger, hx⟩,
        (hacc.lawful.after ha.1).2.isClosed hclosed⟩
    · rcases hb.recorded hacc.lawful ha.1 hl hr with hx | hb
      · exact .inl ⟨⟨_, a, [], rfl, ht ▸ hx⟩, hx.closed⟩
      · exact .inr hb

/-- A request was called back once, on the side of its outcome. -/
def ResolvedWith (s : State κ τ) (ticket : Nat) (request : Request κ) (outcome : Outcome) : Prop :=
  ∃ call, s.calls.filter (·.ticket = ticket) = [call] ∧ call.outcome = outcome ∧
    ∃ c, request.continuations? = some c ∧ call.continuation = c.select outcome

/-- The events that explain where a request is: none was in flight if its target cannot be used;
otherwise its attempt was announced, and an outcome if and only if it was called back, with that
outcome. Only a giving up that ended in a panic leaves a request without one. -/
inductive Explains (s₀ : State κ τ) (actions : List (Action κ τ)) (s : State κ τ) (ticket : Nat)
    (request : Request κ) : List Event → Prop
  | unusable {error : TargetError} {fault : Fault}
      (ht : Target.ofRequest request.address request.port = .error error)
      (hr : s.ResolvedWith ticket request (.error (.connectFailed fault))) :
      Explains s₀ actions s ticket request [.failed none .connectFailed]
  | pending {target : Target}
      (ht : Target.ofRequest request.address request.port = .ok target)
      (hp : s.IsPendingOnce ticket request) (hu : s.IsUncalled ticket) :
      Explains s₀ actions s ticket request [.attempting target.address]
  | connected {target : Target} {handed : Handed}
      (ht : Target.ofRequest request.address request.port = .ok target)
      (hr : s.ResolvedWith ticket request (.ok handed)) :
      Explains s₀ actions s ticket request
        [.attempting target.address, .connected target.address]
  | failed {target : Target} {failure : Failure}
      (ht : Target.ofRequest request.address request.port = .ok target)
      (hr : s.ResolvedWith ticket request (.error failure)) :
      Explains s₀ actions s ticket request
        [.attempting target.address, .failed (some target.address) failure.kind]
  | lost {target : Target} (ht : Target.ofRequest request.address request.port = .ok target)
      (hb : s₀.BrokenOff actions) (hc : s.isClosed) (hu : s.IsUncalled ticket) :
      Explains s₀ actions s ticket request [.attempting target.address]

/-- A request that was issued is in flight, or it was called back once, unless the giving up of the
table was broken off. -/
theorem Accounted.standing (h : Accounted s₀ actions s) {ticket : Nat} {request : Request κ}
    (hr : (requests actions)[ticket]? = some request) :
    (s.IsPendingOnce ticket request ∧ s.calls.filter (·.ticket = ticket) = []) ∨
      (∃ call, s.calls.filter (·.ticket = ticket) = [call]) ∨
      (s₀.BrokenOff actions ∧ s.isClosed ∧ s.calls.filter (·.ticket = ticket) = []) := by
  have hlt : ticket < s.tickets := h.tallied.ticket_lt (h.mem_issues_iff.mpr hr)
  have honce := h.tallied.once ticket
  rw [if_pos hlt, tally] at honce
  have hlen := length_filter_eq_count (·.ticket) s.calls ticket
  by_cases hzero : (s.calls.map (·.ticket)).count ticket = 0
  · have hnil : s.calls.filter (·.ticket = ticket) = [] :=
      List.eq_nil_of_length_eq_zero (hlen.trans hzero)
    by_cases hpending : (s.entries.map (·.2.ticket)).count ticket = 1
    · exact .inl ⟨h.isPendingOnce hr hpending, hnil⟩
    · refine .inr (.inr ?_)
      rcases h.complete with ⟨hb, hc⟩ | hc
      · exact ⟨hb, hc, hnil⟩
      · have := hc ticket hlt
        rw [tally] at this
        omega
  · exact .inr (.inl (List.length_eq_one_iff.mp (hlen.trans (by omega))))

theorem isUncalled_of_filter {ticket : Nat} (h : s.calls.filter (·.ticket = ticket) = []) :
    s.IsUncalled ticket := by
  intro call hm
  simpa using List.filter_eq_nil_iff.mp h call hm

theorem Explained.storyOf_eq {id : Nat} (h : Explained s id) {ticket : Nat} {request : Request κ}
    (hi : (ticket, request) ∈ s.issues) :
    s.storyOf ticket = request.destination?.toList.map .attempting ++
      ((s.calls.filter (·.ticket = ticket)).flatMap fun call =>
        (call.outcome.event? request.destination?).toList).reverse := by
  rw [storyOf, story, List.filterMap_reverse, h.told ticket request hi, List.reverse_append]
  cases request.destination? <;> rfl

theorem destination?_eq_none_iff {request : Request κ} : request.destination? = none ↔
    ∃ error, Target.ofRequest request.address request.port = .error error := by
  rw [Request.destination?]
  cases Target.ofRequest request.address request.port <;> simp

theorem destination?_eq_some_iff {request : Request κ} {address : SocketAddress} :
    request.destination? = some address ↔ ∃ target,
      Target.ofRequest request.address request.port = .ok target ∧ target.address = address := by
  rw [Request.destination?]
  cases Target.ofRequest request.address request.port <;> simp

theorem Accounted.resolvedWith (h : Accounted s₀ actions s) {ticket : Nat} {request : Request κ}
    (hi : (ticket, request) ∈ s.issues) {call : Call κ}
    (hone : s.calls.filter (·.ticket = ticket) = [call]) :
    s.ResolvedWith ticket request call.outcome := by
  have hm : call ∈ s.calls ∧ call.ticket = ticket := mem_of_filter_eq_singleton hone
  obtain ⟨r, c, hr, hc, hsel, -⟩ := h.founded.call call hm.1
  obtain rfl : r = request := h.tallied.request_unique (hm.2 ▸ hr) hi
  exact ⟨call, hone, rfl, c, hc, hsel⟩

/-- The events that are about a request that was issued explain where it is. -/
theorem Accounted.explains (h : Accounted s₀ actions s) {id : Nat} (he : Explained s id)
    {ticket : Nat} {request : Request κ} (hr : (requests actions)[ticket]? = some request) :
    Explains s₀ actions s ticket request (s.storyOf ticket) := by
  have hi := h.mem_issues_iff.mpr hr
  have hstanding := h.standing hr
  rw [he.storyOf_eq hi]
  cases hd : request.destination? with
  | none =>
    obtain ⟨error, ht⟩ := destination?_eq_none_iff.mp hd
    obtain ⟨call, hm, hticket, fault, hout⟩ := he.unusable ticket request hi hd
    have hmem : call ∈ s.calls.filter (·.ticket = ticket) :=
      List.mem_filter.mpr ⟨hm, decide_eq_true hticket⟩
    rcases hstanding with ⟨-, hnil⟩ | ⟨c, hone⟩ | ⟨-, -, hnil⟩
    · exact absurd (hnil ▸ hmem) List.not_mem_nil
    · obtain rfl : call = c := List.mem_singleton.mp (hone ▸ hmem)
      rw [hone]
      simpa [hout, Outcome.event?, Failure.kind] using
        Explains.unusable ht (hout ▸ h.resolvedWith hi hone)
    · exact absurd (hnil ▸ hmem) List.not_mem_nil
  | some address =>
    obtain ⟨target, ht, rfl⟩ := destination?_eq_some_iff.mp hd
    rcases hstanding with ⟨hp, hnil⟩ | ⟨call, hone⟩ | ⟨hb, hc, hnil⟩
    · rw [hnil]
      exact .pending ht hp (isUncalled_of_filter hnil)
    · have hres := h.resolvedWith hi hone
      rw [hone]
      cases hout : call.outcome with
      | ok handed => simpa [hout, Outcome.event?] using Explains.connected ht (hout ▸ hres)
      | error failure => simpa [hout, Outcome.event?] using Explains.failed ht (hout ▸ hres)
    · rw [hnil]
      exact .lost ht hb hc (isUncalled_of_filter hnil)

/-- A channel that is attached from the beginning, and no other later, gets a story that its
requests explain, as long as it has a receiver: every event is about a request that was issued, and
what is about one is its attempting, if its target can be used, and its outcome, once it is called
back. The outcome is the last that is published before the call. For every address there were as
many attempts as outcomes and attempts in flight. Only a giving up that ended in a panic itself
leaves attempts without an outcome. -/
theorem run_publishes (capacity : Nat) (nodelay : Bool)
    (hp : (initial capacity nodelay).Possible (.openChannel :: .watchOn (some 0) :: actions))
    (hw : ∀ monitor, .watchOn monitor ∉ actions)
    (hr : ((initial capacity nodelay).run
      (.openChannel :: .watchOn (some 0) :: actions)).receivers 0 ≠ 0) :
    let s₀ := initial capacity nodelay
    let s := s₀.run (.openChannel :: .watchOn (some 0) :: actions)
    s.events = s.story.map (·.2) ∧
    (∀ item ∈ s.story, ∃ request, (requests actions)[item.1]? = some request) ∧
    (∀ ticket request, (requests actions)[ticket]? = some request →
      Explains s₀ (.openChannel :: .watchOn (some 0) :: actions) s ticket request
        (s.storyOf ticket)) ∧
    (∀ after call before, s.history = after ++ .called call :: before →
      ∃ request event, (requests actions)[call.ticket]? = some request ∧
        call.outcome.event? request.destination? = some event ∧
          before.find? Happening.isWeighty = some (.published 0 event)) ∧
    ((∀ a, s.events.count (.attempting a) =
        s.events.count (.connected a) + s.events.countP (Event.fails a) +
          s.entries.countP (·.2.address = a)) ∨
      (s₀.BrokenOff (.openChannel :: .watchOn (some 0) :: actions) ∧ s.isClosed)) := by
  intro s₀ s
  have h : Accounted s₀ (.openChannel :: .watchOn (some 0) :: actions) s :=
    accounted_run capacity nodelay hp
  obtain ⟨he, hb⟩ := (explained_run capacity nodelay hp hw).2 hr
  have hevents : s.events = (s.record.filterMap Happening.event?).reverse := by
    rw [events, List.filterMap_reverse, filterMap_record]
    intro x hx
    cases x <;> simp_all
  refine ⟨?_, fun item hm => ?_, fun ticket request hi => h.explains he hi, ?_, ?_⟩
  · rw [hevents, ← he.complete, story, List.map_reverse]
  · have hlt := he.ticket_lt item (List.mem_reverse.mp hm)
    have hk : item.1 ∈ s.issues.map (·.1) := by
      rw [h.tallied.issued]
      simpa using hlt
    obtain ⟨⟨k, request⟩, hi, rfl⟩ := List.mem_map.mp hk
    exact ⟨request, h.mem_issues_iff.mp hi⟩
  · intro after call before hh
    have hrec : s.record = after.filter Happening.isWeighty ++
        .called call :: before.filter Happening.isWeighty := by
      rw [record, hh, List.filter_append, List.filter_cons_of_pos rfl]
    obtain ⟨request, event, hi, hev, hhead⟩ := he.announced_first _ _ _ hrec
    exact ⟨request, event, h.mem_issues_iff.mp hi, hev, List.head?_filter ▸ hhead⟩
  · rcases hb with hb | hb
    · exact .inr hb
    · refine .inl fun a => ?_
      rw [hevents, List.count_reverse, List.count_reverse, List.countP_reverse]
      exact hb a

/-- Four requests: the first has no continuation for a failure, the second no usable target, the
third is connected and its continuation panics, and the last is in flight. -/
theorem run_publishes_of_four :
    let request : Request Nat := ⟨"127.0.0.1", 80, .ofMillis 1, some 0, some 1⟩
    let address : SocketAddress := .v4 ⟨127, 0, 0, 1⟩ 80
    let begun : Reply := { connect := some .nowInProgress }
    let actions : List (Action Nat Nat) := [
      .attempt { request with onFailure := none } begun .origin,
      .attempt { request with address := "nowhere" } begun .origin, .leave none,
      .attempt request begun .origin, .attempt request begun .origin,
      .poll (.ok [(0, .connected)]), .advance {}, .leave (some (.plain none)), .advance {}]
    let s₀ := initial 16 false
    let s := s₀.run (.openChannel :: .watchOn (some 0) :: actions)
    s.story = [(0, .failed none .connectFailed), (1, .attempting address), (2, .attempting address),
        (1, .connected address)] ∧
      Explains s₀ (.openChannel :: .watchOn (some 0) :: actions) s 1 request
        [.attempting address, .connected address] ∧
      2 = 1 + s.entries.countP (·.2.address = address) := by
  intro request address begun actions s₀ s
  obtain ⟨-, -, hexplains, -, hcounts⟩ := run_publishes 16 false
    (show s₀.Possible (.openChannel :: .watchOn (some 0) :: actions) by decide)
    (by simp [actions]) (by decide)
  have hstory : s.storyOf 1 = [.attempting address, .connected address] := by decide
  have hopen : ¬ s.isClosed := by decide
  refine ⟨by decide, hstory ▸ hexplains 1 request rfl, ?_⟩
  have hcount := hcounts.resolve_right (fun h => hopen h.2) address
  rwa [show s.events.count (.attempting address) = 2 by decide,
    show s.events.count (.connected address) = 1 by decide,
    show s.events.countP (Event.fails address) = 0 by decide] at hcount

end State

end InFlight

end Dialer
