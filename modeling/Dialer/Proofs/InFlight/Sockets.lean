import Dialer.Proofs.InFlight.Accounting
import Dialer.Proofs.InFlight.Interests
import Dialer.Proofs.InFlight.Record

/-!
# Every socket has one owner

A socket that is opened for a request belongs to the attempt in the table, or it was handed over, or
it was closed, and that once. It is closed before a failure is called back, and once it was handed
over the table has nothing to do with it any more.
-/

namespace Dialer.InFlight

open Address (SocketAddress)
open Readiness (Token)

variable {κ τ : Type}

@[simp] def Happening.closing? : Happening κ τ → Option Nat
  | .closed socket => some socket
  | _ => none

/-- The socket that a call hands over, if it does. -/
def Call.handover? (call : Call κ) : Option Nat := call.outcome.toOption.map (·.socket)

namespace State

variable {s t : State κ τ} {a : Action κ τ}

/-- The sockets that were closed. -/
def closings (s : State κ τ) : List Nat := s.history.filterMap Happening.closing?

/-- The sockets that were handed over. -/
def handovers (s : State κ τ) : List Nat := s.calls.filterMap Call.handover?

/-- In how many places a socket is: among the attempts, among those handed over, and among those
that were closed. -/
def places (s : State κ τ) (socket : Nat) : Nat :=
  (s.entries.map (·.2.socket)).count socket + s.handovers.count socket + s.closings.count socket

/-- The sockets that are looked at for a report. -/
def probed (s : State κ τ) (report : List (Token × Verdict)) : List Nat :=
  (s.relevant report).filterMap fun r => (s.entry? r.1).map (·.socket)

/-- The table has nothing to do with a socket, and the system is not interested in it for the table,
unless it refused to give it up. -/
structure Released (s : State κ τ) (socket : Nat) : Prop where
  unowned : ∀ token e, s.entry? token = some e → e.socket ≠ socket
  unwatched : ∀ token, (socket, token) ∈ s.watch.selector.interests → token ∈ s.refusals
  unprobed : ∀ report, socket ∉ s.probed report
  unclosed : .closed socket ∉ s.history

theorem closings_eq : s.closings = s.record.filterMap Happening.closing? :=
  (filterMap_record fun h hw => by cases h <;> simp_all).symm

theorem openings_eq : s.openings = s.record.filterMap Happening.opening? :=
  (filterMap_record fun h hw => by cases h <;> simp_all).symm

theorem mem_handovers {socket : Nat} : socket ∈ s.handovers ↔
    ∃ call ∈ s.calls, ∃ handed, call.outcome = .ok handed ∧ handed.socket = socket := by
  rw [handovers, List.mem_filterMap]
  refine exists_congr fun call => and_congr_right fun _ => ?_
  cases hout : call.outcome <;> simp [Call.handover?, hout, Except.toOption]

@[simp] theorem introduction_openings (s : State κ τ) (request : Request κ)
    (sockets : List Nat) :
    (s.introduction request sockets).filterMap Happening.opening? = sockets.map (s.tickets, ·) := by
  rw [introduction_filterMap s request sockets fun _ _ => rfl]
  simp

@[simp] theorem introduction_closings (s : State κ τ) (request : Request κ) (sockets : List Nat) :
    (s.introduction request sockets).filterMap Happening.closing? = [] := by
  rw [introduction_filterMap s request sockets fun _ _ => rfl]
  simp

@[simp] theorem resolution_openings (s : State κ τ) (address : Option SocketAddress)
    (sockets : List Nat) (call : Call κ) :
    (s.resolution address sockets call).filterMap Happening.opening? = [] := by
  rw [resolution_filterMap s address sockets call fun _ _ => rfl]
  simp

@[simp] theorem resolution_closings (s : State κ τ) (address : Option SocketAddress)
    (sockets : List Nat) (call : Call κ) :
    (s.resolution address sockets call).filterMap Happening.closing? =
      call.outcome.closes sockets := by
  rw [resolution_filterMap s address sockets call fun _ _ => rfl]
  simp

theorem places_of_call {call : Call κ} {sockets : List Nat} (hcalls : t.calls = call :: s.calls)
    (hclosings : t.closings = call.outcome.closes sockets ++ s.closings)
    (hok : ∀ handed, call.outcome = .ok handed → sockets = [handed.socket]) (socket : Nat) :
    t.handovers.count socket + t.closings.count socket =
      sockets.count socket + (s.handovers.count socket + s.closings.count socket) := by
  have hh : t.handovers = call.handover?.toList ++ s.handovers := by
    rw [handovers, hcalls, handovers]
    cases h : call.handover? <;> simp [h]
  rw [hh, hclosings, List.count_append, List.count_append]
  cases hout : call.outcome with
  | ok handed =>
    simp [Call.handover?, hout, Except.toOption, Outcome.closes, hok handed hout]
    omega
  | error failure => simp [Call.handover?, hout, Except.toOption, Outcome.closes]; omega

/-- Every socket that was opened is in one place, a ticket has at most one, and the socket of a
failed request was closed before the request was called back. -/
structure Conserved (s : State κ τ) : Prop where
  placed : ∀ socket, s.places socket = (s.openings.map (·.2)).count socket
  ticket_once : (s.openings.map (·.1)).Nodup
  closed_first : ∀ after call before, s.record = after ++ .called call :: before →
    ∀ failure, call.outcome = .error failure →
      ∀ socket, (call.ticket, socket) ∈ s.openings → .closed socket ∈ before

theorem Conserved.quiet (h : Conserved s) (hq : Quiet s t) (hr : t.record = s.record) :
    Conserved t := by
  have hclosings : t.closings = s.closings := by rw [closings_eq, closings_eq, hr]
  refine ⟨fun socket => ?_, ?_, ?_⟩
  · rw [places, hq.entries, handovers, hq.calls, hclosings, hq.openings]
    exact h.placed socket
  · rw [hq.openings]
    exact h.ticket_once
  · rw [hr, hq.openings]
    exact h.closed_first

theorem Founded.fresh (h : Founded s) : s.tickets ∉ s.openings.map (·.1) := by
  rintro hm
  obtain ⟨o, ho, heq⟩ := List.mem_map.mp hm
  exact absurd (h.opened_lt o ho).1 (by omega)

theorem Conserved.closed_first_of_new (h : Conserved s) (hf : Founded s) (hl : Tallied s)
    {sockets : List Nat} (ho : t.openings = sockets.map (s.tickets, ·) ++ s.openings)
    {after before : List (Happening κ τ)} {call : Call κ}
    (hr : s.record = after ++ .called call :: before) {failure : Failure}
    (hfail : call.outcome = .error failure) {socket : Nat}
    (hm : (call.ticket, socket) ∈ t.openings) : .closed socket ∈ before := by
  have hcall : call ∈ s.calls := by
    rw [calls_eq, hr]
    simp
  obtain ⟨request, -, hi, -⟩ := hf.call call hcall
  have hlt := hl.ticket_lt hi
  rw [ho, List.mem_append, List.mem_map] at hm
  rcases hm with ⟨k, -, heq⟩ | hm
  · exact absurd (congrArg Prod.fst heq) (by simp; omega)
  · exact h.closed_first after call before hr failure hfail socket hm

theorem Conserved.ticket_once_of_new (h : Conserved s) (hf : Founded s) {sockets : List Nat}
    (hs : sockets = [s.sockets] ∨ sockets = [])
    (ho : t.openings = sockets.map (s.tickets, ·) ++ s.openings) :
    (t.openings.map (·.1)).Nodup := by
  rw [ho]
  rcases hs with rfl | rfl
  · exact List.nodup_cons.mpr ⟨hf.fresh, h.ticket_once⟩
  · exact h.ticket_once

theorem Conserved.answered (h : Conserved s) (hf : Founded s) (hl : Tallied s)
    {request : Request κ} {reply : Reply} {call : Call κ} {sockets : List Nat}
    (ha : Answered s request reply call t)
    (hs : sockets = [s.sockets] ∨ sockets = [] ∧ ∃ failure, call.outcome = .error failure)
    (hr : t.record = s.resolution request.destination? sockets call ++
      s.introduction request sockets ++ s.record) : Conserved t := by
  have hopen : t.openings = sockets.map (s.tickets, ·) ++ s.openings := by
    rw [openings_eq, hr, openings_eq]
    simp
  have hclosings : t.closings = call.outcome.closes sockets ++ s.closings := by
    rw [closings_eq, hr, closings_eq]
    simp
  have hok : ∀ handed, call.outcome = .ok handed → sockets = [handed.socket] := by
    intro handed hout
    rcases hs with hs | ⟨-, failure, hfail⟩
    · rcases ha.outcome with ⟨nodelay, hok, -⟩ | ⟨_, -, herr⟩ | ⟨_, -, herr⟩
      · rw [hs, Except.ok.inj (hout.symm.trans hok)]
      · simp [hout] at herr
      · simp [hout] at herr
    · simp [hout] at hfail
  refine ⟨fun socket => ?_, h.ticket_once_of_new hf (hs.imp_right And.left) hopen, ?_⟩
  · have hplaced := h.placed socket
    have hcount := places_of_call ha.calls hclosings hok socket
    rw [places] at hplaced ⊢
    rw [ha.entries, hopen, List.map_append, List.count_append, List.map_map]
    simp only [Function.comp_def, List.map_id']
    omega
  · intro after c before hrec failure hfail socket hm
    rw [hr, List.append_assoc] at hrec
    rcases called_of_resolution hrec with ⟨rfl, rfl⟩ | ⟨after', hold⟩
    · rw [ha.ticket, hopen, List.mem_append] at hm
      rcases hm with hm | hm
      · obtain ⟨k, hk, heq⟩ := List.mem_map.mp hm
        obtain rfl : k = socket := congrArg Prod.snd heq
        simp [hfail, Outcome.closes, hk]
      · exact absurd (List.mem_map_of_mem hm) hf.fresh
    · obtain ⟨after'', hold⟩ := called_of_append hold (introduction_calls s request sockets)
      exact h.closed_first_of_new hf hl hopen hold hfail hm

theorem Conserved.begun (h : Conserved s) (hf : Founded s) (hl : Tallied s) {request : Request κ}
    {token : Token} {e : Entry κ} (hb : Begun s request token e t)
    (hr : t.record = s.introduction request [s.sockets] ++ s.record) : Conserved t := by
  have hclosings : t.closings = s.closings := by
    rw [closings_eq, hr, closings_eq]
    simp
  have hopen : t.openings = [s.sockets].map (s.tickets, ·) ++ s.openings := hb.openings
  refine ⟨fun socket => ?_, h.ticket_once_of_new hf (.inl rfl) hopen, ?_⟩
  · have hplaced := h.placed socket
    rw [places] at hplaced ⊢
    rw [hb.entries, handovers, hb.calls, hclosings, hb.openings]
    simp only [List.map_append, List.count_append, List.map_cons, List.map_nil, List.count_cons,
      List.count_nil, hb.socket]
    rw [handovers] at hplaced
    omega
  · intro after call before hrec failure hfail socket hm
    rw [hr] at hrec
    obtain ⟨after', hold⟩ := called_of_append hrec (introduction_calls s request [s.sockets])
    exact h.closed_first_of_new hf hl hopen hold hfail hm

theorem Conserved.concluded (h : Conserved s) (hf : Founded s) (hreg : Registered s)
    {token : Token} {e : Entry κ} {cause : Cause} {call : Call κ} {frames : List (Frame κ τ)}
    (hc : Concluded { s with frames := frames } token e cause call t)
    (hr : t.record = s.resolution (some e.address) [e.socket] call ++ s.record) : Conserved t := by
  have hclosings : t.closings = call.outcome.closes [e.socket] ++ s.closings := by
    rw [closings_eq, hr, closings_eq]
    simp
  have hok : ∀ handed, call.outcome = .ok handed → [e.socket] = [handed.socket] := by
    intro handed hout
    have hg := hc.outcome
    rw [hout] at hg
    rw [hg.socket_eq]
  have hopen : t.openings = s.openings := hc.openings
  refine ⟨fun socket => ?_, hopen ▸ h.ticket_once, ?_⟩
  · have hplaced := h.placed socket
    have hcount := places_of_call (s := s) hc.calls hclosings hok socket
    have hperm := ((hreg.entries_perm hc.entry).map (·.2.socket)).count_eq socket
    have hent : t.entries = s.entries.filter (·.1 ≠ token) := hc.entries
    rw [places] at hplaced ⊢
    rw [hopen, hent]
    simp only [List.map_cons, List.count_cons, List.count_nil] at hperm hcount
    omega
  · intro after c before hrec failure hfail socket hm
    rw [hopen] at hm
    rw [hr] at hrec
    rcases called_of_resolution hrec with ⟨rfl, rfl⟩ | ⟨after', hold⟩
    · obtain ⟨request, -, -, -, ho⟩ := hf.entry _ (mem_entries_of_lookup (s := s) hc.entry)
      rw [hc.ticket] at hm
      obtain rfl : socket = e.socket :=
        (Prod.mk.inj (List.inj_on_of_nodup_map h.ticket_once hm ho rfl)).2
      simp [hfail, Outcome.closes]
    · exact h.closed_first after' c before hold failure hfail socket hm

theorem Conserved.emptied (h : Conserved s) (he : Emptied s t)
    (hr : t.record = s.leftovers ++ s.record) : Conserved t := by
  have hclosings : t.closings = (s.entries.map (·.2.socket)).reverse ++ s.closings := by
    rw [closings_eq, hr, closings_eq]
    simp [leftovers, Function.comp_def, ← List.map_reverse]
  refine ⟨fun socket => ?_, he.openings ▸ h.ticket_once, ?_⟩
  · have hplaced := h.placed socket
    rw [places] at hplaced ⊢
    rw [he.entries, handovers, he.calls, hclosings, he.openings]
    simp only [List.map_nil, List.count_nil, List.count_append, List.count_reverse]
    rw [handovers] at hplaced
    omega
  · intro after call before hrec failure hfail socket hm
    rw [hr] at hrec
    obtain ⟨after', hold⟩ := called_of_append hrec (by
      simp [leftovers, List.filterMap_eq_nil_iff, ← List.map_reverse])
    exact h.closed_first after' call before hold failure hfail socket (he.openings ▸ hm)

/-- One step keeps every socket in one place. -/
theorem Conserved.recorded (h : Conserved s) (hl : Lawful s) (ht : Tallied s) (hf : Founded s)
    (hr : Recorded s a t) : Conserved t := by
  cases hr with
  | quiet _ hq hr => exact h.quiet hq hr
  | answered _ ha _ hs hr => exact h.answered hf ht ha hs hr
  | begun _ hb _ hr => exact h.begun hf ht hb hr
  | concluded _ _ hc hr => exact h.concluded hf hl.registered hc hr
  | emptied _ he _ _ hr => exact h.emptied he hr

theorem Reachable.conserved (h : Reachable s) : Tallied s ∧ Founded s ∧ Conserved s := by
  induction h with
  | initial capacity nodelay =>
    exact
      ⟨⟨rfl, fun _ => Nat.le_refl 0⟩,
        { entry := fun _ h => absurd h List.not_mem_nil
          call := fun _ h => absurd h List.not_mem_nil
          opened_lt := fun _ h => absurd h List.not_mem_nil
          opened_nodup := List.nodup_nil },
        { placed := fun _ => rfl
          ticket_once := List.nodup_nil
          closed_first := fun after _ _ h => by simp [record, State.initial] at h }⟩
  | step hs ha ih =>
    obtain ⟨ht, hf, hc⟩ := ih
    have hl := hs.lawful
    obtain ⟨-, he⟩ := hl.after ha
    exact ⟨ht.effect hl.registered he, hf.effect he, hc.recorded hl ht hf (hl.recorded ha)⟩

theorem run_nil (s : State κ τ) : s.run [] = s := rfl

theorem Reachable.calls_run (h : Reachable s) {later : List (Action κ τ)} (hp : s.Possible later)
    {call : Call κ} (hc : call ∈ s.calls) : call ∈ (s.run later).calls := by
  induction later generalizing s with
  | nil => exact hc
  | cons a later ih =>
    obtain ⟨-, he⟩ := h.lawful.after hp.1
    exact ih (h.step hp.1) hp.2 (he.calls_subset call hc)

theorem Reachable.places_eq (h : Reachable s) {ticket socket : Nat}
    (ho : (ticket, socket) ∈ s.openings) : s.places socket = 1 := by
  obtain ⟨-, hf, hc⟩ := h.conserved
  rw [hc.placed]
  exact List.count_eq_one_of_mem hf.opened_nodup (List.mem_map.mpr ⟨_, ho, rfl⟩)

theorem Reachable.released (h : Reachable s) {call : Call κ} (hcall : call ∈ s.calls)
    {handed : Handed} (hok : call.outcome = .ok handed) : s.Released handed.socket := by
  obtain ⟨-, hf, -⟩ := h.conserved
  obtain ⟨request, c, -, -, -, ho⟩ := hf.call call hcall
  have hone := h.places_eq (ho handed hok)
  have hpos := List.count_pos_iff.mpr (mem_handovers.mpr ⟨call, hcall, handed, hok, rfl⟩)
  rw [places] at hone
  have hentries : handed.socket ∉ s.entries.map (·.2.socket) :=
    List.count_eq_zero.mp (by omega)
  have hclosings : handed.socket ∉ s.closings := List.count_eq_zero.mp (by omega)
  have hunowned : ∀ token e, s.entry? token = some e → e.socket ≠ handed.socket :=
    fun token e he heq =>
      hentries (List.mem_map.mpr ⟨(token, e), mem_entries_of_lookup he, heq⟩)
  refine ⟨hunowned, fun token hm => ?_, fun report hm => ?_, fun hm => ?_⟩
  · refine (h.excused _ hm fun hold => ?_).1
    obtain ⟨e, he, heq⟩ := List.mem_map.mp hold
    exact hentries (List.mem_map.mpr ⟨e, he, congrArg Prod.fst heq⟩)
  · obtain ⟨r, -, hr⟩ := List.mem_filterMap.mp hm
    obtain ⟨e, he, heq⟩ := Option.map_eq_some_iff.mp hr
    exact hunowned r.1 e he heq
  · exact hclosings (List.mem_filterMap.mpr ⟨_, hm, rfl⟩)

/-- A socket that was handed over is never registered again. -/
theorem Reachable.interests_run (h : Reachable s) {later : List (Action κ τ)}
    (hp : s.Possible later) {call : Call κ} (hcall : call ∈ s.calls) {handed : Handed}
    (hok : call.outcome = .ok handed) {token : Token}
    (hi : (handed.socket, token) ∈ (s.run later).watch.selector.interests) :
    (handed.socket, token) ∈ s.watch.selector.interests := by
  induction later generalizing s with
  | nil => exact hi
  | cons a later ih =>
    obtain ⟨-, he⟩ := h.lawful.after hp.1
    have hnext := ih (h.step hp.1) hp.2 (he.calls_subset call hcall) hi
    refine (h.lawful.interests_after hp.1 hnext).resolve_right fun heq => ?_
    obtain ⟨-, hf, -⟩ := h.conserved
    obtain ⟨request, c, -, -, -, ho⟩ := hf.call call hcall
    exact absurd heq (Nat.ne_of_lt (hf.opened_lt _ (ho handed hok)).2)

/-- In every state, also while a continuation runs and whatever panics, each socket that was opened
is owned by one attempt, was handed over once or was closed once, and that is exactly one of the
three. A failure is called back after the socket of its request was closed. A socket that is handed
over is none that the table owns or watches, and in no later state it is owned, watched, looked at,
registered or closed; the system is interested in it only as far as it refused to give it up. A
table that was given up owns none. -/
theorem Reachable.sockets_conserved (h : Reachable s) :
    (∀ ticket socket, (ticket, socket) ∈ s.openings → s.places socket = 1) ∧
    (∀ after call before failure, s.history = after ++ .called call :: before →
      call.outcome = .error failure →
        ∀ socket, (call.ticket, socket) ∈ s.openings → .closed socket ∈ before) ∧
    (∀ call ∈ s.calls, ∀ handed, call.outcome = .ok handed →
      ∀ later, s.Possible later → (s.run later).Released handed.socket ∧
        ∀ token, (handed.socket, token) ∈ (s.run later).watch.selector.interests →
          (handed.socket, token) ∈ s.watch.selector.interests) ∧
    (s.isClosed → s.entries = []) := by
  refine ⟨fun _ _ ho => h.places_eq ho, ?_, ?_, fun hc => (h.lawful.ordered.closed hc).1⟩
  · intro after call before failure hh hfail socket ho
    have hr : s.record = after.filter Happening.isWeighty ++
        .called call :: before.filter Happening.isWeighty := by
      rw [record, hh, List.filter_append, List.filter_cons_of_pos rfl]
    exact List.mem_of_mem_filter
      (h.conserved.2.2.closed_first _ _ _ hr failure hfail socket ho)
  · intro call hcall handed hok later hp
    exact ⟨(h.run hp).released (h.calls_run hp hcall) hok,
      fun token => h.interests_run hp hcall hok⟩

/-- One socket that the system refuses, one whose handshake ends well and one that is in flight when
the table is given up: each has its place, and the table is done with the second. -/
theorem sockets_conserved_at_close :
    let request : Request Nat := ⟨"127.0.0.1", 80, .ofMillis 1, some 0, some 1⟩
    let begun : Reply := { connect := some .nowInProgress }
    let s := (initial 16 false : State Nat Nat).run [
      .attempt request { connect := some .connectionRefused } .origin, .leave none,
      .attempt request begun .origin, .attempt request begun .origin,
      .poll (.ok [(0, .connected)]), .advance {}, .leave (some (.plain none)), .advance {},
      .close [], .advance {}, .leave none, .advance {}, .advance {}]
    s.isClosed ∧ (∀ socket < 3, s.places socket = 1) ∧ s.handovers = [1] ∧ s.closings = [2, 0] ∧
      s.Released 1 := by
  intro request begun s
  have hs : Reachable s := (Reachable.initial 16 false).run (by decide)
  have hopened : ∀ socket < 3, (socket, socket) ∈ s.openings := by decide
  have hcalls : 1 ∈ s.handovers := by decide
  obtain ⟨hplaces, -, hreleased, -⟩ := hs.sockets_conserved
  refine ⟨by decide, fun socket hlt => hplaces socket socket (hopened socket hlt), by decide,
    by decide, ?_⟩
  obtain ⟨call, hcall, handed, hok, heq⟩ := mem_handovers.mp hcalls
  have hdone := (hreleased call hcall handed hok [] trivial).1
  rwa [run_nil, heq] at hdone

end State

end Dialer.InFlight
