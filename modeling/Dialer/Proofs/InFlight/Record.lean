import Dialer.Proofs.InFlight.Lawful

/-!
# What an action puts on record

Some of what happens to a table matters to others: that a request was issued, that a socket was
opened or closed, that an event was published, and that a continuation was called. The rest is only
said in the log. With its effect, an action puts a fixed piece on this record: the introduction of a
request, its resolution, both, or nothing.
-/

namespace Dialer

open Address (SocketAddress)
open Readiness (Token)
open Time (Duration Instant)

/-- The address that a request is aimed at, if its target can be used. -/
def Request.destination? {κ : Type} (request : Request κ) : Option SocketAddress :=
  match Target.ofRequest request.address request.port with
  | .ok target => some target.address
  | .error _ => none

namespace InFlight

variable {κ τ : Type}

/-- Whether something that happened is put on record. -/
@[simp] def Happening.isWeighty : Happening κ τ → Bool
  | .issued _ _ => true
  | .opened _ _ => true
  | .closed _ => true
  | .published _ _ => true
  | .called _ => true
  | _ => false

/-- What is announced of an outcome. -/
def Outcome.event? (address : Option SocketAddress) : Outcome → Option Event
  | .ok _ => address.map .connected
  | .error failure => some (.failed address failure.kind)

/-- The sockets of a request that are closed for an outcome. -/
def Outcome.closes (sockets : List Nat) : Outcome → List Nat
  | .ok _ => []
  | .error _ => sockets

namespace State

variable {s t : State κ τ}

/-- What happened to a table and matters to others, the latest first. -/
def record (s : State κ τ) : List (Happening κ τ) := s.history.filter Happening.isWeighty

def receivers (s : State κ τ) (id : Nat) : Nat := (s.channels[id]?.map (·.receivers)).getD 0

/-- The channel that an event would be published on, if it has a receiver. -/
def listener? (s : State κ τ) : Option Nat := s.monitor.filter fun id => s.receivers id ≠ 0

/-- What publishing an event puts on record. -/
def announced (s : State κ τ) (event : Event) : List (Happening κ τ) :=
  s.listener?.toList.map (.published · event)

/-- What taking up a request puts on record: its issue, what is announced of it and the sockets that
are opened for it. -/
def introduction (s : State κ τ) (request : Request κ) (sockets : List Nat) :
    List (Happening κ τ) :=
  sockets.map (.opened s.tickets) ++
    (request.destination?.toList.flatMap fun a => s.announced (.attempting a)) ++
      [.issued s.tickets request]

/-- What resolving a request puts on record: the sockets of a failed one are closed, the outcome is
announced, and then the continuation is called. -/
def resolution (s : State κ τ) (address : Option SocketAddress) (sockets : List Nat)
    (call : Call κ) : List (Happening κ τ) :=
  .called call :: ((call.outcome.event? address).toList.flatMap s.announced ++
    (call.outcome.closes sockets).map .closed)

/-- What giving the table up puts on record: the sockets of the attempts in it are closed. -/
def leftovers (s : State κ τ) : List (Happening κ τ) :=
  (s.entries.map fun e => .closed e.2.socket).reverse

section Small

variable (s : State κ τ) (h : Happening κ τ) (event e : Event) (ticket socket : Nat)

@[simp] theorem note_record :
    (s.note h).record = if h.isWeighty then h :: s.record else s.record := by
  simp [record, List.filter_cons]

@[simp] theorem note_listener? : (s.note h).listener? = s.listener? := rfl

@[simp] theorem closeSocket_record : (s.closeSocket socket).record = .closed socket :: s.record :=
  rfl

@[simp] theorem closeSocket_listener? : (s.closeSocket socket).listener? = s.listener? := rfl

@[simp] theorem openSocket_record :
    (s.openSocket ticket).record = .opened ticket s.sockets :: s.record := rfl

@[simp] theorem openSocket_listener? : (s.openSocket ticket).listener? = s.listener? := rfl

@[simp] theorem call_record (call : Call κ) : (s.call call).record = .called call :: s.record := rfl

@[simp] theorem issue_record (request : Request κ) :
    (s.issue request).record = .issued s.tickets request :: s.record := rfl

@[simp] theorem issue_listener? (request : Request κ) :
    (s.issue request).listener? = s.listener? := rfl

@[simp] theorem issue_sockets (request : Request κ) : (s.issue request).sockets = s.sockets := rfl

@[simp] theorem allocate_record : s.allocate.2.record = s.record := rfl

@[simp] theorem allocate_listener? : s.allocate.2.listener? = s.listener? := rfl

theorem listener?_eq_some {id : Nat} : s.listener? = some id ↔
    s.monitor = some id ∧ ∃ channel, s.channels[id]? = some channel ∧ channel.receivers ≠ 0 := by
  rw [listener?, Option.filter_eq_some_iff, receivers]
  refine and_congr_right fun _ => ?_
  cases s.channels[id]? <;> simp

theorem publish_of_listener {id : Nat} (hl : s.listener? = some id) :
    ∃ channel, s.channels[id]? = some channel ∧ s.publish event =
      { s with channels := s.channels.set id ⟨channel.queue ++ [event], channel.receivers⟩ }.note
        (.published id event) := by
  obtain ⟨hm, channel, hc, hr⟩ := (listener?_eq_some s).mp hl
  exact ⟨channel, hc, by simp [publish, hm, hc, Channel.send, hr, Except.toOption]⟩

theorem publish_of_none (hl : s.listener? = none) :
    s.publish event = s ∨ s.publish event = { s with monitor := none }.note .detached := by
  cases hm : s.monitor with
  | none => exact .inl (by simp [publish, hm])
  | some id =>
    refine .inr ?_
    cases hc : s.channels[id]? with
    | none => simp [publish, hm, hc]
    | some channel =>
      have hr : channel.receivers = 0 := by
        by_contra hr
        simp [(listener?_eq_some s).mpr ⟨hm, channel, hc, hr⟩] at hl
      simp [publish, hm, hc, Channel.send, hr, Except.toOption]

theorem publish_spec :
    (s.publish event).record = s.announced event ++ s.record ∧
      (s.publish event).listener? = s.listener? ∧ (s.publish event).receivers = s.receivers ∧
        (s.publish event).channels.length = s.channels.length := by
  cases hl : s.listener? with
  | some id =>
    obtain ⟨channel, hc, hp⟩ := publish_of_listener s event hl
    obtain ⟨hlt, -⟩ := List.getElem?_eq_some_iff.mp hc
    have hset : (s.publish event).channels =
        s.channels.set id ⟨channel.queue ++ [event], channel.receivers⟩ := by rw [hp]; rfl
    have hr : (s.publish event).receivers = s.receivers := by
      funext k
      rw [receivers, receivers, hset]
      by_cases hk : id = k
      · subst hk
        rw [List.getElem?_set_self hlt, hc]
        rfl
      · rw [List.getElem?_set_ne hk]
    refine ⟨by rw [hp, announced, hl]; rfl, ?_, hr, by rw [hset, List.length_set]⟩
    have hm : (s.publish event).monitor = s.monitor := by rw [hp]; rfl
    rw [← hl, listener?, listener?, hm, hr]
  | none =>
    have hnone : s.announced event = [] := by rw [announced, hl]; rfl
    rcases publish_of_none s event hl with hp | hp
    · rw [hp, hnone]
      exact ⟨rfl, hl, rfl, rfl⟩
    · rw [hp, hnone]
      exact ⟨rfl, rfl, rfl, rfl⟩

@[simp] theorem publish_record : (s.publish event).record = s.announced event ++ s.record :=
  (publish_spec s event).1

@[simp] theorem publish_listener? : (s.publish event).listener? = s.listener? :=
  (publish_spec s event).2.1

end Small

/-- What an action does to the attempts, with what it puts on record. -/
inductive Recorded (s : State κ τ) (a : Action κ τ) (t : State κ τ) : Prop
  | quiet (hn : a.request? = none) (h : Quiet s t) (hr : t.record = s.record)
  | answered {request : Request κ} {reply : Reply} {now : Instant} {call : Call κ}
      {sockets : List Nat} {event : Event} (ha : a = .attempt request reply now)
      (h : Answered s request reply call t)
      (he : call.outcome.event? request.destination? = some event)
      (hs : sockets = [s.sockets] ∨ sockets = [] ∧ ∃ failure, call.outcome = .error failure)
      (hr : t.record = s.resolution request.destination? sockets call ++
        s.introduction request sockets ++ s.record)
  | begun {request : Request κ} {reply : Reply} {now : Instant} {token : Token} {e : Entry κ}
      (ha : a = .attempt request reply now) (h : Begun s request token e t)
      (hd : request.destination? = some e.address)
      (hr : t.record = s.introduction request [s.sockets] ++ s.record)
  | concluded {release : Release} {token : Token} {cause : Cause}
      {batch : List (Token × Cause)} {rest : List (Frame κ τ)} {e : Entry κ} {call : Call κ}
      (ha : a = .advance release) (hf : s.frames = .settling ((token, cause) :: batch) :: rest)
      (h : Concluded { s with frames := .settling batch :: rest } token e cause call t)
      (hr : t.record = s.resolution (some e.address) [e.socket] call ++ s.record)
  | emptied (hn : a.request? = none) (h : Emptied s t) (hc : .closing ∈ s.frames)
      (hwhy : s.tokens = [] ∨ ∃ text next, a = .leave (some (.volatile text next)))
      (hr : t.record = s.leftovers ++ s.record)

theorem event?_some (a : SocketAddress) (outcome : Outcome) :
    ∃ event, outcome.event? (some a) = some event := by
  cases outcome <;> exact ⟨_, rfl⟩

/-- Nothing that is put on record is missed by a view of what matters. -/
theorem filterMap_record {α : Type} {view : Happening κ τ → Option α}
    (hv : ∀ h, h.isWeighty = false → view h = none) :
    s.record.filterMap view = s.history.filterMap view := by
  rw [record, List.filterMap_filter]
  refine List.filterMap_congr fun h _ => ?_
  cases hw : h.isWeighty
  · simp [hv h hw]
  · simp

theorem calls_eq : s.calls = s.record.filterMap Happening.call? :=
  (filterMap_record fun h hw => by cases h <;> simp_all).symm

section Views

variable {α : Type} {view : Happening κ τ → Option α}

theorem introduction_filterMap (s : State κ τ) (request : Request κ) (sockets : List Nat)
    (hv : ∀ id event, view (.published id event) = none) :
    (s.introduction request sockets).filterMap view =
      sockets.filterMap (fun socket => view (.opened s.tickets socket)) ++
        (view (.issued s.tickets request)).toList := by
  have hnone : ∀ event, (s.announced event).filterMap view = [] := fun event => by
    simp [announced, hv]
  cases hi : view (.issued s.tickets request) <;>
    simp [introduction, List.filterMap_flatMap, hnone, hi]

theorem resolution_filterMap (s : State κ τ) (address : Option SocketAddress) (sockets : List Nat)
    (call : Call κ) (hv : ∀ id event, view (.published id event) = none) :
    (s.resolution address sockets call).filterMap view =
      (view (.called call)).toList ++
        (call.outcome.closes sockets).filterMap fun socket => view (.closed socket) := by
  have hnone : ∀ event, (s.announced event).filterMap view = [] := fun event => by
    simp [announced, hv]
  cases hi : view (.called call) <;>
    simp [resolution, List.filterMap_flatMap, hnone, hi]

@[simp] theorem introduction_calls (s : State κ τ) (request : Request κ) (sockets : List Nat) :
    (s.introduction request sockets).filterMap Happening.call? = [] := by
  rw [introduction_filterMap s request sockets fun _ _ => rfl]
  simp

@[simp] theorem resolution_calls (s : State κ τ) (address : Option SocketAddress)
    (sockets : List Nat) (call : Call κ) :
    (s.resolution address sockets call).filterMap Happening.call? = [call] := by
  rw [resolution_filterMap s address sockets call fun _ _ => rfl]
  simp

theorem called_of_append {news old after before : List (Happening κ τ)} {call : Call κ}
    (h : news ++ old = after ++ .called call :: before)
    (hn : news.filterMap Happening.call? = []) :
    ∃ after', old = after' ++ .called call :: before := by
  rcases List.append_eq_append_iff.mp h with ⟨after', -, hold⟩ | ⟨rest, hnews, hold⟩
  · exact ⟨after', hold⟩
  · cases rest with
    | nil => exact ⟨[], hold.symm⟩
    | cons x rest =>
      obtain rfl : .called call = x := (List.cons.inj hold).1
      rw [hnews] at hn
      simp at hn

theorem called_of_resolution {address : Option SocketAddress} {sockets : List Nat}
    {old after before : List (Happening κ τ)} {c call : Call κ}
    (h : s.resolution address sockets c ++ old = after ++ .called call :: before) :
    (call = c ∧ before = (c.outcome.event? address).toList.flatMap s.announced ++
        (c.outcome.closes sockets).map .closed ++ old) ∨
      ∃ after', old = after' ++ .called call :: before := by
  cases after with
  | nil =>
    obtain ⟨hc, hb⟩ := List.cons.inj h
    obtain rfl : c = call := Happening.called.inj hc
    exact .inl ⟨rfl, hb.symm⟩
  | cons x after =>
    refine .inr (called_of_append (List.cons.inj h).2 ?_)
    have hcalls : c :: List.filterMap Happening.call? _ = [c] :=
      resolution_calls s address sockets c
    exact (List.cons.inj hcalls).2

end Views

section Attempt

variable {request : Request κ} {reply : Reply} {now : Instant} {c : Continuations κ}
  {r : Option Token × State κ τ}

theorem Attempted.answered_of_record (h : Attempted s request reply r) {call : Call κ}
    {address : Option SocketAddress} {sockets : List Nat}
    (hr : r.2.record = s.resolution address sockets call ++ s.introduction request sockets ++
      s.record) : Answered s request reply call r.2 := by
  have hcalls : r.2.calls = call :: s.calls := by
    rw [calls_eq, hr, calls_eq]
    simp
  obtain ⟨-, ⟨-, call', ha⟩ | ⟨token, e, -, hb⟩⟩ := h
  · obtain rfl : call' = call := (List.cons.inj (ha.calls.symm.trans hcalls)).1
    exact ha
  · exact absurd (hb.calls.symm.trans hcalls).symm (List.cons_ne_self _ _)

theorem Attempted.begun_of_record (h : Attempted s request reply r) {sockets : List Nat}
    (hr : r.2.record = s.introduction request sockets ++ s.record) :
    ∃ token e, Begun s request token e r.2 := by
  have hcalls : r.2.calls = s.calls := by
    rw [calls_eq, hr, calls_eq]
    simp
  obtain ⟨-, ⟨-, call', ha⟩ | ⟨token, e, -, hb⟩⟩ := h
  · exact absurd (hcalls.symm.trans ha.calls).symm (List.cons_ne_self _ _)
  · exact ⟨token, e, hb⟩

theorem fail_record (ticket : Nat) (c : Continuations κ) (address : Option SocketAddress)
    (failure : Failure) :
    (s.fail ticket c address failure).record = .called (failureCall ticket c failure) ::
      (s.announced (.failed address failure.kind) ++ s.record) := by
  simp [fail_eq]

theorem handOff_record (ticket : Nat) (c : Continuations κ) (address : SocketAddress)
    (socket : Nat) (preparation : Option Fault) :
    ∃ nodelay, (s.handOff ticket c address socket preparation).record =
      .called (successCall ticket c ⟨socket, nodelay⟩) ::
        (s.announced (.connected address) ++ s.record) := by
  obtain ⟨nodelay, t, ht, heq⟩ := handOff_eq (s := s) ticket c address socket preparation
  refine ⟨nodelay, ?_⟩
  rw [heq]
  rcases ht with rfl | ⟨fault, rfl⟩ <;> simp [announced]

theorem Attempted.recorded (h : Attempted s request reply r) (call : Call κ) (sockets : List Nat)
    {event : Event} (he : call.outcome.event? request.destination? = some event)
    (hs : sockets = [s.sockets] ∨ sockets = [] ∧ ∃ failure, call.outcome = .error failure)
    (hr : r.2.record = s.resolution request.destination? sockets call ++
      s.introduction request sockets ++ s.record) :
    Recorded s (.attempt request reply now) r.2 :=
  .answered rfl (h.answered_of_record hr) he hs hr

/-- An attempt whose handshake is under way gets into the table, unless the system refuses to watch
its socket. -/
theorem Registered.track_recorded (h : Registered s) (hroom : s.hasRoom) {address : SocketAddress}
    (hd : request.destination? = some address) {u : State κ τ} (hu : Issued s request u)
    (hr : Registered u) (hl : u.listener? = s.listener?)
    (hrec : u.record = s.introduction request [s.sockets] ++ s.record)
    (ha : Attempted s request reply
      (u.track s.tickets c address request.timeout s.sockets reply.registration now)) :
    Recorded s (.attempt request reply now)
      (u.track s.tickets c address request.timeout s.sockets reply.registration now).2 := by
  cases hreg : reply.registration with
  | some fault =>
    rw [hreg] at ha
    refine ha.recorded (failureCall s.tickets c (.connectFailed fault)) [s.sockets] rfl
      (.inl rfl) ?_
    simp [track_refused, fail_record, resolution, announced, hl, hd, hrec, Outcome.event?,
      Outcome.closes]
  | none =>
    rw [hreg] at ha
    have hroom' : u.hasRoom := by rwa [hasRoom, hu.entries]
    obtain ⟨watch, -, heq⟩ := hr.track_eq hroom' (hu.interests ▸ h.interest_free) s.tickets address
      request.timeout c now
    rw [heq] at ha ⊢
    obtain ⟨token, e, hb⟩ := ha.begun_of_record hrec
    -- The attempt that the effect speaks of is the one that was put into the table.
    have hone : s.entries ++ _ = s.entries ++ [(token, e)] := hu.entries ▸ hb.entries
    obtain ⟨-, rfl⟩ := Prod.mk.inj (List.cons.inj (List.append_cancel_left hone)).1
    exact .begun rfl hb hd hrec

theorem Registered.attempt_recorded (h : Registered s) (hroom : s.hasRoom)
    (hc : request.continuations? = some c) (reply : Reply) (now : Instant) :
    Recorded s (.attempt request reply now) (s.attempt request reply now).2 := by
  have ha := h.attempt_complete hroom hc reply now
  cases ht : Target.ofRequest request.address request.port with
  | error error =>
    have hd : request.destination? = none := by simp [Request.destination?, ht]
    rw [attempt_unusable hc ht] at ha ⊢
    refine ha.recorded (failureCall s.tickets c
      (.connectFailed (.custom .invalidInput (.target error)))) [] rfl (.inr ⟨rfl, _, rfl⟩) ?_
    simp [fail_record, resolution, introduction, announced, hd, Outcome.event?, Outcome.closes]
  | ok target =>
    have hd : request.destination? = some target.address := by simp [Request.destination?, ht]
    have hs : ((s.issue request).publish (.attempting target.address)).sockets = s.sockets := by
      simp
    rw [attempt_usable hc ht] at ha ⊢
    simp only [dial, hs] at ha ⊢
    cases hdial : reply.dialled with
    | unmade fault =>
      simp only [hdial] at ha ⊢
      refine ha.recorded (failureCall s.tickets c (.connectFailed fault)) [] rfl
        (.inr ⟨rfl, _, rfl⟩) ?_
      simp [fail_record, resolution, introduction, announced, hd, Outcome.event?, Outcome.closes]
    | rejected fault =>
      simp only [hdial] at ha ⊢
      refine ha.recorded (failureCall s.tickets c (.connectFailed fault)) [s.sockets] rfl
        (.inl rfl) ?_
      simp [fail_record, resolution, introduction, announced, hd, Outcome.event?, Outcome.closes]
    | established =>
      simp only [hdial] at ha ⊢
      obtain ⟨nodelay, hr⟩ := handOff_record (s := (((s.issue request).publish
        (.attempting target.address)).openSocket s.tickets).note (.immediate target.address))
          s.tickets c target.address s.sockets reply.preparation
      refine ha.recorded (successCall s.tickets c ⟨s.sockets, nodelay⟩) [s.sockets]
        (by rw [hd]; rfl) (.inl rfl) ?_
      rw [hr]
      simp [resolution, introduction, announced, hd, Outcome.event?, Outcome.closes]
    | inProgress =>
      simp only [hdial] at ha ⊢
      obtain ⟨hi, -, -⟩ := issued_open s request (.attempting target.address)
      refine h.track_recorded hroom hd hi (((h.issue request).publish _).openSocket _) ?_ ?_ ha
      · simp
      · simp [introduction, announced, hd]

end Attempt

section Resolve

variable {token : Token} {e : Entry κ} {cause : Cause}

theorem Concluded.of_record {call call' : Call κ} (h : Concluded s token e cause call t)
    {address : Option SocketAddress} {sockets : List Nat}
    (hr : t.record = s.resolution address sockets call' ++ s.record) : call = call' := by
  have hcalls : t.calls = call' :: s.calls := by
    rw [calls_eq, hr, calls_eq]
    simp
  exact (List.cons.inj (h.calls.symm.trans hcalls)).1

theorem Registered.resolve_recorded (h : Registered s) (he : s.entry? token = some e)
    (cause : Cause) (release : Release) :
    ∃ call, Concluded s token e cause call (s.resolve token cause release) ∧
      (s.resolve token cause release).record =
        s.resolution (some e.address) [e.socket] call ++ s.record := by
  obtain ⟨-, call, hcon⟩ := h.resolve he cause release
  have hrec : (s.untrack token e release.removal).record = s.record ∧
      (s.untrack token e release.removal).listener? = s.listener? := by
    rw [h.untrack_eq he]
    cases release.removal <;> exact ⟨rfl, rfl⟩
  obtain ⟨hrec, hl⟩ := hrec
  -- What was said so far fixes the call.
  have hfix : ∀ call', (s.resolve token cause release).record =
      s.resolution (some e.address) [e.socket] call' ++ s.record →
        ∃ call, Concluded s token e cause call (s.resolve token cause release) ∧
          (s.resolve token cause release).record =
            s.resolution (some e.address) [e.socket] call ++ s.record := by
    intro call' hr
    obtain rfl := hcon.of_record hr
    exact ⟨call, hcon, hr⟩
  cases cause with
  | established =>
    obtain ⟨nodelay, hr⟩ := handOff_record
      (s := (s.untrack token e release.removal).note (.established e.address))
      e.ticket e.continuations e.address e.socket release.preparation
    refine hfix (successCall e.ticket e.continuations ⟨e.socket, nodelay⟩) ?_
    simp only [State.resolve, he]
    rw [hr]
    simp [resolution, announced, hrec, hl, Outcome.event?, Outcome.closes]
  | broken fault =>
    refine hfix (failureCall e.ticket e.continuations (.connectFailed fault)) ?_
    simp [State.resolve, he, fail_record, resolution, announced, hrec, hl, Outcome.event?,
      Outcome.closes]
  | timedOut =>
    refine hfix (failureCall e.ticket e.continuations (.timeout e.timeout)) ?_
    simp [State.resolve, he, fail_record, resolution, announced, hrec, hl, Outcome.event?,
      Outcome.closes]
  | aborted =>
    refine hfix (failureCall e.ticket e.continuations .aborted) ?_
    simp [State.resolve, he, fail_record, resolution, announced, hrec, hl, Outcome.event?,
      Outcome.closes]

end Resolve

theorem shut_record (s : State κ τ) : s.shut.record = s.leftovers ++ s.record := by
  have hfold : ∀ (entries : List (Token × Entry κ)) (t : State κ τ),
      (entries.foldl (fun s e => s.closeSocket e.2.socket) t).record =
        (entries.map fun e => .closed e.2.socket).reverse ++ t.record := by
    intro entries
    induction entries with
    | nil => exact fun t => rfl
    | cons e entries ih =>
      intro t
      rw [List.foldl_cons, ih]
      simp
  exact hfold s.entries s

/-- A panic puts nothing on record, unless it goes all the way through the giving up of a table. -/
theorem unwind_record (panic : Panic) (frames : List (Frame κ τ)) (s : State κ τ)
    (hlast : ∀ pre post, frames = pre ++ .closing :: post → post = []) :
    ((unwind panic frames s).record = s.record ∧
        (.closing ∈ frames → (unwind panic frames s).frames ≠ [])) ∨
      ((unwind panic frames s).record = s.leftovers ++ s.record ∧ .closing ∈ frames ∧
        (unwind panic frames s).frames = []) := by
  induction frames generalizing panic s with
  | nil => exact .inl ⟨rfl, fun h => absurd h List.not_mem_nil⟩
  | cons f rest ih =>
    have hrest : ∀ pre post, rest = pre ++ .closing :: post → post = [] :=
      fun pre post he => hlast (f :: pre) post (by simp [he])
    have hmem : f ≠ .closing → (.closing ∈ f :: rest ↔ .closing ∈ rest) := fun hne => by
      simp [hne.symm]
    -- Foreign code contains the panic, and what is below it stays.
    have hstays : .closing ∈ rest → rest ≠ [] := List.ne_nil_of_mem
    cases f with
    | settling batch =>
      rw [hmem (by simp)]
      exact ih panic s hrest
    | draining taken =>
      rw [hmem (by simp)]
      exact ih panic s hrest
    | task job =>
      rw [hmem (by simp)]
      cases panic with
      | plain text => exact .inl ⟨rfl, hstays⟩
      | volatile text next => exact ih next _ hrest
    | calling call =>
      rw [hmem (by simp)]
      cases panic with
      | plain text => exact .inl ⟨rfl, hstays⟩
      | volatile text next => exact ih next _ hrest
    | closing =>
      obtain rfl := hlast [] rest rfl
      exact .inr ⟨shut_record s, List.mem_cons_self, rfl⟩

/-- A panic that goes through the giving up of a table leaves nothing in it. -/
theorem emptied_of_unwind {panic : Panic} {frames : List (Frame κ τ)}
    (hlast : ∀ pre post, frames = pre ++ .closing :: post → post = []) (hm : .closing ∈ frames)
    (hnil : (unwind panic frames s).frames = []) : Emptied s (unwind panic frames s) := by
  rcases unwind_cases panic frames s hlast with ⟨pre, f, hf, hpre, heq, -⟩ | ⟨-, -, -, hin⟩
  · rw [hnil] at heq
    rw [heq, List.mem_append, List.mem_singleton] at hm
    rcases hm with hm | rfl
    · exact absurd hm hpre
    · exact absurd hf (by simp [Frame.isForeign])
  · exact hin hm

theorem Lawful.leave_recorded (h : Lawful s) (hn : s.isForeign) (panic : Option Panic) :
    Recorded s (.leave panic) (s.leave panic) := by
  obtain ⟨g, rest, hs, hg⟩ := isForeign_iff.mp hn
  have hlast : ∀ pre post, s.frames = pre ++ .closing :: post → post = [] :=
    fun pre post => h.ordered.stacked.closing_last
  rcases panic with _ | (text | ⟨text, next⟩)
  · exact .quiet rfl (.withFrames s _) rfl
  · have hq : Quiet s (s.leave (some (.plain text))) := (leave_innermost hs hg (by simp)).1
    obtain ⟨site, heq⟩ := unwind_plain hg text rest s
    exact .quiet rfl hq (by rw [State.leave, hs, heq]; rfl)
  · rcases unwind_record (.volatile text next) s.frames s hlast with
      ⟨hrec, hstays⟩ | ⟨hrec, hm, hnil⟩
    · rcases unwind_cases (.volatile text next) s.frames s hlast with
        ⟨-, -, -, -, -, hq, -⟩ | ⟨hnil, -, hout, -⟩
      · exact .quiet rfl hq hrec
      · exact .quiet rfl (hout fun hm => hstays hm hnil) hrec
    · exact .emptied rfl (emptied_of_unwind hlast hm hnil) hm (.inr ⟨text, next, rfl⟩) hrec

theorem takeTask_record (s : State κ τ) : s.takeTask.2.record = s.record := by
  unfold takeTask
  cases s.watch.nextTask? <;> rfl

theorem Lawful.advance_recorded (h : Lawful s) (hf : s.frames ≠ []) (hn : ¬ s.isForeign)
    (release : Release) : Recorded s (.advance release) (s.advance release) := by
  obtain ⟨f, rest, hs⟩ := List.exists_cons_of_ne_nil hf
  cases f with
  | settling batch =>
    cases batch with
    | nil =>
      have hadv : s.advance release = { s with frames := rest } := by
        simp only [State.advance, hs]
      exact hadv ▸ .quiet rfl (.withFrames s rest) rfl
    | cons item batch =>
      obtain ⟨token, cause⟩ := item
      have hadv : s.advance release =
          { s with frames := .settling batch :: rest }.resolve token cause release := by
        simp only [State.advance, hs]
      have hr := (Quiet.withFrames s (.settling batch :: rest)).registered_of h.registered
      rw [hadv]
      cases he : s.entry? token with
      | none =>
        rw [resolve_missing (s := { s with frames := .settling batch :: rest }) he]
        exact .quiet rfl (.withFrames s _) rfl
      | some e =>
        obtain ⟨call, hcon, hrec⟩ := hr.resolve_recorded he cause release
        exact .concluded rfl hs hcon hrec
  | draining taken =>
    refine .quiet rfl (h.advance_draining hs release).1 ?_
    cases ht : s.takeTask with
    | mk task t =>
      have hrec : t.record = s.record := by simpa [ht] using takeTask_record s
      cases task <;> simp only [State.advance, hs, ht] <;> exact hrec
  | closing =>
    obtain rfl : rest = [] := h.ordered.stacked.closing_last (show s.frames = [] ++ _ from hs)
    have hadv : s.advance release = { s.shut with frames := [] } := by
      simp only [State.advance, hs]
    rw [hadv]
    have hcovered := h.ordered.closing (by simp [hs])
    exact .emptied rfl ((emptied_shut s).quiet (.withFrames _ _)) (by simp [hs])
      (.inl (hcovered.tokens_eq_nil (by rw [hs]; rfl))) (shut_record s)
  | task job => exact absurd (isForeign_iff.mpr ⟨_, _, hs, rfl⟩) hn
  | calling call => exact absurd (isForeign_iff.mpr ⟨_, _, hs, rfl⟩) hn

/-- A view that overlooks reports of unfinished handshakes, however many come. -/
theorem foldl_spurious {α : Type} {view : State κ τ → α}
    (hv : ∀ s token, view (s.note (.spurious token)) = view s) (tokens : List Token)
    (s : State κ τ) : view (tokens.foldl (fun s token => s.note (.spurious token)) s) = view s := by
  induction tokens generalizing s with
  | nil => rfl
  | cons token tokens ih => exact (ih (s.note (.spurious token))).trans (hv s token)

theorem poll_record (s : State κ τ) (report : Except Fault (List (Token × Verdict))) :
    (s.poll report).2.record = s.record := by
  cases report with
  | ok report =>
    have hsame := @foldl_spurious κ τ _ record (fun _ _ => rfl) (s.spurious report) s
    exact hsame
  | error fault =>
    simp only [poll]
    split <;> rfl

theorem abort_record (s : State κ τ) (order : List Token) :
    (s.abort order).2.record = s.record := by
  simp only [abort]
  split <;> rfl

theorem close_record (s : State κ τ) (order : List Token) :
    (s.close order).record = s.record := by
  simp only [close]
  split
  · rfl
  · exact abort_record _ order

theorem enqueue_record (s : State κ τ) (task : τ) :
    (s.after (.enqueue task)).record = s.record := by
  simp only [after, enqueue]
  cases s.watch.enqueue task <;> rfl

/-- One step: what an action does to the attempts and what it puts on record go together. -/
theorem Lawful.recorded (h : Lawful s) {a : Action κ τ} (ha : a.Enabled s) :
    Recorded s a (s.after a) := by
  cases a with
  | attempt request reply now =>
    obtain ⟨-, -, hroom⟩ := ha
    cases hc : request.continuations? with
    | none =>
      simp only [State.after, attempt_incomplete hc]
      exact .quiet (by simp [Action.request?, hc]) (.note s rfl rfl rfl) rfl
    | some c => exact h.registered.attempt_recorded hroom hc reply now
  | poll report =>
    have hq := (h.poll (rests_of_isFree h.ordered.stacked ha.1) ha.2 report).2
    exact .quiet rfl hq (poll_record s report)
  | expire now order => exact .quiet rfl (.push s _) rfl
  | abort order => exact .quiet rfl (quiet_abort s order) (abort_record s order)
  | drain => exact .quiet rfl (.push s _) rfl
  | close order => exact .quiet rfl (quiet_close s order) (close_record s order)
  | advance release => exact h.advance_recorded (by simpa using ha.1) ha.2 release
  | leave panic => exact h.leave_recorded ha panic
  | enqueue task => exact .quiet rfl (quiet_enqueue s task).1 (enqueue_record s task)
  | takeTask => exact .quiet rfl (quiet_takeTask s).1 (takeTask_record s)
  | becomeReady socket => exact .quiet rfl (quiet_becomeReady s socket) rfl
  | watchOn monitor => exact .quiet rfl (.withMonitor s monitor) rfl
  | openChannel => exact .quiet rfl (.withChannels s _) rfl
  | addReceiver id => exact .quiet rfl (.withChannels s _) rfl
  | dropReceiver id => exact .quiet rfl (.withChannels s _) rfl
  | receive id => exact .quiet rfl (.withChannels s _) rfl

end State

end InFlight

end Dialer
