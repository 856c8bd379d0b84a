import Dialer.Proofs.InFlight.Deciding
import Dialer.Proofs.InFlight.Settling
import Dialer.Proofs.InFlight.Sockets

/-!
# The ways out of issuing a request

There are six ways out of issuing a request: a continuation is missing, the target cannot be used,
the socket is not made or the connect rejected, the connect is over at once, the socket is not
watched, or the attempt is in flight. Only the last one changes the table, and it does so in all
three places where an attempt is known. The others leave these as they were, also while the one
continuation runs that is called, and whatever becomes of it.
-/

namespace Dialer.InFlight.State

open Readiness (Token wakeToken)
open Time (Instant)

variable {κ τ : Type} {s t : State κ τ} {request : Request κ} {reply : Reply} {now : Instant}
  {c : Continuations κ}

/-- The ways out of issuing a request, each with the answer and with what is left behind. Two of the
six are one here: the system made no socket or rejected the connect, or it refused to watch the
socket. -/
inductive WayOut (s : State κ τ) (request : Request κ) (reply : Reply) (now : Instant) :
    Option Token → State κ τ → Prop
  | ignored (hc : request.continuations? = none) : WayOut s request reply now none (s.note .ignored)
  | unusable {error : TargetError} {c : Continuations κ} {t : State κ τ}
      (ht : Target.ofRequest request.address request.port = .error error)
      (h : Answered s request reply
        (failureCall s.tickets c (.connectFailed (.custom .invalidInput (.target error)))) t)
      (hr : t.record = s.resolution none [] (failureCall s.tickets c
        (.connectFailed (.custom .invalidInput (.target error)))) ++
          s.introduction request [] ++ s.record) :
      WayOut s request reply now none t
  | failed {target : Target} {fault : Fault} {c : Continuations κ} {t : State κ τ}
      (ht : Target.ofRequest request.address request.port = .ok target)
      (hf : reply.fault? = some fault)
      (h : Answered s request reply (failureCall s.tickets c (.connectFailed fault)) t) :
      WayOut s request reply now none t
  | established {target : Target} {call : Call κ} {t : State κ τ}
      (ht : Target.ofRequest request.address request.port = .ok target)
      (hd : reply.dialled = .established) (h : Answered s request reply call t) :
      WayOut s request reply now none t
  | underWay {target : Target} {token : Token} {c : Continuations κ} {t : State κ τ}
      (ht : Target.ofRequest request.address request.port = .ok target)
      (hd : reply.dialled = .inProgress) (hr : reply.registration = none)
      (h : Begun s request token
        ⟨s.tickets, s.sockets, target.address, now, request.timeout, c⟩ t) :
      WayOut s request reply now (some token) t

theorem Registered.wayOut_inProgress (h : Registered s) (hroom : s.hasRoom) {target : Target}
    (hc : request.continuations? = some c)
    (ht : Target.ofRequest request.address request.port = .ok target)
    (hd : reply.dialled = .inProgress) {u : State κ τ} (hu : Issued s request u)
    (hr : Registered u) {r : Option Token × State κ τ}
    (heq : u.track s.tickets c target.address request.timeout s.sockets reply.registration now = r)
    (ha : Attempted s request reply r) : WayOut s request reply now r.1 r.2 := by
  cases hreg : reply.registration with
  | some fault =>
    have hf : reply.fault? = some fault := by simp [Reply.fault?, hd, hreg]
    rw [hreg, track_refused] at heq
    subst heq
    exact .failed ht hf (((hu.allocate.note rfl rfl rfl).closeSocket
      (hu.interests ▸ h.interest_free)).fail hc _ (.inr ⟨fault, hf, rfl⟩))
  | none =>
    have hroom' : u.hasRoom := by rwa [hasRoom, hu.entries]
    obtain ⟨watch, -, htrack⟩ := hr.track_eq hroom' (hu.interests ▸ h.interest_free) s.tickets
      target.address request.timeout c now
    rw [hreg, htrack] at heq
    subst heq
    obtain ⟨-, ⟨hnone, -⟩ | ⟨token, e, htoken, hb⟩⟩ := ha
    · cases hnone
    · have hone : s.entries ++ _ = s.entries ++ [(token, e)] := hu.entries ▸ hb.entries
      obtain ⟨-, rfl⟩ := Prod.mk.inj (List.cons.inj (List.append_cancel_left hone)).1
      rw [htoken]
      exact .underWay ht hd hreg hb

theorem Registered.wayOut (h : Registered s) (hroom : s.hasRoom) (request : Request κ)
    (reply : Reply) (now : Instant) :
    WayOut s request reply now (s.attempt request reply now).1 (s.attempt request reply now).2 := by
  cases hc : request.continuations? with
  | none =>
    rw [attempt_incomplete hc]
    exact .ignored hc
  | some c =>
    have ha := h.attempt_complete hroom hc reply now
    have hissue := issued_issue s request
    cases ht : Target.ofRequest request.address request.port with
    | error error =>
      have hd : request.destination? = none := by simp [Request.destination?, ht]
      rw [attempt_unusable hc ht]
      refine .unusable (c := c) ht ((hissue.note rfl rfl rfl).fail hc none
        (.inl ⟨error, ht, rfl⟩)) ?_
      simp [fail_record, resolution, introduction, announced, hd, Outcome.event?, Outcome.closes]
    | ok target =>
      have hs : ((s.issue request).publish (.attempting target.address)).sockets = s.sockets := by
        simp
      have hpublish := hissue.publish (.attempting target.address)
      obtain ⟨hopen, -⟩ := issued_open s request (.attempting target.address)
      rw [attempt_usable hc ht] at ha ⊢
      simp only [dial, hs] at ha ⊢
      cases hd : reply.dialled with
      | unmade fault =>
        have hf : reply.fault? = some fault := by simp [Reply.fault?, hd]
        exact .failed ht hf ((hpublish.note rfl rfl rfl).fail hc _ (.inr ⟨fault, hf, rfl⟩))
      | rejected fault =>
        have hf : reply.fault? = some fault := by simp [Reply.fault?, hd]
        exact .failed ht hf (((hopen.closeSocket (hopen.interests ▸ h.interest_free)).note rfl rfl
          rfl).fail hc _ (.inr ⟨fault, hf, rfl⟩))
      | established =>
        have hm : (s.tickets, s.sockets) ∈ ((((s.issue request).publish
            (.attempting target.address)).openSocket s.tickets).note
              (.immediate target.address)).openings := by
          simp [List.filterMap_cons]
        obtain ⟨call, hcall⟩ := (hopen.note rfl rfl rfl).handOff hc hm target.address
          reply.preparation
        exact .established ht hd hcall
      | inProgress =>
        simp only [hd] at ha
        exact h.wayOut_inProgress hroom hc ht hd hopen (((h.issue request).publish _).openSocket _)
          rfl ha

/-! ### What the caller finds -/

/-- Every place where an attempt is known is as it was. -/
structure Untouched (s t : State κ τ) : Prop where
  entries : t.entries = s.entries
  registered : t.watch.registered = s.watch.registered
  interests : t.watch.selector.interests = s.watch.selector.interests

/-- An attempt was put under a token that was free into every place where an attempt is known, with
what its request asks for; nothing else changed there, and nothing was called back. -/
structure Tracks (s : State κ τ) (request : Request κ) (reply : Reply) (now : Instant)
    (token : Token) (t : State κ τ) : Prop where
  free : ¬ s.isPending token
  not_wake : token ≠ wakeToken
  entry : ∃ target c, Target.ofRequest request.address request.port = .ok target ∧
    request.continuations? = some c ∧ t.entries = s.entries ++
      [(token, ⟨s.tickets, s.sockets, target.address, now, request.timeout, c⟩)]
  registered : t.watch.registered = s.watch.registered ++ [token]
  interests : t.watch.selector.interests = s.watch.selector.interests ++ [(s.sockets, token)]
  issued : t.issues = (s.tickets, request) :: s.issues
  calls : t.calls = s.calls
  frames : t.frames = s.frames
  dialled : reply.dialled = .inProgress ∧ reply.registration = none

/-- A complete request was called back, once. It is a success if the connect was over at once; it is
a failure with the fault that the system answered with, or about the target, for which the system is
not asked at all. -/
structure ResolvesAtOnce (s : State κ τ) (request : Request κ) (reply : Reply) (now : Instant)
    (call : Call κ) (t : State κ τ) : Prop where
  issued : t.issues = (s.tickets, request) :: s.issues
  calls : t.calls = call :: s.calls
  frames : t.frames = .calling call :: s.frames
  ticket : call.ticket = s.tickets
  continuation : ∃ c, request.continuations? = some c ∧ call.continuation = c.select call.outcome
  success : (∃ handed, call.outcome = .ok handed) ↔
    (∃ target, Target.ofRequest request.address request.port = .ok target) ∧
      reply.dialled = .established
  socket : ∀ handed, call.outcome = .ok handed →
    handed.socket = s.sockets ∧ (s.tickets, s.sockets) ∈ t.openings
  failure : ∀ failure, call.outcome = .error failure →
    (∃ error, Target.ofRequest request.address request.port = .error error ∧
      failure = .connectFailed (.custom .invalidInput (.target error)) ∧
      t.openings = s.openings ∧ t.closings = s.closings) ∨
    ∃ target fault, Target.ofRequest request.address request.port = .ok target ∧
      reply.fault? = some fault ∧ failure = .connectFailed fault
  unasked : (∃ error, Target.ofRequest request.address request.port = .error error) ↔
    ∀ reply', s.attempt request reply' now = (none, t)

theorem Quiet.untouched (h : Quiet s t) : s.Untouched t :=
  ⟨h.entries, h.registered, h.interests⟩

theorem Registered.untouched (h : Registered s) (ht : Registered t)
    (he : t.entries = s.entries)
    (hi : t.watch.selector.interests = s.watch.selector.interests) : s.Untouched t where
  entries := he
  registered := by rw [ht.registered, h.registered, tokens, he, tokens]
  interests := hi

theorem Registered.tracks (h : Registered s) (ht : Registered t) {target : Target} {token : Token}
    (htarget : Target.ofRequest request.address request.port = .ok target)
    (hd : reply.dialled = .inProgress) (hr : reply.registration = none)
    (hb : Begun s request token
      ⟨s.tickets, s.sockets, target.address, now, request.timeout, c⟩ t) :
    s.Tracks request reply now token t where
  free := fun hp => hb.fresh (isPending_iff_mem_tokens.mp hp)
  not_wake := by
    rintro rfl
    exact ht.not_wake (by simp [tokens, hb.entries])
  entry := ⟨target, c, htarget, hb.continuations, hb.entries⟩
  registered := by rw [ht.registered, h.registered, tokens, hb.entries, List.map_append]; rfl
  interests := hb.interests
  issued := hb.issues
  calls := hb.calls
  frames := hb.frames
  dialled := ⟨hd, hr⟩

theorem attempt_unmade (s : State κ τ) (now : Instant) {target : Target}
    (hc : request.continuations? = some c)
    (ht : Target.ofRequest request.address request.port = .ok target) (fault : Fault) :
    (s.attempt request { creation := some fault } now).2.calls =
      failureCall s.tickets c (.connectFailed fault) :: s.calls := by
  have hissued := ((issued_issue s request).publish (.attempting target.address)).note
    (x := .rejected target.address fault) rfl rfl rfl
  have ha : Answered s request { creation := some fault } _ _ :=
    hissued.fail hc (some target.address) (.inr ⟨fault, rfl, rfl⟩)
  rw [attempt_usable hc ht]
  exact ha.calls

theorem unasked_iff (hc : request.continuations? = some c)
    {r : Option Token × State κ τ} (hr : s.attempt request reply now = r) :
    (∃ error, Target.ofRequest request.address request.port = .error error) ↔
      ∀ reply', s.attempt request reply' now = r := by
  constructor
  · rintro ⟨error, ht⟩ reply'
    rw [← hr, attempt_unusable hc ht, attempt_unusable hc ht]
  · intro hall
    cases ht : Target.ofRequest request.address request.port with
    | error error => exact ⟨error, rfl⟩
    | ok target =>
      -- Two faults of the system are told apart by the call that they end in.
      have h₁ := attempt_unmade s now hc ht .tooManyOpenFiles
      have h₂ := attempt_unmade s now hc ht .networkUnreachable
      rw [hall] at h₁ h₂
      have hone := congrArg Call.outcome (List.cons.inj (h₁.symm.trans h₂)).1
      simp [Fault.tooManyOpenFiles, Fault.networkUnreachable] at hone

theorem Answered.resolvesAtOnce {call : Call κ} (h : Answered s request reply call t)
    (heq : s.attempt request reply now = (none, t))
    (hsuccess : (∃ handed, call.outcome = .ok handed) ↔
      (∃ target, Target.ofRequest request.address request.port = .ok target) ∧
        reply.dialled = .established)
    (hfailure : ∀ failure, call.outcome = .error failure →
      (∃ error, Target.ofRequest request.address request.port = .error error ∧
        failure = .connectFailed (.custom .invalidInput (.target error)) ∧
        t.openings = s.openings ∧ t.closings = s.closings) ∨
      ∃ target fault, Target.ofRequest request.address request.port = .ok target ∧
        reply.fault? = some fault ∧ failure = .connectFailed fault) :
    s.ResolvesAtOnce request reply now call t where
  issued := h.issues
  calls := h.calls
  frames := h.frames
  ticket := h.ticket
  continuation := h.continuation
  success := hsuccess
  socket := by
    intro handed hok
    rcases h.outcome with ⟨nodelay, hout, hm⟩ | ⟨error, -, hout⟩ | ⟨fault, -, hout⟩
    · rw [hout] at hok
      obtain rfl := Except.ok.inj hok
      exact ⟨rfl, hm⟩
    · rw [hout] at hok
      cases hok
    · rw [hout] at hok
      cases hok
  failure := hfailure
  unasked := by
    obtain ⟨c, hc, -⟩ := h.continuation
    exact unasked_iff hc heq

theorem Registered.registered_attempt (h : Registered s) (hroom : s.hasRoom) (request : Request κ)
    (reply : Reply) (now : Instant) : Registered (s.attempt request reply now).2 := by
  cases hc : request.continuations? with
  | none =>
    rw [attempt_incomplete hc]
    exact h.note _
  | some c => exact (h.attempt_complete hroom hc reply now).1

/-- What the ways out come to: the attempt is in the table, or the table is as it was and the
request was dropped or called back. -/
theorem Registered.attempt_cases (h : Registered s) (hroom : s.hasRoom) (request : Request κ)
    (reply : Reply) (now : Instant) :
    let r := s.attempt request reply now
    (∃ token, r.1 = some token ∧ s.Tracks request reply now token r.2) ∨
      r.1 = none ∧ s.Untouched r.2 ∧ (request.continuations? = none ∧ r.2 = s.note .ignored ∨
        ∃ call, s.ResolvesAtOnce request reply now call r.2) := by
  intro r
  have hw := h.wayOut hroom request reply now
  have hr : Registered r.2 := h.registered_attempt hroom request reply now
  have heq : s.attempt request reply now = (r.1, r.2) := rfl
  generalize r.1 = token, r.2 = t at *
  cases hw with
  | ignored hc => exact .inr ⟨rfl, h.untouched hr rfl rfl, .inl ⟨hc, rfl⟩⟩
  | @unusable error c t ht ha hrec =>
    refine .inr ⟨rfl, h.untouched hr ha.entries ha.interests, .inr ⟨_, ha.resolvesAtOnce heq ?_
      fun failure hfail => .inl ?_⟩⟩
    · constructor
      · rintro ⟨handed, hok⟩
        cases hok
      · rintro ⟨⟨target, hok⟩, -⟩
        cases ht.symm.trans hok
    · refine ⟨error, ht, (Except.error.inj hfail).symm, ?_, ?_⟩
      · rw [openings_eq, hrec, openings_eq]
        simp
      · rw [closings_eq, hrec, closings_eq]
        simp [Outcome.closes]
  | @failed target fault c t ht hf ha =>
    refine .inr ⟨rfl, h.untouched hr ha.entries ha.interests, .inr ⟨_, ha.resolvesAtOnce heq ?_
      fun failure hfail => .inr ?_⟩⟩
    · constructor
      · rintro ⟨handed, hok⟩
        cases hok
      · rintro ⟨-, hd⟩
        simp [Reply.fault?, hd] at hf
    · exact ⟨target, fault, ht, hf, (Except.error.inj hfail).symm⟩
  | @established target call t ht hd ha =>
    obtain ⟨handed, hok⟩ : ∃ handed, call.outcome = .ok handed := by
      rcases ha.outcome with ⟨nodelay, hok, -⟩ | ⟨error, herror, -⟩ | ⟨fault, hf, -⟩
      · exact ⟨_, hok⟩
      · cases ht.symm.trans herror
      · simp [Reply.fault?, hd] at hf
    refine .inr ⟨rfl, h.untouched hr ha.entries ha.interests, .inr ⟨_, ha.resolvesAtOnce heq ?_
      fun failure hfail => ?_⟩⟩
    · exact iff_of_true ⟨handed, hok⟩ ⟨⟨target, ht⟩, hd⟩
    · cases hok.symm.trans hfail
  | @underWay target token c t ht hd hreg hb =>
    exact .inl ⟨token, rfl, h.tracks hr ht hd hreg hb⟩

/-! ### While the continuation runs -/

section Calling

variable {call : Call κ} {base : List (Frame κ τ)} {a : Action κ τ} {actions : List (Action κ τ)}

/-- A continuation that ends leaves nothing above what called it, and does not concern the
attempts. -/
theorem leave_calling (hs : s.frames = .calling call :: base) (hclosing : .closing ∉ base)
    (panic : Option Panic) : Quiet s (s.leave panic) ∧
      (s.leave panic).frames.length ≤ base.length ∧
        ((∀ text next, panic ≠ some (.volatile text next)) → (s.leave panic).frames = base) := by
  by_cases hp : ∀ text next, panic ≠ some (.volatile text next)
  · obtain ⟨hq, hf, -⟩ := leave_innermost hs rfl hp
    exact ⟨hq, Nat.le_of_eq (congrArg List.length hf), fun _ => hf⟩
  · obtain ⟨text, next, rfl⟩ : ∃ text next, panic = some (.volatile text next) := by
      simpa using hp
    have hout : .closing ∉ s.frames := by simp [hs, hclosing]
    refine (unwind_cases (.volatile text next) s.frames s
      fun pre post heq => absurd (by simp [heq]) hout).elim ?_ ?_
    · rintro ⟨pre, f, -, -, heq, hq, -⟩
      refine ⟨hq, ?_, fun hne => absurd rfl (hne text next)⟩
      have hlen := congrArg List.length (hs.symm.trans heq)
      simp only [List.length_cons, List.length_append] at hlen
      simp only [State.leave]
      omega
    · rintro ⟨hnil, -, hq, -⟩
      refine ⟨hq hout, ?_, fun hne => absurd rfl (hne text next)⟩
      simp [State.leave, hnil]

/-- While a continuation runs it can come to its end, by which nothing above what called it is left,
or something happens that leaves the frames as they are; neither concerns the attempts. -/
theorem calling_step (hs : s.frames = .calling call :: base) (hclosing : .closing ∉ base)
    (ha : a.Enabled s) : Quiet s (s.after a) ∧ ((s.after a).frames = s.frames ∨
      (s.after a).frames.length ≤ base.length ∧
        ((∀ text next, a ≠ .leave (some (.volatile text next))) → (s.after a).frames = base)) := by
  have hfree : ¬ s.isFree := by simp [isFree, hs]
  cases Meanwhile.of_enabled ha hfree with
  | advance release hn => exact absurd (isForeign_iff.mpr ⟨_, _, hs, rfl⟩) hn
  | leave panic =>
    obtain ⟨hq, hlen, hback⟩ := leave_calling hs hclosing panic
    exact ⟨hq, .inr ⟨hlen, fun hne => hback fun text next heq => hne text next (heq ▸ rfl)⟩⟩
  | outside ho =>
    obtain ⟨hq, hf, -⟩ := quiet_outside ho
    exact ⟨hq, .inl hf⟩

theorem eq_nil_of_within {depth : Nat} (hw : s.Within depth actions)
    (hd : s.frames.length ≤ depth) : actions = [] := by
  cases actions with
  | nil => rfl
  | cons a rest => exact absurd hw.1 (Nat.not_lt.mpr hd)

/-- Nothing of what a continuation does, and no way in which it ends, concerns the attempts. -/
theorem calling_run (hs : s.frames = .calling call :: base) (hclosing : .closing ∉ base)
    (hw : s.Within base.length actions) : Quiet s (s.run actions) ∧
      (Contained actions → (s.run actions).frames = s.frames ∨ (s.run actions).frames = base) := by
  induction actions generalizing s with
  | nil => exact ⟨.refl s, fun _ => .inl rfl⟩
  | cons a rest ih =>
    obtain ⟨-, ha, hw⟩ := hw
    obtain ⟨hq, hf | ⟨hlen, hback⟩⟩ := calling_step hs hclosing ha
    · obtain ⟨hq', hframes⟩ := ih (hf.trans hs) hw
      exact ⟨hq.trans hq', fun hc => hf ▸ hframes hc.of_cons.2⟩
    · obtain rfl := eq_nil_of_within hw hlen
      exact ⟨hq, fun hc => .inr (hback hc.of_cons.1)⟩

end Calling

theorem Untouched.trans {u : State κ τ} (h : s.Untouched t) (h' : t.Untouched u) :
    s.Untouched u :=
  ⟨h'.entries.trans h.entries, h'.registered.trans h.registered, h'.interests.trans h.interests⟩

theorem Reachable.ticket_lt (h : Reachable s) {e : Token × Entry κ} (he : e ∈ s.entries) :
    e.2.ticket < s.tickets := by
  have hentry := h.lawful.registered.entry?_of_mem he
  obtain ⟨capacity, nodelay, actions, hp, rfl⟩ := h.exists_run
  have hacc := accounted_run capacity nodelay hp
  exact hacc.tallied.lt_of_not_isGone hacc.lawful.registered (not_isGone_of_entry hentry)

/-- Issuing a request puts the attempt into the table as the request asks for, or it leaves the
table as it was and calls the request back once, or drops it if it is not complete. While the
continuation runs this does not change, nor when it ends, in whatever way; the attempts in flight
are not concerned. -/
theorem Reachable.attempt_all_or_nothing (h : Reachable s)
    (ha : (Action.attempt request reply now).Enabled s) :
    let r := s.attempt request reply now
    (∀ e ∈ s.entries, e.2.ticket < s.tickets) ∧
    (∀ token, r.1 = some token → s.Tracks request reply now token r.2) ∧
    (r.1 = none → s.Untouched r.2 ∧ (request.continuations? = none ∧ r.2 = s.note .ignored ∨
      ∃ call, s.ResolvesAtOnce request reply now call r.2)) ∧
    (∀ actions, r.2.Within s.frames.length actions → let u := r.2.run actions
      (r.1.isSome → actions = []) ∧ (r.1 = none → s.Untouched u) ∧ u.calls = r.2.calls ∧
      u.openings = r.2.openings ∧ (Contained actions → u.frames = r.2.frames ∨
        u.frames = s.frames)) ∧
    ∃ actions, r.2.Within s.frames.length actions ∧ Contained actions ∧
      (r.2.run actions).frames = s.frames := by
  intro r
  have hl := h.lawful
  have hcases := hl.registered.attempt_cases ha.2.2 request reply now
  have hclosing : .closing ∉ s.frames := (rests_of_isFree hl.ordered.stacked ha.1).closing_not_mem
  refine ⟨fun e he => h.ticket_lt he, fun token htoken => ?_, fun hnone => ?_, fun actions hw => ?_,
    ?_⟩
  · rcases hcases with ⟨token', htoken', ht⟩ | ⟨hnone, -⟩
    · obtain rfl : token' = token := Option.some.inj (htoken'.symm.trans htoken)
      exact ht
    · cases htoken.symm.trans hnone
  · rcases hcases with ⟨token, htoken, -⟩ | ⟨-, hcases⟩
    · cases htoken.symm.trans hnone
    · exact hcases
  · -- Only a continuation that was called keeps the control back.
    have hstays : r.2.frames = s.frames → actions = [] := fun hf =>
      eq_nil_of_within hw (Nat.le_of_eq (congrArg List.length hf))
    rcases hcases with ⟨token, htoken, ht⟩ | ⟨hnone, hu, ⟨-, hign⟩ | ⟨call, hcall⟩⟩
    · obtain rfl := hstays ht.frames
      refine ⟨fun _ => rfl, fun hnone => ?_, rfl, rfl, fun _ => .inl rfl⟩
      cases htoken.symm.trans hnone
    · obtain rfl := hstays ((congrArg State.frames hign).trans rfl)
      exact ⟨fun _ => rfl, fun _ => hu, rfl, rfl, fun _ => .inl rfl⟩
    · obtain ⟨hq, hframes⟩ := calling_run hcall.frames hclosing hw
      refine ⟨fun hsome => ?_, fun _ => hu.trans hq.untouched, hq.calls, hq.openings, hframes⟩
      rw [hnone] at hsome
      cases hsome
  · rcases hcases with ⟨token, -, ht⟩ | ⟨-, -, ⟨-, hign⟩ | ⟨call, hcall⟩⟩
    · exact ⟨[], trivial, fun _ _ => List.not_mem_nil, ht.frames⟩
    · exact ⟨[], trivial, fun _ _ => List.not_mem_nil, (congrArg State.frames hign).trans rfl⟩
    · have hf := hcall.frames
      refine ⟨[.leave none], ⟨by rw [hf]; simp, isForeign_iff.mpr ⟨_, _, hf, rfl⟩, trivial⟩,
        contained_singleton (by simp), ?_⟩
      exact congrArg List.tail hf

/-- With an attempt in flight two more requests are issued: the system refuses to watch the socket
of the first, whose continuation leaves a task and panics, and the second gets into the table under
a token of its own. -/
theorem attempt_all_or_nothing_while_called :
    let request (address : String) : Request Nat := ⟨address, 80, .ofMillis 1, some 0, some 1⟩
    let begun : Reply := { connect := some .nowInProgress }
    let refused : Reply := { begun with registration := some .tooManyOpenFiles }
    let s := (initial 16 false : State Nat Nat).run [.attempt (request "::1") begun .origin]
    let r := s.attempt (request "[::1]") refused .origin
    let u := r.2.run [.enqueue 5, .leave (some (.plain none))]
    s.Untouched u ∧ u.calls.map (·.ticket) = [1] ∧ u.frames = [] ∧
      (u.attempt (request "127.0.0.1") begun .origin).1 = some 2 ∧
      u.Tracks (request "127.0.0.1") begun .origin 2
        (u.attempt (request "127.0.0.1") begun .origin).2 := by
  intro request begun refused s r u
  have hs : Reachable s := (Reachable.initial 16 false).run (by decide)
  have ha : (Action.attempt (request "[::1]") refused .origin).Enabled s := by decide
  have hu : Reachable u := (hs.step ha).run (by decide)
  have hw : r.2.Within s.frames.length [.enqueue 5, .leave (some (.plain none))] := by decide
  have ha' : (Action.attempt (request "127.0.0.1") begun .origin).Enabled u := by decide
  obtain ⟨-, -, -, hrun, -⟩ := hs.attempt_all_or_nothing ha
  obtain ⟨-, htracks, -⟩ := hu.attempt_all_or_nothing ha'
  exact ⟨(hrun _ hw).2.1 (by decide), by decide, by decide, by decide, htracks 2 (by decide)⟩

end Dialer.InFlight.State
