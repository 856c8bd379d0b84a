import Dialer.Proofs.InFlight.Registration

/-!
# What an action can do to the attempts

However an action is put together, to the attempts it does one of five things: nothing; it issues a
request and calls it back at once; it issues a request and takes its attempt into the table; it
takes an attempt out of the table and calls it back; or it gives up what the table still owns. What
the laws of the table need of an action is read off its effect.
-/

namespace Dialer

open Address (SocketAddress)
open Readiness (Token Watch Selector wakeToken)
open Time (Duration Instant)

/-- The fault that the answers to a request for a connection come to, if there is one. -/
def Reply.fault? (reply : Reply) : Option Fault :=
  match reply.dialled with
  | .unmade fault => some fault
  | .rejected fault => some fault
  | .established => none
  | .inProgress => reply.registration

namespace InFlight

variable {κ τ : Type}

/-- What an attempt resolves with for a cause. -/
def Cause.Gives (e : Entry κ) : Cause → Outcome → Prop
  | .established, outcome => ∃ nodelay, outcome = .ok ⟨e.socket, nodelay⟩
  | .broken fault, outcome => outcome = .error (.connectFailed fault)
  | .timedOut, outcome => outcome = .error (.timeout e.timeout)
  | .aborted, outcome => outcome = .error .aborted

theorem Cause.Gives.socket_eq {e : Entry κ} {cause : Cause} {handed : Handed}
    (h : cause.Gives e (.ok handed)) : handed.socket = e.socket := by
  cases cause with
  | established =>
    obtain ⟨nodelay, hok⟩ := h
    exact congrArg Handed.socket (Except.ok.inj hok)
  | broken fault => simp [Cause.Gives] at h
  | timedOut => simp [Cause.Gives] at h
  | aborted => simp [Cause.Gives] at h

theorem Cause.Gives.aborted_iff {e : Entry κ} {cause : Cause} {outcome : Outcome}
    (h : cause.Gives e outcome) :
    outcome = .error .aborted ↔ cause = .aborted := by
  cases cause with
  | established =>
    obtain ⟨nodelay, rfl⟩ := h
    simp
  | broken fault =>
    obtain rfl := h
    simp
  | timedOut =>
    obtain rfl := h
    simp
  | aborted => exact iff_of_true h rfl

namespace State

/-- Nothing that concerns the attempts differs. -/
structure Quiet (s t : State κ τ) : Prop where
  entries : t.entries = s.entries
  registered : t.watch.registered = s.watch.registered
  interests : t.watch.selector.interests = s.watch.selector.interests
  receivers : t.watch.tasks.receivers = s.watch.tasks.receivers
  next : t.next = s.next
  sockets : t.sockets = s.sockets
  tickets : t.tickets = s.tickets
  calls : t.calls = s.calls
  issues : t.issues = s.issues
  openings : t.openings = s.openings
  refusals : s.refusals.Sublist t.refusals

/-- A request was issued and called back at once. -/
structure Answered (s : State κ τ) (request : Request κ) (reply : Reply) (call : Call κ)
    (t : State κ τ) : Prop where
  entries : t.entries = s.entries
  interests : t.watch.selector.interests = s.watch.selector.interests
  tasks : t.watch.tasks = s.watch.tasks
  tickets : t.tickets = s.tickets + 1
  issues : t.issues = (s.tickets, request) :: s.issues
  refusals : s.refusals.Sublist t.refusals
  calls : t.calls = call :: s.calls
  frames : t.frames = .calling call :: s.frames
  openings : (t.openings = s.openings ∧ t.sockets = s.sockets) ∨
    (t.openings = (s.tickets, s.sockets) :: s.openings ∧ t.sockets = s.sockets + 1)
  ticket : call.ticket = s.tickets
  continuation : ∃ c, request.continuations? = some c ∧ call.continuation = c.select call.outcome
  outcome : (∃ nodelay, call.outcome = .ok ⟨s.sockets, nodelay⟩ ∧
      (s.tickets, s.sockets) ∈ t.openings) ∨
    (∃ error, Target.ofRequest request.address request.port = .error error ∧
      call.outcome = .error (.connectFailed (.custom .invalidInput (.target error)))) ∨
    ∃ fault, reply.fault? = some fault ∧ call.outcome = .error (.connectFailed fault)

/-- A request was issued and its attempt is in the table now. -/
structure Begun (s : State κ τ) (request : Request κ) (token : Token) (e : Entry κ)
    (t : State κ τ) : Prop where
  entries : t.entries = s.entries ++ [(token, e)]
  interests : t.watch.selector.interests = s.watch.selector.interests ++ [interestOf (token, e)]
  tasks : t.watch.tasks = s.watch.tasks
  fresh : token ∉ s.tokens
  tickets : t.tickets = s.tickets + 1
  issues : t.issues = (s.tickets, request) :: s.issues
  refusals : s.refusals.Sublist t.refusals
  calls : t.calls = s.calls
  frames : t.frames = s.frames
  openings : t.openings = (s.tickets, s.sockets) :: s.openings
  sockets : t.sockets = s.sockets + 1
  ticket : e.ticket = s.tickets
  socket : e.socket = s.sockets
  timeout : e.timeout = request.timeout
  continuations : request.continuations? = some e.continuations

/-- An attempt was taken out of the table and called back. Unless its socket was handed over, the
system is not interested in it any more. -/
structure Concluded (s : State κ τ) (token : Token) (e : Entry κ) (cause : Cause) (call : Call κ)
    (t : State κ τ) : Prop where
  entry : s.entry? token = some e
  entries : t.entries = s.entries.filter (·.1 ≠ token)
  interests : t.watch.selector.interests = s.watch.selector.interests.filter (·.1 ≠ e.socket) ∨
    cause = .established ∧ t.watch.selector.interests = s.watch.selector.interests ∧
      token ∈ t.refusals
  tasks : t.watch.tasks = s.watch.tasks
  tickets : t.tickets = s.tickets
  issues : t.issues = s.issues
  refusals : s.refusals.Sublist t.refusals
  calls : t.calls = call :: s.calls
  frames : t.frames = .calling call :: s.frames
  openings : t.openings = s.openings
  sockets : t.sockets = s.sockets
  ticket : call.ticket = e.ticket
  continuation : call.continuation = e.continuations.select call.outcome
  outcome : cause.Gives e call.outcome

/-- What the table still owned was given up, and nobody takes its tasks any more. -/
structure Emptied (s t : State κ τ) : Prop where
  entries : t.entries = []
  registered : t.watch.registered = []
  interests : t.watch.selector.interests = []
  receivers : t.watch.tasks.receivers = s.watch.tasks.receivers - 1
  next : t.next = s.next
  sockets : t.sockets = s.sockets
  tickets : t.tickets = s.tickets
  calls : t.calls = s.calls
  issues : t.issues = s.issues
  openings : t.openings = s.openings
  refusals : s.refusals.Sublist t.refusals

variable {s t u : State κ τ}

theorem Quiet.refl (s : State κ τ) : Quiet s s :=
  ⟨rfl, rfl, rfl, rfl, rfl, rfl, rfl, rfl, rfl, rfl, .refl _⟩

theorem Quiet.trans (h : Quiet s t) (h' : Quiet t u) : Quiet s u where
  entries := h'.entries.trans h.entries
  registered := h'.registered.trans h.registered
  interests := h'.interests.trans h.interests
  receivers := h'.receivers.trans h.receivers
  next := h'.next.trans h.next
  sockets := h'.sockets.trans h.sockets
  tickets := h'.tickets.trans h.tickets
  calls := h'.calls.trans h.calls
  issues := h'.issues.trans h.issues
  openings := h'.openings.trans h.openings
  refusals := h.refusals.trans h'.refusals

theorem Quiet.registered_of (h : Quiet s t) (hs : Registered s) : Registered t :=
  hs.congr h.entries h.registered h.interests h.next (Nat.le_of_eq h.sockets.symm)

theorem Quiet.note (s : State κ τ) {x : Happening κ τ} (hc : x.call? = none)
    (hi : x.issue? = none) (ho : x.opening? = none) : Quiet s (s.note x) :=
  ⟨rfl, rfl, rfl, rfl, rfl, rfl, rfl, List.filterMap_cons_none hc, List.filterMap_cons_none hi,
    List.filterMap_cons_none ho, refusals_note s x⟩

theorem Quiet.push (s : State κ τ) (frame : Frame κ τ) : Quiet s (s.push frame) :=
  ⟨rfl, rfl, rfl, rfl, rfl, rfl, rfl, rfl, rfl, rfl, .refl _⟩

theorem Quiet.withFrames (s : State κ τ) (frames : List (Frame κ τ)) :
    Quiet s { s with frames := frames } :=
  ⟨rfl, rfl, rfl, rfl, rfl, rfl, rfl, rfl, rfl, rfl, .refl _⟩

theorem Quiet.withMonitor (s : State κ τ) (monitor : Option Nat) :
    Quiet s { s with monitor := monitor } :=
  ⟨rfl, rfl, rfl, rfl, rfl, rfl, rfl, rfl, rfl, rfl, .refl _⟩

theorem Quiet.withChannels (s : State κ τ) (channels : List (Channel Event)) :
    Quiet s { s with channels := channels } :=
  ⟨rfl, rfl, rfl, rfl, rfl, rfl, rfl, rfl, rfl, rfl, .refl _⟩

theorem Quiet.withWatch (s : State κ τ) {watch : Watch τ}
    (hr : watch.registered = s.watch.registered)
    (hi : watch.selector.interests = s.watch.selector.interests)
    (ht : watch.tasks.receivers = s.watch.tasks.receivers) : Quiet s { s with watch := watch } :=
  ⟨rfl, hr, hi, ht, rfl, rfl, rfl, rfl, rfl, rfl, .refl _⟩

/-! ### Issuing a request -/

section Attempt

variable {request : Request κ} {reply : Reply} {now : Instant} {c : Continuations κ}

/-- The table with a request taken up under the next ticket. -/
def issue (s : State κ τ) (request : Request κ) : State κ τ :=
  { s with tickets := s.tickets + 1 }.note (.issued s.tickets request)

/-- A request was taken up, and perhaps a socket opened for it, but nothing came of it yet. -/
structure Issued (s : State κ τ) (request : Request κ) (t : State κ τ) : Prop where
  entries : t.entries = s.entries
  interests : t.watch.selector.interests = s.watch.selector.interests
  refusals : s.refusals.Sublist t.refusals
  tasks : t.watch.tasks = s.watch.tasks
  tickets : t.tickets = s.tickets + 1
  issues : t.issues = (s.tickets, request) :: s.issues
  calls : t.calls = s.calls
  frames : t.frames = s.frames
  openings : (t.openings = s.openings ∧ t.sockets = s.sockets) ∨
    (t.openings = (s.tickets, s.sockets) :: s.openings ∧ t.sockets = s.sockets + 1)

theorem issued_issue (s : State κ τ) (request : Request κ) : Issued s request (s.issue request) :=
  { entries := rfl
    interests := rfl
    refusals := refusals_note { s with tickets := s.tickets + 1 } _
    tasks := rfl
    tickets := rfl
    issues := by simp [issue]
    calls := by simp [issue, List.filterMap_cons]
    frames := rfl
    openings := .inl ⟨by simp [issue, List.filterMap_cons], rfl⟩ }

theorem Issued.quiet (h : Issued s request t) (hq : Quiet t u) (hf : u.frames = t.frames)
    (ht : u.watch.tasks = t.watch.tasks) : Issued s request u where
  entries := hq.entries.trans h.entries
  interests := hq.interests.trans h.interests
  refusals := h.refusals.trans hq.refusals
  tasks := ht.trans h.tasks
  tickets := hq.tickets.trans h.tickets
  issues := hq.issues.trans h.issues
  calls := hq.calls.trans h.calls
  frames := hf.trans h.frames
  openings := by rw [hq.openings, hq.sockets]; exact h.openings

theorem Issued.note (h : Issued s request t) {x : Happening κ τ} (hc : x.call? = none)
    (hi : x.issue? = none) (ho : x.opening? = none) : Issued s request (t.note x) :=
  h.quiet (.note t hc hi ho) rfl rfl

theorem Issued.publish (h : Issued s request t) (event : Event) :
    Issued s request (t.publish event) where
  entries := by simp [h.entries]
  interests := by simp [h.interests]
  refusals := by simpa using h.refusals
  tasks := by simp [h.tasks]
  tickets := by simp [h.tickets]
  issues := by simpa using h.issues
  calls := by simpa using h.calls
  frames := by simp [h.frames]
  openings := by simpa using h.openings

theorem Issued.closeSocket (h : Issued s request t) {socket : Nat}
    (hfree : ∀ i ∈ t.watch.selector.interests, i.1 ≠ socket) :
    Issued s request (t.closeSocket socket) where
  entries := h.entries
  interests := (List.filter_eq_self.mpr (by simpa using hfree)).trans h.interests
  refusals := h.refusals.trans (refusals_note _ _)
  tasks := h.tasks
  tickets := h.tickets
  issues := by simpa [List.filterMap_cons] using h.issues
  calls := by simpa [List.filterMap_cons] using h.calls
  frames := h.frames
  openings := by simpa [List.filterMap_cons] using h.openings

theorem Issued.allocate (h : Issued s request t) : Issued s request t.allocate.2 :=
  ⟨h.entries, h.interests, h.refusals, h.tasks, h.tickets, h.issues, h.calls, h.frames, h.openings⟩

theorem issued_open (s : State κ τ) (request : Request κ) (event : Event) :
    Issued s request (((s.issue request).publish event).openSocket s.tickets) ∧
      (((s.issue request).publish event).openSocket s.tickets).openings =
        (s.tickets, s.sockets) :: s.openings ∧
      (((s.issue request).publish event).openSocket s.tickets).sockets = s.sockets + 1 := by
  have h := (issued_issue s request).publish event
  have hs : (((s.issue request).publish event).openSocket s.tickets).sockets = s.sockets + 1 := by
    simp [issue]
  have ho : (((s.issue request).publish event).openSocket s.tickets).openings =
      (s.tickets, s.sockets) :: s.openings := by
    simp [issue, List.filterMap_cons]
  refine ⟨⟨h.entries, h.interests, h.refusals.trans (refusals_note _ _), h.tasks, h.tickets, ?_, ?_,
    h.frames, .inr ⟨ho, hs⟩⟩, ho, hs⟩
  · simpa [List.filterMap_cons] using h.issues
  · simpa [List.filterMap_cons] using h.calls

theorem Issued.fail (h : Issued s request t) (hc : request.continuations? = some c)
    (address : Option SocketAddress) {failure : Failure}
    (hf : (∃ error, Target.ofRequest request.address request.port = .error error ∧
        failure = .connectFailed (.custom .invalidInput (.target error))) ∨
      ∃ fault, reply.fault? = some fault ∧ failure = .connectFailed fault) :
    Answered s request reply (failureCall s.tickets c failure)
      (t.fail s.tickets c address failure) where
  entries := by simp [fail_eq, h.entries]
  interests := by simp [fail_eq, h.interests]
  refusals := by simpa [fail_eq, List.filterMap_cons] using h.refusals
  tasks := by simp [fail_eq, h.tasks]
  tickets := by simp [fail_eq, h.tickets]
  issues := by simpa [fail_eq, List.filterMap_cons] using h.issues
  calls := by simpa [fail_eq, List.filterMap_cons] using h.calls
  frames := by simp [fail_eq, h.frames]
  openings := by simpa [fail_eq, List.filterMap_cons] using h.openings
  ticket := rfl
  continuation := ⟨c, hc, rfl⟩
  outcome := by
    rcases hf with ⟨error, he, rfl⟩ | ⟨fault, he, rfl⟩
    · exact .inr (.inl ⟨error, he, rfl⟩)
    · exact .inr (.inr ⟨fault, he, rfl⟩)

theorem Issued.handOff (h : Issued s request t) (hc : request.continuations? = some c)
    (ho : (s.tickets, s.sockets) ∈ t.openings) (address : SocketAddress)
    (preparation : Option Fault) :
    ∃ call, Answered s request reply call
      (t.handOff s.tickets c address s.sockets preparation) := by
  obtain ⟨nodelay, u, hu, heq⟩ := handOff_eq (s := t) s.tickets c address s.sockets preparation
  have hu : Issued s request u ∧ u.openings = t.openings := by
    rcases hu with rfl | ⟨fault, rfl⟩
    · exact ⟨h, rfl⟩
    · exact ⟨h.note rfl rfl rfl, by simp [List.filterMap_cons]⟩
  obtain ⟨hu, hopen⟩ := hu
  rw [heq]
  exact ⟨successCall s.tickets c ⟨s.sockets, nodelay⟩,
    { entries := by simp [hu.entries]
      interests := by simp [hu.interests]
      refusals := by simpa [List.filterMap_cons] using hu.refusals
      tasks := by simp [hu.tasks]
      tickets := by simp [hu.tickets]
      issues := by simpa [List.filterMap_cons] using hu.issues
      calls := by simpa [List.filterMap_cons] using hu.calls
      frames := by simp [hu.frames]
      openings := by simpa [List.filterMap_cons] using hu.openings
      ticket := rfl
      continuation := ⟨c, hc, rfl⟩
      outcome := .inl ⟨nodelay, rfl, by
        rw [← hopen] at ho
        simpa [List.filterMap_cons] using ho⟩ }⟩

theorem Registered.issue (h : Registered s) (request : Request κ) : Registered (s.issue request) :=
  h.congr rfl rfl rfl rfl (Nat.le_refl _)

theorem attempt_incomplete (hc : request.continuations? = none) :
    s.attempt request reply now = (none, s.note .ignored) := by
  simp [attempt, hc]

theorem attempt_unusable {error : TargetError} (hc : request.continuations? = some c)
    (ht : Target.ofRequest request.address request.port = .error error) :
    s.attempt request reply now =
      (none, ((s.issue request).note (.unusable request.address request.port error)).fail s.tickets
        c none (.connectFailed (.custom .invalidInput (.target error)))) := by
  simp [attempt, hc, ht, State.issue]

theorem attempt_usable {target : Target} (hc : request.continuations? = some c)
    (ht : Target.ofRequest request.address request.port = .ok target) :
    s.attempt request reply now =
      (s.issue request).dial s.tickets c target.address request.timeout reply now := by
  simp [attempt, hc, ht, State.issue]

theorem track_refused (ticket : Nat) (address : SocketAddress) (timeout : Duration) (socket : Nat)
    (fault : Fault) :
    s.track ticket c address timeout socket (some fault) now =
      (none, ((s.allocate.2.note (.unregistered address fault)).closeSocket socket).fail ticket c
        (some address) (.connectFailed fault)) := rfl

theorem Registered.track_eq (h : Registered s) (hroom : s.hasRoom) {socket : Nat}
    (hsocket : ∀ i ∈ s.watch.selector.interests, i.1 ≠ socket) (ticket : Nat)
    (address : SocketAddress)
    (timeout : Duration) (c : Continuations κ) (now : Instant) :
    ∃ watch, s.watch.add socket s.allocate.1 = .ok watch ∧
      s.track ticket c address timeout socket none now =
        (some s.allocate.1, { s.allocate.2.note (.tracked address s.allocate.1 timeout) with
          watch := watch
          entries := s.entries ++
            [(s.allocate.1, ⟨ticket, socket, address, now, timeout, c⟩)] }) := by
  have hadd := h.add_eq hsocket (allocate_fresh hroom h.next_ne).1
  refine ⟨_, hadd, ?_⟩
  have hadd' : s.allocate.2.watch.add socket s.allocate.1 = s.watch.add socket s.allocate.1 := rfl
  simp only [track, hadd', hadd]
  rfl

/-- What issuing a complete request comes to: it is called back at once, or it is in the table under
the token that is the answer. -/
def Attempted (s : State κ τ) (request : Request κ) (reply : Reply)
    (r : Option Token × State κ τ) : Prop :=
  Registered r.2 ∧ ((r.1 = none ∧ ∃ call, Answered s request reply call r.2) ∨
    ∃ token e, r.1 = some token ∧ Begun s request token e r.2)

theorem dial_inProgress (h : Registered s) (hroom : s.hasRoom)
    (hc : request.continuations? = some c) (hd : reply.dialled = .inProgress)
    (address : SocketAddress) :
    Attempted s request reply
      ((((s.issue request).publish (.attempting address)).openSocket s.tickets).track
        s.tickets c address request.timeout s.sockets reply.registration now) := by
  obtain ⟨hi, ho, hs⟩ := issued_open s request (.attempting address)
  have hr : Registered (((s.issue request).publish (.attempting address)).openSocket s.tickets) :=
    ((h.issue request).publish _).openSocket _
  have hfree : ∀ i ∈ (((s.issue request).publish (.attempting address)).openSocket
      s.tickets).watch.selector.interests, i.1 ≠ s.sockets := by
    rw [hi.interests]
    exact h.interest_free
  generalize ((s.issue request).publish (.attempting address)).openSocket s.tickets = u at *
  cases hreg : reply.registration with
  | some fault =>
    have hf : reply.fault? = some fault := by simp [Reply.fault?, hd, hreg]
    have ha := ((hi.allocate.note (x := .unregistered address fault) rfl rfl rfl).closeSocket
      hfree).fail hc (some address) (.inr ⟨fault, hf, rfl⟩)
    rw [track_refused]
    exact ⟨((hr.allocate.note _).closeSocket (hr.entries_free hfree)).fail _ _ _ _,
      .inl ⟨rfl, _, ha⟩⟩
  | none =>
    have hroom' : u.hasRoom := by rwa [hasRoom, hi.entries]
    obtain ⟨hfresh, hwake⟩ := allocate_fresh hroom' hr.next_ne
    obtain ⟨watch, hadd, heq⟩ := hr.track_eq hroom' hfree s.tickets address request.timeout c
      now
    let e : Entry κ := ⟨s.tickets, s.sockets, address, now, request.timeout, c⟩
    have ht := (hr.allocate.note (.tracked address u.allocate.1 request.timeout)).tracked
      (e := e) hfree (show s.sockets < u.sockets by omega) hfresh hwake hadd
    obtain ⟨htasks, hinterests⟩ : watch.tasks = u.watch.tasks ∧ watch.selector.interests =
        u.watch.selector.interests ++ [(s.sockets, u.allocate.1)] := by
      rw [hr.add_eq hfree hfresh] at hadd
      obtain rfl := Except.ok.inj hadd
      exact ⟨rfl, rfl⟩
    rw [heq]
    refine ⟨ht, .inr ⟨u.allocate.1, e, rfl, ?_⟩⟩
    exact
      { entries := by rw [← hi.entries]
        interests := hinterests.trans (by rw [hi.interests]; rfl)
        refusals := hi.refusals.trans (refusals_note u _)
        tasks := htasks.trans hi.tasks
        fresh := by simpa [tokens, hi.entries] using hfresh
        tickets := hi.tickets
        issues := by simpa [List.filterMap_cons, State.allocate] using hi.issues
        calls := by simpa [List.filterMap_cons, State.allocate] using hi.calls
        frames := hi.frames
        openings := by simpa [List.filterMap_cons, State.allocate] using ho
        sockets := hs
        ticket := rfl
        socket := rfl
        timeout := rfl
        continuations := hc }

theorem Registered.attempt_complete (h : Registered s) (hroom : s.hasRoom)
    (hc : request.continuations? = some c) (reply : Reply) (now : Instant) :
    Attempted s request reply (s.attempt request reply now) := by
  cases ht : Target.ofRequest request.address request.port with
  | error error =>
    have ha : Answered s request reply _ _ := ((issued_issue s request).note
      (x := .unusable request.address request.port error) rfl rfl rfl).fail hc none
        (.inl ⟨error, ht, rfl⟩)
    rw [attempt_unusable hc ht]
    exact ⟨((h.issue request).note _).fail _ _ _ _, .inl ⟨rfl, _, ha⟩⟩
  | ok target =>
    rw [attempt_usable hc ht]
    have hp := (issued_issue s request).publish (.attempting target.address)
    have hr := (h.issue request).publish (.attempting target.address)
    have hs : ((s.issue request).publish (.attempting target.address)).sockets = s.sockets := by
      simp [State.issue]
    obtain ⟨hi, ho, -⟩ := issued_open s request (.attempting target.address)
    have hfree : ∀ i ∈ (((s.issue request).publish (.attempting target.address)).openSocket
        s.tickets).watch.selector.interests, i.1 ≠ s.sockets := by
      rw [hi.interests]
      exact h.interest_free
    cases hd : reply.dialled with
    | unmade fault =>
      have hf : reply.fault? = some fault := by simp [Reply.fault?, hd]
      have ha := (hp.note (x := .rejected target.address fault) rfl rfl rfl).fail hc
        (some target.address) (.inr ⟨fault, hf, rfl⟩)
      simp only [dial, hd]
      exact ⟨(hr.note _).fail _ _ _ _, .inl ⟨rfl, _, ha⟩⟩
    | rejected fault =>
      have hf : reply.fault? = some fault := by simp [Reply.fault?, hd]
      have ha := ((hi.closeSocket hfree).note (x := .rejected target.address fault) rfl rfl
        rfl).fail hc (some target.address) (.inr ⟨fault, hf, rfl⟩)
      have hr := hr.openSocket s.tickets
      simp only [dial, hd, hs]
      exact ⟨((hr.closeSocket (hr.entries_free hfree)).note _).fail _ _ _ _, .inl ⟨rfl, _, ha⟩⟩
    | established =>
      have hm : (s.tickets, s.sockets) ∈ ((((s.issue request).publish
          (.attempting target.address)).openSocket s.tickets).note
            (.immediate target.address)).openings := by
        have hn : ((((s.issue request).publish (.attempting target.address)).openSocket
            s.tickets).note (.immediate target.address)).openings = _ := ho
        rw [hn]
        exact List.mem_cons_self
      simp only [dial, hd, hs]
      exact ⟨((hr.openSocket _).note _).handOff _ _ _ _ _,
        .inl ⟨rfl, (hi.note rfl rfl rfl).handOff hc hm target.address reply.preparation⟩⟩
    | inProgress =>
      simp only [dial, hd, hs]
      exact dial_inProgress h hroom hc hd target.address

end Attempt

/-! ### Resolving an attempt -/

section Resolve

variable {token : Token} {e : Entry κ} {cause : Cause}

/-- An attempt was taken out of the table, but not called back yet. -/
structure Withdrawn (s : State κ τ) (token : Token) (t : State κ τ) : Prop where
  entries : t.entries = s.entries.filter (·.1 ≠ token)
  tasks : t.watch.tasks = s.watch.tasks
  tickets : t.tickets = s.tickets
  issues : t.issues = s.issues
  refusals : s.refusals.Sublist t.refusals
  calls : t.calls = s.calls
  frames : t.frames = s.frames
  openings : t.openings = s.openings
  sockets : t.sockets = s.sockets

theorem Registered.withdrawn_untrack (h : Registered s) (he : s.entry? token = some e)
    (removal : Option Fault) : Withdrawn s token (s.untrack token e removal) := by
  rw [h.untrack_eq he]
  cases removal with
  | none => exact ⟨rfl, rfl, rfl, rfl, .refl _, rfl, rfl, rfl, rfl⟩
  | some fault => exact ⟨rfl, rfl, rfl, rfl, refusals_note _ _, rfl, rfl, rfl, rfl⟩

theorem Withdrawn.note (h : Withdrawn s token t) {x : Happening κ τ} (hc : x.call? = none)
    (hi : x.issue? = none) (ho : x.opening? = none) : Withdrawn s token (t.note x) where
  entries := h.entries
  tasks := h.tasks
  tickets := h.tickets
  issues := (List.filterMap_cons_none hi).trans h.issues
  refusals := h.refusals.trans (refusals_note t x)
  calls := (List.filterMap_cons_none hc).trans h.calls
  frames := h.frames
  openings := (List.filterMap_cons_none ho).trans h.openings
  sockets := h.sockets

theorem Withdrawn.closeSocket (h : Withdrawn s token t) (socket : Nat) :
    Withdrawn s token (t.closeSocket socket) :=
  ⟨h.entries, h.tasks, h.tickets, h.issues, h.refusals.trans (refusals_note _ _), h.calls, h.frames,
    h.openings, h.sockets⟩

theorem Withdrawn.fail (h : Withdrawn s token t) (he : s.entry? token = some e)
    (hw : t.watch.selector.interests = s.watch.selector.interests.filter (·.1 ≠ e.socket))
    (address : Option SocketAddress) {failure : Failure} (hg : cause.Gives e (.error failure)) :
    Concluded s token e cause (failureCall e.ticket e.continuations failure)
      (t.fail e.ticket e.continuations address failure) where
  entry := he
  entries := by simp [fail_eq, h.entries]
  interests := .inl (by simpa [fail_eq] using hw)
  tasks := by simp [fail_eq, h.tasks]
  tickets := by simp [fail_eq, h.tickets]
  issues := by simpa [fail_eq, List.filterMap_cons] using h.issues
  refusals := by simpa [fail_eq, List.filterMap_cons] using h.refusals
  calls := by simpa [fail_eq, List.filterMap_cons] using h.calls
  frames := by simp [fail_eq, h.frames]
  openings := by simpa [fail_eq, List.filterMap_cons] using h.openings
  sockets := by simp [fail_eq, h.sockets]
  ticket := rfl
  continuation := rfl
  outcome := hg

theorem Withdrawn.handOff (h : Withdrawn s token t) (he : s.entry? token = some e)
    (hw : t.watch.selector.interests = s.watch.selector.interests.filter (·.1 ≠ e.socket) ∨
      t.watch.selector.interests = s.watch.selector.interests ∧ token ∈ t.refusals)
    (address : SocketAddress) (preparation : Option Fault) :
    ∃ call, Concluded s token e .established call
      (t.handOff e.ticket e.continuations address e.socket preparation) := by
  obtain ⟨nodelay, u, hu, heq⟩ := handOff_eq (s := t) e.ticket e.continuations address e.socket
    preparation
  obtain ⟨hu, hwatch, hrefusals⟩ : Withdrawn s token u ∧ u.watch = t.watch ∧
      t.refusals.Sublist u.refusals := by
    rcases hu with rfl | ⟨fault, rfl⟩
    · exact ⟨h, rfl, .refl _⟩
    · exact ⟨h.note rfl rfl rfl, rfl, refusals_note _ _⟩
  rw [heq]
  exact ⟨successCall e.ticket e.continuations ⟨e.socket, nodelay⟩,
    { entry := he
      entries := by simp [hu.entries]
      interests := by
        rw [call_watch, publish_watch, hwatch]
        refine hw.imp_right fun ⟨hi, hm⟩ => ⟨rfl, hi, ?_⟩
        simpa [List.filterMap_cons] using hrefusals.subset hm
      tasks := by simp [hu.tasks]
      tickets := by simp [hu.tickets]
      issues := by simpa [List.filterMap_cons] using hu.issues
      refusals := by simpa [List.filterMap_cons] using hu.refusals
      calls := by simpa [List.filterMap_cons] using hu.calls
      frames := by simp [hu.frames]
      openings := by simpa [List.filterMap_cons] using hu.openings
      sockets := by simp [hu.sockets]
      ticket := rfl
      continuation := rfl
      outcome := ⟨nodelay, rfl⟩ }⟩

theorem resolve_missing (he : s.entry? token = none) (cause : Cause) (release : Release) :
    s.resolve token cause release = s := by
  simp [resolve, he]

/-- Whatever the system answered, after the socket is closed it has no interest in it. -/
theorem Registered.untracked_closed (h : Registered s) (he : s.entry? token = some e)
    (removal : Option Fault) :
    ((s.untrack token e removal).watch.selector.forget e.socket).interests =
      s.watch.selector.interests.filter (·.1 ≠ e.socket) := by
  rw [Selector.forget, h.untrack_interests he]
  cases removal with
  | none => exact List.filter_filter.trans (List.filter_congr fun i _ => Bool.and_self _)
  | some fault => rfl

theorem Registered.untracked_kept (h : Registered s) (he : s.entry? token = some e)
    (removal : Option Fault) :
    (s.untrack token e removal).watch.selector.interests =
        s.watch.selector.interests.filter (·.1 ≠ e.socket) ∨
      (s.untrack token e removal).watch.selector.interests = s.watch.selector.interests ∧
        token ∈ (s.untrack token e removal).refusals := by
  rw [h.untrack_interests he]
  cases removal with
  | none => exact .inl rfl
  | some fault =>
    refine .inr ⟨rfl, ?_⟩
    rw [h.untrack_eq he]
    simp

/-- Resolving takes the attempt out of the table and calls it back with what its cause gives. -/
theorem Registered.resolve (h : Registered s) (he : s.entry? token = some e) (cause : Cause)
    (release : Release) :
    Registered (s.resolve token cause release) ∧
      ∃ call, Concluded s token e cause call (s.resolve token cause release) := by
  have hr := h.untrack he release.removal
  have hw := h.withdrawn_untrack he release.removal
  have hfree := h.untracked_free he release.removal
  have hclosed := h.untracked_closed he release.removal
  cases cause with
  | established =>
    simp only [State.resolve, he]
    refine ⟨(hr.note _).handOff _ _ _ _ _, (hw.note rfl rfl rfl).handOff he ?_ _ _⟩
    exact (h.untracked_kept he release.removal).imp_right fun ⟨hi, hm⟩ =>
      ⟨hi, (refusals_note _ _).subset hm⟩
  | broken fault =>
    simp only [State.resolve, he]
    exact ⟨((hr.note _).closeSocket hfree).fail _ _ _ _,
      _, ((hw.note rfl rfl rfl).closeSocket _).fail he hclosed _ rfl⟩
  | timedOut =>
    simp only [State.resolve, he]
    exact ⟨((hr.note _).closeSocket hfree).fail _ _ _ _,
      _, ((hw.note rfl rfl rfl).closeSocket _).fail he hclosed _ rfl⟩
  | aborted =>
    simp only [State.resolve, he]
    exact ⟨(hr.closeSocket hfree).fail _ _ _ _, _, (hw.closeSocket _).fail he hclosed _ rfl⟩

end Resolve

/-! ### Giving up -/

theorem foldl_closeSocket {α : Type} {view : State κ τ → α}
    (hv : ∀ s socket, view (s.closeSocket socket) = view s) (entries : List (Token × Entry κ))
    (s : State κ τ) : view (entries.foldl (fun s e => s.closeSocket e.2.socket) s) = view s := by
  induction entries generalizing s with
  | nil => rfl
  | cons e entries ih => exact (ih (s.closeSocket e.2.socket)).trans (hv s e.2.socket)

theorem emptied_shut (s : State κ τ) : Emptied s s.shut := by
  have hfold : ∀ (entries : List (Token × Entry κ)) (t : State κ τ),
      let u := entries.foldl (fun s e => s.closeSocket e.2.socket) t
      u.watch.tasks.receivers = t.watch.tasks.receivers ∧ u.next = t.next ∧
        u.sockets = t.sockets ∧ u.tickets = t.tickets ∧ u.calls = t.calls ∧
          u.issues = t.issues ∧ u.openings = t.openings ∧ u.refusals = t.refusals := by
    intro entries
    induction entries with
    | nil => exact fun t => ⟨rfl, rfl, rfl, rfl, rfl, rfl, rfl, rfl⟩
    | cons e entries ih => exact fun t => ih (t.closeSocket e.2.socket)
  obtain ⟨hr, hn, hs, ht, hc, hi, ho, hrefusals⟩ := hfold s.entries s
  exact ⟨rfl, rfl, rfl, congrArg (· - 1) hr, hn, hs, ht, hc, hi, ho, hrefusals ▸ .refl _⟩

theorem Emptied.registered_of (h : Emptied s t) (hs : Registered s) : Registered t :=
  registered_of_empty h.entries h.registered h.interests (h.next ▸ hs.next_ne)

theorem Emptied.of_quiet (h : Emptied t u) (hq : Quiet s t) : Emptied s u where
  entries := h.entries
  registered := h.registered
  interests := h.interests
  receivers := h.receivers.trans (by rw [hq.receivers])
  next := h.next.trans hq.next
  sockets := h.sockets.trans hq.sockets
  tickets := h.tickets.trans hq.tickets
  calls := h.calls.trans hq.calls
  issues := h.issues.trans hq.issues
  openings := h.openings.trans hq.openings
  refusals := hq.refusals.trans h.refusals

theorem Emptied.quiet (h : Emptied s t) (hq : Quiet t u) : Emptied s u where
  entries := hq.entries.trans h.entries
  registered := hq.registered.trans h.registered
  interests := hq.interests.trans h.interests
  receivers := hq.receivers.trans h.receivers
  next := hq.next.trans h.next
  sockets := hq.sockets.trans h.sockets
  tickets := hq.tickets.trans h.tickets
  calls := hq.calls.trans h.calls
  issues := hq.issues.trans h.issues
  openings := hq.openings.trans h.openings
  refusals := h.refusals.trans hq.refusals

end State

end InFlight

end Dialer
