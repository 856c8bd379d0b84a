import Dialer.InFlight.State

/-!
# Operations on the table of attempts

An operation answers with a number or a token, and leaves behind the frames in which it goes on: a
batch is always put together before its first attempt is resolved. The system's part is given to
each operation: its answers to a connect, its report of ready sockets with a look at each of them,
and its clock. So is the order in which a walk over the table comes to its attempts, of which
nothing is known.
-/

namespace Dialer.InFlight.State

open Address (SocketAddress)
open Readiness (Token)
open Time (Duration Instant)

variable {κ τ : Type}

/-- Puts a socket whose handshake is under way into the table. If the system refuses to watch it,
the socket is closed and the request fails. -/
def track (s : State κ τ) (ticket : Nat) (continuations : Continuations κ)
    (address : SocketAddress) (timeout : Duration) (socket : Nat) (registration : Option Fault)
    (now : Instant) : Option Token × State κ τ :=
  let (token, s) := s.allocate
  let added : Except Fault (Readiness.Watch τ) := match registration with
    | some fault => .error fault
    | none => s.watch.add socket token
  match added with
  | .error fault =>
    (none, ((s.note (.unregistered address fault)).closeSocket socket).fail ticket continuations
      (some address) (.connectFailed fault))
  | .ok watch =>
    let s := s.note (.tracked address token timeout)
    (some token, { s with
      watch := watch
      entries := s.entries ++ [(token, ⟨ticket, socket, address, now, timeout, continuations⟩)] })

def dial (s : State κ τ) (ticket : Nat) (continuations : Continuations κ)
    (address : SocketAddress) (timeout : Duration) (reply : Reply) (now : Instant) :
    Option Token × State κ τ :=
  let s := s.publish (.attempting address)
  match reply.dialled with
  | .unmade fault =>
    (none, (s.note (.rejected address fault)).fail ticket continuations (some address)
      (.connectFailed fault))
  | .rejected fault =>
    (none, (((s.openSocket ticket).closeSocket s.sockets).note (.rejected address fault)).fail
      ticket continuations (some address) (.connectFailed fault))
  | .established =>
    (none, ((s.openSocket ticket).note (.immediate address)).handOff ticket continuations address
      s.sockets reply.preparation)
  | .inProgress =>
    (s.openSocket ticket).track ticket continuations address timeout s.sockets reply.registration
      now

/-- Issues a request. The answer is the token of an attempt that is in flight now; otherwise the
request resolves at once, or is dropped if it has not both continuations. -/
def attempt (s : State κ τ) (request : Request κ) (reply : Reply) (now : Instant) :
    Option Token × State κ τ :=
  match request.continuations? with
  | none => (none, s.note .ignored)
  | some continuations =>
    let ticket := s.tickets
    let s := { s with tickets := ticket + 1 }.note (.issued ticket request)
    match Target.ofRequest request.address request.port with
    | .error error =>
      (none, (s.note (.unusable request.address request.port error)).fail ticket continuations none
        (.connectFailed (.custom .invalidInput (.target error))))
    | .ok target => s.dial ticket continuations target.address request.timeout reply now

/-- Resolves the attempt under a token, if there is still one. Its place is given up first, its
continuation is called last. -/
def resolve (s : State κ τ) (token : Token) (cause : Cause) (release : Release) : State κ τ :=
  match s.entry? token with
  | none => s
  | some e =>
    let s := s.untrack token e release.removal
    match cause with
    | .established =>
      (s.note (.established e.address)).handOff e.ticket e.continuations e.address e.socket
        release.preparation
    | .broken fault =>
      ((s.note (.broken e.address fault)).closeSocket e.socket).fail e.ticket e.continuations
        (some e.address) (.connectFailed fault)
    | .timedOut =>
      ((s.note (.timedOut e.address e.timeout)).closeSocket e.socket).fail e.ticket e.continuations
        (some e.address) (.timeout e.timeout)
    | .aborted =>
      (s.closeSocket e.socket).fail e.ticket e.continuations (some e.address) .aborted

/-- The part of a report that concerns attempts in flight. -/
def relevant (s : State κ τ) (report : List (Token × Verdict)) : List (Token × Verdict) :=
  let heard := s.watch.heard (report.map (·.1))
  report.filter fun r => r.1 ∈ heard ∧ s.isPending r.1

/-- The attempts that a report resolves, in its order. -/
def finished (s : State κ τ) (report : List (Token × Verdict)) : List (Token × Cause) :=
  (s.relevant report).filterMap fun r => (Cause.ofVerdict? r.2).map (r.1, ·)

/-- The attempts that a report names although their handshake goes on. -/
def spurious (s : State κ τ) (report : List (Token × Verdict)) : List Token :=
  ((s.relevant report).filter (·.2 = .pending)).map (·.1)

/-- Takes a report of the system, with a look at each socket it names, and resolves the attempts
whose handshake is over. The answer is their number. An interrupted wait reports nothing. -/
def poll (s : State κ τ) (report : Except Fault (List (Token × Verdict))) : Nat × State κ τ :=
  match report with
  | .ok report =>
    let batch := s.finished report
    (batch.length, ((s.spurious report).foldl (fun s t => s.note (.spurious t)) s).push
      (.settling batch))
  | .error fault =>
    (0, if fault.kind = .interrupted then s else s.note (.waitFailed fault))

def due (s : State κ τ) (now : Instant) : List (Token × Cause) :=
  (s.entries.filter fun e => e.2.timeout.nanos ≤ (now.since e.2.started).nanos).map
    fun e => (e.1, .timedOut)

/-- A batch in another order: what `order` names comes first, as it is named there. -/
def arrange : List Token → List (Token × Cause) → List (Token × Cause)
  | [], batch => batch
  | token :: order, batch =>
    batch.filter (·.1 = token) ++ arrange order (batch.filter (·.1 ≠ token))

/-- Resolves the attempts whose time is over at `now`. The answer is their number. -/
def expire (s : State κ τ) (now : Instant) (order : List Token) : Nat × State κ τ :=
  let batch := arrange order (s.due now)
  (batch.length, s.push (.settling batch))

/-- Resolves every attempt. The answer is their number. -/
def abort (s : State κ τ) (order : List Token) : Nat × State κ τ :=
  let batch := arrange order (s.tokens.map fun token => (token, Cause.aborted))
  let s := if batch.isEmpty then s else s.note (.aborting batch.length)
  (batch.length, s.push (.settling batch))

def drain (s : State κ τ) : State κ τ := s.push (.draining 0)

/-- Gives the table up, and first every attempt. -/
def close (s : State κ τ) (order : List Token) : State κ τ :=
  let s := s.push .closing
  if s.entries.isEmpty then s else (s.abort order).2

/-- Publishes on another channel from now on, or on none. -/
def watchOn (s : State κ τ) (monitor : Option Nat) : State κ τ :=
  { s with monitor := monitor }

/-- Leaves a task for the table, or gives it back if the table was given up. -/
def enqueue (s : State κ τ) (task : τ) : Except τ (State κ τ) :=
  (s.watch.enqueue task).map fun watch => { s with watch := watch }.note (.accepted task)

def takeTask (s : State κ τ) : Option τ × State κ τ :=
  match s.watch.nextTask? with
  | none => (none, s)
  | some (task, watch) => (some task, { s with watch := watch }.note (.taken task))

/-- Goes on in the innermost frame, where that is a loop of the table itself. -/
def advance (s : State κ τ) (release : Release) : State κ τ :=
  match s.frames with
  | .settling [] :: rest => { s with frames := rest }
  | .settling ((token, cause) :: batch) :: rest =>
    { s with frames := .settling batch :: rest }.resolve token cause release
  | .draining taken :: rest =>
    match s.takeTask with
    | (none, s) => { s with frames := rest }.note (.drained taken)
    | (some task, s) =>
      { s with frames := .task task :: .draining (taken + 1) :: rest }.note (.started task)
  | .closing :: rest => { s.shut with frames := rest }
  | _ => s

/-- Foreign code in the innermost frame is over: it returned, or it ended in a panic. -/
def leave (s : State κ τ) (panic : Option Panic) : State κ τ :=
  match panic with
  | none => { s with frames := s.frames.tail }
  | some panic => unwind panic s.frames s

/-- The table as a value: how many attempts there are, and its watch. -/
def shown (s : State κ τ) : Text.Shown :=
  .record "ConnectionTracker" [
    ("pending", .atom (Text.decimal s.entries.length)),
    ("poller", s.watch.shown)]

theorem arrange_perm (order : List Token) (batch : List (Token × Cause)) :
    (arrange order batch).Perm batch := by
  induction order generalizing batch with
  | nil => exact .refl _
  | cons token order ih =>
    have hsplit := List.filter_append_perm (fun r : Token × Cause => r.1 = token) batch
    simp only [← decide_not] at hsplit
    exact ((ih _).append_left _).trans hsplit

@[simp] theorem mem_arrange {order : List Token} {batch : List (Token × Cause)}
    {r : Token × Cause} : r ∈ arrange order batch ↔ r ∈ batch :=
  (arrange_perm order batch).mem_iff

@[simp] theorem length_arrange (order : List Token) (batch : List (Token × Cause)) :
    (arrange order batch).length = batch.length :=
  (arrange_perm order batch).length_eq

@[simp] theorem arrange_nil (order : List Token) : arrange order [] = [] :=
  (arrange_perm order []).eq_nil

/-- A walk may come to what a batch has in any order. -/
theorem arrange_of_perm {batch other : List (Token × Cause)} (h : other.Perm batch)
    (hn : (batch.map (·.1)).Nodup) : arrange (other.map (·.1)) batch = other := by
  induction other generalizing batch with
  | nil => exact h.symm.eq_nil
  | cons r other ih =>
    have hfresh : ∀ x ∈ other, x.1 ≠ r.1 := fun x hx heq => by
      have hnodup := (h.map (·.1)).nodup_iff.mpr hn
      rw [List.map_cons, List.nodup_cons] at hnodup
      exact hnodup.1 (heq ▸ List.mem_map_of_mem hx)
    have hnone : other.filter (·.1 = r.1) = [] := List.filter_eq_nil_iff.mpr (by simpa using hfresh)
    have hall : other.filter (·.1 ≠ r.1) = other := List.filter_eq_self.mpr (by simpa using hfresh)
    have hfront : batch.filter (·.1 = r.1) = [r] := by
      have hperm := h.filter (·.1 = r.1)
      rw [List.filter_cons_of_pos (by simp), hnone] at hperm
      exact (List.singleton_perm.mp hperm).symm
    have hback : other.Perm (batch.filter (·.1 ≠ r.1)) := by
      have hperm := h.filter (·.1 ≠ r.1)
      rwa [List.filter_cons_of_neg (by simp), hall] at hperm
    rw [List.map_cons, arrange, hfront, List.singleton_append,
      ih hback (hn.sublist (List.filter_sublist.map _))]

end Dialer.InFlight.State
