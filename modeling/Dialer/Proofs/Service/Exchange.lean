import Dialer.Proofs.Completion
import Dialer.Proofs.Service.Calling
import Mathlib.Control.Monad.Basic
import Mathlib.Logic.Function.Basic

/-!
# Connects and their completions

A connect submits a request whose continuations fill a completion. The service tells when that
happens: one of the continuations runs after the call that the request ends in, or the request is
dropped. Whoever waits asks at any time. So each completion stands where its submission does, and
once the worker that took the submission on has ended, the outcome is there to be taken.
-/

namespace Dialer

open InFlight (Handed)
open Time (Duration)

namespace Service

/-- A service, and the completions of the connects that were made of it. -/
structure Exchange where
  service : State Side
  /-- The submissions that connects made. -/
  connects : List Nat := []
  /-- What was done with the completion of each, the latest last. -/
  doings : Nat → List (Completion.Action Handed) := fun _ => []

namespace Exchange

/-- A request whose continuations fill a completion. -/
def wired (address : String) (port : UInt16) (timeout : Duration) : Request Side where
  address := address
  port := port
  timeout := timeout
  onSuccess := some .success
  onFailure := some .failure

inductive Label where
  /-- The service goes on; whoever does not connect may submit what he likes. -/
  | service (l : Service.Label Side)
  | connect (thread : Thread) (address : String) (port : UInt16) (timeout : Duration)
  | complete (submission : Nat) (a : Completion.Action Handed)

def initial (settings : Settings) : Exchange where
  service := .initial settings

def completion (x : Exchange) (n : Nat) : Completion Handed := Completion.reached (x.doings n)

/-- The connect whose continuation runs. -/
def filling? (x : Exchange) : Option Nat :=
  (x.service.table.calling?.map (·.continuation.submission)).filter (· ∈ x.connects)

/-- What can be done with the completion of a submission: the continuation that runs sends what it
was called with, and the request is discarded when it was dropped. -/
def Grants (x : Exchange) (n : Nat) : Completion.Action Handed → Prop
  | .resolve side outcome =>
    (x.service.table.calling?.map fun call => (call.continuation, call.outcome)) =
      some (⟨n, side⟩, outcome)
  | .discard => x.service.IsDropped n
  | _ => True

instance (x : Exchange) (n : Nat) (a : Completion.Action Handed) : Decidable (x.Grants n a) := by
  cases a <;> unfold Grants <;> infer_instance

/-- The continuation of a connect does not panic, and is over when no end is held. -/
def Enabled (x : Exchange) : Label → Prop
  | .service l => x.service.Enabled l ∧
      match l with
      | .leave panic => ∀ n ∈ x.filling?, panic = none ∧ (x.completion n).ends = []
      | _ => True
  | .connect thread address port timeout =>
    x.service.Enabled (.begin thread (.submit (wired address port timeout)))
  | .complete n a => n ∈ x.connects ∧ (x.completion n).Enabled a ∧ x.Grants n a

instance (x : Exchange) (l : Label) : Decidable (x.Enabled l) := by
  cases l with
  | service l => cases l <;> unfold Enabled <;> infer_instance
  | _ => unfold Enabled; infer_instance

def after (x : Exchange) : Label → Exchange
  | .service l => { x with service := x.service.after l }
  | .connect thread address port timeout =>
    { x with
      service := x.service.after (.begin thread (.submit (wired address port timeout)))
      connects := x.service.submissions :: x.connects }
  | .complete n a => { x with doings := Function.update x.doings n (x.doings n ++ [a]) }

def run (x : Exchange) (labels : List Label) : Exchange := labels.foldl after x

/-- Each step of a sequence can happen where it does. -/
def Possible (x : Exchange) : List Label → Prop
  | [] => True
  | l :: rest => x.Enabled l ∧ (x.after l).Possible rest

instance decidablePossible (x : Exchange) : (labels : List Label) → Decidable (x.Possible labels)
  | [] => .isTrue trivial
  | l :: rest =>
    haveI := decidablePossible (x.after l) rest
    inferInstanceAs (Decidable (x.Enabled l ∧ (x.after l).Possible rest))

end Exchange

/-! ### A completion and its submission -/

variable {s : State Side} {l : Service.Label Side} {n : Nat}
  {actions : List (Completion.Action Handed)} {a : Completion.Action Handed}

/-- Where a completion stands, by what became of its submission. -/
inductive Tied (s : State Side) (n : Nat) (actions : List (Completion.Action Handed)) : Prop
  | waits (hc : s.callsOf n = [])
      (hl : (Completion.reached actions).life = .unresolved)
  | dropped (hd : s.IsDropped n)
      (hl : (Completion.reached actions).life = .discarded)
  /-- The continuation runs and is about to send. -/
  | called {call : InFlight.Call (Tagged Side)} (hc : s.callsOf n = [call])
      (hr : s.table.calling? = some call)
      (hl : (Completion.reached actions).life = .unresolved)
  /-- The outcome was sent. An end is still held only while the continuation runs. -/
  | filled {call : InFlight.Call (Tagged Side)} {side : Side} (hc : s.callsOf n = [call])
      (ho : Completion.sent actions = [call.outcome])
      (hl : (Completion.reached actions).life = .resolved side)
      (he : (Completion.reached actions).ends ≠ [] → s.table.calling? = some call)

theorem State.submission_of_callsOf {call : InFlight.Call (Tagged Side)}
    (hc : s.callsOf n = [call]) : call.continuation.submission = n :=
  (State.mem_callsOf.mp (hc ▸ List.mem_singleton_self call)).2

section Service

variable (h : Tied s n actions) (hr : s.Ruled) (he : s.Enabled l)
include h hr he

theorem Tied.keeps (hc : (s.after l).table.calls = s.table.calls)
    (hcalling : ∀ call, s.table.calling? = some call → call.continuation.submission = n →
      (s.after l).table.calling? = some call ∨
        ((Completion.reached actions).life ≠ .unresolved ∧
          (Completion.reached actions).ends = [])) :
    Tied (s.after l) n actions := by
  have hcalls := State.callsOf_congr hc n
  cases h with
  | waits hc hl => exact .waits (hcalls.trans hc) hl
  | dropped hd hl => exact .dropped (hr.dropped_after he hd) hl
  | called hc hr hl =>
    refine .called (hcalls.trans hc) ?_ hl
    exact (hcalling _ hr (State.submission_of_callsOf hc)).resolve_right fun h => h.1 hl
  | filled hc ho hl hends =>
    refine .filled (hcalls.trans hc) ho hl fun hne => ?_
    exact (hcalling _ (hends hne) (State.submission_of_callsOf hc)).resolve_right fun h => hne h.2

/-- Only a submission that was neither called back nor dropped is called back. -/
theorem Tied.begins (ht : (s.after l).Ruled) {call : InFlight.Call (Tagged Side)}
    (hn : s.table.calling? = none) (hc : (s.after l).table.calls = call :: s.table.calls)
    (hcalling : (s.after l).table.calling? = some call) : Tied (s.after l) n actions := by
  have hcalls := State.callsOf_cons hc n
  split at hcalls
  · have hone := hcalls ▸ ht.callsOf_le n
    cases h with
    | waits hnil hl => exact .called (hcalls.trans (by rw [hnil])) hcalling hl
    | dropped hd => cases hcalls.symm.trans (ht.callsOf_of_dropped (hr.dropped_after he hd))
    | called hc => simp [hc] at hone
    | filled hc => simp [hc] at hone
  · cases h with
    | waits hc hl => exact .waits (hcalls.trans hc) hl
    | dropped hd hl => exact .dropped (hr.dropped_after he hd) hl
    | called _ hr => cases hn.symm.trans hr
    | filled hc ho hl hends =>
      exact .filled (hcalls.trans hc) ho hl fun hne => by cases hn.symm.trans (hends hne)

/-- A step of the service. A continuation that is left has sent, and holds no end. -/
theorem Tied.service (ht : (s.after l).Ruled)
    (hcourse : Completion.Course actions (Completion.reached actions))
    (hleave : ∀ call panic, l = .leave panic → s.table.calling? = some call →
      call.continuation.submission = n → (Completion.reached actions).ends = []) :
    Tied (s.after l) n actions := by
  cases hr.turns_after he with
  | keeps hc hcalling =>
    exact h.keeps hr he hc fun call hrun _ => .inl (hcalling.trans hrun)
  | begins hn hc hcalling => exact h.begins hr he ht hn hc hcalling
  | ends hl hc =>
    refine h.keeps hr he hc fun call hrun hsub => .inr ?_
    have hends := hleave call _ hl hrun hsub
    exact ⟨fun hu => (hcourse.of_unresolved hu).1 hends, hends⟩

end Service

/-! ### What is done with a completion -/

section Complete

variable (h : Tied s n actions) (hs : s.Reachable)
  (hcourse : Completion.Course actions (Completion.reached actions))
include h

include hs hcourse in
theorem Tied.resolve {side : Side} {outcome : InFlight.Outcome}
    {call : InFlight.Call (Tagged Side)} (hcalling : s.table.calling? = some call)
    (hcont : call.continuation = ⟨n, side⟩) (hout : call.outcome = outcome)
    (hl : (Completion.reached actions).life = .unresolved) :
    Tied s n (actions ++ [.resolve side outcome]) := by
  have hm : call ∈ s.callsOf n :=
    State.mem_callsOf.mpr ⟨(hs.calling hcalling).1, by rw [hcont]⟩
  cases h with
  | waits hc => simp [hc] at hm
  | dropped _ hl' => cases hl.symm.trans hl'
  | called hc =>
    rw [hc, List.mem_singleton] at hm
    subst hm hout
    refine .filled hc ?_ (by rw [Completion.reached_snoc]; rfl) fun _ => hcalling
    simp [hcourse.sent_eq_nil (by simp [hl]), Completion.Action.outcome?]
  | filled _ _ hl' => cases hl.symm.trans hl'

/-- What neither sends nor discards, and at most releases an end. -/
theorem Tied.same (hl : ((Completion.reached actions).after a).2.life =
      (Completion.reached actions).life)
    (he : ((Completion.reached actions).after a).2.ends ≠ [] →
      (Completion.reached actions).ends ≠ [])
    (hn : a.outcome? = none) : Tied s n (actions ++ [a]) := by
  rw [← Completion.reached_snoc] at hl he
  cases h with
  | waits hc hl' => exact .waits hc (hl.trans hl')
  | dropped hd hl' => exact .dropped hd (hl.trans hl')
  | called hc hr hl' => exact .called hc hr (hl.trans hl')
  | filled hc ho hl' hends =>
    exact .filled hc (by simp [ho, hn]) (hl.trans hl') fun hne => hends (he hne)

end Complete

namespace Exchange

variable {x : Exchange} {l : Label} {labels : List Label} {g : Nat}

theorem run_snoc (x : Exchange) (labels : List Label) (l : Label) :
    x.run (labels ++ [l]) = (x.run labels).after l := List.foldl_append

theorem possible_snoc :
    x.Possible (labels ++ [l]) ↔ x.Possible labels ∧ (x.run labels).Enabled l := by
  induction labels generalizing x with
  | nil => exact ⟨fun h => ⟨trivial, h.1⟩, fun h => ⟨h.2, trivial⟩⟩
  | cons m labels ih => exact (and_congr_right fun _ => ih).trans and_assoc.symm

/-- The laws of a service with completions. -/
structure Linked (x : Exchange) : Prop where
  reachable : x.service.Reachable
  known : ∀ n ∈ x.connects, n < x.service.submissions
  untouched : ∀ n ∉ x.connects, x.doings n = []
  possible : ∀ n, ({} : Completion Handed).Possible (x.doings n)
  tied : ∀ n ∈ x.connects, Tied x.service n (x.doings n)

theorem linked_initial (settings : Settings) : Linked (initial settings) where
  reachable := .initial settings
  known := fun _ hm => absurd hm List.not_mem_nil
  untouched := fun _ _ => rfl
  possible := fun _ => trivial
  tied := fun _ hm => absurd hm List.not_mem_nil

theorem Linked.course (h : Linked x) (n : Nat) :
    Completion.Course (x.doings n) (x.completion n) :=
  Completion.course_of_possible (h.possible n)

theorem submissions_submit (s : State Side) (thread : Thread) (request : Request Side) :
    (s.begin thread (.submit request)).submissions = s.submissions + 1 := by
  simp only [State.begin]
  split <;> rfl

theorem Linked.tied_after (h : Linked x) {l : Service.Label Side} (he : x.Enabled (.service l))
    (hm : n ∈ x.connects) : Tied (x.service.after l) n (x.doings n) := by
  refine (h.tied n hm).service h.reachable.ruled he.1 (h.reachable.step he.1).ruled (h.course n) ?_
  rintro call panic rfl hcalling hsub
  exact (he.2 n (by simp [filling?, hcalling, hsub, hm])).2

theorem Linked.service (h : Linked x) {l : Service.Label Side} (he : x.Enabled (.service l)) :
    Linked (x.after (.service l)) where
  reachable := h.reachable.step he.1
  known := fun _ hm => Nat.lt_of_lt_of_le (h.known _ hm)
    (State.passes_after h.reachable.ruled.manned.sound he.1).books.submissions_le
  untouched := h.untouched
  possible := h.possible
  tied := fun _ hm => h.tied_after he hm

theorem Linked.connect (h : Linked x) {thread : Thread} {address : String} {port : UInt16}
    {timeout : Duration} (he : x.Enabled (.connect thread address port timeout)) :
    Linked (x.after (.connect thread address port timeout)) := by
  have hsubmit : x.Enabled (.service (.begin thread (.submit (wired address port timeout)))) :=
    ⟨he, trivial⟩
  have hlast := h.service hsubmit
  have hcount := submissions_submit x.service thread (wired address port timeout)
  have hnew : x.doings x.service.submissions = [] :=
    h.untouched _ fun hm => Nat.lt_irrefl _ (h.known _ hm)
  have hr := h.reachable.ruled
  refine ⟨hlast.reachable, fun n hm => ?_, fun n hn => ?_, h.possible, fun n hm => ?_⟩
  · rcases List.mem_cons.mp hm with rfl | hm
    · exact Nat.lt_of_lt_of_eq (Nat.lt_succ_self _) hcount.symm
    · exact hlast.known n hm
  · exact h.untouched n fun hm => hn (List.mem_cons_of_mem _ hm)
  · rcases List.mem_cons.mp hm with rfl | hm
    · have hwaits : Tied x.service x.service.submissions (x.doings x.service.submissions) :=
        .waits hr.callsOf_submissions (by rw [hnew]; rfl)
      exact hwaits.service hr he hlast.reachable.ruled (h.course _) (by rintro call panic ⟨⟩)
    · exact hlast.tied n hm

theorem Linked.tied_complete (h : Linked x) {a : Completion.Action Handed}
    (he : x.Enabled (.complete n a)) : Tied x.service n (x.doings n ++ [a]) := by
  obtain ⟨hm, ha, hg⟩ := he
  have htied := h.tied n hm
  obtain ⟨hlife, hends, -⟩ := Completion.ask_same (Completion.reached (x.doings n))
  cases a with
  | resolve side outcome =>
    obtain ⟨call, hcalling, heq⟩ := Option.map_eq_some_iff.mp hg
    obtain ⟨hcont, hout⟩ := Prod.mk.inj heq
    exact htied.resolve h.reachable (h.course n) hcalling hcont hout ha
  | discard => exact .dropped hg (by rw [Completion.reached_snoc]; rfl)
  | release =>
    refine htied.same rfl ?_ rfl
    exact mt fun hnil => by simp [Completion.after, Completion.release, hnil]
  | ask => exact htied.same hlife (hends ▸ id) rfl
  | wait => exact htied.same hlife (hends ▸ id) rfl
  | dropHandle => exact htied.same rfl id rfl

theorem Linked.complete (h : Linked x) {a : Completion.Action Handed}
    (he : x.Enabled (.complete n a)) : Linked (x.after (.complete n a)) := by
  have htied := h.tied_complete he
  obtain ⟨hm, ha, -⟩ := he
  have hdone : (x.after (.complete n a)).doings n = x.doings n ++ [a] := Function.update_self _ _ _
  have hother : ∀ k, k ≠ n → (x.after (.complete n a)).doings k = x.doings k :=
    fun k hk => Function.update_of_ne hk _ _
  refine ⟨h.reachable, h.known, fun k hk => ?_, fun k => ?_, fun k hk => ?_⟩
  · rw [hother k fun heq => hk (heq ▸ hm)]
    exact h.untouched k hk
  · by_cases heq : k = n
    · rw [heq, hdone]
      exact Completion.possible_snoc.mpr ⟨h.possible n, ha⟩
    · rw [hother k heq]
      exact h.possible k
  · by_cases heq : k = n
    · rw [heq, hdone]
      exact htied
    · rw [hother k heq]
      exact h.tied k hk

theorem Linked.after (h : Linked x) (he : x.Enabled l) : Linked (x.after l) := by
  cases l with
  | service l => exact h.service he
  | connect thread address port timeout => exact h.connect he
  | complete n a => exact h.complete he

theorem linked_run (settings : Settings) (hp : (initial settings).Possible labels) :
    Linked ((initial settings).run labels) := by
  induction labels using List.reverseRecOn with
  | nil => exact linked_initial settings
  | append_singleton labels l ih =>
    obtain ⟨hp, he⟩ := possible_snoc.mp hp
    exact run_snoc _ labels l ▸ (ih hp).after he

/-! ### What a connect comes to -/

/-- Whoever asks next is told what the continuation was called with. -/
def Yields (x : Exchange) (n : Nat) : Prop :=
  ∃ call, x.service.callsOf n = [call] ∧ ∀ a : Completion.Action Handed, a.isQuery →
    x.Enabled (.complete n a) ∧ ((x.completion n).after a).1 = some call.outcome

/-- What holds of a connect at any time. -/
structure Delivers (x : Exchange) (n : Nat) : Prop where
  possible : ({} : Completion Handed).Possible (x.doings n)
  /-- What is sent is what the one continuation that is called was called with. -/
  sent : Completion.sent (x.doings n) <+: (x.service.callsOf n).map (·.outcome)
  discarded : (x.completion n).life = .discarded → x.service.IsDropped n
  /-- The continuation can send at once when it runs, whether or not anybody still waits. -/
  room : ∀ call, x.service.table.calling? = some call → call.continuation.submission = n →
    (x.completion n).life = .unresolved → (x.completion n).slot = none ∧
      x.Enabled (.complete n (.resolve call.continuation.continuation call.outcome))
  /-- Once it is over no end is held, so that whoever asks is answered. -/
  released : ∀ side, (x.completion n).life = .resolved side →
    (∀ call, x.service.table.calling? = some call → call.continuation.submission ≠ n) →
      (x.completion n).ends = []
  /-- Once the worker has ended, an outcome that was not taken is there, if the worker issued the
  request; and it did unless a panic that nothing contained ended it. -/
  ended : ∀ g, (n, g) ∈ x.service.accepts → x.service.HasEnded g → (x.completion n).handle →
    Completion.taken {} (x.doings n) = [] →
      (x.Yields n ↔ x.service.IsIssued n) ∧ (¬ x.service.Crashed g → x.Yields n)

theorem Linked.sent_of_called (h : Linked x) (hm : n ∈ x.connects) :
    Completion.sent (x.doings n) <+: (x.service.callsOf n).map (·.outcome) := by
  have hnothing : (∀ side, (x.completion n).life ≠ .resolved side) →
      Completion.sent (x.doings n) <+: (x.service.callsOf n).map (·.outcome) := fun hl =>
    (h.course n).sent_eq_nil hl ▸ List.nil_prefix
  cases h.tied n hm with
  | waits _ hl => exact hnothing fun side heq => by cases hl.symm.trans heq
  | dropped _ hl => exact hnothing fun side heq => by cases hl.symm.trans heq
  | called _ _ hl => exact hnothing fun side heq => by cases hl.symm.trans heq
  | filled hc ho => rw [hc, ho]; exact List.prefix_rfl

theorem Linked.not_calling (h : Linked x) (ha : (n, g) ∈ x.service.accepts)
    (he : x.service.HasEnded g) {call : InFlight.Call (Tagged Side)}
    (hcalling : x.service.table.calling? = some call) (hsub : call.continuation.submission = n) :
    False := by
  have hr := h.reachable.ruled
  subst hsub
  obtain rfl := hr.booked.generation_unique ha (h.reachable.calling hcalling).2
  exact hr.not_isForeign_of_ended he (hr.isForeign_of_calling hcalling)

theorem Linked.sent_eq (h : Linked x) (hm : n ∈ x.connects) (ha : (n, g) ∈ x.service.accepts)
    (he : x.service.HasEnded g) {call : InFlight.Call (Tagged Side)}
    (hc : x.service.callsOf n = [call]) : Completion.sent (x.doings n) = [call.outcome] := by
  cases h.tied n hm with
  | waits hc' => cases hc.symm.trans hc'
  | dropped hd => cases hc.symm.trans (h.reachable.ruled.callsOf_of_dropped hd)
  | called hc' hcalling =>
    exact (h.not_calling ha he hcalling (State.submission_of_callsOf hc')).elim
  | filled hc' ho =>
    obtain rfl := (List.cons.inj (hc.symm.trans hc')).1
    exact ho

theorem Linked.yields_iff (h : Linked x) (hm : n ∈ x.connects) (ha : (n, g) ∈ x.service.accepts)
    (he : x.service.HasEnded g) (hh : (x.completion n).handle)
    (ht : Completion.taken {} (x.doings n) = []) : x.Yields n ↔ x.service.IsIssued n := by
  have hr := h.reachable.ruled
  constructor
  · rintro ⟨call, hc, -⟩
    exact hr.isIssued_of_called (by simp [hc])
  · intro hi
    obtain ⟨call, hc⟩ := List.length_eq_one_iff.mp ((hr.called_iff_issued ha he).mpr hi)
    have hslot := (h.course n).slot_eq (h.sent_eq hm ha he hc) ht hh
    have hask : (x.completion n).ask.1 = some call.outcome := by
      rw [Completion.ask, hslot]
    refine ⟨call, hc, fun a hq => ⟨⟨hm, ?_, ?_⟩, ?_⟩⟩
    · cases a with
      | ask => exact hh
      | wait => exact ⟨hh, by rw [hask]; rfl⟩
      | _ => cases hq
    · cases a with
      | ask => trivial
      | wait => trivial
      | _ => cases hq
    · rw [Completion.answer_of_isQuery _ hq, hask]

theorem Linked.delivers (h : Linked x) (hm : n ∈ x.connects) : Delivers x n where
  possible := h.possible n
  sent := h.sent_of_called hm
  discarded := by
    intro hl
    cases h.tied n hm with
    | dropped hd => exact hd
    | waits _ hl' => cases hl.symm.trans hl'
    | called _ _ hl' => cases hl.symm.trans hl'
    | filled _ _ hl' => cases hl.symm.trans hl'
  room := by
    rintro call hcalling rfl hl
    exact ⟨((h.course _).of_unresolved hl).2.1, hm, hl, by simp [Grants, hcalling]⟩
  released := by
    intro side hl hover
    cases h.tied n hm with
    | filled hc _ _ hends =>
      by_contra hne
      exact hover _ (hends hne) (State.submission_of_callsOf hc)
    | waits _ hl' => cases hl.symm.trans hl'
    | dropped _ hl' => cases hl.symm.trans hl'
    | called _ _ hl' => cases hl.symm.trans hl'
  ended := by
    intro g ha he hh ht
    have hiff := h.yields_iff hm ha he hh ht
    exact ⟨hiff, fun hc => hiff.mpr (h.reachable.ruled.isIssued_of_ended ha he hc)⟩

/-- Whatever is done with a completion, and in whichever order: at most one outcome is sent and it
is taken at most once; a query gets nothing only while an end is held and no outcome is there, and is
told that the request was aborted without that having been sent only if the outcome was taken or the
request discarded; and the one send finds room. Whatever the threads of a service do besides: the
completion of a connect is filled with what its continuation is called with. Once the worker that
the connect was accepted for has ended, an outcome that was not taken is what the next query gives,
if the worker issued the request, and it issued it unless a panic that nothing contained ended the
worker. -/
theorem connects_deliver (settings : Settings) :
    (∀ (α : Type) (actions : List (Completion.Action α)),
      ({} : Completion α).Possible actions → Completion.Delivers actions) ∧
    ∀ labels, (initial settings).Possible labels →
      ∀ n ∈ ((initial settings).run labels).connects,
        Delivers ((initial settings).run labels) n :=
  ⟨fun _ _ => Completion.delivers, fun _ hp _ hm => (linked_run settings hp).delivers hm⟩

/-- A connect that the system refuses at once, and a stop that waits for the worker. -/
theorem connect_delivers_after_stop :
    let answers : Answers := { reply := { connect := some .connectionRefused } }
    let outcome : InFlight.Outcome := .error (.connectFailed .connectionRefused)
    let proceed (n : Nat) : List Label := .replicate n (.service (.proceed (.caller 0) {}))
    let labels : List Label := [.service (.begin (.caller 0) .start)] ++ proceed 3 ++
      [.connect (.caller 0) "127.0.0.1" 80 (.ofMillis 0)] ++ proceed 4 ++
      .replicate 7 (.service (.work answers)) ++ [.complete 0 (.resolve .failure outcome),
        .complete 0 .release, .complete 0 .release, .service (.leave none)] ++
      [.service (.begin (.caller 0) .stop)] ++ proceed 3 ++
      .replicate 24 (.service (.work answers)) ++ proceed 2
    let x := (initial { eventCapacity := 1 }).run labels
    x.service.HasEnded 0 ∧ x.Yields 0 := by
  intro answers outcome proceed labels x
  have hp : (initial { eventCapacity := 1 }).Possible labels := by decide
  have hm : 0 ∈ x.connects := by decide
  have ha : (0, 0) ∈ x.service.accepts := by decide
  have hj : x.service.joins = [(0, false)] := by decide
  have hw : x.service.worker.map (·.panicked) = some false := by decide
  have he : x.service.HasEnded 0 := .inl ⟨false, by rw [hj]; exact List.mem_cons_self⟩
  have hd : Delivers x 0 := (connects_deliver { eventCapacity := 1 }).2 labels hp 0 hm
  refine ⟨he, (hd.ended 0 ha he (by decide) (by decide)).2 ?_⟩
  rintro (hc | ⟨w, hw', -, hp⟩)
  · simp [hj] at hc
  · simp [hw', hp] at hw

/-- A panic that throws again when it is got rid of ends the worker, here in the call for an attempt
that took too long. To whoever waits for a connect that was accepted meanwhile, no outcome was sent
when the stop has returned, and once the request is discarded the answer is that it was aborted. -/
theorem connect_lost_in_panic :
    let request : Request Side := ⟨"127.0.0.1", 80, .ofMillis 0, some .success, some .failure⟩
    let answers : Answers := { reply := { connect := some .nowInProgress } }
    let proceed (n : Nat) : List Label := .replicate n (.service (.proceed (.caller 0) {}))
    let labels : List Label := [.service (.begin (.caller 0) .start)] ++ proceed 3 ++
      [.service (.begin (.caller 0) (.submit request))] ++ proceed 4 ++
      .replicate 15 (.service (.work answers)) ++
      [.connect (.caller 0) "127.0.0.1" 80 (.ofMillis 0)] ++ proceed 4 ++
      [.service (.leave (some (.volatile none (.plain none)))),
        .service (.begin (.caller 0) .stop)] ++ proceed 3 ++
      .replicate 3 (.service (.work answers)) ++ proceed 2 ++
      [.complete 1 .discard, .complete 1 .release, .complete 1 .release]
    let x := (initial { eventCapacity := 1 }).run labels
    (initial { eventCapacity := 1 }).Possible labels ∧ (1, 0) ∈ x.service.accepts ∧
      x.service.HasEnded 0 ∧ (x.completion 1).handle ∧ Completion.taken {} (x.doings 1) = [] ∧
      (x.service.callsOf 1).length = 0 ∧ Completion.sent (x.doings 1) = [] ∧
      (x.completion 1).ask.1 = some (.error .aborted) := by
  intro request answers proceed labels x
  have hp : (initial { eventCapacity := 1 }).Possible labels := by decide
  have hj : x.service.joins = [(0, true)] := by decide
  refine ⟨hp, by decide, .inl ⟨true, ?_⟩, by decide, by decide, by decide, by decide,
    by decide⟩
  rw [hj]
  exact List.mem_cons_self

end Exchange

end Service

end Dialer
