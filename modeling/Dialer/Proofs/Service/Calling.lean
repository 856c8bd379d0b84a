import Dialer.Proofs.Service.Channels
import Dialer.Proofs.Service.Deeds
import Dialer.Proofs.Service.Sole

/-!
# The call that is under way

At most one continuation runs, and no other is called before it is over. The call that is under way
is one of the calls on record, made for a submission that the worker there is now was given. It goes
on through whatever other threads do, until its continuation is left.
-/

namespace Dialer

open Readiness (Token)
open Time (Instant)

namespace InFlight.State

variable {κ τ : Type} {s t : State κ τ} {call : Call κ}

/-- The call whose continuation runs. -/
def calling? (s : State κ τ) : Option (Call κ) :=
  match s.frames with
  | .calling call :: _ => some call
  | _ => none

theorem calling?_congr (hf : t.frames = s.frames) : t.calling? = s.calling? := by
  rw [calling?, calling?, hf]

theorem calling?_of_frames {rest : List (Frame κ τ)} (hf : s.frames = .calling call :: rest) :
    s.calling? = some call := by
  rw [calling?, hf]

theorem calling?_of_rests (h : Rests s.frames) : s.calling? = none := by
  unfold calling?
  generalize s.frames = frames at h
  cases h with
  | nil => rfl
  | task => rfl

/-- What going on comes to: one continuation is called and runs now, or none is and none runs. -/
inductive CallsBack (s t : State κ τ) : Prop
  | none (hc : t.calls = s.calls) (hr : t.calling? = none)
  | one {call : Call κ} (hc : t.calls = call :: s.calls) (hr : t.calling? = some call)

theorem Lawful.attempt_callsBack (h : Lawful s) (hroom : s.hasRoom) (hn : s.calling? = none)
    (request : Request κ) (reply : Reply) (now : Instant) :
    CallsBack s (s.attempt request reply now).2 := by
  cases hc : request.continuations? with
  | none =>
    rw [attempt_incomplete hc]
    exact .none rfl hn
  | some c =>
    obtain ⟨-, ⟨-, call, ha⟩ | ⟨token, e, -, hb⟩⟩ :=
      h.registered.attempt_complete hroom hc reply now
    · exact .one ha.calls (calling?_of_frames ha.frames)
    · exact .none hb.calls ((calling?_congr hb.frames).trans hn)

theorem Lawful.advance_callsBack (h : Lawful s) (hf : s.frames ≠ []) (hn : ¬ s.isForeign)
    (release : Release) : CallsBack s (s.advance release) := by
  have hstacked := h.ordered.stacked
  obtain ⟨f, rest, hs⟩ := List.exists_cons_of_ne_nil hf
  rw [hs] at hstacked
  cases f with
  | settling batch =>
    cases batch with
    | nil =>
      have hadv : s.advance release = { s with frames := rest } := by
        simp only [State.advance, hs]
      have hcarries : Carries rest := by
        cases hstacked with
        | rests h => cases h
        | settling _ h => exact h
      refine hadv ▸ .none rfl ?_
      rcases hcarries with hrests | rfl
      · exact calling?_of_rests hrests
      · rfl
    | cons item batch =>
      obtain ⟨token, cause⟩ := item
      rcases h.advance_settling_cases hs release with ⟨-, heq⟩ | ⟨e, call, -, hcon⟩
      · exact heq ▸ .none rfl rfl
      · exact .one hcon.calls (calling?_of_frames hcon.frames)
  | draining taken =>
    obtain ⟨hq, hrests⟩ := h.advance_draining hs release
    exact .none hq.calls (calling?_of_rests hrests)
  | closing =>
    have hadv : s.advance release = { s.shut with frames := rest } := by
      simp only [State.advance, hs]
    obtain rfl : rest = [] := by
      cases hstacked with
      | rests h => cases h
      | closing => rfl
    exact hadv ▸ .none (emptied_shut s).calls rfl
  | task job => simp [isForeign, hs] at hn
  | calling call => simp [isForeign, hs] at hn

end InFlight.State

namespace Service

open InFlight.State (CallsBack calling?_congr calling?_of_frames calling?_of_rests)

variable {κ : Type}

namespace Duty

variable {d : Duty κ}

theorem isForeign_iff : d.isForeign ↔ d.table.calling?.isSome := by
  unfold isForeign InFlight.State.calling?
  cases d.table.frames with
  | nil => simp
  | cons f rest => cases f <;> simp

theorem calling?_of_not_isForeign (hn : ¬ d.isForeign) : d.table.calling? = none := by
  rw [isForeign_iff] at hn
  exact Option.not_isSome_iff_eq_none.mp hn

theorem enter_callsBack {table : Table κ} (hf : table.frames = []) (answers : Answers)
    (stage : Stage) : CallsBack table (enter table answers stage) := by
  have hnone : table.calling? = none := by rw [InFlight.State.calling?, hf]
  have hpoll : CallsBack table (table.poll answers.report).2 := by
    unfold InFlight.State.poll
    split
    · exact .none (InFlight.State.Quiet.foldl_note _ _).1.calls rfl
    · split
      · exact .none rfl hnone
      · exact .none rfl hnone
  cases stage with
  | wait => exact hpoll
  | reconcile => exact hpoll
  | serve => exact .none rfl rfl
  | lastServe => exact .none rfl rfl
  | expire => exact .none rfl rfl
  | abort => exact .none (InFlight.State.quiet_abort table _).calls rfl
  | close =>
    refine .none (InFlight.State.quiet_close table _).calls ?_
    simp only [enter, InFlight.State.close]
    split <;> rfl
  | head => exact .none rfl hnone
  | gone => exact .none rfl hnone
  | dead => exact .none rfl hnone

theorem Sound.work_callsBack (h : Sound d) (hw : d.canWork) (answers : Answers) :
    CallsBack d.table (d.work answers).table := by
  have hnone := calling?_of_not_isForeign (not_isForeign_of_canWork hw)
  unfold Duty.work
  unfold canWork at hw
  split
  · next hf =>
    simp only [workBetween]
    split
    · exact .none rfl hnone
    · split
      · exact .none rfl hnone
      · exact enter_callsBack hf answers _
  · next job rest hf =>
    obtain ⟨-, taken, rfl⟩ := h.staged.of_task hf
    cases hb : d.worker.begun with
    | true =>
      refine .none rfl ?_
      simp [Duty.setBegun, InFlight.State.leave, InFlight.State.calling?, hf]
    | false =>
      cases job with
      | dial request =>
        rw [hf] at hw
        exact h.kept.lawful.attempt_callsBack (by simpa [hb] using hw) hnone request _ _
      | watchOn channel => exact .none rfl hnone
      | halt => exact .none rfl hnone
  · next call rest hf => simp [hf] at hw
  · next hnil htask hcalling =>
    refine h.kept.lawful.advance_callsBack hnil ?_ _
    obtain ⟨f, rest, hf⟩ := List.exists_cons_of_ne_nil hnil
    cases f with
    | task job => exact absurd hf (htask job rest)
    | calling call => exact absurd hf (hcalling call rest)
    | _ => simp [InFlight.State.isForeign, hf]

theorem Sound.leave_calls (h : Sound d) (hn : d.isForeign) (panic : Option Panic) :
    (d.leave panic).table.calls = d.table.calls ∧ (d.leave panic).table.calling? = none := by
  obtain ⟨call, rest, hf⟩ := exists_calling hn
  have hforeign : d.table.isForeign := by simp [InFlight.State.isForeign, hf]
  rw [leave_table]
  constructor
  · cases (h.kept.lawful.leave hforeign panic).2 with
    | quiet _ hq => exact hq.calls
    | answered ha => cases ha
    | begun ha => cases ha
    | concluded ha => cases ha
    | emptied _ he => exact he.calls
  · unfold InFlight.State.calling?
    rcases leave_cases h.staged.runs h.kept.lawful hf panic with
      ⟨-, -, hleft | ⟨job, taken, -, hleft⟩⟩ | ⟨-, -, hnil⟩
    · rw [hleft]
      rcases h.staged.of_calling hf with ⟨-, -, batch, rfl⟩ | ⟨-, -, job, taken, rfl⟩ |
        ⟨-, -, batch, rfl⟩ <;> rfl
    · rw [hleft]
    · rw [hnil]

end Duty

namespace State

variable {s t : State κ} {l : Label κ} {n g : Nat} {call : InFlight.Call (Tagged κ)}

/-! ### Steps of the service -/

/-- What a step does to the call that is under way. -/
inductive Turns (s : State κ) (l : Label κ) : Prop
  | keeps (hc : (s.after l).table.calls = s.table.calls)
      (hr : (s.after l).table.calling? = s.table.calling?)
  | begins {call : InFlight.Call (Tagged κ)} (hn : s.table.calling? = none)
      (hc : (s.after l).table.calls = call :: s.table.calls)
      (hr : (s.after l).table.calling? = some call)
  | ends {panic : Option Panic} (hl : l = .leave panic)
      (hc : (s.after l).table.calls = s.table.calls) (hr : (s.after l).table.calling? = none)

theorem calls_onDuty (change : Duty κ → Duty κ) {w : Worker} (hw : s.worker = some w) :
    (s.onDuty change).table.calls = (change ⟨s.table, w⟩).table.calls ∧
      (s.onDuty change).table.calling? = (change ⟨s.table, w⟩).table.calling? := by
  simp only [onDuty, hw]
  split <;> exact ⟨rfl, rfl⟩

theorem isForeign_iff : s.isForeign ↔ s.worker.isSome ∧ s.table.calling?.isSome := by
  unfold isForeign
  cases s.worker with
  | none => simp
  | some w => simp [Duty.isForeign_iff]

theorem Ruled.isForeign_of_calling (h : Ruled s) (hc : s.table.calling? = some call) :
    s.isForeign := by
  refine isForeign_iff.mpr ⟨?_, by rw [hc]; rfl⟩
  cases hw : s.worker with
  | none => simp [InFlight.State.calling?, (h.manned.fallow hw).frames] at hc
  | some w => rfl

/-- A step of a call touches neither the frames nor what was put down of calls, unless it starts a
worker. -/
theorem calls_call (hl : l.isCall) (hg : (s.after l).generations = s.generations) :
    (s.after l).table.calls = s.table.calls ∧ (s.after l).table.calling? = s.table.calling? := by
  have hpost : ∀ (table : Table κ) job, ((table.after (.enqueue job)).calls,
      (table.after (.enqueue job)).calling?) = (table.calls, table.calling?) := fun table job =>
    have hquiet := InFlight.State.quiet_enqueue table job
    Prod.ext hquiet.1.calls (calling?_congr hquiet.2)
  have hview : ((s.after l).table.calls, (s.after l).table.calling?) =
      (s.table.calls, s.table.calling?) := by
    cases l with
    | begin thread call =>
      exact view_begin (fun table => (table.calls, table.calling?)) (fun _ _ => rfl)
        (fun _ => rfl) s thread call
    | proceed thread grant =>
      exact view_proceed (fun table => (table.calls, table.calling?)) (fun _ _ => rfl) hpost s
        thread grant (.inr hg)
    | giveUp => exact view_giveUp (fun table => (table.calls, table.calling?)) s
    | _ => cases hl
  exact ⟨congrArg Prod.fst hview, congrArg Prod.snd hview⟩

theorem Ruled.turns_after (h : Ruled s) (he : s.Enabled l) : Turns s l := by
  have hsound := h.manned.sound
  cases hl : l.isCall with
  | true =>
    rcases (passes_after hsound he).generations with hg | ⟨thread, hlaunch⟩
    · obtain ⟨hc, hr⟩ := calls_call hl hg
      exact .keeps hc hr
    · -- The worker before was gone, and the new one has nothing to do.
      have hidle := (h.manned.fallow_of_gone (h.guarded.gone_of_launched hlaunch)).frames
      have hnone : s.table.calling? = none := by rw [InFlight.State.calling?, hidle]
      exact .keeps (by rw [hlaunch.table]; rfl) (by rw [hlaunch.table, hnone]; rfl)
  | false =>
    cases l with
    | work answers =>
      have hcan : s.canWork := he.2
      cases hw : s.worker with
      | none => simp [canWork, hw] at hcan
      | some w =>
        simp only [canWork, hw] at hcan
        obtain ⟨hcalls, hcalling⟩ := calls_onDuty (fun d => d.work answers) hw
        have hnone := Duty.calling?_of_not_isForeign (Duty.not_isForeign_of_canWork hcan)
        cases (hsound w hw).work_callsBack hcan answers with
        | none hc hr => exact .keeps (hcalls.trans hc) ((hcalling.trans hr).trans hnone.symm)
        | one hc hr => exact .begins hnone (hcalls.trans hc) (hcalling.trans hr)
    | leave panic =>
      have hforeign : s.isForeign := he.2.1
      cases hw : s.worker with
      | none => simp [isForeign, hw] at hforeign
      | some w =>
        simp only [isForeign, hw] at hforeign
        obtain ⟨hcalls, hcalling⟩ := calls_onDuty (fun d => d.leave panic) hw
        obtain ⟨hc, hr⟩ := (hsound w hw).leave_calls hforeign panic
        exact .ends rfl (hcalls.trans hc) (hcalling.trans hr)
    | becomeReady socket => exact .keeps rfl rfl
    | addReceiver channel => exact .keeps rfl rfl
    | dropReceiver channel => exact .keeps rfl rfl
    | receive channel => exact .keeps rfl rfl
    | _ => cases hl

theorem callsOf_congr (hc : t.table.calls = s.table.calls) (n : Nat) :
    t.callsOf n = s.callsOf n := by
  rw [callsOf, callsOf, hc]

theorem callsOf_cons (hc : t.table.calls = call :: s.table.calls) (n : Nat) :
    t.callsOf n =
      if call.continuation.submission = n then call :: s.callsOf n else s.callsOf n := by
  rw [callsOf, callsOf, hc, List.filter_cons]
  simp only [decide_eq_true_eq]

/-! ### What a step takes in -/

theorem Passes.receives (hp : Passes s t) (hm : Manned s) :
    (t.accepts = s.accepts ∧ ∀ request ∈ t.received, request ∈ s.received) ∨
      ∃ thread n request, s.carried? thread = some (n, request) ∧
        t.accepts = (n, s.generation) :: s.accepts ∧
          ∀ r ∈ t.received, r = request ∨ r ∈ s.received := by
  have hsame : Unlisted s t → t.accepts = s.accepts ∧
      ∀ request ∈ t.received, request ∈ s.received :=
    fun hu => ⟨hu.accepts, fun _ => hu.received ▸ id⟩
  have hissued : t.waiting = [] → t.table.issues = s.table.issues →
      ∀ request ∈ t.received, request ∈ s.received := by
    intro hwait hissues request hr
    rw [State.received, hwait, hissues] at hr
    exact List.mem_append_right _ hr
  cases hp with
  | call _ hs _ hb =>
    refine .inl (hsame (hs.unlisted ?_))
    cases hb with
    | keeps hb => exact hb.accepts
    | opens _ _ _ ha => exact ha
    | refuses _ _ ha => exact ha
  | launched hl =>
    refine .inl ⟨hl.books.accepts, hissued ?_ (by rw [hl.table]; rfl)⟩
    rw [State.waiting, State.jobs, inHand_of_idle (by rw [hl.table]; rfl), hl.table]
    rfl
  | halted hh => exact .inl (hsame hh.unlisted)
  | @accepted thread n request hp' _ hpost _ ha =>
    refine .inr ⟨thread, n, request, by rw [carried?, hp']; rfl, ha, fun r hr => ?_⟩
    rw [State.received, State.waiting, hpost.jobs, List.filterMap_append, hpost.quiet.issues] at hr
    rcases List.mem_append.mp hr with hr | hr
    · rcases List.mem_append.mp hr with hr | hr
      · exact .inr (List.mem_append_left _ hr)
      · exact .inl (List.mem_singleton.mp hr)
    · exact .inr (List.mem_append_right _ hr)
  | posted _ _ hpost hb => exact .inl (hsame (hpost.unlisted rfl hb.accepts))
  | signalled _ _ hpost hb => exact .inl (hsame (hpost.unlisted rfl hb.accepts))
  | lowered _ _ hl => exact .inl (hsame hl.unlisted)
  | joined hj =>
    refine .inl ⟨hj.books.accepts, hissued ?_ (by rw [hj.table]; rfl)⟩
    rw [State.waiting, hj.jobs hm.sound]
    rfl
  | abandoned ha => exact .inl (hsame ha.unlisted)
  | worked hw =>
    obtain ⟨w, d, a, ha⟩ := hw.advanced
    exact .inl ⟨hw.books.accepts, fun r hr => ha.received.subset (ha.kept.subset hr)⟩
  | outside _ _ hs hb => exact .inl (hsame (hs.unlisted hb.accepts))

theorem Passes.accepts_subset (hp : Passes s t) (hm : Manned s) : s.accepts ⊆ t.accepts := by
  rcases hp.receives hm with ⟨ha, -⟩ | ⟨thread, n, request, -, ha, -⟩ <;> rw [ha]
  · exact List.Subset.refl _
  · exact List.subset_cons_self _ _

/-! ### The call that is under way -/

theorem Ruled.generation_congr (h : Ruled s) (ht : Ruled t) (hw : s.worker.isSome)
    (hw' : t.worker.isSome) (hg : t.generations = s.generations) : t.generation = s.generation := by
  obtain ⟨w, hw⟩ := Option.isSome_iff_exists.mp hw
  obtain ⟨w', hw'⟩ := Option.isSome_iff_exists.mp hw'
  have hs := h.manned.generation w hw
  have ht := ht.manned.generation w' hw'
  rw [generation_eq hw, generation_eq hw']
  omega

/-- The call that is under way was put down, and its submission was accepted for the worker that is
there now. -/
theorem Reachable.calling (hs : Reachable s) (hc : s.table.calling? = some call) :
    call ∈ s.table.calls ∧ (call.continuation.submission, s.generation) ∈ s.accepts := by
  induction hs with
  | initial settings => cases hc
  | @step s l hs he ih =>
    have hr := hs.ruled
    have ht := (hs.step he).ruled
    have hp := passes_after hr.manned.sound he
    -- A worker that was started just now is in no call.
    have hgen : s.worker.isSome → (s.after l).generation = s.generation := by
      intro hw
      refine hr.generation_congr ht hw (isForeign_iff.mp (ht.isForeign_of_calling hc)).1 ?_
      refine hp.generations.resolve_right ?_
      rintro ⟨thread, hl⟩
      rw [hl.table] at hc
      cases hc
    have haccepted : (call.continuation.submission, s.generation) ∈ s.accepts →
        (call.continuation.submission, (s.after l).generation) ∈ (s.after l).accepts := by
      intro ha
      rw [hgen (hr.delivered.manned _ _ ha).1]
      exact hp.accepts_subset hr.manned ha
    cases hr.turns_after he with
    | keeps hcalls hcalling =>
      obtain ⟨hm, ha⟩ := ih (hcalling ▸ hc)
      exact ⟨hcalls ▸ hm, haccepted ha⟩
    | @begins call' _ hcalls hcalling =>
      obtain rfl : call' = call := Option.some.inj (hcalling.symm.trans hc)
      refine ⟨hcalls ▸ List.mem_cons_self, haccepted (hr.accepted_of_call ht hp ?_).1⟩
      rw [callsOf_cons hcalls, if_pos rfl]
      exact Nat.lt_succ_self _
    | ends _ _ hcalling => cases hcalling.symm.trans hc

/-! ### Dropped requests -/

/-- The request of a submission is nowhere any more, and was not issued: it was refused, or accepted
and lost. -/
def IsDropped (s : State κ) (n : Nat) : Prop :=
  n ∈ s.settled ∧ some n ∉ s.received.map submission?

instance (s : State κ) (n : Nat) : Decidable (s.IsDropped n) := inferInstanceAs (Decidable (_ ∧ _))

theorem Ruled.callsOf_of_dropped (h : Ruled s) (hd : s.IsDropped n) : s.callsOf n = [] := by
  by_contra hc
  obtain ⟨r, hr, hf⟩ := h.isIssued_of_called hc
  exact hd.2 (List.mem_map.mpr ⟨r, List.mem_append_right _ hr, hf.submission?⟩)

theorem Ruled.callsOf_submissions (h : Ruled s) : s.callsOf s.submissions = [] := by
  by_contra hc
  obtain ⟨r, hr, hf⟩ := h.isIssued_of_called hc
  obtain ⟨m, g, ha, hf'⟩ := h.delivered.received r (List.mem_append_right _ hr)
  obtain rfl := hf.unique hf'
  exact Nat.lt_irrefl _
    (h.booked.settled_lt _ (List.mem_append_right _ (List.mem_map.mpr ⟨_, ha, rfl⟩)))

theorem Ruled.dropped_after (h : Ruled s) (he : s.Enabled l) (hd : s.IsDropped n) :
    (s.after l).IsDropped n := by
  have hp := passes_after h.manned.sound he
  refine ⟨hp.books.settled_subset hd.1, fun hm => ?_⟩
  obtain ⟨r, hr, hn⟩ := List.mem_map.mp hm
  have hold : r ∉ s.received := fun hr => hd.2 (List.mem_map.mpr ⟨r, hr, hn⟩)
  rcases hp.receives h.manned with ⟨-, hsub⟩ | ⟨thread, m, request, hc, -, hsub⟩
  · exact hold (hsub r hr)
  · obtain rfl := (hsub r hr).resolve_right hold
    obtain ⟨hfor, -, hnew⟩ := h.booked.carried hc
    obtain rfl : m = n := Option.some.inj (hfor.submission?.symm.trans hn)
    exact hnew hd.1

end State

end Service

end Dialer
