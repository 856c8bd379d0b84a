import Dialer.Proofs.Service.Sole

/-!
# The lifecycle, and calls that change nothing

Between calls a running service has a worker whose loop goes on, and one that does not run has none
at work. What a call answers is told by the lifecycle it finds; a call that is refused, that fails
or that there is nothing to do for leaves the service to what it would have come to anyway.
-/

namespace Dialer.Service

variable {κ : Type}

/-- The lifecycle after a call with that answer. -/
def Lifecycle.next (l : Lifecycle) : Call κ → Result → Lifecycle
  | .start, .done => .running
  | .stop, .done => if l = .running then .stopped else l
  | _, _ => l

/-- A call that was refused or that panicked, that only asks, that starts what runs or that stops
what does not run. -/
inductive IsVain (l : Lifecycle) : Call κ → Result → Prop
  | refused {call : Call κ} {failure : Failure} : IsVain l call (.refused failure)
  | panicked {call : Call κ} : IsVain l call .panicked
  | lifecycle {result : Result} : IsVain l .lifecycle result
  | isRunning {result : Result} : IsVain l .isRunning result
  | start {result : Result} (h : l = .running) : IsVain l .start result
  | stop {result : Result} (h : l ≠ .running) : IsVain l .stop result

theorem not_isVain_start {l : Lifecycle} (hl : l ≠ .running) :
    ¬ IsVain l (.start : Call κ) .done
  | .start h => hl h

theorem not_isVain_stop {l : Lifecycle} (hl : l = .running) : ¬ IsVain l (.stop : Call κ) .done
  | .stop h => h hl

theorem not_isVain_monitor {l : Lifecycle} {channel : Option Nat} :
    ¬ IsVain l (.monitor : Call κ) (.receiver channel) :=
  nofun

theorem not_isVain_submit {l : Lifecycle} {request : Request κ} :
    ¬ IsVain l (.submit request) .done :=
  nofun

theorem not_isVain_retain {l : Lifecycle} : ¬ IsVain l (.retain : Call κ) .done := nofun

namespace State

variable {s t u v w : State κ} {labels xs ys : List (Label κ)} {n : Nat} {call : Call κ}
  {op : Operation κ} {request : Request κ} {grant : Grant} {result : Result}

/-- A new worker was started over an empty table, which publishes on the channel in the slot. -/
structure Renews (s t : State κ) : Prop where
  lifecycle : t.lifecycle = .running
  worker : t.worker = some { generation := s.generations }
  entries : t.table.entries = []
  queue : t.table.queue = []
  frames : t.table.frames = []
  monitor : t.table.monitor = s.slot

/-- What the submission of a request comes to. -/
structure Settles (s : State κ) (request : Request κ) (result : Result) (t : State κ) : Prop where
  invalid : (∃ text, result = .refused (.invalidArgument text)) ↔ request.continuations? = none
  stopped : request.continuations?.isSome → s.lifecycle ≠ .running → result = .refused .notRunning
  running : request.continuations?.isSome → s.lifecycle = .running → result = .done ∨
    (result = .refused .notRunning ∧ ∃ w, t.worker = some w ∧ w.panicked)
  accepted : result = .done → (s.submissions, s.generation) ∈ t.accepts
  inert : result ≠ .done → ∀ later, t.Possible later →
    (t.run later).callsOf s.submissions = []

/-- What a call answers that begins in `s`, with those steps after its beginning. -/
inductive Responds (s : State κ) (n : Nat) : Call κ → Result → List (Label κ) → Prop
  | lifecycle {labels : List (Label κ)} :
      Responds s n .lifecycle (.lifecycle s.lifecycle) labels
  | isRunning {labels : List (Label κ)} :
      Responds s n .isRunning (.running (s.lifecycle = .running)) labels
  | started {labels : List (Label κ)} (hl : s.lifecycle = .running) :
      Responds s n .start .done labels
  | start {before rest : List (Label κ)} {grant : Grant} (hl : s.lifecycle ≠ .running)
      (hr : (s.tryLaunch grant).1 = .done → Renews s (s.run (.begin (.caller n) .start ::
        (before ++ [.proceed (.caller n) grant])))) :
      Responds s n .start (s.tryLaunch grant).1 (before ++ .proceed (.caller n) grant :: rest)
  | stop {labels : List (Label κ)}
      (hg : (s.run (.begin (.caller n) .stop :: labels)).isWorkerGone) :
      Responds s n .stop .done labels
  | submit {request : Request κ} {result : Result} {labels : List (Label κ)}
      (h : Settles s request result (s.run (.begin (.caller n) (.submit request) :: labels))) :
      Responds s n (.submit request) result labels
  | monitor {labels : List (Label κ)} : Responds s n .monitor
      (.receiver (if s.settings.monitor then some s.table.channels.length else none)) labels
  | retain {labels : List (Label κ)} : Responds s n .retain .done labels

/-- What a call comes to that has the service to itself. -/
structure Serves (s : State κ) (n : Nat) (call : Call κ) (result : Result)
    (labels : List (Label κ)) : Prop where
  lifecycle : (s.run (.begin (.caller n) call :: labels)).lifecycle = s.lifecycle.next call result
  vain : IsVain s.lifecycle call result → s.Possible (aside labels) ∧
    (s.run (.begin (.caller n) call :: labels)).bare = (s.run (aside labels)).bare
  responds : Responds s n call result labels

/-! ### Between calls -/

/-- The table of a worker that runs takes jobs, unless a panic ended the worker. -/
theorem Ruled.unclosed_of_running (h : Ruled s) (hl : s.lifecycle = .running)
    (hp : ∀ w, s.worker = some w → w.panicked = false) : ¬ s.table.isClosed := by
  have hflag := h.guarded.running hl
  cases hw : s.worker with
  | none => simp [flag, hw] at hflag
  | some w =>
    rw [flag_eq hw] at hflag
    have hpan := hp w hw
    have hpromise := (h.manned.sound w hw).staged.promise
    refine (hpromise.isSound ?_ ?_ ?_).2 <;> intro hs <;> rw [hs] at hpromise
    · simp [Duty.Promise, hpan, hflag] at hpromise
    · simp [Duty.Promise, hpan, hflag] at hpromise
    · simp [Duty.Promise, hpan] at hpromise

/-- Between calls no worker is at work for a service that does not run. -/
theorem Ruled.isWorkerGone (h : Ruled s) (hc : s.calls = []) (hh : s.handles ≠ 0)
    (hl : s.lifecycle ≠ .running) : s.isWorkerGone :=
  h.guarded.gone_of_idle hl hh fun _ _ hp => by simp [point?, hc] at hp

theorem Ruled.generation_eq (h : Ruled s) (hl : s.lifecycle = .running) :
    s.generation + 1 = s.generations := by
  have hflag := h.guarded.running hl
  cases hw : s.worker with
  | none => simp [flag, hw] at hflag
  | some w =>
    rw [State.generation_eq hw]
    exact h.manned.generation w hw

theorem Reachable.unpanicked_run (hs : Reachable s) (hp : s.Possible labels)
    (hg : (s.run labels).generations = s.generations)
    (ht : ∀ w, (s.run labels).worker = some w → w.panicked = false) :
    ∀ w, s.worker = some w → w.panicked = false := by
  induction labels generalizing s with
  | nil => exact ht
  | cons l rest ih =>
    have hpass := passes_after hs.ruled.manned.sound hp.1
    have hle : (s.after l).generations ≤ ((s.after l).run rest).generations :=
      (hs.step hp.1).generations_le hp.2
    have heq : (s.after l).generations = s.generations :=
      Nat.le_antisymm (hle.trans_eq hg) hpass.generations_le
    have hn : ∀ thread, ¬ Launched s thread (s.after l) := fun thread hl => by
      have hsucc := hl.generations
      omega
    exact fun w hw => hpass.unpanicked hn (ih (hs.step hp.1) hp.2 (hg.trans heq.symm) ht) hw

/-! ### Steps of a call -/

theorem handles_of_enabled (he : s.Enabled (.begin (.caller n) call)) : s.handles ≠ 0 := he.2.2.1

theorem run_holding (hc : (v.run xs).calls = [(.caller n, .holding op)]) :
    v.run (xs ++ [.proceed (.caller n) grant]) = (v.run xs).look (.caller n) grant op := by
  rw [run_snoc, after, proceed, point?_of_calls hc]

theorem run_sending (grant : Grant) (hc : (v.run xs).calls = [(.caller n, .sending op)]) :
    v.run (xs ++ [.proceed (.caller n) grant]) = (v.run xs).send (.caller n) op := by
  rw [run_snoc, after, proceed, point?_of_calls hc]

theorem run_joining (grant : Grant) (hc : (v.run xs).calls = [(.caller n, .joining)]) :
    v.run (xs ++ [.proceed (.caller n) grant]) = (v.run xs).join (.caller n) := by
  rw [run_snoc, after, proceed, point?_of_calls hc]

theorem ends_of_vain_look {Q : Result → List (Label κ) → Prop} {access : Access}
    (hu : Untouched v xs) (hh : v.handles ≠ 0)
    (hc : (v.run xs).calls = [(.caller n, .holding op)])
    (hl : (v.run xs).look (.caller n) grant op = w.moveTo (.caller n) (.leaving access result))
    (hw : w.calls = (v.run xs).calls) (hb : w.bare = (v.run xs).bare)
    (hq : ∀ ys, v.Possible (xs ++ [.proceed (.caller n) grant] ++ ys) →
      Untouched v (xs ++ [.proceed (.caller n) grant] ++ ys) →
      Returned (v.run (xs ++ [.proceed (.caller n) grant])) n result ys →
      Q result (xs ++ [.proceed (.caller n) grant] ++ ys)) :
    Ends v Q (xs ++ [.proceed (.caller n) grant]) := by
  have hrun := (run_holding hc).trans hl
  have hcalls : (v.run (xs ++ [.proceed (.caller n) grant])).calls =
      [(.caller n, .leaving access result)] := by
    rw [hrun]
    exact calls_moveTo (.inr ⟨_, hw.trans hc⟩)
  have hu' : Untouched v (xs ++ [.proceed (.caller n) grant]) :=
    hu.proceed (by rw [hrun, bare_moveTo, hb])
  exact ends_of_leaving hcalls (by rw [hu'.fixed.handles]; exact hh)
    fun ys hp hys => hq ys hp (hu'.append hys.untouched) hys

section Calls

variable (hv : s.begin (.caller n) call = v)
include hv

theorem run_begin : s.run (.begin (.caller n) call :: labels) = v.run labels := by
  rw [← hv]
  rfl

theorem serves_of_untouched (hc : s.calls = []) (hb : v.bare = s.bare) (h : Untouched v labels)
    (hn : s.lifecycle.next call result = s.lifecycle) (hr : Responds s n call result labels) :
    Serves s n call result labels where
  lifecycle := by
    rw [hn, run_begin hv, h.fixed.lifecycle, (fixed_of_bare hb).lifecycle]
  vain := fun _ => by
    have haside : ∀ l ∈ aside labels, l.isCall = false := fun l hm => by
      simpa using (List.mem_filter.mp hm).2
    have hp : s.point? .worker = none := by simp [point?, hc]
    refine ⟨(possible_bare haside hp).mp (hb ▸ h.possible), ?_⟩
    rw [run_begin hv, bare_run haside, h.bare, hb]
  responds := hr

theorem serves_of_acted (hl : (v.run labels).lifecycle = s.lifecycle.next call result)
    (hn : ¬ IsVain s.lifecycle call result) (hr : Responds s n call result labels) :
    Serves s n call result labels :=
  ⟨by rw [run_begin hv, hl], fun h => absurd h hn, hr⟩

end Calls

/-! ### Calls that ask -/

theorem ends_lifecycle (hv : s.begin (.caller n) .lifecycle = v) (hc : s.calls = [])
    (hh : s.handles ≠ 0) : Ends v (Serves s n .lifecycle) [] := by
  have hb : v.bare = s.bare := by rw [← hv]; rfl
  refine ends_of_wanting (n := n) .lifecycle (by rw [← hv]; exact calls_moveTo (.inl hc))
    fun xs grant _ hcalls hu => ?_
  have hl : (v.run xs).lifecycle = s.lifecycle := ((fixed_of_bare hb).trans hu.fixed).lifecycle
  refine ends_of_vain_look hu (by rw [← hv]; exact hh) hcalls rfl rfl rfl fun ys _ hys _ => ?_
  rw [hl]
  exact serves_of_untouched hv hc hb hys rfl .lifecycle

theorem ends_isRunning (hv : s.begin (.caller n) .isRunning = v) (hr : Reachable v)
    (hc : s.calls = []) (hh : s.handles ≠ 0) : Ends v (Serves s n .isRunning) [] := by
  have hb : v.bare = s.bare := by rw [← hv]; rfl
  refine ends_of_wanting (n := n) .isRunning (by rw [← hv]; exact calls_moveTo (.inl hc))
    fun xs grant hp hcalls hu => ?_
  have hl : (v.run xs).lifecycle = s.lifecycle := ((fixed_of_bare hb).trans hu.fixed).lifecycle
  have hflag := (hr.run (possible_append.mp hp).1).ruled.guarded.running
  refine ends_of_vain_look hu (by rw [← hv]; exact hh) hcalls rfl rfl rfl fun ys _ hys _ => ?_
  have hanswer : (decide ((v.run xs).lifecycle = .running) && (v.run xs).flag) =
      decide (s.lifecycle = .running) := by
    by_cases hrun : s.lifecycle = .running
    · simp [hl, hrun, hflag (hl.trans hrun)]
    · simp [hl, hrun]
  rw [hanswer]
  exact serves_of_untouched hv hc hb hys rfl .isRunning

/-! ### Starts and stops -/

theorem tryLaunch_fst (h : w.settings = s.settings) (grant : Grant) :
    (w.tryLaunch grant).1 = (s.tryLaunch grant).1 := by
  have hbad : w.hasBadName = s.hasBadName := by rw [hasBadName, hasBadName, h]
  simp only [tryLaunch, hbad, h]
  split
  · rfl
  · split
    · rfl
    · split <;> rfl

theorem tryLaunch_snd (s : State κ) (grant : Grant) :
    (s.tryLaunch grant).2 = if (s.tryLaunch grant).1 = .done then s.launch else s := by
  unfold tryLaunch
  split
  · rfl
  · split
    · rfl
    · split <;> rfl

theorem ends_start (hv : s.begin (.caller n) .start = v) (hc : s.calls = [])
    (hh : s.handles ≠ 0) : Ends v (Serves s n .start) [] := by
  have hb : v.bare = s.bare := by rw [← hv]; rfl
  refine ends_of_wanting (n := n) .start (by rw [← hv]; exact calls_moveTo (.inl hc))
    fun xs grant hp hcalls hu => ?_
  have hsame : Fixed s (v.run xs) := (fixed_of_bare hb).trans hu.fixed
  have hl := hsame.lifecycle
  have hhv : v.handles ≠ 0 := by rw [← hv]; exact hh
  by_cases hrun : s.lifecycle = .running
  · have hlook : (v.run xs).look (.caller n) grant .start =
        (v.run xs).moveTo (.caller n) (.leaving .exclusive .done) := by
      simp only [look, hl, hrun, if_true]
    refine ends_of_vain_look hu hhv hcalls hlook rfl rfl fun ys _ hys _ => ?_
    exact serves_of_untouched hv hc hb hys (by rw [Lifecycle.next, hrun]) (.started hrun)
  have htry : ((v.run xs).tryLaunch grant).1 = (s.tryLaunch grant).1 :=
    tryLaunch_fst hsame.settings grant
  have hlook : (v.run xs).look (.caller n) grant .start =
      (if (s.tryLaunch grant).1 = .done then (v.run xs).launch else v.run xs).moveTo (.caller n)
        (.leaving .exclusive (s.tryLaunch grant).1) := by
    simp only [look, hl, hrun, if_false, tryLaunch_snd, htry]
  have hcut : ∀ ys, xs ++ [.proceed (.caller n) grant] ++ ys =
      xs ++ .proceed (.caller n) grant :: ys := by simp
  by_cases hdone : (s.tryLaunch grant).1 = .done
  · rw [if_pos hdone, hdone] at hlook
    have hlaunch := (run_holding hcalls).trans hlook
    have hrenews : Renews s (v.run (xs ++ [.proceed (.caller n) grant])) := by
      rw [hlaunch]
      exact ⟨rfl, by rw [← hsame.generations]; rfl, rfl, rfl, rfl, hsame.slot⟩
    have hcalls' : (v.run (xs ++ [.proceed (.caller n) grant])).calls =
        [(.caller n, .leaving .exclusive .done)] := by
      rw [hlaunch]
      exact calls_moveTo (.inr ⟨_, hcalls⟩)
    have hhandles : (v.run (xs ++ [.proceed (.caller n) grant])).handles = s.handles := by
      rw [hlaunch]
      exact hsame.handles
    refine ends_of_leaving hcalls' (by rw [hhandles]; exact hh) fun ys _ hys => ?_
    have hresponds := @Responds.start κ s n xs ys grant hrun fun _ => by
      rw [run_begin hv]
      exact hrenews
    rw [hdone] at hresponds
    rw [hcut] at *
    have hlast := hys.untouched.fixed.lifecycle
    rw [← run_append, hcut] at hlast
    exact serves_of_acted hv (hlast.trans hrenews.lifecycle) (not_isVain_start hrun) hresponds
  · rw [if_neg hdone] at hlook
    refine ends_of_vain_look hu hhv hcalls hlook rfl rfl fun ys _ hys _ => ?_
    have hnext : s.lifecycle.next (.start : Call κ) (s.tryLaunch grant).1 = s.lifecycle := by
      cases hr : (s.tryLaunch grant).1 <;> first | rfl | exact absurd hr hdone
    rw [hcut] at hys ⊢
    exact serves_of_untouched hv hc hb hys hnext (.start hrun fun h => absurd h hdone)

theorem send_stop (hc : u.calls = [] ∨ ∃ p, u.calls = [(.caller n, p)]) :
    Fixed u (u.send (.caller n) .stop) ∧
      (u.send (.caller n) .stop).calls = [(.caller n, .joining)] := by
  rcases enqueue_cases u .halt with ⟨heq, -⟩ | ⟨heq, -⟩ <;> simp only [send, heq] <;>
    exact ⟨⟨rfl, rfl, rfl, rfl, rfl⟩, calls_moveTo hc⟩

theorem ends_join {Q : Result → List (Label κ) → Prop}
    (hc : (v.run xs).calls = [(.caller n, .joining)]) (hh : (v.run xs).handles ≠ 0)
    (hq : ∀ ys, v.Possible (xs ++ ys) → Fixed (v.run xs) (v.run (xs ++ ys)) →
      (v.run (xs ++ ys)).calls = [] → Q .done (xs ++ ys)) : Ends v Q xs := by
  refine ends_of_step hc fun ys grant _ hys => ?_
  have hw := elsewhere_run (s := v.run xs) hys
  rw [← run_append] at hw
  have hjoin := run_joining grant (hw.calls.trans hc)
  have hcalls : (v.run (xs ++ ys ++ [.proceed (.caller n) grant])).calls =
      [(.caller n, .leaving .exclusive .done)] := by
    rw [hjoin]
    unfold join
    split <;> exact calls_moveTo (.inr ⟨_, hw.calls.trans hc⟩)
  have hfixed : Fixed (v.run (xs ++ ys)) (v.run (xs ++ ys ++ [.proceed (.caller n) grant])) := by
    rw [hjoin]
    unfold join
    split <;> exact ⟨rfl, rfl, rfl, rfl, rfl⟩
  have hall := hw.toFixed.trans hfixed
  refine ends_of_leaving hcalls (by rw [hall.handles]; exact hh) fun zs hp hzs => ?_
  have hcut : xs ++ ys ++ [.proceed (.caller n) grant] ++ zs =
      xs ++ (ys ++ [.proceed (.caller n) grant] ++ zs) := by simp
  have hlast := hall.trans hzs.untouched.fixed
  have hfree := hzs.calls
  rw [← run_append, hcut] at hlast hfree
  rw [hcut] at hp ⊢
  exact hq _ hp hlast hfree

theorem ends_stop (hv : s.begin (.caller n) .stop = v) (hr : Reachable v) (hc : s.calls = [])
    (hh : s.handles ≠ 0) : Ends v (Serves s n .stop) [] := by
  have hb : v.bare = s.bare := by rw [← hv]; rfl
  refine ends_of_wanting (n := n) .stop (by rw [← hv]; exact calls_moveTo (.inl hc))
    fun xs grant hp hcalls hu => ?_
  have hl := ((fixed_of_bare hb).trans hu.fixed).lifecycle
  have hhv : v.handles ≠ 0 := by rw [← hv]; exact hh
  by_cases hrun : s.lifecycle = .running
  · have hhalt : v.run (xs ++ [.proceed (.caller n) grant]) =
        { v.run xs with lifecycle := .stopped }.moveTo (.caller n) (.sending .stop) := by
      rw [run_holding hcalls]
      simp only [look, hl, hrun, if_true]
    have hcalls' : (v.run (xs ++ [.proceed (.caller n) grant])).calls =
        [(.caller n, .sending .stop)] := by
      rw [hhalt]
      exact calls_moveTo (.inr ⟨_, hcalls⟩)
    have hhandles : (v.run (xs ++ [.proceed (.caller n) grant])).handles = v.handles := by
      rw [hhalt]
      exact hu.fixed.handles
    refine ends_of_step hcalls' fun ys grant' hp' hys => ?_
    have hw := elsewhere_run (s := v.run (xs ++ [.proceed (.caller n) grant])) hys
    rw [← run_append] at hw
    have hsend := run_sending grant' (hw.calls.trans hcalls')
    obtain ⟨hfixed, hjoining⟩ := send_stop (.inr ⟨_, hw.calls.trans hcalls'⟩)
    rw [← hsend] at hfixed hjoining
    have hall := hw.toFixed.trans hfixed
    refine ends_join hjoining (by rw [hall.handles, hhandles]; exact hhv)
      fun zs hp'' hzs hfree => ?_
    have hlast := hall.trans hzs
    have hstopped : (v.run (xs ++ [.proceed (.caller n) grant] ++ ys ++
        [.proceed (.caller n) grant'] ++ zs)).lifecycle = .stopped := by
      rw [hlast.lifecycle, hhalt]
      rfl
    refine serves_of_acted hv (by rw [hstopped, Lifecycle.next, if_pos hrun])
      (not_isVain_stop hrun) (.stop ?_)
    rw [run_begin hv]
    exact (hr.run hp'').ruled.isWorkerGone hfree
      (by rw [hlast.handles, hhandles]; exact hhv) (by rw [hstopped]; simp)
  · have hlook : (v.run xs).look (.caller n) grant .stop =
        (v.run xs).moveTo (.caller n) (.leaving .exclusive .done) := by
      simp only [look, hl, hrun, if_false]
    refine ends_of_vain_look hu hhv hcalls hlook rfl rfl fun ys hp' hys hret => ?_
    have hfixed := (fixed_of_bare hb).trans hys.fixed
    have hfree := hret.calls
    rw [← run_append] at hfree
    refine serves_of_untouched hv hc hb hys (by rw [Lifecycle.next, if_neg hrun]) (.stop ?_)
    rw [run_begin hv]
    exact (hr.run hp').ruled.isWorkerGone hfree (by rw [hfixed.handles]; exact hh)
      (by rw [hfixed.lifecycle]; exact hrun)

/-! ### Monitors -/

theorem send_monitor (channel : Nat) (hc : u.calls = [] ∨ ∃ p, u.calls = [(.caller n, p)]) :
    Fixed u (u.send (.caller n) (.monitor channel)) ∧
      (u.send (.caller n) (.monitor channel)).calls =
        [(.caller n, .leaving .shared (.receiver (some channel)))] := by
  rcases enqueue_cases u (.watchOn channel) with ⟨heq, -⟩ | ⟨heq, -⟩ <;>
    simp only [send, heq] <;> exact ⟨⟨rfl, rfl, rfl, rfl, rfl⟩, calls_moveTo hc⟩

theorem ends_monitor (hv : s.begin (.caller n) .monitor = v) (hc : s.calls = [])
    (hh : s.handles ≠ 0) : Ends v (Serves s n .monitor) [] := by
  -- Whatever the call did, the lifecycle is what it was.
  have hserves : ∀ labels, (v.run labels).lifecycle = s.lifecycle → Serves s n .monitor
      (.receiver (if s.settings.monitor then some s.table.channels.length else none)) labels :=
    fun labels hl => serves_of_acted hv hl not_isVain_monitor .monitor
  by_cases hm : s.settings.monitor
  · rw [if_pos hm] at hserves
    have hbegin : v = { s with table := s.table.after .openChannel }.moveTo (.caller n)
        (.wanting (.monitor s.table.channels.length)) := by
      rw [← hv, begin, if_pos hm]
    have hleave : ∀ xs, (v.run xs).calls = [(.caller n, .leaving .shared
        (.receiver (some s.table.channels.length)))] → (v.run xs).lifecycle = s.lifecycle →
        (v.run xs).handles = s.handles → Ends v (Serves s n .monitor) xs := by
      refine fun xs hcalls hl hhandles => ends_of_leaving hcalls (by rw [hhandles]; exact hh)
        fun ys _ hys => hserves _ ?_
      have hlast := hys.untouched.fixed.lifecycle
      rw [← run_append] at hlast
      exact hlast.trans hl
    refine ends_of_wanting (n := n) (.monitor s.table.channels.length)
      (by rw [hbegin]; exact calls_moveTo (.inl hc)) fun xs grant hp hcalls hu => ?_
    have hl : (v.run xs).lifecycle = s.lifecycle := hu.fixed.lifecycle.trans (by rw [hbegin]; rfl)
    have hhandles : (v.run xs).handles = s.handles := hu.fixed.handles.trans (by rw [hbegin]; rfl)
    by_cases hrun : s.lifecycle = .running
    · have hlook : v.run (xs ++ [.proceed (.caller n) grant]) =
          { v.run xs with slot := some s.table.channels.length }.moveTo (.caller n)
            (.sending (.monitor s.table.channels.length)) :=
        (run_holding hcalls).trans (if_pos (hl.trans hrun))
      have hcalls' : (v.run (xs ++ [.proceed (.caller n) grant])).calls =
          [(.caller n, .sending (.monitor s.table.channels.length))] := by
        rw [hlook]
        exact calls_moveTo (.inr ⟨_, hcalls⟩)
      refine ends_of_step hcalls' fun ys grant' hp' hys => ?_
      have hw := elsewhere_run (s := v.run (xs ++ [.proceed (.caller n) grant])) hys
      rw [← run_append] at hw
      have hsend := run_sending grant' (hw.calls.trans hcalls')
      obtain ⟨hfixed, hleaving⟩ := send_monitor (n := n) s.table.channels.length
        (.inr ⟨_, hw.calls.trans hcalls'⟩)
      rw [← hsend] at hfixed hleaving
      have hall := hw.toFixed.trans hfixed
      rw [hlook] at hall
      exact hleave _ hleaving (hall.lifecycle.trans hl) (hall.handles.trans hhandles)
    · have hlook : v.run (xs ++ [.proceed (.caller n) grant]) =
          { v.run xs with slot := some s.table.channels.length }.moveTo (.caller n)
            (.leaving .shared (.receiver (some s.table.channels.length))) :=
        (run_holding hcalls).trans (if_neg (hl.trans_ne hrun))
      refine hleave _ ?_ (by rw [hlook]; exact hl) (by rw [hlook]; exact hhandles)
      rw [hlook]
      exact calls_moveTo (.inr ⟨_, hcalls⟩)
  · rw [if_neg hm] at hserves
    have hbegin : v = s.returns (.caller n) (.receiver none) := by rw [← hv, begin, if_neg hm]
    refine ends_of_returned [] (by rw [hbegin]; exact calls_returns (.inl hc))
      (by rw [hbegin]; rfl) fun ys _ hys => hserves _ ?_
    exact (elsewhere_run hys).lifecycle.trans (by rw [hbegin]; rfl)

/-! ### Submissions -/

theorem Passes.refusals (h : Passes s t) {k : Nat} (hk : k ∈ s.refusals) : k ∈ t.refusals := by
  have hbooks : Unbooked s t → k ∈ t.refusals := fun hb => hb.refusals ▸ hk
  cases h with
  | call _ _ _ hb =>
    cases hb with
    | keeps hb => exact hbooks hb
    | opens _ _ _ _ hr => exact hr ▸ hk
    | refuses _ _ _ hr => exact hr ▸ List.mem_cons_of_mem _ hk
  | launched h => exact hbooks h.books
  | halted h => exact hbooks h.books
  | accepted _ _ _ _ _ hr => exact hr ▸ hk
  | posted _ _ _ hb => exact hbooks hb
  | signalled _ _ _ hb => exact hbooks hb
  | lowered _ _ h => exact hbooks h.books
  | joined h => exact hbooks h.books
  | abandoned h => exact hbooks h.books
  | worked h => exact hbooks h.books
  | outside _ _ _ hb => exact hbooks hb

theorem Reachable.not_called_run (hs : Reachable s) {k : Nat} (hk : k ∈ s.refusals)
    (hp : s.Possible labels) : (s.run labels).callsOf k = [] := by
  induction labels generalizing s with
  | nil => exact hs.ruled.not_called_of_refused hk
  | cons l rest ih =>
    exact ih (hs.step hp.1) ((passes_after hs.ruled.manned.sound hp.1).refusals hk) hp.2

theorem mem_refusals {k : Nat} (h : .refused k ∈ s.history) : k ∈ s.refusals :=
  List.mem_filterMap.mpr ⟨_, h, rfl⟩

theorem mem_accepts {k g : Nat} (h : .accepted k g ∈ s.history) : (k, g) ∈ s.accepts :=
  List.mem_filterMap.mpr ⟨_, h, rfl⟩

theorem exists_text_of_refusal? {failure : Failure} (h : request.refusal? = some failure) :
    ∃ text, failure = .invalidArgument text := by
  unfold Request.refusal? at h
  split at h
  · exact ⟨_, (Option.some.inj h).symm⟩
  · split at h
    · exact ⟨_, (Option.some.inj h).symm⟩
    · cases h

theorem settles_of_incomplete {failure : Failure} (hreq : request.refusal? = some failure)
    (ht : Reachable t) (hn : .refused s.submissions ∈ t.history) :
    Settles s request (.refused failure) t := by
  obtain ⟨text, rfl⟩ := exists_text_of_refusal? hreq
  have hnone : request.continuations? = none := by
    rw [← Option.not_isSome_iff_eq_none, ← Request.refusal?_eq_none_iff, hreq]
    simp
  exact
    { invalid := ⟨fun _ => hnone, fun _ => ⟨text, rfl⟩⟩
      stopped := fun h => by simp [hnone] at h
      running := fun h => by simp [hnone] at h
      accepted := fun h => by cases h
      inert := fun _ _ hp => ht.not_called_run (mem_refusals hn) hp }

theorem settles_of_refused (hreq : request.refusal? = none) (ht : Reachable t)
    (hn : .refused s.submissions ∈ t.history)
    (hp : s.lifecycle = .running → ∃ w, t.worker = some w ∧ w.panicked) :
    Settles s request (.refused .notRunning) t where
  invalid := by
    rw [Request.refusal?_eq_none_iff, Option.isSome_iff_ne_none] at hreq
    exact ⟨fun ⟨_, h⟩ => by simp at h, fun h => absurd h hreq⟩
  stopped := fun _ _ => rfl
  running := fun _ hl => .inr ⟨rfl, hp hl⟩
  accepted := fun h => by cases h
  inert := fun _ _ hp => ht.not_called_run (mem_refusals hn) hp

theorem settles_of_accepted (hreq : request.refusal? = none) (hl : s.lifecycle = .running)
    (hn : .accepted s.submissions s.generation ∈ t.history) : Settles s request .done t where
  invalid := by
    rw [Request.refusal?_eq_none_iff, Option.isSome_iff_ne_none] at hreq
    exact ⟨fun ⟨_, h⟩ => by simp at h, fun h => absurd h hreq⟩
  stopped := fun _ h => absurd hl h
  running := fun _ _ => .inl rfl
  accepted := fun _ => mem_accepts hn
  inert := fun h => absurd rfl h

theorem ends_incomplete {failure : Failure} (hreq : request.refusal? = some failure)
    (hv : s.begin (.caller n) (.submit request) = v) (hr : Reachable v) (hc : s.calls = []) :
    Ends v (Serves s n (.submit request)) [] := by
  have hbegin : v = ({ s with submissions := s.submissions + 1 }.note
      (.refused s.submissions)).returns (.caller n) (.refused failure) := by
    rw [← hv]
    simp only [begin, hreq]
  have hb : v.bare = s.bare := by rw [hbegin]; rfl
  have hfree : v.calls = [] := by rw [hbegin]; exact calls_returns (.inl hc)
  refine ends_of_returned [] hfree (by rw [hbegin]; rfl) fun ys hp hys => ?_
  rw [List.nil_append] at hp ⊢
  refine serves_of_untouched hv hc hb
    (untouched_of_aside hys (by rw [point?, hfree]; rfl) hp) rfl
    (.submit (settles_of_incomplete hreq (by rw [run_begin hv]; exact hr.run hp) ?_))
  rw [run_begin hv, (elsewhere_run hys).history, hbegin]
  exact List.mem_cons_of_mem _ List.mem_cons_self

/-- A job that finds the queue closed is one for a worker that a panic ended. -/
theorem Reachable.panicked_of_closed (hs : Reachable s) (hl : s.lifecycle = .running)
    (hc : s.table.isClosed) (hp : s.Possible labels)
    (hg : (s.run labels).generations = s.generations) :
    ∃ w, (s.run labels).worker = some w ∧ w.panicked := by
  by_contra hn
  refine hs.ruled.unclosed_of_running hl (hs.unpanicked_run hp hg fun w hw => ?_) hc
  exact Bool.eq_false_iff.mpr fun hpan => hn ⟨w, hw, hpan⟩

/-- A submission for a running service is accepted, unless a panic ended the worker. -/
theorem ends_sending (hreq : request.refusal? = none)
    (hv : s.begin (.caller n) (.submit request) = v) (hs : Reachable s) (hr : Reachable v)
    (hc : s.calls = []) (hh : s.handles ≠ 0) (hrun : s.lifecycle = .running)
    (hb : v.bare = s.bare) (hu : Untouched v xs) (hcalls : (v.run xs).calls =
      [(.caller n, .sending (.submit s.submissions (tag s.submissions request)))]) :
    Ends v (Serves s n (.submit request)) xs := by
  refine ends_of_step hcalls fun ys grant hp hys => ?_
  have hp' := (possible_append.mp hp).1
  have hw := elsewhere_run (s := v.run xs) hys
  have hu' := hu.append (untouched_of_aside hys (point?_worker_of_calls hcalls)
    (possible_append.mp hp').2)
  rw [← run_append] at hw
  have hcalls' := hw.calls.trans hcalls
  have hfixed : Fixed s (v.run (xs ++ ys)) := (fixed_of_bare hb).trans hu'.fixed
  have hlw : (v.run (xs ++ ys)).lifecycle = .running := hfixed.lifecycle.trans hrun
  have hrw := hr.run hp'
  have hsend := run_sending grant hcalls'
  rcases enqueue_cases (v.run (xs ++ ys)) (.dial (tag s.submissions request)) with
    ⟨heq, -⟩ | ⟨heq, hclosed⟩
  · simp only [send, heq] at hsend
    have hgen : (v.run (xs ++ ys)).generation = s.generation := by
      have h := hrw.ruled.generation_eq hlw
      rw [hfixed.generations, ← hs.ruled.generation_eq hrun] at h
      exact Nat.succ.inj h
    have hcalls'' : (v.run (xs ++ ys ++ [.proceed (.caller n) grant])).calls =
        [(.caller n, .leaving .shared .done)] := by
      rw [hsend]
      exact calls_moveTo (.inr ⟨_, hcalls'⟩)
    have hhandles : (v.run (xs ++ ys ++ [.proceed (.caller n) grant])).handles = s.handles := by
      rw [hsend]
      exact hfixed.handles
    refine ends_of_leaving hcalls'' (by rw [hhandles]; exact hh) fun zs _ hzs => ?_
    refine serves_of_acted hv ?_ not_isVain_submit
      (.submit (settles_of_accepted hreq hrun ?_))
    · rw [run_append, hzs.untouched.fixed.lifecycle, hsend]
      exact hfixed.lifecycle
    · rw [run_begin hv, run_append, hzs.history, hsend, ← hgen]
      exact List.mem_cons_of_mem _ List.mem_cons_self
  · simp only [send, heq] at hsend
    have hcalls'' : (v.run (xs ++ ys ++ [.proceed (.caller n) grant])).calls =
        [(.caller n, .leaving .shared (.refused .notRunning))] := by
      rw [hsend]
      exact calls_moveTo (.inr ⟨_, hcalls'⟩)
    have hu'' : Untouched v (xs ++ ys ++ [.proceed (.caller n) grant]) :=
      hu'.proceed (by rw [hsend, bare_moveTo, bare_note, bare_note])
    have hall := (fixed_of_bare hb).trans hu''.fixed
    refine ends_of_leaving hcalls'' (by rw [hall.handles]; exact hh) fun zs hp'' hzs => ?_
    refine serves_of_untouched hv hc hb (hu''.append hzs.untouched) rfl
      (.submit (settles_of_refused hreq (by rw [run_begin hv]; exact hr.run hp'') ?_ fun _ => ?_))
    · rw [run_begin hv, run_append, hzs.history, hsend]
      exact List.mem_cons_of_mem _ List.mem_cons_self
    · rw [run_begin hv]
      rw [List.append_assoc] at hp'' ⊢
      rw [run_append]
      refine hrw.panicked_of_closed hlw hclosed (possible_append.mp hp'').2 ?_
      rw [← run_append, ← List.append_assoc, run_append, hzs.untouched.fixed.generations,
        hall.generations, hfixed.generations]

theorem ends_complete (hreq : request.refusal? = none)
    (hv : s.begin (.caller n) (.submit request) = v) (hs : Reachable s) (hr : Reachable v)
    (hc : s.calls = []) (hh : s.handles ≠ 0) : Ends v (Serves s n (.submit request)) [] := by
  have hbegin : v = { s with submissions := s.submissions + 1 }.moveTo (.caller n)
      (.wanting (.submit s.submissions (tag s.submissions request))) := by
    rw [← hv]
    simp only [begin, hreq]
  have hb : v.bare = s.bare := by rw [hbegin]; rfl
  have hhv : v.handles ≠ 0 := by rw [hbegin]; exact hh
  refine ends_of_wanting (n := n) (.submit s.submissions (tag s.submissions request))
    (by rw [hbegin]; exact calls_moveTo (.inl hc)) fun xs grant hp hcalls hu => ?_
  have hl : (v.run xs).lifecycle = s.lifecycle := ((fixed_of_bare hb).trans hu.fixed).lifecycle
  by_cases hrun : s.lifecycle = .running
  · have hflag := (hr.run (possible_append.mp hp).1).ruled.guarded.running (hl.trans hrun)
    have hlook : v.run (xs ++ [.proceed (.caller n) grant]) = (v.run xs).moveTo (.caller n)
        (.sending (.submit s.submissions (tag s.submissions request))) :=
      (run_holding hcalls).trans (if_pos ⟨hl.trans hrun, hflag⟩)
    have hcalls' : (v.run (xs ++ [.proceed (.caller n) grant])).calls =
        [(.caller n, .sending (.submit s.submissions (tag s.submissions request)))] := by
      rw [hlook]
      exact calls_moveTo (.inr ⟨_, hcalls⟩)
    have hu' : Untouched v (xs ++ [.proceed (.caller n) grant]) :=
      hu.proceed (by rw [hlook, bare_moveTo])
    exact ends_sending hreq hv hs hr hc hh hrun hb hu' hcalls'
  · have hlook : (v.run xs).look (.caller n) grant
        (.submit s.submissions (tag s.submissions request)) =
        ((v.run xs).note (.refused s.submissions)).moveTo (.caller n)
          (.leaving .shared (.refused .notRunning)) :=
      if_neg fun h => hrun (hl.symm.trans h.1)
    refine ends_of_vain_look hu hhv hcalls hlook rfl rfl fun ys hp' hys hret => ?_
    refine serves_of_untouched hv hc hb hys rfl (.submit (settles_of_refused hreq
      (by rw [run_begin hv]; exact hr.run hp') ?_ fun h => absurd h hrun))
    rw [run_begin hv, run_append, hret.history, run_holding hcalls, hlook]
    exact List.mem_cons_of_mem _ List.mem_cons_self

/-! ### Calls return -/

/-- A call that waits for nobody, with the most steps it still has to make. -/
inductive Unbound (l : Lifecycle) : Point κ → Nat → Prop
  | wanting {op : Operation κ} (h : op = .stop → l ≠ .running) : Unbound l (.wanting op) 4
  | holding {op : Operation κ} (h : op = .stop → l ≠ .running) : Unbound l (.holding op) 3
  | submit {k : Nat} {request : Request (Tagged κ)} : Unbound l (.sending (.submit k request)) 2
  | monitor {channel : Nat} : Unbound l (.sending (.monitor channel)) 2
  | leaving {access : Access} {result : Result} : Unbound l (.leaving access result) 1

/-- A lone call that waits for nobody, in a process that lives. -/
structure Loose (s : State κ) (n k : Nat) : Prop where
  alive : ¬ s.isDead
  at_point : ∃ p, s.calls = [(.caller n, p)] ∧ Unbound s.lifecycle p k

theorem loose_moveTo {p : Point κ} {k : Nat}
    (hc : w.calls = [] ∨ ∃ q, w.calls = [(.caller n, q)]) (hd : ¬ w.isDead)
    (hp : Unbound w.lifecycle p k) : Loose (w.moveTo (.caller n) p) n k :=
  ⟨hd, p, calls_moveTo hc, hp⟩

theorem loose_look {op : Operation κ} (hc : s.calls = [(.caller n, .holding op)])
    (hd : ¬ s.isDead) (ho : op = .stop → s.lifecycle ≠ .running) :
    ∃ k < 3, Loose (s.look (.caller n) grant op) n k := by
  have hcalls : s.calls = [] ∨ ∃ q, s.calls = [(.caller n, q)] := .inr ⟨_, hc⟩
  cases op with
  | submit k request =>
    simp only [look]
    split
    · exact ⟨2, by simp, loose_moveTo hcalls hd .submit⟩
    · exact ⟨1, by simp, loose_moveTo hcalls hd .leaving⟩
  | monitor channel =>
    simp only [look]
    split
    · exact ⟨2, by simp, loose_moveTo hcalls hd .monitor⟩
    · exact ⟨1, by simp, loose_moveTo hcalls hd .leaving⟩
  | lifecycle => exact ⟨1, by simp, loose_moveTo hcalls hd .leaving⟩
  | isRunning => exact ⟨1, by simp, loose_moveTo hcalls hd .leaving⟩
  | start =>
    simp only [look, tryLaunch_snd]
    split
    · exact ⟨1, by simp, loose_moveTo hcalls hd .leaving⟩
    · split
      · exact ⟨1, by simp, loose_moveTo hcalls (by simp [isDead, launch]) .leaving⟩
      · exact ⟨1, by simp, loose_moveTo hcalls hd .leaving⟩
  | stop =>
    simp only [look, ho rfl, if_false]
    exact ⟨1, by simp, loose_moveTo hcalls hd .leaving⟩

/-- Each step brings such a call closer to its end. -/
theorem Loose.proceed {k : Nat} (h : Loose s n k) (grant : Grant) :
    s.Enabled (.proceed (.caller n) grant) ∧
      ((s.proceed (.caller n) grant).calls = [] ∨
        ∃ j < k, Loose (s.proceed (.caller n) grant) n j) := by
  obtain ⟨p, hc, hp⟩ := h.at_point
  have hcalls : s.calls = [] ∨ ∃ q, s.calls = [(.caller n, q)] := .inr ⟨_, hc⟩
  have hpoint := point?_of_calls hc
  have hfree : ∀ op : Operation κ, p = .wanting op → s.isFree op.access := by
    rintro op rfl
    have hheld : s.held = [] := by simp [held, hc, Point.held?]
    cases ho : op.access <;> simp [isFree, hheld]
  refine ⟨⟨h.alive, ?_⟩, ?_⟩
  · cases hp <;> simp [Allows, canProceed, hpoint, hfree]
  cases hp with
  | wanting ho =>
    simp only [State.proceed, hpoint]
    exact .inr ⟨3, by simp, loose_moveTo hcalls h.alive (.holding ho)⟩
  | holding ho =>
    simp only [State.proceed, hpoint]
    exact .inr (loose_look hc h.alive ho)
  | @submit j request =>
    simp only [State.proceed, hpoint, send]
    rcases enqueue_cases s (.dial request) with ⟨heq, -⟩ | ⟨heq, -⟩ <;> simp only [heq] <;>
      exact .inr ⟨1, by simp, loose_moveTo hcalls h.alive .leaving⟩
  | @monitor channel =>
    simp only [State.proceed, hpoint, send]
    rcases enqueue_cases s (.watchOn channel) with ⟨heq, -⟩ | ⟨heq, -⟩ <;> simp only [heq] <;>
      exact .inr ⟨1, by simp, loose_moveTo hcalls h.alive .leaving⟩
  | leaving =>
    simp only [State.proceed, hpoint, finish]
    split <;> exact .inl (calls_returns hcalls)

theorem Loose.returns {k : Nat} (h : Loose s n k) (grant : Grant) :
    ∃ j ≤ k, s.Possible (.replicate j (.proceed (.caller n) grant)) ∧
      (s.run (.replicate j (.proceed (.caller n) grant))).calls = [] := by
  induction k using Nat.strong_induction_on generalizing s with
  | h k ih =>
    obtain ⟨he, hfree | ⟨i, hi, hloose⟩⟩ := h.proceed grant
    · obtain ⟨p, -, hp⟩ := h.at_point
      exact ⟨1, by cases hp <;> simp, ⟨he, trivial⟩, hfree⟩
    · obtain ⟨j, hj, hp, hfree⟩ := ih i hi hloose
      exact ⟨j + 1, by omega, ⟨he, hp⟩, hfree⟩

theorem exists_sole (hc : s.calls = []) (he : s.Enabled (.begin (.caller n) call))
    (hr : call ≠ .release) (hl : call = .stop → s.lifecycle ≠ .running) (grant : Grant) :
    ∃ k ≤ 4, Sole s n call (.replicate k (.proceed (.caller n) grant)) := by
  have halone : ∀ k, ∀ l ∈ List.replicate k (Label.proceed (κ := κ) (.caller n) grant),
      l.isBegin = false := by
    intro k l hm
    rw [List.eq_of_mem_replicate hm]
    rfl
  have hends : (s.begin (.caller n) call).calls = [] ∨ Loose (s.begin (.caller n) call) n 4 := by
    have hasks : ∀ {op : Operation κ} {w : State κ}, w.calls = s.calls → ¬ w.isDead →
        (op = .stop → w.lifecycle ≠ .running) →
        Loose (w.moveTo (.caller n) (.wanting op)) n 4 := fun hw hd ho =>
      loose_moveTo (.inl (hw.trans hc)) hd (.wanting ho)
    cases call with
    | submit request =>
      cases hreq : request.refusal? with
      | some failure =>
        simp only [begin, hreq]
        exact .inl (calls_returns (.inl hc))
      | none =>
        simp only [begin, hreq]
        exact .inr (hasks rfl he.1 (by simp))
    | monitor =>
      simp only [begin]
      split
      · exact .inr (hasks rfl he.1 (by simp))
      · exact .inl (calls_returns (.inl hc))
    | lifecycle => exact .inr (hasks rfl he.1 (by simp))
    | isRunning => exact .inr (hasks rfl he.1 (by simp))
    | start => exact .inr (hasks rfl he.1 (by simp))
    | stop => exact .inr (hasks rfl he.1 fun _ => hl rfl)
    | retain => exact .inl (calls_returns (.inl hc))
    | release => exact absurd rfl hr
  rcases hends with hfree | hloose
  · exact ⟨0, by simp, ⟨he, trivial⟩, halone 0, hfree⟩
  · obtain ⟨k, hk, hp, hfree⟩ := hloose.returns grant
    exact ⟨k, hk, ⟨he, hp⟩, halone k, hfree⟩

/-! ### The laws of calls -/

theorem ends_retain (hv : s.begin (.caller n) .retain = v) (hc : s.calls = []) :
    Ends v (Serves s n .retain) [] := by
  have hbegin : v = { s with handles := s.handles + 1 }.returns (.caller n) .done := hv.symm
  refine ends_of_returned [] (by rw [hbegin]; exact calls_returns (.inl hc))
    (by rw [hbegin]; rfl) fun ys _ hys => serves_of_acted hv ?_ not_isVain_retain .retain
  exact (elsewhere_run hys).lifecycle.trans (by rw [hbegin]; rfl)

theorem Sole.serves (hs : Reachable s) (hc : s.calls = []) (hr : call ≠ .release)
    (h : Sole s n call labels) :
    ∃ result, (s.run (.begin (.caller n) call :: labels)).answer? = some result ∧
      Serves s n call result labels := by
  have hh := handles_of_enabled h.possible.1
  have hv := hs.step h.possible.1
  have hends : Ends (s.begin (.caller n) call) (Serves s n call) [] := by
    cases call with
    | submit request =>
      cases hreq : request.refusal? with
      | some failure => exact ends_incomplete hreq rfl hv hc
      | none => exact ends_complete hreq rfl hs hv hc hh
    | monitor => exact ends_monitor rfl hc hh
    | lifecycle => exact ends_lifecycle rfl hc hh
    | isRunning => exact ends_isRunning rfl hv hc hh
    | start => exact ends_start rfl hc hh
    | stop => exact ends_stop rfl hv hc hh
    | retain => exact ends_retain rfl hc
    | release => exact absurd rfl hr
  exact hends labels h.possible.2 h.alone h.finished

theorem exists_renewal (hs : Reachable s) (hc : s.calls = [])
    (he : s.Enabled (.begin (.caller n) .start)) (hl : s.lifecycle ≠ .running)
    (hn : s.hasBadName = false) (hm : s.settings.fitsMemory) :
    ∃ labels, Sole s n .start labels ∧
      (s.run (.begin (.caller n) .start :: labels)).answer? = some .done ∧
      ∃ before rest, labels = before ++ rest ∧
        Renews s (s.run (.begin (.caller n) .start :: before)) := by
  obtain ⟨k, -, hsole⟩ := exists_sole hc he (by simp) (by simp) {}
  obtain ⟨result, hanswer, hserves⟩ := hsole.serves hs hc (by simp)
  refine ⟨_, hsole, ?_⟩
  generalize hlabels : List.replicate k (Label.proceed (κ := κ) (.caller n) {}) = labels at *
  cases hserves.responds with
  | started hl' => exact absurd hl' hl
  | @start before rest grant _ hr =>
    have hgrant : grant = {} := by
      have hm : Label.proceed (κ := κ) (.caller n) grant ∈ List.replicate k
          (.proceed (.caller n) {}) := by
        rw [hlabels]
        simp
      simpa using List.eq_of_mem_replicate hm
    have hdone : (s.tryLaunch grant).1 = .done := by simp [hgrant, tryLaunch, hn, hm]
    exact ⟨hdone ▸ hanswer, _, rest, by simp, hr hdone⟩

/-- Between calls, whatever happened before, a call that has the service to itself is told what it
answers and what it changes by the lifecycle alone. The lifecycle goes from fresh to running to
stopped to running and so on; a service says that it runs exactly if it counts as running. A request
without both continuations is refused as such in any state, and a complete one exactly if the
service does not run; only after a panic that nothing contained a service that counts as running can
refuse one. What starts a running service, stops another, or comes to nothing leaves all to the
course it would have taken without, and a refused submission is never called back. Each such call
returns, and a start can succeed, over an empty table, whatever failed before. -/
theorem Reachable.calls_follow_lifecycle (hs : Reachable s) (hc : s.calls = []) (n : Nat) :
    (∀ call labels, call ≠ .release → Sole s n call labels →
      ∃ result, (s.run (.begin (.caller n) call :: labels)).answer? = some result ∧
        Serves s n call result labels) ∧
    (∀ call, s.Enabled (.begin (.caller n) call) → call ≠ .release →
      (call = .stop → s.lifecycle ≠ .running) → ∀ grant,
      ∃ k ≤ 4, Sole s n call (.replicate k (.proceed (.caller n) grant))) ∧
    (s.Enabled (.begin (.caller n) .start) → s.lifecycle ≠ .running → s.hasBadName = false →
      s.settings.fitsMemory → ∃ labels, Sole s n .start labels ∧
        (s.run (.begin (.caller n) .start :: labels)).answer? = some .done ∧
        ∃ before rest, labels = before ++ rest ∧
          Renews s (s.run (.begin (.caller n) .start :: before))) :=
  ⟨fun _ _ hr h => h.serves hs hc hr, fun _ he hr hl => exists_sole hc he hr hl,
    fun he hl hn hm => exists_renewal hs hc he hl hn hm⟩

/-- A start that fails for want of descriptors, and a later one. -/
theorem start_after_failed_start :
    let labels : List (Label Nat) :=
      .replicate 3 (.proceed (.caller 0) { descriptors := some .tooManyOpenFiles })
    let s : State Nat := initial { eventCapacity := 1 }
    let t := s.run (.begin (.caller 0) .start :: labels)
    Serves s 0 .start (.refused (.socketCreateFailed .tooManyOpenFiles)) labels ∧
      ∃ later, Sole t 0 .start later ∧
        (t.run (.begin (.caller 0) .start :: later)).answer? = some .done := by
  intro labels s t
  have hs : Reachable s := .initial _
  have hsole : Sole s 0 .start labels := ⟨by decide, by decide, by decide⟩
  obtain ⟨result, hanswer, hserves⟩ :=
    (hs.calls_follow_lifecycle rfl 0).1 .start labels (by simp) hsole
  have hrefused : t.answer? = some (.refused (.socketCreateFailed .tooManyOpenFiles)) := by decide
  obtain rfl := Option.some.inj (hanswer.symm.trans hrefused)
  have ht : Reachable t := hs.run hsole.possible
  obtain ⟨later, hlater, hdone, -⟩ := (ht.calls_follow_lifecycle hsole.finished 0).2.2
    (by decide) (by decide) (by decide) (by decide)
  exact ⟨hserves, later, hlater, hdone⟩

/-- A panic that throws again when it is got rid of ends the worker. The service still counts as
running, and refuses a complete request. -/
theorem running_refuses_after_panic :
    let request : Request Nat := ⟨"127.0.0.1", 80, .ofMillis 0, some 0, some 1⟩
    let answers : Answers := { reply := { connect := some .nowInProgress } }
    let proceed (n : Nat) : List (Label Nat) := .replicate n (.proceed (.caller 0) {})
    let s := (initial { eventCapacity := 1 }).run ([.begin (.caller 0) .start] ++ proceed 3 ++
      [.begin (.caller 0) (.submit request)] ++ proceed 4 ++ .replicate 15 (.work answers) ++
      [.leave (some (.volatile none (.plain none)))] ++ .replicate 3 (.work answers))
    Reachable s ∧ s.calls = [] ∧ s.lifecycle = .running ∧ request.refusal? = none ∧
      Sole s 0 (.submit request) (proceed 4) ∧
      (s.run (.begin (.caller 0) (.submit request) :: proceed 4)).answer? =
        some (.refused .notRunning) := by
  intro request answers proceed s
  exact ⟨(Reachable.initial _).run (by decide), by decide, by decide, by decide,
    ⟨by decide, by decide, by decide⟩, by decide⟩

end State

end Dialer.Service
