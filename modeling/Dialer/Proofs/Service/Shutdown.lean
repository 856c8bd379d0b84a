import Dialer.Proofs.Service.Resolution

/-!
# A stop and the worker it waits for

While a stop waits for the worker, no call that a continuation makes gets its side of the lock. The
calls for the shared side give up waiting and return. A start is for the exclusive side and does not
give up: it waits for the stop, which waits for it.
-/

namespace Dialer.Service.State

variable {κ : Type} {s t : State κ} {k : Nat}

theorem Guarded.wanting_of_joined (h : Guarded s) (hj : s.point? (.caller k) = some .joining)
    {p : Point κ} (hp : s.point? .worker = some p) : ∃ op, p = .wanting op := by
  have hfree : ¬ p.held?.isSome := fun hh => by
    have := h.alone hj hp rfl hh
    simp at this
  cases p with
  | wanting op => exact ⟨op, rfl⟩
  | holding op => exact absurd rfl hfree
  | sending op => exact absurd rfl hfree
  | joining => exact absurd rfl hfree
  | leaving access result => exact absurd rfl hfree

theorem Ruled.still_joining (h : Ruled s) (hp : Passes s t)
    (hj : s.point? (.caller k) = some .joining) (hf : s.isForeign) :
    t.point? (.caller k) = some .joining := by
  rcases hp.halting hj (.inr rfl) with ⟨p', ht, -, he⟩ | hjoined
  · rw [ht, he rfl]
  · exact absurd hf (not_isForeign_of_isWorkerGone hjoined.gone h.manned.sound)

/-! ### Calls for the shared side -/

theorem point?_giveUp (hc : s.canGiveUp) (other : Thread) :
    s.giveUp.point? other = if other = .worker then none else s.point? other := by
  unfold canGiveUp at hc
  unfold giveUp
  cases hp : s.point? .worker with
  | none => simp [hp] at hc
  | some p =>
    cases p with
    | wanting op =>
      cases op with
      | start => simp [hp, Operation.access] at hc
      | stop => simp [hp, Operation.access] at hc
      | _ => exact point?_returns _ _ _ _
    | _ => simp [hp] at hc

theorem Ruled.not_isDead_of_isForeign (h : Ruled s) (hf : s.isForeign) : ¬ s.isDead := by
  cases hw : s.worker with
  | none => simp [isDead, hw]
  | some w =>
    intro hd
    have hst : w.stage = .dead := by simpa [isDead, hw] using hd
    have hframes : s.table.frames = [] :=
      (h.manned.sound w hw).staged.frames_of_nothing (by rw [hst]; rfl)
    simp [isForeign, hw, Duty.isForeign, hframes] at hf

theorem Ruled.enabled_giveUp (h : Ruled s) (hj : s.point? (.caller k) = some .joining)
    {op : Operation κ} (hp : s.point? .worker = some (.wanting op)) (ho : op ≠ .start) :
    s.Enabled .giveUp := by
  have hforeign := h.guarded.foreign hp
  refine ⟨h.not_isDead_of_isForeign hforeign, ?_⟩
  have ha : op.access = .shared := by
    have hn := (h.guarded.barred hp).2
    cases op with
    | start => exact absurd rfl ho
    | stop => exact absurd rfl hn
    | _ => rfl
  have hfree : s.isFree .shared = false :=
    Bool.eq_false_iff.mpr (not_isFree_of_exclusive hj rfl .shared)
  simp [Allows, canGiveUp, hp, ha, hfree]

/-! ### A start -/

/-- Each of the two threads waits for the other. -/
structure Deadlocked (s : State κ) (k : Nat) : Prop where
  joining : s.point? (.caller k) = some .joining
  wanting : s.point? .worker = some (.wanting .start)

theorem Passes.wanting_start (h : Passes s t) (hp : s.point? .worker = some (.wanting .start))
    (hf : ¬ s.isFree .exclusive) : t.point? .worker = some (.wanting .start) := by
  have hmoves : ∀ {thread q p}, Moves s thread q t → s.point? thread = some p →
      p ≠ .wanting .start → t.point? .worker = some (.wanting .start) := by
    intro thread q p hm hp' hn
    rw [hm, if_neg, hp]
    rintro rfl
    exact hn (Option.some.inj (hp'.symm.trans hp))
  cases h with
  | @call thread q hm hs hfollows =>
    rw [hm, if_neg, hp]
    rintro rfl
    cases hfollows with
    | begins hn => simp [hn] at hp
    | locks hp' hfree =>
      obtain rfl : _ = Operation.start := by simpa using hp'.symm.trans hp
      exact hf hfree
    | sends hp' => simp [hp'] at hp
    | leaves hp' => rcases hp' with hp' | ⟨hp', -⟩ <;> simp [hp'] at hp
    | ends hp' =>
      rcases hp' with ⟨hn, -⟩ | ⟨op, hp', ha⟩ | ⟨_, _, hp'⟩
      · simp [hn] at hp
      · obtain rfl : op = Operation.start := by simpa using hp'.symm.trans hp
        simp [Operation.access] at ha
      · simp [hp'] at hp
  | launched hl => exact hmoves hl.moves hl.point (by simp)
  | halted hh => exact hmoves hh.moves hh.point (by simp)
  | accepted hp' hm => exact hmoves hm hp' (by simp)
  | posted hp' hm => exact hmoves hm hp' (by simp)
  | signalled hp' hm => exact hmoves hm hp' (by simp)
  | lowered hp' hm => exact hmoves hm hp' (by simp)
  | joined hj => exact hmoves hj.moves hj.point (by simp)
  | abandoned ha => simp [ha.free] at hp
  | worked hw => rw [hw.points, hp]
  | outside hp' => rw [hp', hp]

theorem Ruled.deadlocked (h : Ruled s) (hp : Passes s t) (hd : Deadlocked s k) :
    Deadlocked t k where
  joining := h.still_joining hp hd.joining (h.guarded.foreign hd.wanting)
  wanting := hp.wanting_start hd.wanting (not_isFree_of_exclusive hd.joining rfl .exclusive)

theorem Reachable.deadlocked_run (hs : Reachable s) (hd : Deadlocked s k) {labels : List (Label κ)}
    (hl : s.Possible labels) : Deadlocked (s.run labels) k := by
  induction labels generalizing s with
  | nil => exact hd
  | cons l rest ih =>
    have hp := passes_after hs.ruled.manned.sound hl.1
    exact ih (hs.step hl.1) (hs.ruled.deadlocked hp hd) hl.2

/-- Of the calls that a continuation can make only a start waits for the exclusive side. -/
theorem point?_begin_worker (s : State κ) (call : Call κ) :
    (s.begin .worker call).point? .worker = some (.wanting .start) ↔ call = .start := by
  cases call with
  | submit request =>
    cases hr : request.refusal? <;> simp [begin, hr, point?_returns, point?_moveTo]
  | monitor =>
    simp only [begin]
    split <;> simp [point?_returns, point?_moveTo]
  | release =>
    simp only [begin]
    split
    · simp [releaseLast, point?_returns]
    · simp [point?_returns]
  | _ => simp [begin, point?_returns, point?_moveTo]

/-! ### What a stop does not hold up -/

/-- The call that a continuation made returned, or it can return while the stop waits on. -/
def CanReturn (s : State κ) (k : Nat) : Prop :=
  s.point? .worker = none ∨ (s.Enabled .giveUp ∧ (s.after .giveUp).point? .worker = none ∧
    (s.after .giveUp).point? (.caller k) = some .joining)

theorem Ruled.canReturn_iff (h : Ruled s) (hj : s.point? (.caller k) = some .joining) :
    s.CanReturn k ↔ ¬ Deadlocked s k := by
  constructor
  · rintro (hn | ⟨he, -⟩) hd
    · simp [hd.wanting] at hn
    · have hc := he.2
      simp [Allows, canGiveUp, hd.wanting, Operation.access] at hc
  · intro hd
    cases hp : s.point? .worker with
    | none => exact .inl hp
    | some p =>
      obtain ⟨op, rfl⟩ := h.guarded.wanting_of_joined hj hp
      have he := h.enabled_giveUp hj hp fun ho => hd ⟨hj, ho ▸ hp⟩
      refine .inr ⟨he, ?_, ?_⟩
      · rw [after, point?_giveUp he.2, if_pos rfl]
      · rw [after, point?_giveUp he.2, if_neg (by simp), hj]

/-- While a stop waits for the worker, the call of a continuation can return, and the stop need not
let go of the lock for that: the call returned at once, or its thread can give up waiting. This
holds of every call but a start. With a start the two threads wait for each other, and no steps of
any threads get either of them on. -/
theorem Reachable.only_start_waits (hs : Reachable s)
    (hj : s.point? (.caller k) = some .joining) :
    (s.CanReturn k ↔ ¬ Deadlocked s k) ∧
    (∀ call, s.Enabled (.begin .worker call) →
      (s.after (.begin .worker call)).point? (.caller k) = some .joining ∧
      ((s.after (.begin .worker call)).CanReturn k ↔ call ≠ .start)) ∧
    (Deadlocked s k → ∀ labels, s.Possible labels → Deadlocked (s.run labels) k) := by
  have h := hs.ruled
  refine ⟨h.canReturn_iff hj, fun call hl => ?_, fun hd labels => hs.deadlocked_run hd⟩
  have hforeign : s.isForeign := by
    have hcan := hl.2.1
    simp only [canCall, Bool.and_eq_true, Bool.or_eq_true, bne_self_eq_false,
      Bool.false_eq_true, false_or] at hcan
    exact hcan.2
  have hj' := h.still_joining (passes_after h.manned.sound hl) hj hforeign
  refine ⟨hj', ((hs.step hl).ruled.canReturn_iff hj').trans (not_congr ?_)⟩
  rw [← point?_begin_worker s call]
  exact ⟨fun hd => hd.wanting, fun hw => ⟨hj', hw⟩⟩

/-- A stop comes while an attempt that took too long is called back. The call may ask for the
lifecycle. -/
theorem asking_returns_while_stopping :
    let request : Request Nat := ⟨"127.0.0.1", 80, .ofMillis 0, some 0, some 1⟩
    let answers : Answers := { reply := { connect := some .nowInProgress } }
    let proceed (n : Nat) : List (Label Nat) := .replicate n (.proceed (.caller 0) {})
    let s := (initial { eventCapacity := 1 }).run ([.begin (.caller 0) .start] ++ proceed 3 ++
      [.begin (.caller 0) (.submit request)] ++ proceed 4 ++ .replicate 15 (.work answers) ++
      [.begin (.caller 0) .stop] ++ proceed 3)
    s.point? (.caller 0) = some .joining ∧ (s.after (.begin .worker .lifecycle)).CanReturn 0 := by
  intro request answers proceed s
  have hs : Reachable s := (Reachable.initial _).run (by decide)
  have hj : s.point? (.caller 0) = some .joining := by decide
  exact ⟨hj, ((hs.only_start_waits hj).2.1 .lifecycle (by decide)).2.mpr (by simp)⟩

/-- In the same place a start is never over, and neither is the stop. -/
theorem start_deadlocks_while_stopping :
    let request : Request Nat := ⟨"127.0.0.1", 80, .ofMillis 0, some 0, some 1⟩
    let answers : Answers := { reply := { connect := some .nowInProgress } }
    let proceed (n : Nat) : List (Label Nat) := .replicate n (.proceed (.caller 0) {})
    let s := (initial { eventCapacity := 1 }).run ([.begin (.caller 0) .start] ++ proceed 3 ++
      [.begin (.caller 0) (.submit request)] ++ proceed 4 ++ .replicate 15 (.work answers) ++
      [.begin (.caller 0) .stop] ++ proceed 3 ++ [.begin .worker .start])
    Reachable s ∧ ∀ labels, s.Possible labels → Deadlocked (s.run labels) 0 := by
  intro request answers proceed s
  have hs : Reachable s := (Reachable.initial _).run (by decide)
  exact ⟨hs, fun labels => hs.deadlocked_run ⟨by decide, by decide⟩⟩

end Dialer.Service.State
