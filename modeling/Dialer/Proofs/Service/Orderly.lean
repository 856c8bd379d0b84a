import Dialer.Proofs.Service.Attachments

/-!
# Calls one after the other

While no two calls overlap, the channel in the slot and those that the worker is still to publish on
stay in step: the channels that were attached, followed by those that are to be, are in the order of
the calls that brought them, and the last of them is the one in the slot.
-/

namespace Dialer.Service

variable {κ : Type}

namespace State

variable {s t : State κ} {l : Label κ} {labels xs ys : List (Label κ)} {thread : Thread} {c : Nat}
  {asked attached : List Nat}

/-- No call begins before the one before it is over. -/
def Orderly (s : State κ) : List (Label κ) → Prop
  | [] => True
  | l :: rest => (l.isBegin → s.calls.isEmpty) ∧ (s.after l).Orderly rest

instance decidableOrderly (s : State κ) :
    (labels : List (Label κ)) → Decidable (s.Orderly labels)
  | [] => .isTrue trivial
  | l :: rest =>
    haveI := decidableOrderly (s.after l) rest
    inferInstanceAs (Decidable ((l.isBegin → s.calls.isEmpty) ∧ (s.after l).Orderly rest))

theorem orderly_append :
    s.Orderly (xs ++ ys) ↔ s.Orderly xs ∧ (s.run xs).Orderly ys := by
  induction xs generalizing s with
  | nil => simp [Orderly, run]
  | cons x xs ih => simp [Orderly, ih, and_assoc, run]

theorem orderly_snoc :
    s.Orderly (labels ++ [l]) ↔ s.Orderly labels ∧ (l.isBegin → (s.run labels).calls.isEmpty) := by
  simp [orderly_append, Orderly]

/-- How far the only call for a monitor has come, if there is one, and what that says of the slot.
The channels that calls asked for come first, those that were or are to be attached second. -/
inductive Phase (s : State κ) (asked course : List Nat) : Prop
  | settled (ho : s.offered = []) (hs : s.slot = asked.getLast?)
      (hh : ¬ s.table.isClosed → course.getLast? = s.slot)
  | asking {thread : Thread} {p : Point κ} {c : Nat} (hc : s.calls = [(thread, p)])
      (hp : p = .wanting (.monitor c) ∨ p = .holding (.monitor c)) (ha : asked.getLast? = some c)
      (hs : ∀ m, s.slot = some m → m ≤ c) (hh : ¬ s.table.isClosed → course.getLast? = s.slot)
  | posting {thread : Thread} {c : Nat} (hc : s.calls = [(thread, .sending (.monitor c))])
      (ha : asked.getLast? = some c) (hs : s.slot = some c)

/-- How a service stands after a run in which channels were asked for and attached. -/
structure Aligned (s : State κ) (asked attached : List Nat) : Prop where
  phase : Phase s asked (attached ++ s.ordered)
  sorted : (attached ++ s.ordered).Pairwise (· ≤ ·)
  kept : ∀ c ∈ attached ++ s.ordered, ∃ m, s.slot = some m ∧ c ≤ m
  slot : ∀ c, s.slot = some c → c ∈ asked
  known : ∀ c ∈ attached ++ s.ordered, c ∈ asked
  closed : s.table.isClosed → s.table.monitor = none
  monitor : ¬ s.table.isClosed → s.table.monitor = attached.getLast?

/-! ### The order of channels -/

/-- A step adds to the channels that were or are to be attached, or the worker is gone and with it
those that were to be. -/
theorem Steers.course (h : Steers s l) (attached : List Nat) :
    (∃ x : Option Nat, attached ++ (s.attached? l).toList ++ (s.after l).ordered =
        attached ++ s.ordered ++ x.toList ∧
      ((x = s.slot ∧ ∃ thread, s.point? thread = some (.holding .start)) ∨
        (x = s.posted? l ∧ ¬ s.table.isClosed))) ∨
    ((s.after l).table.isClosed ∧ (attached ++ (s.attached? l).toList ++
      (s.after l).ordered).Sublist (attached ++ s.ordered)) := by
  cases h with
  | renews hp hc hj ha hc' hj' hm =>
    refine .inl ⟨s.slot, ?_, .inl ⟨rfl, _, hp⟩⟩
    rw [ha, ordered, ordered, hj, hj', List.filterMap_nil, List.append_nil, List.append_nil]
  | goesOn hc hc' hj ha hm =>
    refine .inl ⟨s.posted? l, ?_, .inr ⟨rfl, hc⟩⟩
    have hordered := congrArg (List.filterMap Job.channel?) hj
    simp only [List.filterMap_append, filterMap_toList] at hordered
    rw [ha, posted?_eq, List.append_assoc, List.append_assoc]
    exact congrArg _ hordered.symm
  | ends hc' hj' ha =>
    refine .inr ⟨hc', ?_⟩
    rw [ordered, hj', List.filterMap_nil, List.append_nil, ha, ← filterMap_toList]
    exact ((taken?_sublist s l).filterMap _).append_left _

theorem posted?_of_offered (ho : s.offered = []) : s.posted? l = none := by
  cases hx : s.posted? l with
  | none => rfl
  | some c => exact absurd (ho ▸ mem_offered_of_posted? hx) List.not_mem_nil

theorem stored?_of_offered (ho : s.offered = []) : s.stored? l = none := by
  cases hx : s.stored? l with
  | none => rfl
  | some c => exact absurd (ho ▸ mem_offered_of_stored? hx) List.not_mem_nil

theorem channel_of_isCall (hl : l.isCall = false) :
    s.stored? l = none ∧ s.posted? l = none ∧ s.asked? l = none := by
  cases l <;> first | exact ⟨rfl, rfl, rfl⟩ | cases hl

theorem offered_of_calls {p : Point κ} (hc : s.calls = [(thread, p)]) :
    s.offered = p.channel?.toList := by
  rw [offered, hc]
  cases h : p.channel? <;> simp [h]

/-- While the only call is no stop, nothing is left of a worker that is not running. -/
theorem Reachable.closed_of_sole (hs : Reachable s) {p : Point κ} (hc : s.calls = [(thread, p)])
    (hp : ¬ p.IsHalting) (hh : s.handles ≠ 0) (hl : s.lifecycle ≠ .running) :
    s.table.isClosed := by
  refine (hs.ruled.manned.fallow_of_gone (hs.ruled.guarded.gone_of_idle hl hh ?_)).closed
  intro other q hq
  have hm := mem_calls_of_point? hq
  rw [hc, List.mem_singleton] at hm
  obtain ⟨-, rfl⟩ := Prod.mk.inj hm
  exact hp

theorem slot_after (he : s.Enabled l) (hi : Intact (s.after l)) :
    (s.after l).slot = (s.stored? l).or s.slot :=
  (acts_after he).slot.resolve_right fun h => hi.held h.1

/-- The call for a monitor leaves its job, unless nobody is there to carry it out. -/
theorem Reachable.phase_of_posting (hs : Reachable s) (he : s.Enabled l)
    (hi : Intact (s.after l)) (attached : List Nat) {grant : Grant} (hl : l = .proceed thread grant)
    (hc : s.calls = [(thread, .sending (.monitor c))]) (hlast : asked.getLast? = some c)
    (hstore : s.slot = some c) :
    Phase (s.after l) asked (attached ++ (s.attached? l).toList ++ (s.after l).ordered) := by
  have hslot := slot_after he hi
  have hpoint := point?_of_calls hc
  subst hl
  have hst : s.stored? (.proceed thread grant) = none := by simp [stored?, hpoint]
  rw [hst, Option.none_or] at hslot
  have hcalls : (s.after (.proceed thread grant)).calls =
      [(thread, .leaving .shared (.receiver (some c)))] := by
    simp only [after, proceed, hpoint, send]
    rcases enqueue_cases s (.watchOn c) with ⟨heq, -⟩ | ⟨heq, -⟩ <;> rw [heq] <;>
      exact calls_moveTo (.inr ⟨_, hc⟩)
  refine .settled (offered_of_calls hcalls) (hslot.trans (hstore.trans hlast.symm)) fun hopen => ?_
  rcases (hs.steers_after he hi).course attached with
    ⟨x, heq, ⟨rfl, other, hother⟩ | ⟨rfl, hunclosed⟩⟩ | ⟨hc', -⟩
  · rw [heq, hslot, hstore]
    simp
  · rw [heq, hslot, hstore]
    simp [posted?, hpoint, hunclosed, Operation.channel?]
  · exact absurd hc' hopen

section Aligned

variable (h : Aligned s asked attached)
include h

theorem Aligned.posted (hp : s.posted? l = some c) : s.slot = some c := by
  have hm := mem_offered_of_posted? hp
  cases h.phase with
  | settled ho => simp [ho] at hm
  | @asking thread p channel hc hpt =>
    -- The call is not that far.
    unfold posted? at hp
    split at hp
    · split at hp
      · next op hpoint =>
        have hcall := mem_calls_of_point? hpoint
        rw [hc, List.mem_singleton] at hcall
        obtain ⟨-, rfl⟩ := Prod.mk.inj hcall
        simp at hpt
      · cases hp
    · cases hp
  | @posting thread channel hc _ hslot =>
    rw [offered_of_calls hc] at hm
    obtain rfl : c = channel := (Option.some.inj (Option.mem_toList.mp hm)).symm
    exact hslot

theorem Aligned.course_eq_nil (hslot : s.slot = none) : attached ++ s.ordered = [] := by
  refine List.eq_nil_iff_forall_not_mem.mpr fun c hc => ?_
  obtain ⟨m, hm, -⟩ := h.kept c hc
  simp [hslot] at hm

/-- The channel that a call brings was asked for last. -/
theorem Aligned.offered (hm : c ∈ s.offered) :
    asked.getLast? = some c ∧ ∀ m, s.slot = some m → m ≤ c := by
  cases h.phase with
  | settled ho => simp [ho] at hm
  | @asking thread p channel hc hpt ha hle =>
    rw [offered_of_calls hc] at hm
    obtain rfl : c = channel := by
      rcases hpt with rfl | rfl <;> exact (Option.some.inj (Option.mem_toList.mp hm)).symm
    exact ⟨ha, hle⟩
  | @posting thread channel hc ha hslot =>
    rw [offered_of_calls hc] at hm
    obtain rfl : c = channel := (Option.some.inj (Option.mem_toList.mp hm)).symm
    exact ⟨ha, fun m hm => Nat.le_of_eq (Option.some.inj (hm.symm.trans hslot))⟩

variable (hs : Reachable s) (he : s.Enabled l) (hi : Intact (s.after l))
include hs he hi

/-- Where nothing is posted, the last channel stays the one in the slot. -/
theorem Aligned.heading_after (hh : ¬ s.table.isClosed → (attached ++ s.ordered).getLast? = s.slot)
    (hp : s.posted? l = none) (ho : ¬ (s.after l).table.isClosed) :
    (attached ++ (s.attached? l).toList ++ (s.after l).ordered).getLast? = s.slot := by
  rcases (hs.steers_after he hi).course attached with ⟨x, heq, ⟨rfl, -⟩ | ⟨rfl, hopen⟩⟩ | ⟨hc, -⟩
  · rw [heq]
    cases hslot : s.slot with
    | some m => simp
    | none => rw [h.course_eq_nil hslot]; rfl
  · rw [heq, hp, Option.toList_none, List.append_nil]
    exact hh hopen
  · exact absurd hc ho

theorem Aligned.phase_aside (hl : l.isCall = false) :
    Phase (s.after l) (asked ++ (s.asked? l).toList)
      (attached ++ (s.attached? l).toList ++ (s.after l).ordered) := by
  obtain ⟨hst, hpost, hask⟩ := channel_of_isCall (s := s) hl
  have hcalls := (elsewhere_after (s := s) hl).calls
  have hslot := slot_after he hi
  rw [hst, Option.none_or] at hslot
  rw [hask, Option.toList_none, List.append_nil]
  have hheading : (¬ s.table.isClosed → (attached ++ s.ordered).getLast? = s.slot) →
      ¬ (s.after l).table.isClosed →
        (attached ++ (s.attached? l).toList ++ (s.after l).ordered).getLast? = (s.after l).slot :=
    fun hh ho => (h.heading_after hs he hi hh hpost ho).trans hslot.symm
  cases h.phase with
  | settled ho hlast hh =>
    exact .settled (by rwa [State.offered, hcalls]) (hslot.trans hlast) (hheading hh)
  | asking hc hp hlast hle hh =>
    exact .asking (hcalls.trans hc) hp hlast (hslot ▸ hle) (hheading hh)
  | posting hc hlast hstore => exact .posting (hcalls.trans hc) hlast (hslot.trans hstore)

theorem Aligned.phase_of_settled (hb : l.isBegin → s.calls.isEmpty) (ho : s.offered = [])
    (hlast : s.slot = asked.getLast?)
    (hh : ¬ s.table.isClosed → (attached ++ s.ordered).getLast? = s.slot) :
    Phase (s.after l) (asked ++ (s.asked? l).toList)
      (attached ++ (s.attached? l).toList ++ (s.after l).ordered) := by
  have hslot := slot_after he hi
  rw [stored?_of_offered ho, Option.none_or] at hslot
  have hheading : ¬ (s.after l).table.isClosed →
      (attached ++ (s.attached? l).toList ++ (s.after l).ordered).getLast? = (s.after l).slot :=
    fun hopen => (h.heading_after hs he hi hh (posted?_of_offered ho) hopen).trans hslot.symm
  cases hask : s.asked? l with
  | none =>
    refine .settled ?_ ?_ hheading
    · exact List.eq_nil_iff_forall_not_mem.mpr fun c hc =>
        absurd (ho ▸ offered_after he hask c hc) List.not_mem_nil
    · rw [hslot, hlast, Option.toList_none, List.append_nil]
  | some c =>
    obtain ⟨thread, rfl, hsettings, rfl⟩ := begin_of_asked? hask
    have hcalls : (s.after (.begin thread .monitor)).calls =
        [(thread, .wanting (.monitor s.table.channels.length))] := by
      simp only [after, begin, hsettings]
      exact calls_moveTo (.inl (List.isEmpty_iff.mp (hb rfl)))
    refine .asking hcalls (.inl rfl) (by simp) (fun m hm => ?_) hheading
    exact Nat.le_of_lt (hs.opened.slot m (hslot ▸ hm))

theorem Aligned.phase_of_asking {grant : Grant} (hl : l = .proceed thread grant) {p : Point κ}
    (hc : s.calls = [(thread, p)]) (hp : p = .wanting (.monitor c) ∨ p = .holding (.monitor c))
    (hlast : asked.getLast? = some c) (hle : ∀ m, s.slot = some m → m ≤ c)
    (hh : ¬ s.table.isClosed → (attached ++ s.ordered).getLast? = s.slot) :
    Phase (s.after l) asked (attached ++ (s.attached? l).toList ++ (s.after l).ordered) := by
  have hslot := slot_after he hi
  have hpoint := point?_of_calls hc
  subst hl
  rcases hp with rfl | rfl
  · have hst : s.stored? (.proceed thread grant) = none := by simp [stored?, hpoint]
    have hpost : s.posted? (.proceed thread grant) = none := by simp [posted?, hpoint]
    have hcalls : (s.after (.proceed thread grant)).calls =
        [(thread, .holding (.monitor c))] := by
      simp only [after, proceed, hpoint]
      exact calls_moveTo (.inr ⟨_, hc⟩)
    rw [hst, Option.none_or] at hslot
    exact .asking hcalls (.inr rfl) hlast (hslot ▸ hle) fun hopen =>
      (h.heading_after hs he hi hh hpost hopen).trans hslot.symm
  · have hst : s.stored? (.proceed thread grant) = some c := by
      simp [stored?, hpoint, Operation.channel?]
    rw [hst, Option.some_or] at hslot
    by_cases hrun : s.lifecycle = .running
    · have hcalls : (s.after (.proceed thread grant)).calls =
          [(thread, .sending (.monitor c))] := by
        simp only [after, proceed, hpoint, look, hrun]
        exact calls_moveTo (.inr ⟨_, hc⟩)
      exact .posting hcalls hlast hslot
    · have hafter : s.after (.proceed thread grant) = { s with slot := some c }.moveTo thread
          (.leaving .shared (.receiver (some c))) := by
        simp only [after, proceed, hpoint, look, hrun, if_false]
      have hcalls : (s.after (.proceed thread grant)).calls =
          [(thread, .leaving .shared (.receiver (some c)))] := by
        rw [hafter]
        exact calls_moveTo (.inr ⟨_, hc⟩)
      refine .settled (offered_of_calls hcalls) (hslot.trans hlast.symm) fun hopen => ?_
      rw [hafter] at hopen
      exact absurd (hs.closed_of_sole hc (by rintro (hp | hp) <;> cases hp)
        (hi.of_after hs.ruled he).held hrun) hopen

theorem Aligned.phase_after (hb : l.isBegin → s.calls.isEmpty) :
    Phase (s.after l) (asked ++ (s.asked? l).toList)
      (attached ++ (s.attached? l).toList ++ (s.after l).ordered) := by
  have hsole : ∀ {thread : Thread} {p : Point κ}, s.calls = [(thread, p)] →
      l.isCall = false ∨ ∃ grant, l = .proceed thread grant := fun hc =>
    isCall_of_sole hc he (Bool.eq_false_iff.mpr fun hbegin => by simpa [hc] using hb hbegin)
  cases h.phase with
  | settled ho hlast hh => exact h.phase_of_settled hs he hi hb ho hlast hh
  | asking hc hp hlast hle hh =>
    rcases hsole hc with hl | ⟨grant, rfl⟩
    · exact h.phase_aside hs he hi hl
    · have hphase := h.phase_of_asking hs he hi rfl hc hp hlast hle hh
      rwa [← List.append_nil asked] at hphase
  | posting hc hlast hstore =>
    rcases hsole hc with hl | ⟨grant, rfl⟩
    · exact h.phase_aside hs he hi hl
    · have hphase := hs.phase_of_posting he hi attached rfl hc hlast hstore
      rwa [← List.append_nil asked] at hphase

theorem Aligned.monitor_after (ho : ¬ (s.after l).table.isClosed) :
    (s.after l).table.monitor = (attached ++ (s.attached? l).toList).getLast? := by
  cases hs.steers_after he hi with
  | renews _ _ hj ha _ _ hm =>
    rw [hm, ha]
    cases hslot : s.slot with
    | some m => simp
    | none => rw [(List.append_eq_nil_iff.mp (h.course_eq_nil hslot)).1]; rfl
  | goesOn hc _ _ _ hm =>
    rw [hm, h.monitor hc, List.getLast?_append]
    cases s.attached? l <;> rfl
  | ends hc' => exact absurd hc' ho

theorem Aligned.after (hb : l.isBegin → s.calls.isEmpty) :
    Aligned (s.after l) (asked ++ (s.asked? l).toList) (attached ++ (s.attached? l).toList) := by
  have hslot := slot_after he hi
  have hcourse := (hs.steers_after he hi).course attached
  have hadded : ∀ {x : Option Nat} {c : Nat}, ((x = s.slot ∧ ∃ thread,
      s.point? thread = some (.holding .start)) ∨ (x = s.posted? l ∧ ¬ s.table.isClosed)) →
        c ∈ x.toList → s.slot = some c := by
    rintro x c (⟨rfl, -⟩ | ⟨rfl, -⟩) hm
    · exact Option.mem_toList.mp hm
    · exact h.posted (Option.mem_toList.mp hm)
  have hmem : ∀ c ∈ attached ++ (s.attached? l).toList ++ (s.after l).ordered,
      c ∈ attached ++ s.ordered ∨ s.slot = some c := by
    intro c hc
    rcases hcourse with ⟨x, heq, hx⟩ | ⟨-, hsub⟩
    · rw [heq, List.mem_append] at hc
      exact hc.imp_right (hadded hx)
    · exact .inl (hsub.subset hc)
  have hgrows : ∀ m, s.slot = some m → ∃ m', (s.after l).slot = some m' ∧ m ≤ m' := by
    intro m hm
    cases hst : s.stored? l with
    | none => exact ⟨m, by rw [hslot, hst, Option.none_or, hm], Nat.le_refl m⟩
    | some c =>
      refine ⟨c, by rw [hslot, hst, Option.some_or], ?_⟩
      exact (h.offered (mem_offered_of_stored? hst)).2 m hm
  refine ⟨h.phase_after hs he hi hb, ?_, fun c hc => ?_, fun c hc => ?_, fun c hc => ?_,
    hs.silent_after he hi h.closed, h.monitor_after hs he hi⟩
  · rcases hcourse with ⟨x, heq, hx⟩ | ⟨-, hsub⟩
    · rw [heq, List.pairwise_append]
      refine ⟨h.sorted, by cases x <;> simp, fun a ha b hbx => ?_⟩
      obtain ⟨m, hm, hle⟩ := h.kept a ha
      rwa [Option.some.inj ((hadded hx hbx).symm.trans hm)]
    · exact h.sorted.sublist hsub
  · rcases hmem c hc with hold | hold
    · obtain ⟨m, hm, hle⟩ := h.kept c hold
      obtain ⟨m', hm', hle'⟩ := hgrows m hm
      exact ⟨m', hm', Nat.le_trans hle hle'⟩
    · exact hgrows c hold
  · refine List.mem_append_left _ ?_
    rw [hslot, Option.or_eq_some_iff] at hc
    rcases hc with hst | ⟨-, hold⟩
    · exact List.mem_of_getLast? (h.offered (mem_offered_of_stored? hst)).1
    · exact h.slot c hold
  · refine List.mem_append_left _ ?_
    rcases hmem c hc with hold | hold
    · exact h.known c hold
    · exact h.slot c hold

end Aligned

/-! ### Runs -/

theorem aligned_initial (settings : Settings) : Aligned (initial settings : State κ) [] [] where
  phase := .settled rfl rfl fun _ => rfl
  sorted := .nil
  kept := nofun
  slot := nofun
  known := nofun
  closed := fun _ => rfl
  monitor := fun _ => rfl

theorem Reachable.intact_of_run (hs : Reachable s) (hp : s.Possible labels)
    (hi : Intact (s.run labels)) : Intact s := by
  induction labels generalizing s with
  | nil => exact hi
  | cons l rest ih => exact (ih (hs.step hp.1) hp.2 hi).of_after hs.ruled hp.1

/-- As long as nothing breaks and no two calls overlap, the slot and the worker stay in step. -/
theorem aligned_run (settings : Settings) (hp : (initial settings : State κ).Possible labels)
    (ho : (initial settings : State κ).Orderly labels)
    (hi : Intact ((initial settings : State κ).run labels)) :
    Aligned ((initial settings).run labels) ((initial settings).asks labels)
      ((initial settings).attachments labels) := by
  induction labels using List.reverseRecOn with
  | nil => exact aligned_initial settings
  | append_singleton labels l ih =>
    obtain ⟨hp, he⟩ := possible_snoc.mp hp
    obtain ⟨ho, hb⟩ := orderly_snoc.mp ho
    rw [run_snoc] at hi ⊢
    have hreach := (Reachable.initial settings).run hp
    rw [asks, attachments, collect_snoc, collect_snoc]
    exact (ih hp ho (hi.of_after hreach.ruled he)).after hreach he hi hb

end State

end Dialer.Service
