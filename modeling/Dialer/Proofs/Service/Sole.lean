import Dialer.Proofs.Service.Resolution

/-!
# Calls that have the service to themselves

While one call is under way and no other begins, its steps come between those of the worker and of
the system. These see nothing of the call: as long as it has changed nothing, the service goes on as
it would without it.
-/

namespace Dialer.Service

variable {κ : Type}

namespace Label

def isBegin : Label κ → Bool
  | .begin _ _ => true
  | _ => false

/-- Whether it is a step of a call. -/
def isCall : Label κ → Bool
  | .begin _ _ => true
  | .proceed _ _ => true
  | .giveUp => true
  | _ => false

end Label

/-- The steps that are of no call. -/
def aside (labels : List (Label κ)) : List (Label κ) := labels.filter fun l => !l.isCall

theorem aside_append (xs ys : List (Label κ)) : aside (xs ++ ys) = aside xs ++ aside ys :=
  List.filter_append xs ys

theorem aside_eq_self {labels : List (Label κ)} (h : ∀ l ∈ labels, l.isCall = false) :
    aside labels = labels :=
  List.filter_eq_self.mpr fun l hl => by simp [h l hl]

namespace State

variable {s t u v : State κ} {l : Label κ} {labels xs ys : List (Label κ)} {n : Nat}

/-- The service as the worker and the system see it: without the calls that are under way, and
without what was put down of calls. -/
def bare (s : State κ) : State κ := { s with calls := [], history := [], submissions := 0 }

@[simp] theorem bare_moveTo (s : State κ) (thread : Thread) (p : Point κ) :
    (s.moveTo thread p).bare = s.bare := rfl

@[simp] theorem bare_note (s : State κ) (x : Happening) : (s.note x).bare = s.bare := rfl

@[simp] theorem bare_returns (s : State κ) (thread : Thread) (result : Result) :
    (s.returns thread result).bare = s.bare := rfl

/-! ### Steps of no call -/

/-- Nothing differs that the worker and the system leave alone, calls apart. -/
structure Fixed (s t : State κ) : Prop where
  settings : t.settings = s.settings
  lifecycle : t.lifecycle = s.lifecycle
  slot : t.slot = s.slot
  handles : t.handles = s.handles
  generations : t.generations = s.generations

theorem Fixed.refl (s : State κ) : Fixed s s := ⟨rfl, rfl, rfl, rfl, rfl⟩

theorem Fixed.trans (h : Fixed s t) (h' : Fixed t u) : Fixed s u :=
  ⟨h'.settings.trans h.settings, h'.lifecycle.trans h.lifecycle, h'.slot.trans h.slot,
    h'.handles.trans h.handles, h'.generations.trans h.generations⟩

theorem fixed_of_bare (hb : t.bare = s.bare) : Fixed s t := by
  have h : Fixed s.bare t.bare := hb ▸ .refl _
  exact ⟨h.settings, h.lifecycle, h.slot, h.handles, h.generations⟩

/-- Nothing differs that the worker and the system leave alone. -/
structure Elsewhere (s t : State κ) : Prop extends Fixed s t where
  calls : t.calls = s.calls
  history : t.history = s.history
  submissions : t.submissions = s.submissions

theorem Elsewhere.refl (s : State κ) : Elsewhere s s := ⟨.refl s, rfl, rfl, rfl⟩

theorem Elsewhere.trans (h : Elsewhere s t) (h' : Elsewhere t u) : Elsewhere s u :=
  ⟨h.toFixed.trans h'.toFixed, h'.calls.trans h.calls, h'.history.trans h.history,
    h'.submissions.trans h.submissions⟩

theorem elsewhere_onDuty (s : State κ) (change : Duty κ → Duty κ) :
    Elsewhere s (s.onDuty change) := by
  unfold onDuty
  split
  · exact .refl s
  · dsimp only
    split <;> exact ⟨⟨rfl, rfl, rfl, rfl, rfl⟩, rfl, rfl, rfl⟩

theorem elsewhere_after (hl : l.isCall = false) : Elsewhere s (s.after l) := by
  cases l with
  | begin thread call => simp [Label.isCall] at hl
  | proceed thread grant => simp [Label.isCall] at hl
  | giveUp => simp [Label.isCall] at hl
  | work answers => exact elsewhere_onDuty s (·.work answers)
  | leave panic => exact elsewhere_onDuty s (·.leave panic)
  | _ => exact ⟨⟨rfl, rfl, rfl, rfl, rfl⟩, rfl, rfl, rfl⟩

theorem elsewhere_run (hl : ∀ l ∈ labels, l.isCall = false) : Elsewhere s (s.run labels) := by
  induction labels generalizing s with
  | nil => exact .refl s
  | cons l rest ih =>
    have hrest : ∀ l ∈ rest, l.isCall = false := fun l hm => hl l (List.mem_cons_of_mem _ hm)
    exact (elsewhere_after (hl l List.mem_cons_self)).trans (ih hrest)

theorem bare_onDuty (s : State κ) (change : Duty κ → Duty κ) :
    (s.onDuty change).bare = s.bare.onDuty change := by
  have hworker : s.bare.worker = s.worker := rfl
  have htable : s.bare.table = s.table := rfl
  have hhandles : s.bare.handles = s.handles := rfl
  simp only [onDuty, hworker, htable, hhandles]
  cases s.worker with
  | none => rfl
  | some w =>
    dsimp only
    split <;> rfl

theorem bare_after (hl : l.isCall = false) : (s.after l).bare = s.bare.after l := by
  cases l with
  | begin thread call => simp [Label.isCall] at hl
  | proceed thread grant => simp [Label.isCall] at hl
  | giveUp => simp [Label.isCall] at hl
  | work answers => exact bare_onDuty s (·.work answers)
  | leave panic => exact bare_onDuty s (·.leave panic)
  | _ => rfl

theorem bare_run (hl : ∀ l ∈ labels, l.isCall = false) :
    (s.run labels).bare = s.bare.run labels := by
  induction labels generalizing s with
  | nil => rfl
  | cons l rest ih =>
    have hrest : ∀ l ∈ rest, l.isCall = false := fun l hm => hl l (List.mem_cons_of_mem _ hm)
    calc ((s.after l).run rest).bare = (s.after l).bare.run rest := ih hrest
      _ = (s.bare.after l).run rest := by rw [bare_after (hl l List.mem_cons_self)]

/-- What can happen beside the calls does not depend on them, unless a continuation makes one. -/
theorem enabled_bare (hl : l.isCall = false) (hp : s.point? .worker = none) :
    s.bare.Enabled l ↔ s.Enabled l := by
  cases l with
  | begin thread call => simp [Label.isCall] at hl
  | proceed thread grant => simp [Label.isCall] at hl
  | giveUp => simp [Label.isCall] at hl
  | leave panic =>
    have hb : s.bare.point? .worker = none := rfl
    simp only [Enabled, Allows, hp, hb]
    rfl
  | _ => rfl

theorem possible_bare (hl : ∀ l ∈ labels, l.isCall = false) (hp : s.point? .worker = none) :
    s.bare.Possible labels ↔ s.Possible labels := by
  induction labels generalizing s with
  | nil => rfl
  | cons l rest ih =>
    have hfirst := hl l List.mem_cons_self
    have hrest : ∀ l ∈ rest, l.isCall = false := fun l hm => hl l (List.mem_cons_of_mem _ hm)
    have hp' : (s.after l).point? .worker = none := by
      rw [point?, (elsewhere_after hfirst).calls]
      exact hp
    simp only [Possible, enabled_bare hfirst hp, ← bare_after hfirst, ih hrest hp']

/-! ### Where a call has changed nothing -/

/-- After these steps the service is what it would be without those of them that are a call's. -/
structure Untouched (s : State κ) (labels : List (Label κ)) : Prop where
  possible : s.bare.Possible (aside labels)
  bare : (s.run labels).bare = s.bare.run (aside labels)

theorem Untouched.append (h : Untouched s xs) (h' : Untouched (s.run xs) ys) :
    Untouched s (xs ++ ys) where
  possible := by
    rw [aside_append, possible_append, ← h.bare]
    exact ⟨h.possible, h'.possible⟩
  bare := by rw [aside_append, run_append, run_append, h'.bare, h.bare]

theorem untouched_of_aside (hl : ∀ l ∈ labels, l.isCall = false) (hp : s.point? .worker = none)
    (hs : s.Possible labels) : Untouched s labels where
  possible := by
    rw [aside_eq_self hl]
    exact (possible_bare hl hp).mpr hs
  bare := by rw [aside_eq_self hl, bare_run hl]

theorem Untouched.proceed (h : Untouched s xs) {thread : Thread} {grant : Grant}
    (hb : (s.run (xs ++ [.proceed thread grant])).bare = (s.run xs).bare) :
    Untouched s (xs ++ [.proceed thread grant]) := by
  have haside : aside (xs ++ [.proceed thread grant]) = aside xs := by simp [aside, Label.isCall]
  exact ⟨haside ▸ h.possible, by rw [hb, h.bare, haside]⟩

theorem Untouched.fixed (h : Untouched s labels) : Fixed s (s.run labels) := by
  have haside : ∀ l ∈ aside labels, l.isCall = false := fun l hm => by
    simpa using (List.mem_filter.mp hm).2
  have hb := (elsewhere_run haside (s := s.bare)).toFixed
  rw [← h.bare] at hb
  exact ⟨hb.settings, hb.lifecycle, hb.slot, hb.handles, hb.generations⟩

/-! ### From the beginning of a call to its end -/

/-- What the latest call to return answered. -/
def answer? (s : State κ) : Option Result :=
  match s.history with
  | .returned _ result :: _ => some result
  | _ => none

/-- A call of a thread of its own, from where it begins to where it has returned, while no other
call is under way. -/
structure Sole (s : State κ) (n : Nat) (call : Call κ) (labels : List (Label κ)) : Prop where
  possible : s.Possible (.begin (.caller n) call :: labels)
  alone : ∀ l ∈ labels, l.isBegin = false
  finished : (s.run (.begin (.caller n) call :: labels)).calls = []

/-- However the steps after `xs` lead to where the call has returned, what it answered and the steps
are as told. -/
def Ends (s : State κ) (Q : Result → List (Label κ) → Prop) (xs : List (Label κ)) : Prop :=
  ∀ ys, s.Possible (xs ++ ys) → (∀ l ∈ ys, l.isBegin = false) → (s.run (xs ++ ys)).calls = [] →
    ∃ result, (s.run (xs ++ ys)).answer? = some result ∧ Q result (xs ++ ys)

/-- After these steps a call that was about to return has done so, and nothing else was changed by
a call. -/
structure Returned (s : State κ) (n : Nat) (result : Result) (labels : List (Label κ)) :
    Prop where
  untouched : Untouched s labels
  history : (s.run labels).history = .returned (.caller n) result :: s.history
  calls : (s.run labels).calls = []

theorem point?_worker_of_calls {p : Point κ} (hc : s.calls = [(.caller n, p)]) :
    s.point? .worker = none := by
  simp [point?, hc]

theorem point?_of_calls {thread : Thread} {p : Point κ} (hc : s.calls = [(thread, p)]) :
    s.point? thread = some p := by
  simp [point?, hc]

theorem calls_moveTo {thread : Thread} {q : Point κ}
    (hc : s.calls = [] ∨ ∃ p, s.calls = [(thread, p)]) :
    (s.moveTo thread q).calls = [(thread, q)] := by
  rcases hc with hc | ⟨p, hc⟩ <;> simp [moveTo, hc]

theorem calls_returns {thread : Thread} {result : Result}
    (hc : s.calls = [] ∨ ∃ p, s.calls = [(thread, p)]) :
    (s.returns thread result).calls = [] := by
  rcases hc with hc | ⟨p, hc⟩ <;> simp [returns, note, hc]

theorem isCall_of_free (hc : s.calls = []) (he : s.Enabled l) (hl : l.isBegin = false) :
    l.isCall = false := by
  have hp : ∀ thread, s.point? thread = none := fun thread => by simp [point?, hc]
  cases l with
  | begin thread call => simp [Label.isBegin] at hl
  | proceed thread grant => simp [Enabled, Allows, canProceed, hp] at he
  | giveUp => simp [Enabled, Allows, canGiveUp, hp] at he
  | _ => rfl

theorem aside_of_free (hc : s.calls = []) (hp : s.Possible labels)
    (hl : ∀ l ∈ labels, l.isBegin = false) : ∀ l ∈ labels, l.isCall = false := by
  induction labels generalizing s with
  | nil => simp
  | cons l rest ih =>
    have hfirst := isCall_of_free hc hp.1 (hl l List.mem_cons_self)
    have hrest := ih ((elsewhere_after hfirst).calls.trans hc) hp.2
      fun l hm => hl l (List.mem_cons_of_mem _ hm)
    exact List.forall_mem_cons.mpr ⟨hfirst, hrest⟩

theorem canGiveUp_of_sole {thread : Thread} {p : Point κ} (hc : s.calls = [(thread, p)]) :
    s.canGiveUp = false := by
  cases hp : s.point? .worker with
  | none => simp [canGiveUp, hp]
  | some q =>
    have hm := mem_calls_of_point? hp
    rw [hc, List.mem_singleton] at hm
    obtain ⟨rfl, rfl⟩ := Prod.mk.inj hm
    cases q with
    | wanting op =>
      cases ha : op.access <;>
        simp [canGiveUp, hp, isFree, isAwaited, held, hc, Point.held?, ha]
    | _ => simp [canGiveUp, hp]

theorem isCall_of_sole {thread : Thread} {p : Point κ} (hc : s.calls = [(thread, p)])
    (he : s.Enabled l) (hl : l.isBegin = false) :
    l.isCall = false ∨ ∃ grant, l = .proceed thread grant := by
  cases l with
  | begin other call => simp [Label.isBegin] at hl
  | proceed other grant =>
    by_cases ht : other = thread
    · exact .inr ⟨grant, by rw [ht]⟩
    · have hbeq : (other == thread) = false := beq_eq_false_iff_ne.mpr ht
      have hp : s.point? other = none := by simp [point?, hc, List.lookup_cons, hbeq]
      simp [Enabled, Allows, canProceed, hp] at he
  | giveUp => simp [Enabled, Allows, canGiveUp_of_sole hc] at he
  | _ => exact .inl rfl

theorem exists_proceed {p : Point κ} (hc : s.calls = [(.caller n, p)]) (hp : s.Possible labels)
    (hl : ∀ l ∈ labels, l.isBegin = false) (ho : (s.run labels).calls = []) :
    ∃ before grant rest, labels = before ++ .proceed (.caller n) grant :: rest ∧
      ∀ l ∈ before, l.isCall = false := by
  induction labels generalizing s with
  | nil =>
    rw [run, List.foldl_nil, hc] at ho
    simp at ho
  | cons l rest ih =>
    have hrest : ∀ l ∈ rest, l.isBegin = false := fun l hm => hl l (List.mem_cons_of_mem _ hm)
    rcases isCall_of_sole hc hp.1 (hl l List.mem_cons_self) with hfirst | ⟨grant, rfl⟩
    · obtain ⟨before, grant, rest', rfl, hb⟩ :=
        ih ((elsewhere_after hfirst).calls.trans hc) hp.2 hrest ho
      exact ⟨l :: before, grant, rest', rfl, List.forall_mem_cons.mpr ⟨hfirst, hb⟩⟩
    · exact ⟨[], grant, rest, rfl, by simp⟩

section Rules

variable {Q : Result → List (Label κ) → Prop} {result : Result}

theorem ends_of_returned (xs : List (Label κ)) (hc : (s.run xs).calls = [])
    (ha : (s.run xs).answer? = some result)
    (hq : ∀ ys, s.Possible (xs ++ ys) → (∀ l ∈ ys, l.isCall = false) → Q result (xs ++ ys)) :
    Ends s Q xs := by
  intro ys hp hl _
  have haside := aside_of_free hc (possible_append.mp hp).2 hl
  refine ⟨result, ?_, hq ys hp haside⟩
  rw [run_append, answer?, (elsewhere_run haside).history]
  exact ha

theorem ends_of_step {p : Point κ} (hc : (s.run xs).calls = [(.caller n, p)])
    (hq : ∀ ys grant, s.Possible (xs ++ ys ++ [.proceed (.caller n) grant]) →
      (∀ l ∈ ys, l.isCall = false) → Ends s Q (xs ++ ys ++ [.proceed (.caller n) grant])) :
    Ends s Q xs := by
  intro zs hp hl ho
  obtain ⟨hp', hrest⟩ := possible_append.mp hp
  rw [run_append] at ho
  obtain ⟨ys, grant, rest, rfl, hys⟩ := exists_proceed hc hrest hl ho
  have hcut : xs ++ (ys ++ .proceed (.caller n) grant :: rest) =
      xs ++ ys ++ [.proceed (.caller n) grant] ++ rest := by simp
  rw [hcut] at hp ⊢
  rw [← run_append, hcut] at ho
  refine hq ys grant (possible_append.mp hp).1 hys rest hp (fun l hm => ?_) ho
  exact hl l (List.mem_append_right _ (List.mem_cons_of_mem _ hm))

theorem ends_of_leaving {access : Access}
    (hc : (s.run xs).calls = [(.caller n, .leaving access result)]) (hh : (s.run xs).handles ≠ 0)
    (hq : ∀ ys, s.Possible (xs ++ ys) → Returned (s.run xs) n result ys → Q result (xs ++ ys)) :
    Ends s Q xs := by
  refine ends_of_step hc fun ys grant hp hys => ?_
  obtain ⟨hys', hown⟩ := possible_append.mp hp
  have hw := elsewhere_run (s := s.run xs) hys
  rw [← run_append] at hw
  have hreturned : s.run (xs ++ ys ++ [.proceed (.caller n) grant]) =
      (s.run (xs ++ ys)).returns (.caller n) result := by
    rw [run_snoc, after, proceed, point?_of_calls (hw.calls.trans hc)]
    simp only [finish, hw.handles, hh, if_false]
  have hcalls : (s.run (xs ++ ys ++ [.proceed (.caller n) grant])).calls = [] := by
    rw [hreturned]
    exact calls_returns (.inr ⟨_, hw.calls.trans hc⟩)
  have hhistory : (s.run (xs ++ ys ++ [.proceed (.caller n) grant])).history =
      .returned (.caller n) result :: (s.run xs).history := by
    rw [hreturned, returns, note, hw.history]
  have huntouched : Untouched (s.run xs) (ys ++ [.proceed (.caller n) grant]) := by
    refine (untouched_of_aside hys (point?_worker_of_calls hc)
      (possible_append.mp hys').2).proceed ?_
    rw [← run_append, ← run_append, ← List.append_assoc, hreturned, bare_returns]
  refine ends_of_returned _ hcalls (by rw [answer?, hhistory]) fun zs hp' hzs => ?_
  have hcut : xs ++ ys ++ [.proceed (.caller n) grant] ++ zs =
      xs ++ (ys ++ [.proceed (.caller n) grant] ++ zs) := by simp
  have hz := elsewhere_run (s := s.run (xs ++ ys ++ [.proceed (.caller n) grant])) hzs
  rw [← run_append] at hz
  have huntouched' : Untouched (s.run (xs ++ ys ++ [.proceed (.caller n) grant])) zs :=
    untouched_of_aside hzs (by rw [point?, hcalls]; rfl) (possible_append.mp hp').2
  rw [hcut] at hp' ⊢
  refine hq _ hp' ⟨huntouched.append ?_, ?_, ?_⟩
  · rwa [← run_append, ← List.append_assoc]
  · rw [← run_append, ← hcut, hz.history, hhistory]
  · rw [← run_append, ← hcut, hz.calls, hcalls]

/-- A call gets its side of the lock and changes nothing before it looks. -/
theorem ends_of_wanting (op : Operation κ) (hc : s.calls = [(.caller n, .wanting op)])
    (hq : ∀ xs grant, s.Possible (xs ++ [.proceed (.caller n) grant]) →
      (s.run xs).calls = [(.caller n, .holding op)] → Untouched s xs →
      Ends s Q (xs ++ [.proceed (.caller n) grant])) : Ends s Q [] := by
  refine ends_of_step hc fun xs grant hp hxs => ?_
  rw [List.nil_append] at hp ⊢
  obtain ⟨hxs', hown⟩ := possible_append.mp hp
  have hx := elsewhere_run (s := s) hxs
  have hlocked : s.run (xs ++ [.proceed (.caller n) grant]) =
      (s.run xs).moveTo (.caller n) (.holding op) := by
    rw [run_snoc, after, proceed, point?_of_calls (hx.calls.trans hc)]
  have huntouched : Untouched s (xs ++ [.proceed (.caller n) grant]) := by
    refine (untouched_of_aside hxs (point?_worker_of_calls hc) hxs').proceed ?_
    rw [hlocked, bare_moveTo]
  have hcalls : (s.run (xs ++ [.proceed (.caller n) grant])).calls =
      [(.caller n, .holding op)] := hlocked ▸ calls_moveTo (.inr ⟨_, hx.calls.trans hc⟩)
  refine ends_of_step hcalls fun ys grant' hp' hys => ?_
  obtain ⟨hys', hown'⟩ := possible_append.mp hp'
  have hy := elsewhere_run (s := s.run (xs ++ [.proceed (.caller n) grant])) hys
  rw [← run_append] at hy
  exact hq _ grant' hp' (hy.calls.trans hcalls)
    (huntouched.append (untouched_of_aside hys (point?_worker_of_calls hcalls)
      (possible_append.mp hys').2))

end Rules

end State

end Dialer.Service
