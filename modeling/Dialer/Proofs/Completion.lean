import Dialer.Completion
import Mathlib.Data.List.Infix
import Mathlib.Data.List.Induction

/-!
# What waiting for an outcome comes to

Whatever is done with a completion, and in whichever order: at most one outcome is sent, into an
empty slot, and at most one query takes it. A query before that gets nothing while an end is held.
That the request was aborted is the answer only when the outcome was taken already or none can come.
-/

namespace Dialer.Completion

variable {α : Type} {c : Completion α} {actions before : List (Action α)} {a : Action α}

namespace Action

/-- The outcome that an action sends. -/
def outcome? : Action α → Option (Except Failure α)
  | .resolve _ outcome => some outcome
  | _ => none

def isQuery : Action α → Bool
  | .ask => true
  | .wait => true
  | _ => false

end Action

/-- The completion that a sequence of actions leaves. -/
def last (c : Completion α) (actions : List (Action α)) : Completion α := (c.run actions).2

/-- What a new completion comes to. -/
abbrev reached (actions : List (Action α)) : Completion α := ({} : Completion α).last actions

/-- The outcomes that are sent. -/
def sent (actions : List (Action α)) : List (Except Failure α) :=
  actions.filterMap Action.outcome?

/-- The outcomes that queries take out of the slot. -/
def taken (c : Completion α) : List (Action α) → List (Except Failure α)
  | [] => []
  | a :: rest => (if a.isQuery then c.slot.toList else []) ++ (c.after a).2.taken rest

/-! ### Sequences of actions -/

theorem last_append (c : Completion α) (xs ys : List (Action α)) :
    c.last (xs ++ ys) = (c.last xs).last ys := by
  induction xs generalizing c with
  | nil => rfl
  | cons x xs ih => exact ih (c.after x).2

@[simp] theorem last_snoc (c : Completion α) (actions : List (Action α)) (a : Action α) :
    c.last (actions ++ [a]) = ((c.last actions).after a).2 := last_append c actions [a]

theorem reached_snoc (actions : List (Action α)) (a : Action α) :
    reached (actions ++ [a]) = ((reached actions).after a).2 := last_snoc _ actions a

@[simp] theorem sent_snoc (actions : List (Action α)) (a : Action α) :
    sent (actions ++ [a]) = sent actions ++ a.outcome?.toList := by
  rw [sent, List.filterMap_append, sent]
  cases a <;> rfl

@[simp] theorem taken_snoc (c : Completion α) (actions : List (Action α)) (a : Action α) :
    c.taken (actions ++ [a]) =
      c.taken actions ++ if a.isQuery then (c.last actions).slot.toList else [] := by
  induction actions generalizing c with
  | nil => exact List.append_nil _
  | cons x xs ih => rw [List.cons_append, taken, ih, taken, List.append_assoc]; rfl

theorem possible_append {xs ys : List (Action α)} :
    c.Possible (xs ++ ys) ↔ c.Possible xs ∧ (c.last xs).Possible ys := by
  induction xs generalizing c with
  | nil => exact ⟨fun h => ⟨trivial, h⟩, And.right⟩
  | cons x xs ih => exact (and_congr_right fun _ => ih).trans and_assoc.symm

theorem possible_snoc :
    c.Possible (actions ++ [a]) ↔ c.Possible actions ∧ (c.last actions).Enabled a :=
  possible_append.trans (and_congr_right fun _ => and_iff_left trivial)

/-! ### How far a completion has come -/

/-- What a completion is like, by what was done with it so far. -/
inductive Course (actions : List (Action α)) (c : Completion α) : Prop
  | pending (hl : c.life = .unresolved) (he : c.ends ≠ []) (hs : c.slot = none)
      (ho : sent actions = []) (ht : taken {} actions = [])
  | discarded (hl : c.life = .discarded) (hs : c.slot = none) (hd : .discard ∈ actions)
      (ho : sent actions = []) (ht : taken {} actions = [])
  | ready {side : Side} {outcome : Except Failure α} (hl : c.life = .resolved side)
      (hs : c.slot = some outcome) (hh : c.handle) (ho : sent actions = [outcome])
      (ht : taken {} actions = [])
  /-- The outcome was taken, or nobody can ask for it. -/
  | spent {side : Side} {outcome : Except Failure α} (hl : c.life = .resolved side)
      (hs : c.slot = none) (ho : sent actions = [outcome])
      (ht : taken {} actions = [outcome] ∨ taken {} actions = [] ∧ c.handle = false)

/-- As long as nothing happened to the request, an end is held and there is room. -/
theorem Course.of_unresolved (h : Course actions c) (hl : c.life = .unresolved) :
    c.ends ≠ [] ∧ c.slot = none ∧ sent actions = [] ∧ taken {} actions = [] := by
  cases h with
  | pending _ he hs ho ht => exact ⟨he, hs, ho, ht⟩
  | discarded hl' => cases hl.symm.trans hl'
  | ready hl' => cases hl.symm.trans hl'
  | spent hl' => cases hl.symm.trans hl'

/-- At most one outcome is sent, and queries take nothing else. -/
theorem Course.taken_of_sent (h : Course actions c) :
    taken {} actions <+: sent actions ∧ (sent actions).length ≤ 1 := by
  cases h with
  | pending _ _ _ ho ht => simp [ho, ht]
  | discarded _ _ _ ho ht => simp [ho, ht]
  | ready _ _ _ ho ht => simp [ho, ht]
  | spent _ _ ho ht => rcases ht with ht | ⟨ht, -⟩ <;> simp [ho, ht]

theorem Course.sent_eq_nil (h : Course actions c) (hl : ∀ side, c.life ≠ .resolved side) :
    sent actions = [] := by
  cases h with
  | pending _ _ _ ho => exact ho
  | discarded _ _ _ ho => exact ho
  | ready hl' => exact absurd hl' (hl _)
  | spent hl' => exact absurd hl' (hl _)

/-- An outcome that was sent and not taken is there, if anybody can ask for it. -/
theorem Course.slot_eq (h : Course actions c) {outcome : Except Failure α}
    (ho : sent actions = [outcome]) (ht : taken {} actions = []) (hh : c.handle) :
    c.slot = some outcome := by
  cases h with
  | pending _ _ _ ho' => cases ho.symm.trans ho'
  | discarded _ _ _ ho' => cases ho.symm.trans ho'
  | ready _ hs _ ho' =>
    obtain rfl := (List.cons.inj (ho.symm.trans ho')).1
    exact hs
  | spent _ _ _ ht' =>
    rcases ht' with ht' | ⟨-, hh'⟩
    · cases ht.symm.trans ht'
    · cases hh.symm.trans hh'

/-! ### Steps of the course -/

theorem Course.resolve (h : Course actions c) (hl : c.life = .unresolved) (side : Side)
    (outcome : Except Failure α) :
    Course (actions ++ [.resolve side outcome]) (c.resolve side outcome) := by
  obtain ⟨-, -, ho, ht⟩ := h.of_unresolved hl
  have hsent : Completion.sent (actions ++ [.resolve side outcome]) = [outcome] := by
    simp [ho, Action.outcome?]
  have htaken : Completion.taken {} (actions ++ [.resolve side outcome]) = [] := by
    simp [ht, Action.isQuery]
  cases hh : c.handle with
  | true => exact .ready rfl (by simp [Completion.resolve, hh]) hh hsent htaken
  | false => exact .spent rfl (by simp [Completion.resolve, hh]) hsent (.inr ⟨htaken, hh⟩)

theorem Course.discard (h : Course actions c) (hl : c.life = .unresolved) :
    Course (actions ++ [.discard]) c.discard := by
  obtain ⟨-, hs, ho, ht⟩ := h.of_unresolved hl
  exact .discarded rfl hs (by simp) (by simp [ho, Action.outcome?]) (by simp [ht, Action.isQuery])

theorem Course.release (h : Course actions c) (hl : c.life ≠ .unresolved) :
    Course (actions ++ [.release]) c.release := by
  have hsent : Completion.sent (actions ++ [.release]) = Completion.sent actions := by
    simp [Action.outcome?]
  have htaken : Completion.taken {} (actions ++ [.release]) = Completion.taken {} actions := by
    simp [Action.isQuery]
  cases h with
  | pending hl' => exact absurd hl' hl
  | discarded hl' hs hd ho ht =>
    exact .discarded hl' hs (List.mem_append_left _ hd) (hsent.trans ho) (htaken.trans ht)
  | ready hl' hs hh ho ht => exact .ready hl' hs hh (hsent.trans ho) (htaken.trans ht)
  | spent hl' hs ho ht => exact .spent hl' hs (hsent.trans ho) (by rwa [htaken])

theorem Course.empty {d : Completion α} (h : Course actions (reached actions))
    (hl : d.life = (reached actions).life) (he : d.ends = (reached actions).ends)
    (hs : d.slot = none) (hh : (reached actions).handle = false → d.handle = false)
    (hn : a.outcome? = none) (hq : a.isQuery = false → d.handle = false) :
    Course (actions ++ [a]) d := by
  have hsent : Completion.sent (actions ++ [a]) = Completion.sent actions := by simp [hn]
  have htaken := taken_snoc {} actions a
  cases h with
  | pending hl' he' hs' ho ht =>
    rw [hs', ht, Option.toList_none, ite_self] at htaken
    exact .pending (hl.trans hl') (he ▸ he') hs (hsent.trans ho) htaken
  | discarded hl' hs' hd ho ht =>
    rw [hs', ht, Option.toList_none, ite_self] at htaken
    exact .discarded (hl.trans hl') hs (List.mem_append_left _ hd) (hsent.trans ho) htaken
  | ready hl' hs' _ ho ht =>
    rw [hs', ht] at htaken
    refine .spent (hl.trans hl') hs (hsent.trans ho) ?_
    cases hquery : a.isQuery with
    | true => exact .inl (by rw [htaken, hquery]; rfl)
    | false => exact .inr ⟨by rw [htaken, hquery]; rfl, hq hquery⟩
  | spent hl' hs' ho ht =>
    rw [hs', Option.toList_none, ite_self, List.append_nil] at htaken
    exact .spent (hl.trans hl') hs (hsent.trans ho) (htaken ▸ ht.imp_right (And.imp_right hh))

theorem ask_same (c : Completion α) :
    c.ask.2.life = c.life ∧ c.ask.2.ends = c.ends ∧ c.ask.2.handle = c.handle := by
  unfold ask
  split <;> exact ⟨rfl, rfl, rfl⟩

theorem Course.after (h : Course actions (reached actions))
    (ha : (reached actions).Enabled a) :
    Course (actions ++ [a]) (reached (actions ++ [a])) := by
  rw [reached_snoc]
  obtain ⟨hl, he, hh⟩ := ask_same (reached actions)
  cases a with
  | resolve side outcome => exact h.resolve ha side outcome
  | discard => exact h.discard ha
  | release => exact h.release ha.1
  | ask =>
    exact h.empty hl he (slot_after_ask _) (fun hf => hh.trans hf) rfl fun hq => by cases hq
  | wait => exact h.empty hl he rfl (fun _ => rfl) rfl fun _ => rfl
  | dropHandle => exact h.empty rfl rfl rfl (fun _ => rfl) rfl fun _ => rfl

theorem course_of_possible (hp : ({} : Completion α).Possible actions) :
    Course actions (reached actions) := by
  induction actions using List.reverseRecOn with
  | nil => exact .pending rfl (by simp [last, run]) rfl rfl rfl
  | append_singleton actions a ih =>
    obtain ⟨hp, ha⟩ := possible_snoc.mp hp
    exact (ih hp).after ha

/-- What a query is answered. -/
inductive Answers (before : List (Action α)) (answer : Option (Except Failure α)) : Prop
  | outcome {outcome : Except Failure α} (ha : answer = some outcome)
      (hs : sent before = [outcome]) (ht : taken {} before = [])
  | aborted (ha : answer = some (.error .aborted)) (hs : (reached before).slot = none)
      (he : (reached before).ends = []) (hwhy : .discard ∈ before ∨ taken {} before ≠ [])
  | nothing (ha : answer = none) (hs : (reached before).slot = none)
      (he : (reached before).ends ≠ [])

/-- What becomes of the outcome of a request in a sequence of actions. -/
structure Delivers (actions : List (Action α)) : Prop where
  sent : (sent actions).length ≤ 1
  taken : taken {} actions <+: Completion.sent actions
  /-- There is room for the outcome when it is sent. -/
  room : ∀ before side outcome after, actions = before ++ .resolve side outcome :: after →
    (reached before).slot = none
  answers : ∀ before a after, actions = before ++ a :: after → a.isQuery →
    Answers before ((reached before).after a).1

theorem answer_of_isQuery (c : Completion α) (hq : a.isQuery) : (c.after a).1 = c.ask.1 := by
  cases a with
  | ask => rfl
  | wait => rfl
  | _ => cases hq

theorem handle_of_isQuery (ha : c.Enabled a) (hq : a.isQuery) : c.handle := by
  cases a with
  | ask => exact ha
  | wait => exact ha.1
  | _ => cases hq

theorem Course.answers (h : Course before (reached before))
    (ha : (reached before).Enabled a) (hq : a.isQuery) :
    Answers before ((reached before).after a).1 := by
  rw [answer_of_isQuery _ hq]
  cases hask : (reached before).ask.1 with
  | none =>
    obtain ⟨hs, he⟩ := (ask_eq_none_iff _).mp hask
    exact .nothing rfl hs he
  | some answer =>
    have hends : (reached before).slot = none →
        some answer = some (.error .aborted) ∧ (reached before).ends = [] := by
      intro hs
      rw [ask, hs] at hask
      cases he : (reached before).ends with
      | nil => simpa [he] using hask.symm
      | cons side ends => simp [he] at hask
    cases h with
    | pending hl he hs => exact absurd (hends hs).2 he
    | discarded hl hs hd => exact .aborted (hends hs).1 hs (hends hs).2 (.inl hd)
    | ready hl hs hh ho ht =>
      obtain rfl : _ = answer := by simpa [ask, hs] using hask
      exact .outcome rfl ho ht
    | spent hl hs ho ht =>
      have htaken := ht.resolve_right fun h => by simp [handle_of_isQuery ha hq] at h
      exact .aborted (hends hs).1 hs (hends hs).2 (.inr (by simp [htaken]))

/-- Whatever is done with a completion, and in whichever order. -/
theorem delivers (hp : ({} : Completion α).Possible actions) : Delivers actions := by
  obtain ⟨htaken, hsent⟩ := (course_of_possible hp).taken_of_sent
  refine ⟨hsent, htaken, ?_, ?_⟩
  · rintro before side outcome after rfl
    obtain ⟨hbefore, hafter⟩ := possible_append.mp hp
    exact ((course_of_possible hbefore).of_unresolved hafter.1).2.1
  · rintro before a after rfl hq
    obtain ⟨hbefore, hafter⟩ := possible_append.mp hp
    exact (course_of_possible hbefore).answers hafter.1 hq

end Dialer.Completion
