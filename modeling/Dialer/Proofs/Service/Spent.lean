import Dialer.Proofs.Service.Exchange

/-!
# Completions whose outcome was taken

Once a query has taken the outcome, no other query takes one. What later queries are told hangs on
the ends alone: after sending, the continuation releases its own end and then the other one, two
steps that no query can hold up. A query between the sending and the second release is told nothing,
as if the outcome were still to come; every query after it is told that the request was aborted.
-/

namespace Dialer

open InFlight (Handed)

namespace Completion

variable {α : Type} {c : Completion α} {actions before later : List (Action α)} {a : Action α}

def Action.isRelease : Action α → Bool
  | .release => true
  | _ => false

/-- How many ends were released. -/
def releases (actions : List (Action α)) : Nat := actions.countP Action.isRelease

@[simp] theorem releases_snoc (actions : List (Action α)) (a : Action α) :
    releases (actions ++ [a]) = releases actions + if a.isRelease then 1 else 0 := by
  rw [releases, List.countP_append, List.countP_singleton, releases]

/-- Of the two ends each is held or was released, and none is released before something happened to
the request. -/
theorem ends_of_possible (hp : ({} : Completion α).Possible actions) :
    (reached actions).ends.length + releases actions = 2 ∧
      ((reached actions).life = .unresolved → releases actions = 0) := by
  induction actions using List.reverseRecOn with
  | nil => exact ⟨rfl, fun _ => rfl⟩
  | append_singleton actions a ih =>
    obtain ⟨hp, ha⟩ := possible_snoc.mp hp
    obtain ⟨hends, hlife⟩ := ih hp
    obtain ⟨hl, he, -⟩ := ask_same (reached actions)
    rw [reached_snoc, releases_snoc]
    cases a with
    | resolve side outcome => exact ⟨by rw [hlife ha]; rfl, nofun⟩
    | discard => exact ⟨hends, nofun⟩
    | release =>
      refine ⟨?_, fun hu => absurd hu ha.1⟩
      change (reached actions).ends.tail.length + (releases actions + 1) = 2
      have hpos : 0 < (reached actions).ends.length := List.length_pos_iff.mpr ha.2
      rw [List.length_tail]
      omega
    | ask => exact ⟨he ▸ hends, hl ▸ hlife⟩
    | wait => exact ⟨he ▸ hends, hl ▸ hlife⟩
    | dropHandle => exact ⟨hends, hlife⟩

theorem ends_eq_nil_iff (hp : ({} : Completion α).Possible actions) :
    (reached actions).ends = [] ↔ 2 ≤ releases actions := by
  have hends := (ends_of_possible hp).1
  rw [← List.length_eq_zero_iff]
  omega

/-- What was taken had been sent, and is not there any more. -/
theorem Course.of_taken (h : Course actions c) (ht : taken {} actions ≠ []) :
    c.slot = none ∧ ∃ side, c.life = .resolved side := by
  cases h with
  | pending _ _ _ _ ht' => exact absurd ht' ht
  | discarded _ _ _ _ ht' => exact absurd ht' ht
  | ready _ _ _ _ ht' => exact absurd ht' ht
  | spent hl hs => exact ⟨hs, _, hl⟩

/-- After the outcome was taken a query is told that the request was aborted if no end is held, and
otherwise nothing. -/
theorem answer_of_taken (hp : ({} : Completion α).Possible actions) (ht : taken {} actions ≠ [])
    (hq : a.isQuery) :
    ((reached actions).after a).1 =
      if releases actions < 2 then none else some (.error .aborted) := by
  obtain ⟨hslot, -⟩ := (course_of_possible hp).of_taken ht
  rw [answer_of_isQuery _ hq, ask, hslot]
  by_cases hr : releases actions < 2
  · have hne : (reached actions).ends ≠ [] := fun he =>
      Nat.not_lt.mpr ((ends_eq_nil_iff hp).mp he) hr
    simp [hr, hne]
  · have he := (ends_eq_nil_iff hp).mpr (Nat.not_lt.mp hr)
    simp [hr, he]

theorem taken_append_of_taken (hp : ({} : Completion α).Possible (before ++ later))
    (ht : taken {} before ≠ []) : taken {} (before ++ later) = taken {} before := by
  induction later using List.reverseRecOn with
  | nil => rw [List.append_nil]
  | append_singleton later a ih =>
    rw [← List.append_assoc] at hp ⊢
    obtain ⟨hp, -⟩ := possible_snoc.mp hp
    have hsame := ih hp
    obtain ⟨hslot, -⟩ := (course_of_possible hp).of_taken (hsame ▸ ht)
    rw [taken_snoc, hsame, hslot, Option.toList_none, ite_self, List.append_nil]

/-- What becomes of a completion whose outcome was taken. -/
structure StaysTaken (before later : List (Action α)) : Prop where
  taken : taken {} (before ++ later) = taken {} before
  answers : ∀ xs a ys, later = xs ++ a :: ys → a.isQuery →
    ((reached (before ++ xs)).after a).1 =
      if releases (before ++ xs) < 2 then none else some (.error .aborted)
  /-- A query that waits is not over before both ends are released. -/
  waits : ∀ xs ys, later = xs ++ .wait :: ys → releases (before ++ xs) = 2
  /-- Until both are, the next one can be, whatever is asked meanwhile. -/
  releasable : ∀ xs ys, later = xs ++ ys →
    ((reached (before ++ xs)).Enabled .release ↔ releases (before ++ xs) < 2)

theorem staysTaken (hp : ({} : Completion α).Possible (before ++ later))
    (ht : Completion.taken {} before ≠ []) : StaysTaken before later := by
  have hsplit : ∀ xs ys, later = xs ++ ys → ({} : Completion α).Possible (before ++ xs) ∧
      (reached (before ++ xs)).Possible ys ∧ Completion.taken {} (before ++ xs) ≠ [] := by
    rintro xs ys rfl
    rw [← List.append_assoc] at hp
    obtain ⟨hxs, hys⟩ := possible_append.mp hp
    exact ⟨hxs, hys, taken_append_of_taken hxs ht ▸ ht⟩
  refine ⟨taken_append_of_taken hp ht, fun xs a ys heq hq => ?_, fun xs ys heq => ?_,
    fun xs ys heq => ?_⟩
  · obtain ⟨hxs, -, hxt⟩ := hsplit xs _ heq
    exact answer_of_taken hxs hxt hq
  · obtain ⟨hxs, ⟨⟨-, hsome⟩, -⟩, hxt⟩ := hsplit xs _ heq
    have hanswer := answer_of_taken (a := .ask) hxs hxt rfl
    have hends := (ends_of_possible hxs).1
    by_contra hne
    have hlt : releases (before ++ xs) < 2 := by omega
    rw [if_pos hlt] at hanswer
    rw [show (reached (before ++ xs)).ask.1 = none from hanswer] at hsome
    cases hsome
  · obtain ⟨hxs, -, hxt⟩ := hsplit xs ys heq
    obtain ⟨-, side, hlife⟩ := (course_of_possible hxs).of_taken hxt
    have hiff := ends_eq_nil_iff hxs
    constructor
    · intro he
      exact Nat.not_le.mp fun hle => he.2 (hiff.mpr hle)
    · intro hlt
      exact ⟨by simp [hlife], fun hnil => Nat.not_le.mpr hlt (hiff.mp hnil)⟩

end Completion

namespace Service.Exchange

variable {x : Exchange} {n : Nat}

/-- In a service it is only while the continuation that sent the outcome runs that a query can be
told nothing once the outcome was taken. -/
theorem Linked.answer_of_taken (h : Linked x) (hm : n ∈ x.connects)
    (ht : Completion.taken {} (x.doings n) ≠ [])
    (hover : ∀ call, x.service.table.calling? = some call → call.continuation.submission ≠ n)
    {a : Completion.Action Handed} (hq : a.isQuery) :
    ((x.completion n).after a).1 = some (.error .aborted) := by
  obtain ⟨-, side, hlife⟩ := (h.course n).of_taken ht
  have hends := (h.delivers hm).released side hlife hover
  have hreleases := (Completion.ends_eq_nil_iff (h.possible n)).mp hends
  exact (Completion.answer_of_taken (h.possible n) ht hq).trans (if_neg (Nat.not_lt.mpr hreleases))

/-- Once the outcome of a completion was taken, whatever is done with it afterwards: no query takes
another outcome, and every query is told that the request was aborted, except that one between the
sending and the second release is told nothing; a query that waits is over after that only. In a
service these are queries while the continuation still runs that sent the outcome. -/
theorem taken_outcome_stays_taken (settings : Settings) :
    (∀ (α : Type) (before later : List (Completion.Action α)),
      ({} : Completion α).Possible (before ++ later) → Completion.taken {} before ≠ [] →
        Completion.StaysTaken before later) ∧
    ∀ labels, (initial settings).Possible labels →
      ∀ n ∈ ((initial settings).run labels).connects,
        let x := (initial settings).run labels
        Completion.taken {} (x.doings n) ≠ [] →
          (∀ call, x.service.table.calling? = some call → call.continuation.submission ≠ n) →
            ∀ a : Completion.Action Handed, a.isQuery →
              ((x.completion n).after a).1 = some (.error .aborted) :=
  ⟨fun _ _ _ => Completion.staysTaken, fun _ hp _ hm ht hover _ hq =>
    (linked_run settings hp).answer_of_taken hm ht hover hq⟩

/-- A connect that the system refuses at once. Its outcome is taken while the continuation runs, and
asked for again when it is over. -/
theorem taken_outcome_stays_taken_after_call :
    let answers : Answers := { reply := { connect := some .connectionRefused } }
    let outcome : InFlight.Outcome := .error (.connectFailed .connectionRefused)
    let proceed (n : Nat) : List Label := .replicate n (.service (.proceed (.caller 0) {}))
    let labels : List Label := [.service (.begin (.caller 0) .start)] ++ proceed 3 ++
      [.connect (.caller 0) "127.0.0.1" 80 (.ofMillis 0)] ++ proceed 4 ++
      .replicate 7 (.service (.work answers)) ++
      [.complete 0 (.resolve .failure outcome), .complete 0 .ask, .complete 0 .release,
        .complete 0 .release, .service (.leave none)]
    let x := (initial { eventCapacity := 1 }).run labels
    Completion.taken {} (x.doings 0) = [outcome] ∧
      ∀ a : Completion.Action Handed, a.isQuery →
        ((x.completion 0).after a).1 = some (.error .aborted) := by
  intro answers outcome proceed labels x
  have hp : (initial { eventCapacity := 1 }).Possible labels := by decide
  have hm : 0 ∈ x.connects := by decide
  have ht : Completion.taken {} (x.doings 0) = [outcome] := by decide
  have hover : x.service.table.calling?.isNone := by decide
  refine ⟨ht, (taken_outcome_stays_taken { eventCapacity := 1 }).2 labels hp 0 hm ?_ ?_⟩
  · intro hnil
    exact List.cons_ne_nil _ _ (ht.symm.trans hnil)
  · intro call hcalling
    rw [show x.service.table.calling? = some call from hcalling] at hover
    cases hover

/-- The outcome of a connect that the system refuses is taken as soon as it was sent; whoever asks
again before the continuation has released the ends is told nothing. -/
theorem taken_outcome_told_nothing :
    let answers : Answers := { reply := { connect := some .connectionRefused } }
    let outcome : InFlight.Outcome := .error (.connectFailed .connectionRefused)
    let proceed (n : Nat) : List Label := .replicate n (.service (.proceed (.caller 0) {}))
    let labels : List Label := [.service (.begin (.caller 0) .start)] ++ proceed 3 ++
      [.connect (.caller 0) "127.0.0.1" 80 (.ofMillis 0)] ++ proceed 4 ++
      .replicate 7 (.service (.work answers)) ++ [.complete 0 (.resolve .failure outcome)]
    let x := (initial { eventCapacity := 1 }).run labels
    let y := x.after (.complete 0 .ask)
    (initial { eventCapacity := 1 }).Possible (labels ++ [.complete 0 .ask, .complete 0 .ask]) ∧
      ((x.completion 0).after .ask).1 = some outcome ∧
      Completion.taken {} (y.doings 0) = [outcome] ∧
      ((y.completion 0).after .ask).1 = none := by
  decide

end Service.Exchange

end Dialer
