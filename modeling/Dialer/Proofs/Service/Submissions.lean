import Dialer.Proofs.Service.Passes

/-!
# Every submission is settled once

A submission gets its number when its call begins. It is then carried by that call alone, until it
is accepted for the worker or refused; neither happens to it again.
-/

namespace Dialer.Service

variable {κ : Type}

/-- A complete request whose continuations both tell which submission they came with. -/
def IsFor (request : Request (Tagged κ)) (n : Nat) : Prop :=
  ∃ r : Request κ, request = State.tag n r ∧ r.refusal? = none

theorem IsFor.continuations {request : Request (Tagged κ)} {n : Nat} (h : IsFor request n) :
    ∃ c, request.continuations? = some c ∧
      ∀ outcome : InFlight.Outcome, (c.select outcome).submission = n := by
  obtain ⟨r, rfl, hr⟩ := h
  have hc := (Request.refusal?_eq_none_iff r).mp hr
  unfold Request.continuations? at hc
  split at hc
  · next hs hf =>
    refine ⟨⟨⟨n, _⟩, ⟨n, _⟩⟩, by simp only [Request.continuations?, State.tag, hs, hf]; rfl, ?_⟩
    intro outcome
    cases outcome <;> rfl
  · simp at hc

theorem IsFor.unique {request : Request (Tagged κ)} {n m : Nat} (hn : IsFor request n)
    (hm : IsFor request m) : n = m := by
  obtain ⟨c, hc, hsub⟩ := hn.continuations
  obtain ⟨c', hc', hsub'⟩ := hm.continuations
  obtain rfl := Option.some.inj (hc.symm.trans hc')
  exact (hsub (.error .aborted)).symm.trans (hsub' (.error .aborted))

namespace State

variable {s t : State κ} {thread : Thread} {n : Nat}

/-- The submissions that were accepted or refused. -/
def settled (s : State κ) : List Nat := s.refusals ++ s.accepts.map (·.1)

/-- What a step does to the submissions. -/
inductive Books (s t : State κ) : Prop
  | keeps (hb : Unbooked s t) (hc : ∀ other, t.carried? other = s.carried? other)
  | opens {thread : Thread} {request : Request κ} (hr : request.refusal? = none)
      (hc : ∀ other, t.carried? other = if other = thread
        then some (s.submissions, tag s.submissions request) else s.carried? other)
      (hn : s.carried? thread = none)
      (hs : t.submissions = s.submissions + 1) (hset : t.settled = s.settled)
  | settles {thread : Thread} {n : Nat} (hset : t.settled.Perm (n :: s.settled))
      (hc : ∀ other, t.carried? other = if other = thread then none else s.carried? other)
      (hn : ((∃ request, s.carried? thread = some (n, request)) ∧
          t.submissions = s.submissions) ∨
        (s.carried? thread = none ∧ n = s.submissions ∧ t.submissions = s.submissions + 1))

theorem carried?_of_moves {q : Option (Point κ)} (hm : Moves s thread q t) (other : Thread) :
    t.carried? other = if other = thread then q.bind Point.carried? else s.carried? other := by
  rw [carried?, hm]
  split <;> rfl

theorem carried?_congr (hp : ∀ thread, t.point? thread = s.point? thread) (other : Thread) :
    t.carried? other = s.carried? other := by
  rw [carried?, carried?, hp]

theorem carried?_of_idle {p : Point κ} {q : Option (Point κ)} (hm : Moves s thread q t)
    (hp : s.point? thread = some p) (hc : p.carried? = none) (hq : q.bind Point.carried? = none)
    (other : Thread) : t.carried? other = s.carried? other := by
  rw [carried?_of_moves hm, hq]
  split
  · next h => rw [h, carried?_of_point? hp]; exact hc.symm
  · rfl

theorem Passes.books (h : Passes s t) : Books s t := by
  cases h with
  | @call thread q hm hs hf hb =>
    cases hb with
    | keeps hb hq =>
      refine .keeps hb fun other => ?_
      rw [carried?_of_moves hm, hq]
      split
      · next he => rw [he]
      · rfl
    | @opens request hq hr hs ha href =>
      subst hq
      cases hf with
      | begins hn =>
        exact .opens hr (carried?_of_moves hm) (carried?_of_point? hn) hs
          (by rw [settled, href, ha]; rfl)
    | @refuses n hq hn ha href =>
      have hc := carried?_of_moves hm
      rw [hq] at hc
      exact .settles (by rw [settled, href, ha]; exact .refl _) hc hn
  | launched h => exact .keeps h.books (carried?_of_idle h.moves h.point rfl rfl)
  | halted h => exact .keeps h.books (carried?_of_idle h.moves h.point rfl rfl)
  | @accepted thread n request hp hm h hs ha hr =>
    refine .settles (n := n) ?_ (carried?_of_moves hm)
      (.inl ⟨⟨request, carried?_of_point? hp⟩, hs⟩)
    rw [settled, hr, ha]
    exact List.perm_middle
  | posted hp hm _ hb => exact .keeps hb (carried?_of_idle hm hp rfl rfl)
  | signalled hp hm _ hb => exact .keeps hb (carried?_of_idle hm hp rfl rfl)
  | lowered hp hm h => exact .keeps h.books (carried?_of_idle hm hp rfl rfl)
  | joined h => exact .keeps h.books (carried?_of_idle h.moves h.point rfl rfl)
  | abandoned h =>
    exact .keeps h.books (carried?_congr fun thread => (h.points thread).trans (h.free thread).symm)
  | worked h => exact .keeps h.books (carried?_congr h.points)
  | outside hp _ _ hb => exact .keeps hb (carried?_congr hp)

theorem Books.submissions_le (h : Books s t) : s.submissions ≤ t.submissions := by
  cases h with
  | keeps hb => exact Nat.le_of_eq hb.submissions.symm
  | opens _ _ _ hs => exact hs ▸ Nat.le_succ _
  | settles _ _ hn =>
    rcases hn with ⟨-, hs⟩ | ⟨-, -, hs⟩
    · exact Nat.le_of_eq hs.symm
    · exact hs ▸ Nat.le_succ _

theorem Books.settled_subset (h : Books s t) : s.settled ⊆ t.settled := by
  cases h with
  | keeps hb =>
    rw [settled, settled, hb.accepts, hb.refusals]
    exact List.Subset.refl _
  | opens _ _ _ _ hset =>
    rw [hset]
    exact List.Subset.refl _
  | settles hset => exact fun n hn => hset.mem_iff.mpr (List.mem_cons_of_mem _ hn)

/-- Which submissions there are, and which calls carry them. -/
structure Booked (s : State κ) : Prop where
  carried : ∀ {thread : Thread} {n : Nat} {request : Request (Tagged κ)},
    s.carried? thread = some (n, request) → IsFor request n ∧ n < s.submissions ∧ n ∉ s.settled
  apart : ∀ {thread other : Thread} {n : Nat} {r r' : Request (Tagged κ)},
    s.carried? thread = some (n, r) → s.carried? other = some (n, r') → other = thread
  nodup : s.settled.Nodup
  settled_lt : ∀ n ∈ s.settled, n < s.submissions
  known : ∀ n < s.submissions,
    n ∈ s.settled ∨ ∃ thread request, s.carried? thread = some (n, request)

theorem Booked.opens (h : Booked s) {request : Request κ} (hr : request.refusal? = none)
    (hc : ∀ other, t.carried? other = if other = thread
      then some (s.submissions, tag s.submissions request) else s.carried? other)
    (hn : s.carried? thread = none) (hs : t.submissions = s.submissions + 1)
    (hset : t.settled = s.settled) : Booked t := by
  have hfresh : ∀ {other : Thread} {r}, s.carried? other ≠ some (s.submissions, r) :=
    fun hx => Nat.lt_irrefl _ (h.carried hx).2.1
  refine ⟨fun {other n r} hx => ?_, fun {one other n r r'} hx hy => ?_, hset ▸ h.nodup,
    fun n hn => ?_, fun n hlt => ?_⟩
  · rw [hset, hs]
    rw [hc] at hx
    split at hx
    · obtain ⟨rfl, rfl⟩ := Prod.mk.inj (Option.some.inj hx)
      exact ⟨⟨request, rfl, hr⟩, Nat.lt_succ_self _,
        fun hm => Nat.lt_irrefl _ (h.settled_lt _ hm)⟩
    · obtain ⟨hfor, hlt, hm⟩ := h.carried hx
      exact ⟨hfor, Nat.lt_succ_of_lt hlt, hm⟩
  · rw [hc] at hx hy
    split at hx <;> split at hy
    · next h1 h2 => rw [h1, h2]
    · obtain ⟨rfl, -⟩ := Prod.mk.inj (Option.some.inj hx)
      exact absurd hy hfresh
    · obtain ⟨rfl, -⟩ := Prod.mk.inj (Option.some.inj hy)
      exact absurd hx hfresh
    · exact h.apart hx hy
  · rw [hs]
    exact Nat.lt_succ_of_lt (h.settled_lt n (hset ▸ hn))
  · rw [hset]
    rcases Nat.lt_or_eq_of_le (Nat.le_of_lt_succ (hs ▸ hlt)) with hlt | rfl
    · refine (h.known n hlt).imp_right ?_
      rintro ⟨other, r, hx⟩
      have hne : other ≠ thread := fun he => by simp [he, hn] at hx
      exact ⟨other, r, by rw [hc, if_neg hne, hx]⟩
    · exact .inr ⟨thread, _, by rw [hc, if_pos rfl]⟩

theorem Booked.settles (h : Booked s) (hset : t.settled.Perm (n :: s.settled))
    (hc : ∀ other, t.carried? other = if other = thread then none else s.carried? other)
    (hn : ((∃ request, s.carried? thread = some (n, request)) ∧ t.submissions = s.submissions) ∨
      (s.carried? thread = none ∧ n = s.submissions ∧ t.submissions = s.submissions + 1)) :
    Booked t := by
  have hfresh : n ∉ s.settled ∧ n < t.submissions ∧ s.submissions ≤ t.submissions := by
    rcases hn with ⟨⟨request, hx⟩, hs⟩ | ⟨-, rfl, hs⟩
    · exact ⟨(h.carried hx).2.2, hs ▸ (h.carried hx).2.1, Nat.le_of_eq hs.symm⟩
    · exact ⟨fun hm => Nat.lt_irrefl _ (h.settled_lt _ hm), by omega, by omega⟩
  have hold : ∀ {other x}, t.carried? other = some x →
      other ≠ thread ∧ s.carried? other = some x := by
    intro other x hx
    rw [hc] at hx
    split at hx
    · simp at hx
    · next hne => exact ⟨hne, hx⟩
  -- Nobody else carried what is settled now.
  have hne : ∀ {other : Thread} {m : Nat} {r : Request (Tagged κ)},
      t.carried? other = some (m, r) → m ≠ n := by
    rintro other m r hx rfl
    obtain ⟨hother, hx⟩ := hold hx
    rcases hn with ⟨⟨request, hx'⟩, -⟩ | ⟨-, rfl, -⟩
    · exact hother (h.apart hx' hx)
    · exact Nat.lt_irrefl _ (h.carried hx).2.1
  refine ⟨fun hx => ?_, fun hx hy => h.apart (hold hx).2 (hold hy).2,
    hset.nodup_iff.mpr (List.nodup_cons.mpr ⟨hfresh.1, h.nodup⟩), fun m hm => ?_,
    fun m hlt => ?_⟩
  · obtain ⟨hfor, hlt, hm⟩ := h.carried (hold hx).2
    refine ⟨hfor, Nat.lt_of_lt_of_le hlt hfresh.2.2, fun hm' => ?_⟩
    rcases List.mem_cons.mp (hset.mem_iff.mp hm') with he | hm'
    · exact hne hx he
    · exact hm hm'
  · rcases List.mem_cons.mp (hset.mem_iff.mp hm) with rfl | hm
    · exact hfresh.2.1
    · exact Nat.lt_of_lt_of_le (h.settled_lt m hm) hfresh.2.2
  · rw [hset.mem_iff, List.mem_cons]
    by_cases hm : m = n
    · exact .inl (.inl hm)
    have hlt : m < s.submissions := by
      rcases hn with ⟨-, hs⟩ | ⟨-, rfl, hs⟩ <;> omega
    rcases h.known m hlt with hm' | ⟨other, r, hx⟩
    · exact .inl (.inr hm')
    · refine .inr ⟨other, r, ?_⟩
      rw [hc, if_neg, hx]
      rintro rfl
      rcases hn with ⟨⟨request, hx'⟩, -⟩ | ⟨hnone, -⟩
      · obtain ⟨rfl, -⟩ := Prod.mk.inj (Option.some.inj (hx'.symm.trans hx))
        exact hm rfl
      · simp [hnone] at hx

theorem Booked.passes (h : Booked s) (hp : Passes s t) : Booked t := by
  cases hp.books with
  | keeps hb hc =>
    have hset : t.settled = s.settled := by rw [settled, settled, hb.accepts, hb.refusals]
    constructor <;> simp only [hc, hset, hb.submissions]
    · exact h.carried
    · exact h.apart
    · exact h.nodup
    · exact h.settled_lt
    · exact h.known
  | opens hr hc hn hs hset => exact h.opens hr hc hn hs hset
  | settles hset hc hn => exact h.settles hset hc hn

end State

end Dialer.Service
