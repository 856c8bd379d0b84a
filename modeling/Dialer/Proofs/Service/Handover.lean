import Dialer.Proofs.Service.Orderly
import Dialer.Proofs.Service.Streams

/-!
# One receiver after the other

While no two calls overlap, nothing breaks and nobody stops receiving, each call for a monitor takes
over the events where the one before it leaves off. What is told first of a submission goes to the
monitor that was called for last before it; everything else goes to the one that was attached last.
So the streams of the receivers one after the other are all there was occasion for.
-/

namespace Dialer.Service

open InFlight.State (Addressed Conveys)

variable {κ : Type}

@[simp] theorem Event.introduces_tag (event : Event) (n : Nat) (request : Request κ) :
    event.Introduces (State.tag n request) ↔ event.Introduces request := by
  cases event <;> rfl

namespace State

variable {s t : State κ} {l : Label κ} {labels before rest xs ys : List (Label κ)} {thread : Thread}
  {asked attached : List Nat} {request : Request κ} {n c : Nat} {m : Option Nat}

/-! ### A submission on its way -/

theorem Books.carried (h : Books s t) (hlt : n < s.submissions) {r : Request (Tagged κ)}
    (hx : t.carried? thread = some (n, r)) : s.carried? thread = some (n, r) := by
  cases h with
  | keeps _ hc => rwa [hc] at hx
  | opens _ hc =>
    rw [hc] at hx
    split at hx
    · obtain ⟨rfl, -⟩ := Prod.mk.inj (Option.some.inj hx)
      exact absurd hlt (Nat.lt_irrefl _)
    · exact hx
  | settles _ hc =>
    rw [hc] at hx
    split at hx
    · cases hx
    · exact hx

/-- The submission of a request and the channel that was in the slot when it began. By the time the
worker comes to it, events go to that channel. -/
structure Aimed (s : State κ) (attached : List Nat) (request : Request κ) (n : Nat)
    (m : Option Nat) : Prop where
  lt : n < s.submissions
  carried : ∀ thread r, s.carried? thread = some (n, r) → r = tag n request ∧ s.slot = m
  jobs : ∀ pre r post, s.jobs = pre ++ .dial r :: post → IsFor r n →
    r = tag n request ∧ (attached ++ pre.filterMap Job.channel?).getLast? = m

theorem Aligned.offered_of_carried (h : Aligned s asked attached) {x : Nat × Request (Tagged κ)}
    (hx : s.carried? thread = some x) :
    s.offered = [] ∧ (¬ s.table.isClosed → (attached ++ s.ordered).getLast? = s.slot) := by
  obtain ⟨p, hp, hcarried⟩ := Option.bind_eq_some_iff.mp hx
  have hm := mem_calls_of_point? hp
  cases h.phase with
  | settled ho _ hh => exact ⟨ho, hh⟩
  | asking hc hq =>
    rw [hc, List.mem_singleton] at hm
    obtain ⟨-, rfl⟩ := Prod.mk.inj hm
    rcases hq with rfl | rfl <;> cases hcarried
  | posting hc =>
    rw [hc, List.mem_singleton] at hm
    obtain ⟨-, rfl⟩ := Prod.mk.inj hm
    cases hcarried

theorem carried?_of_left? {r : Request (Tagged κ)} (hl : s.left? l = some (.dial r)) :
    ¬ s.table.isClosed ∧ ∃ thread n, s.carried? thread = some (n, r) := by
  unfold left? at hl
  split at hl
  · next thread grant =>
    split at hl
    · next op hp =>
      split at hl
      · cases hl
      · next hopen =>
        refine ⟨hopen, thread, ?_⟩
        cases op with
        | submit n request =>
          obtain rfl : request = r := by simpa [Operation.job?] using hl
          exact ⟨n, by rw [carried?, hp]; rfl⟩
        | _ => simp [Operation.job?] at hl
    · cases hl
  · cases hl

theorem Aimed.after (h : Aimed s attached request n m) (ha : Aligned s asked attached)
    (hs : Reachable s) (he : s.Enabled l) (hi : Intact (s.after l)) :
    Aimed (s.after l) (attached ++ (s.attached? l).toList) request n m := by
  have hr := hs.ruled
  have hbooks := (passes_after hr.manned.sound he).books
  refine ⟨Nat.lt_of_lt_of_le h.lt hbooks.submissions_le, fun thread r hx => ?_,
    fun pre r post hj hfor => ?_⟩
  · have hold := hbooks.carried h.lt hx
    obtain ⟨htag, hslot⟩ := h.carried thread r hold
    refine ⟨htag, ?_⟩
    rw [slot_after he hi, stored?_of_offered (ha.offered_of_carried hold).1, Option.none_or, hslot]
  · cases hs.steers_after he hi with
    | renews _ _ _ _ _ hj' => simp [hj'] at hj
    | ends _ hj' => simp [hj'] at hj
    | goesOn _ _ hledger hattached =>
      rw [hj, ← List.append_assoc] at hledger
      rw [hattached, List.append_assoc, ← filterMap_toList, ← List.filterMap_append]
      cases hleft : s.left? l with
      | none =>
        rw [hleft, Option.toList_none, List.append_nil] at hledger
        exact h.jobs _ r post hledger hfor
      | some job =>
        rw [hleft, Option.toList_some] at hledger
        rcases List.eq_nil_or_concat post with rfl | ⟨post, last, rfl⟩
        · -- It is left right now, when events are to go to the channel in the slot.
          obtain ⟨hjobs, hjob⟩ := List.append_inj' hledger rfl
          obtain rfl : job = .dial r := by simpa using hjob
          obtain ⟨hopen, thread, k, hcarried⟩ := carried?_of_left? hleft
          obtain rfl := (hr.booked.carried hcarried).1.unique hfor
          obtain ⟨htag, hslot⟩ := h.carried thread r hcarried
          refine ⟨htag, ?_⟩
          rw [← hjobs, ← hslot]
          exact (ha.offered_of_carried hcarried).2 hopen
        · rw [List.concat_eq_append, ← List.cons_append, ← List.append_assoc] at hledger
          exact h.jobs _ r post (List.append_inj' hledger rfl).1 hfor

theorem attached?_submit (s : State κ) (thread : Thread) (request : Request κ) :
    s.attached? (.begin thread (.submit request)) = none := by
  refine if_pos ?_
  simp only [after, begin]
  split <;> rfl

theorem Aligned.aimed (h : Aligned s asked attached) (hs : Reachable s) (hc : s.calls = [])
    (thread : Thread) (request : Request κ) :
    Aimed (s.after (.begin thread (.submit request))) attached request s.submissions
      asked.getLast? := by
  have hr := hs.ruled
  have hfree : ∀ other, s.carried? other = none := fun other => by simp [carried?, point?, hc]
  have hslot : s.slot = asked.getLast? := by
    cases h.phase with
    | settled _ hslot => exact hslot
    | asking hc' => simp [hc] at hc'
    | posting hc' => simp [hc] at hc'
  have hsubmissions : (s.after (.begin thread (.submit request))).submissions =
      s.submissions + 1 := by
    simp only [State.after, State.begin]
    split <;> rfl
  refine ⟨by rw [hsubmissions]; exact Nat.lt_succ_self _, fun other r hx => ?_,
    fun pre r post hj hfor => ?_⟩
  · simp only [State.after, State.begin] at hx ⊢
    cases hrefused : request.refusal? with
    | some failure =>
      simp only [hrefused, carried?, point?_returns] at hx
      split at hx
      · cases hx
      · exact absurd ((hfree other).symm.trans hx) (by simp)
    | none =>
      simp only [hrefused, carried?, point?_moveTo] at hx ⊢
      split at hx
      · obtain ⟨-, rfl⟩ := Prod.mk.inj (Option.some.inj hx)
        exact ⟨rfl, hslot⟩
      · exact absurd ((hfree other).symm.trans hx) (by simp)
  · have hjobs := (Prod.mk.inj (agenda_begin s thread (.submit request))).1
    have hmem : .dial r ∈ s.jobs := by
      rw [← hjobs]
      exact hj ▸ List.mem_append_right _ List.mem_cons_self
    have hwaiting : r ∈ s.waiting := List.mem_filterMap.mpr ⟨_, hmem, rfl⟩
    have haccepted := hr.delivered.waiting r hwaiting _ hfor
    have hlt := hr.booked.settled_lt s.submissions
      (List.mem_append_right _ (List.mem_map_of_mem haccepted))
    exact absurd hlt (Nat.lt_irrefl _)

/-! ### What is told in a step -/

theorem not_mem_issues (hn : ¬ s.IsIssued n) {i : Nat × Request (Tagged κ)}
    (hfor : IsFor i.2 n) : i ∉ s.table.issues := fun hm =>
  hn ⟨i.2, List.mem_map_of_mem hm, hfor⟩

section Told

variable {news : List Event} (h : Tells s news t) (ha : Aligned s asked attached)
include h ha

/-- Whatever is told goes to the channel that was attached last. -/
theorem Tells.told : Conveys s.table attached.getLast? news t.table := by
  by_cases hc : s.table.isClosed
  · have hconveys := h.conveys
    rw [h.silent hc] at hconveys ⊢
    exact hconveys.elsewhere
  · rw [← ha.monitor hc]
    exact h.conveys

theorem Tells.introduces (hm : Aimed s attached request n m) (hn : ¬ s.IsIssued n)
    (hi : t.IsIssued n) : ∃ event rest, event.Introduces request ∧
      Conveys s.table m (event :: rest) t.table := by
  obtain ⟨r, hr, hfor⟩ := hi
  obtain ⟨i, hi, rfl⟩ := List.mem_map.mp hr
  obtain ⟨jobs, event, hjobs, hhead, hintro⟩ := h.opening i hi (not_mem_issues hn hfor)
  obtain ⟨htag, hlast⟩ := hm.jobs [] i.2 jobs hjobs hfor
  obtain ⟨rest, rfl⟩ : ∃ rest, news = event :: rest := List.head?_eq_some_iff.mp hhead
  rw [htag, Event.introduces_tag] at hintro
  rw [List.filterMap_nil, List.append_nil] at hlast
  exact ⟨event, rest, hintro, hlast ▸ h.told ha⟩

end Told

/-! ### Runs -/

/-- A run of calls one after the other in which nothing breaks. -/
structure Smooth (settings : Settings) (labels : List (Label κ)) : Prop where
  possible : (initial settings).Possible labels
  orderly : (initial settings).Orderly labels
  intact : Intact ((initial settings).run labels)

section Smooth

variable {settings : Settings}

theorem Smooth.left (h : Smooth settings (xs ++ ys)) : Smooth settings xs := by
  obtain ⟨hp, hp'⟩ := possible_append.mp h.possible
  have hi := h.intact
  rw [run_append] at hi
  exact ⟨hp, (orderly_append.mp h.orderly).1,
    ((Reachable.initial settings).run hp).intact_of_run hp' hi⟩

theorem Smooth.reachable (h : Smooth settings labels) : Reachable ((initial settings).run labels) :=
  (Reachable.initial settings).run h.possible

theorem Smooth.aligned (h : Smooth settings labels) : Aligned ((initial settings).run labels)
    ((initial settings).asks labels) ((initial settings).attachments labels) :=
  aligned_run settings h.possible h.orderly h.intact

theorem Smooth.enabled (h : Smooth settings (labels ++ [l])) :
    ((initial settings).run labels).Enabled l := (possible_snoc.mp h.possible).2

theorem Smooth.intact_after (h : Smooth settings (labels ++ [l])) :
    Intact (((initial settings).run labels).after l) := run_snoc _ _ _ ▸ h.intact

theorem Smooth.addressed (h : Smooth settings labels) :
    Addressed ((initial settings).run labels).table := by
  induction labels using List.reverseRecOn with
  | nil =>
    have hentries : ((initial settings : State κ).run []).table.entries = [] := rfl
    intro p hp
    simp [hentries] at hp
  | append_singleton labels l ih =>
    rw [run_snoc]
    exact (h.left.reachable.tells_after (ih h.left) h.enabled h.intact_after).1

theorem Smooth.tells (h : Smooth settings (labels ++ [l])) : ∃ news,
    Tells ((initial settings).run labels) news ((initial settings).run (labels ++ [l])) := by
  rw [run_snoc]
  exact (h.left.reachable.tells_after h.left.addressed h.enabled h.intact_after).2

theorem Smooth.aimed (h : Smooth settings (before ++ .begin thread (.submit request) :: rest)) :
    Aimed ((initial settings).run (before ++ .begin thread (.submit request) :: rest))
      ((initial settings).attachments (before ++ .begin thread (.submit request) :: rest)) request
      ((initial settings).run before).submissions ((initial settings).asks before).getLast? := by
  induction rest using List.reverseRecOn with
  | nil =>
    have hcalls : ((initial settings).run before).calls = [] :=
      List.isEmpty_iff.mp ((orderly_snoc.mp h.orderly).2 rfl)
    rw [run_snoc, attachments_snoc, attached?_submit, Option.toList_none, List.append_nil]
    exact h.left.aligned.aimed h.left.reachable hcalls thread request
  | append_singleton rest l ih =>
    rw [← List.cons_append, ← List.append_assoc] at h ⊢
    rw [run_snoc, attachments_snoc]
    exact (ih h.left).after h.left.aligned h.left.reachable h.enabled h.intact_after

/-! ### What is published -/

theorem le_of_getLast? {cs : List Nat} {d : Nat} (hcs : cs.Pairwise (· ≤ ·))
    (hd : cs.getLast? = some d) (hc : c ∈ cs) : c ≤ d := by
  obtain ⟨ys, rfl⟩ := List.getLast?_eq_some_iff.mp hd
  rcases List.mem_append.mp hc with hc | hc
  · exact (List.pairwise_append.mp hcs).2.2 c hc d List.mem_cons_self
  · exact Nat.le_of_eq (List.mem_singleton.mp hc)

theorem Smooth.published (h : Smooth settings labels) :
    (∀ p ∈ ((initial settings).run labels).table.published,
      p.1 ∈ (initial settings).attachments labels) ∧
    (((initial settings).run labels).table.published.map (·.1)).Pairwise (· ≤ ·) := by
  induction labels using List.reverseRecOn with
  | nil => exact ⟨nofun, .nil⟩
  | append_singleton labels l ih =>
    obtain ⟨hmem, hsorted⟩ := ih h.left
    obtain ⟨news, ht⟩ := h.tells
    have haligned := h.left.aligned
    rw [(ht.told haligned).published, attachments_snoc]
    have hspread : ∀ p ∈ InFlight.State.spread
        ((initial settings).attachments labels).getLast? news,
        some p.1 = ((initial settings).attachments labels).getLast? := by
      intro p hp
      obtain ⟨c, hc, hp⟩ := List.mem_flatMap.mp hp
      obtain ⟨event, -, rfl⟩ := List.mem_map.mp hp
      exact (Option.mem_toList.mp hc).symm
    refine ⟨fun p hp => List.mem_append_left _ ?_, ?_⟩
    · rcases List.mem_append.mp hp with hp | hp
      · exact hmem p hp
      · exact List.mem_of_getLast? (hspread p hp).symm
    · rw [List.pairwise_map, List.pairwise_append, ← List.pairwise_map]
      refine ⟨hsorted, List.pairwise_of_forall_mem_list fun p hp q hq => ?_, fun p hp q hq => ?_⟩
      · exact Nat.le_of_eq (Option.some.inj ((hspread p hp).trans (hspread q hq).symm))
      · refine le_of_getLast? ?_ (hspread q hq).symm (hmem p hp)
        exact haligned.sorted.sublist (List.sublist_append_left _ _)

/-- From the first attachment on, all there is occasion for is published. -/
theorem Smooth.since (h : Smooth settings (xs ++ ys))
    (hx : (initial settings : State κ).attachments xs ≠ []) : ∃ pubs,
    ((initial settings).run (xs ++ ys)).table.published =
        ((initial settings).run xs).table.published ++ pubs ∧
      ((initial settings).run (xs ++ ys)).table.occasions =
        ((initial settings).run xs).table.occasions ++ pubs.map (·.2) := by
  induction ys using List.reverseRecOn with
  | nil => exact ⟨[], by simp⟩
  | append_singleton ys l ih =>
    rw [← List.append_assoc] at h ⊢
    obtain ⟨pubs, hp, ho⟩ := ih h.left
    obtain ⟨news, ht⟩ := h.tells
    have hconveys := ht.told h.left.aligned
    have hne : (initial settings : State κ).attachments (xs ++ ys) ≠ [] := by
      rw [attachments, collect_append]
      exact List.append_ne_nil_of_left_ne_nil hx _
    obtain ⟨c, hc⟩ := Option.isSome_iff_exists.mp (List.getLast?_isSome.mpr hne)
    rw [hc] at hconveys
    refine ⟨pubs ++ news.map (c, ·), ?_, ?_⟩
    · rw [hconveys.published, hp, List.append_assoc]
      simp [InFlight.State.spread]
    · rw [hconveys.occasions, ho, List.append_assoc]
      simp [Function.comp_def]

theorem Smooth.published_nil (h : Smooth settings labels)
    (hn : (initial settings : State κ).attachments labels = []) :
    ((initial settings).run labels).table.published = [] :=
  List.eq_nil_iff_forall_not_mem.mpr fun p hp => by
    have hmem := h.published.1 p hp
    rw [hn] at hmem
    cases hmem

theorem Smooth.streams (h : Smooth settings labels) :
    ((initial settings : State κ).asks labels).flatMap ((initial settings).stream labels) =
      ((initial settings).run labels).table.published.map (·.2) := by
  obtain ⟨hmem, hsorted⟩ := h.published
  rw [← flatMap_heardOn (asks_sorted settings h.possible).1 hsorted
    fun p hp => h.aligned.known _ (List.mem_append_left _ (hmem p hp))]
  exact List.flatMap_congr fun c _ => stream_eq settings labels c

end Smooth

/-! ### Older receivers -/

/-- Nobody publishes any more on a channel that came before the one attached last. -/
theorem Aligned.le_of_isAttached (h : Aligned s asked attached) {d : Nat}
    (hd : attached.getLast? = some d) (hc : s.isAttached c) : d ≤ c := by
  have hmem := List.mem_of_getLast? hd
  obtain ⟨m, hslot, hle⟩ := h.kept d (List.mem_append_left _ hmem)
  rcases mem_of_isAttached hc with hc | hc | hc | hc
  · rwa [← Option.some.inj (hslot.symm.trans hc)]
  · have hopen : ¬ s.table.isClosed := fun hclosed => by simp [h.closed hclosed] at hc
    rw [h.monitor hopen, hd] at hc
    exact Nat.le_of_eq (Option.some.inj hc)
  · exact (List.pairwise_append.mp h.sorted).2.2 d hmem c hc
  · exact Nat.le_trans hle ((h.offered hc).2 m hslot)

theorem Aligned.eq_of_isAttached (h : Aligned s asked attached) (hs : Reachable s)
    (hi : Intact s) (hg : s.isWorkerGone) (hn : s.calls = []) (hc : s.isAttached c) :
    asked.getLast? = some c := by
  have hclosed := (hs.ruled.manned.fallow_of_gone hg).closed
  have hordered : s.ordered = [] := by rw [ordered, hs.jobs_of_closed hi hclosed]; rfl
  have hoffered : s.offered = [] := by rw [State.offered, hn]; rfl
  have hslot : s.slot = some c := by
    simpa [hordered, hoffered, h.closed hclosed] using mem_of_isAttached hc
  cases h.phase with
  | settled _ hlast => exact hlast.symm.trans hslot
  | asking hcalls => simp [hn] at hcalls
  | posting hcalls => simp [hn] at hcalls

/-! ### The whole -/

/-- A submission is issued in a step. -/
def Issues (s : State κ) (l : Label κ) (n : Nat) : Prop := ¬ s.IsIssued n ∧ (s.after l).IsIssued n

theorem exists_issue (hn : ¬ s.IsIssued n) (hi : (s.run labels).IsIssued n) :
    ∃ xs l ys, labels = xs ++ l :: ys ∧ Issues (s.run xs) l n := by
  induction labels generalizing s with
  | nil => exact absurd hi hn
  | cons l rest ih =>
    by_cases hl : (s.after l).IsIssued n
    · exact ⟨[], l, rest, rfl, hn, hl⟩
    · obtain ⟨xs, x, ys, rfl, hx⟩ := ih hl hi
      exact ⟨l :: xs, x, ys, rfl, hx⟩

theorem Ruled.not_isIssued_submit (h : Ruled s) (thread : Thread) (request : Request κ) :
    ¬ (s.after (.begin thread (.submit request))).IsIssued s.submissions := by
  rintro ⟨r, hr, hfor⟩
  rw [InFlight.State.issues_eq, (call_channels s (l := .begin thread (.submit request)) rfl).2,
    ← InFlight.State.issues_eq] at hr
  obtain ⟨k, g, ha, hfor'⟩ := h.delivered.received r (List.mem_append_right _ hr)
  obtain rfl := hfor.unique hfor'
  have hlt := h.booked.settled_lt s.submissions
    (List.mem_append_right _ (List.mem_map_of_mem ha))
  exact absurd hlt (Nat.lt_irrefl _)

section Smooth

variable {settings : Settings}

theorem Smooth.issued (h : Smooth settings (before ++ .begin thread (.submit request) :: rest))
    {g : Nat} (ha : (((initial settings).run before).submissions, g) ∈
      ((initial settings).run (before ++ .begin thread (.submit request) :: rest)).accepts) :
    (((initial settings).run (before ++ .begin thread (.submit request) :: rest)).IsWaiting
        ((initial settings).run before).submissions ∧
      ¬ ((initial settings).run (before ++ .begin thread (.submit request) :: rest)).HasEnded g) ∨
    ∃ xs l ys, rest = xs ++ l :: ys ∧
      Issues ((initial settings).run (before ++ .begin thread (.submit request) :: xs)) l
        ((initial settings).run before).submissions := by
  have hr := h.reachable.ruled
  by_cases hissued : ((initial settings).run (before ++ .begin thread (.submit request) :: rest)
      ).IsIssued ((initial settings).run before).submissions
  · refine .inr ?_
    have hnot := h.left.reachable.ruled.not_isIssued_submit thread request
    rw [run_append] at hissued
    obtain ⟨xs, l, ys, rfl, hx⟩ := exists_issue hnot hissued
    refine ⟨xs, l, ys, rfl, ?_⟩
    rw [run_append]
    exact hx
  · have hcontained := h.intact.contained g
    refine .inl ⟨?_, fun he => hissued (hr.isIssued_of_ended ha he hcontained)⟩
    rcases hr.delivered.found _ g ha with hfound | ⟨-, hwait⟩ | hcrash
    · exact absurd hfound hissued
    · exact hwait
    · exact absurd hcrash hcontained

theorem Smooth.introduced
    (h : Smooth settings (before ++ .begin thread (.submit request) :: (xs ++ l :: ys)))
    (hx : Issues ((initial settings).run (before ++ .begin thread (.submit request) :: xs)) l
      ((initial settings).run before).submissions) :
    ∃ event news, event.Introduces request ∧
      Conveys ((initial settings).run (before ++ .begin thread (.submit request) :: xs)).table
        ((initial settings).asks before).getLast? (event :: news)
        (((initial settings).run (before ++ .begin thread (.submit request) :: xs)).after
          l).table := by
  rw [← List.cons_append, ← List.append_assoc, List.append_cons] at h
  have hstep := h.left
  obtain ⟨news, ht⟩ := hstep.tells
  rw [run_snoc] at ht
  exact ht.introduces hstep.left.aligned hstep.left.aimed hx.1 hx.2

theorem Smooth.told (h : Smooth settings (before ++ l :: rest)) : ∃ news,
    Conveys ((initial settings).run before).table
      ((initial settings).attachments before).getLast? news
      (((initial settings).run before).after l).table := by
  rw [List.append_cons] at h
  obtain ⟨news, ht⟩ := h.left.tells
  rw [run_snoc] at ht
  exact ⟨news, ht.told h.left.left.aligned⟩

/-- What there is occasion for after the first attachment is all that is ever published. -/
theorem Smooth.since_first (h : Smooth settings (before ++ l :: rest))
    (hn : (initial settings).attachments before = [])
    (hfirst : (((initial settings).run before).attached? l).isSome) :
    ((initial settings).run (before ++ l :: rest)).table.occasions =
      (((initial settings).run before).after l).table.occasions ++
        ((initial settings).run (before ++ l :: rest)).table.published.map (·.2) := by
  obtain ⟨news, hconveys⟩ := h.told
  have hnone : (((initial settings).run before).after l).table.published = [] := by
    rw [hconveys.published, hn, h.left.published_nil hn]
    rfl
  obtain ⟨c, hc⟩ := Option.isSome_iff_exists.mp hfirst
  have hne : (initial settings : State κ).attachments (before ++ [l]) ≠ [] := by
    simp [attachments_snoc, hc]
  rw [List.append_cons] at h ⊢
  obtain ⟨pubs, hpubs, hoccasions⟩ := h.since hne
  rw [run_snoc, hnone, List.nil_append] at hpubs
  rw [hoccasions, hpubs, run_snoc]

end Smooth

/-- How the receivers of a run take over from one another. -/
structure Handover (settings : Settings) (labels : List (Label κ)) : Prop where
  /-- An accepted submission still waits for its worker, or it was issued at some point. -/
  issued : ∀ before thread request rest,
    labels = before ++ .begin thread (.submit request) :: rest → ∀ g,
      (((initial settings).run before).submissions, g) ∈
          ((initial settings).run labels).accepts →
        (((initial settings).run labels).IsWaiting ((initial settings).run before).submissions ∧
          ¬ ((initial settings).run labels).HasEnded g) ∨
        ∃ xs l ys, rest = xs ++ l :: ys ∧
          Issues ((initial settings).run (before ++ .begin thread (.submit request) :: xs)) l
            ((initial settings).run before).submissions
  /-- What is told then begins with its introduction, on the channel of the last call for a monitor
  before the submission, and all of it goes there. -/
  introduced : ∀ before thread request xs l ys,
    labels = before ++ .begin thread (.submit request) :: (xs ++ l :: ys) →
      Issues ((initial settings).run (before ++ .begin thread (.submit request) :: xs)) l
        ((initial settings).run before).submissions →
      ∃ event news, event.Introduces request ∧
        Conveys ((initial settings).run (before ++ .begin thread (.submit request) :: xs)).table
          ((initial settings).asks before).getLast? (event :: news)
          (((initial settings).run
            (before ++ .begin thread (.submit request) :: xs)).after l).table
  /-- Whatever there is occasion for is told on the channel that was attached last, if any was. -/
  told : ∀ before l rest, labels = before ++ l :: rest → ∃ news,
    Conveys ((initial settings).run before).table
      ((initial settings).attachments before).getLast? news
      (((initial settings).run before).after l).table
  /-- The receivers of a channel get to see what was published on it. -/
  stream : ∀ c, (initial settings).stream labels c =
    InFlight.heardOn c ((initial settings).run labels).table.published
  /-- One after the other they get to see all that was published. -/
  streams : ((initial settings).asks labels).flatMap ((initial settings).stream labels) =
    ((initial settings).run labels).table.published.map (·.2)
  /-- Nothing is published before the first attachment. -/
  silent : (initial settings).attachments labels = [] →
    ((initial settings).run labels).table.published = []
  /-- From then on, whatever there is occasion for is. -/
  since : ∀ before l rest, labels = before ++ l :: rest →
    (initial settings).attachments before = [] →
    (((initial settings).run before).attached? l).isSome →
      ((initial settings).run labels).table.occasions =
        (((initial settings).run before).after l).table.occasions ++
          ((initial settings).run labels).table.published.map (·.2)
  /-- Nobody publishes on a channel that was replaced. -/
  replaced : ∀ d, ((initial settings).attachments labels).getLast? = some d →
    ∀ c < d, ¬ ((initial settings).run labels).isAttached c
  /-- Once the worker is gone, only the latest channel is kept. -/
  stopped : ((initial settings).run labels).isWorkerGone →
    ((initial settings).run labels).calls = [] →
    ∀ c, ((initial settings).run labels).isAttached c →
      ((initial settings).asks labels).getLast? = some c

/-- In a run of calls one after the other, over any number of starts and stops, with the worker's
steps anywhere between and within them: if no panic ended a worker and nobody stopped receiving,
each receiver takes over the events from the one before it, none is lost, and none comes twice or in
another order. -/
theorem handover_of_orderly (settings : Settings) (labels : List (Label κ))
    (hp : (initial settings).Possible labels) (ho : (initial settings).Orderly labels)
    (hi : Intact ((initial settings).run labels)) : Handover settings labels := by
  have h : Smooth settings labels := ⟨hp, ho, hi⟩
  exact
    { issued := by
        rintro before thread request rest rfl g ha
        exact h.issued ha
      introduced := by
        rintro before thread request xs l ys rfl hx
        exact h.introduced hx
      told := by
        rintro before l rest rfl
        exact h.told
      stream := stream_eq settings labels
      streams := h.streams
      silent := h.published_nil
      since := by
        rintro before l rest rfl hn hfirst
        exact h.since_first hn hfirst
      replaced := fun d hd c hlt hc => Nat.not_le.mpr hlt (h.aligned.le_of_isAttached hd hc)
      stopped := fun hg hn c hc => h.aligned.eq_of_isAttached h.reachable hi hg hn hc }

/-- An attempt is told of on one channel and its end on the next, which was attached meanwhile. The
third is called for between two workers. -/
theorem handover_across_restart :
    let request : Request Nat := ⟨"127.0.0.1", 80, .ofMillis 0, some 0, some 1⟩
    let pending : Answers := { reply := { connect := some .nowInProgress } }
    let refused : Answers := { reply := { connect := some .connectionRefused } }
    let go (n : Nat) : List (Label Nat) := .replicate n (.proceed (.caller 0) {})
    let labels : List (Label Nat) := [.begin (.caller 0) .start] ++ go 3 ++
      [.begin (.caller 0) .monitor] ++ go 4 ++ [.begin (.caller 0) (.submit request)] ++ go 4 ++
      .replicate 10 (.work pending) ++ [.begin (.caller 0) .monitor] ++ go 4 ++
      .replicate 11 (.work pending) ++ [.leave none, .receive 0, .begin (.caller 0) .stop] ++
      go 3 ++ .replicate 28 (.work pending) ++ go 2 ++ [.begin (.caller 0) .monitor] ++ go 3 ++
      [.begin (.caller 0) .start] ++ go 3 ++ [.begin (.caller 0) (.submit request)] ++ go 4 ++
      .replicate 7 (.work refused)
    let settings : Settings := { eventCapacity := 1, monitor := true }
    let s₀ : State Nat := initial settings
    Handover settings labels ∧ s₀.asks labels = [0, 1, 2] ∧ s₀.attachments labels = [0, 1, 2] ∧
      (s₀.run labels).table.published.map (·.1) = [0, 1, 2, 2] := by
  intro request pending refused go labels settings s₀
  refine ⟨handover_of_orderly settings labels ?_ ?_ ?_, ?_⟩ <;> decide +kernel

/-- A panic that throws again when it is got rid of ends the worker. A submission that was accepted
meanwhile is told of to nobody. -/
theorem submission_untold_in_panic :
    let first : Request Nat := ⟨"127.0.0.1", 80, .ofMillis 0, some 0, some 1⟩
    let second : Request Nat := ⟨"127.0.0.1", 81, .ofMillis 0, some 0, some 1⟩
    let answers : Answers := { reply := { connect := some .nowInProgress } }
    let go (n : Nat) : List (Label Nat) := .replicate n (.proceed (.caller 0) {})
    let labels : List (Label Nat) := [.begin (.caller 0) .start] ++ go 3 ++
      [.begin (.caller 0) .monitor] ++ go 4 ++ [.begin (.caller 0) (.submit first)] ++ go 4 ++
      .replicate 18 (.work answers) ++ [.begin (.caller 0) (.submit second)] ++ go 4 ++
      [.leave (some (.volatile none (.plain none))), .begin (.caller 0) .stop] ++ go 3 ++
      .replicate 3 (.work answers) ++ go 2
    let s₀ : State Nat := initial { eventCapacity := 1, monitor := true }
    let s := s₀.run labels
    s₀.Possible labels ∧ s₀.Orderly labels ∧ s.table.channels.map (·.receivers) = [1] ∧
      (1, 0) ∈ s.accepts ∧ s.HasEnded 0 ∧
      ∀ event ∈ s.table.published.map (·.2), ¬ event.Introduces second := by
  intro first second answers go labels s₀ s
  have hj : s.joins = [(0, true)] := by decide +kernel
  refine ⟨by decide +kernel, by decide +kernel, by decide +kernel, by decide +kernel,
    .inl ⟨true, ?_⟩, by decide +kernel⟩
  rw [hj]
  exact List.mem_cons_self

end State

end Dialer.Service
