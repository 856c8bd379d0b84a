import Dialer.Proofs.Service.Ledger

/-!
# Every accepted submission resolves

The laws of the service hold in every state, whatever the threads do and in whichever order. From
them it follows what a submission comes to: refused ones are never called back, accepted ones at
most once, and by the time their worker is gone exactly once, unless a panic that nothing contained
ended the worker before it took them from its queue.
-/

namespace Dialer.Service.State

open InFlight.State (emptied_shut lawful_initial)

variable {κ : Type} {s t : State κ} {n g : Nat}

/-- The laws of the service. -/
structure Ruled (s : State κ) : Prop where
  guarded : Guarded s
  manned : Manned s
  booked : Booked s
  delivered : Delivered s

theorem fallow_initial : Duty.Fallow ((InFlight.State.initial 1 false).shut : Table κ) where
  lawful := (emptied_shut _).lawful (lawful_initial 1 false) rfl
  tallied := ⟨rfl, fun _ => Nat.zero_le _⟩
  founded := ⟨fun _ hm => absurd hm List.not_mem_nil, fun _ hm => absurd hm List.not_mem_nil,
    fun _ hm => absurd hm List.not_mem_nil, List.nodup_nil⟩
  complete := fun k hk => absurd hk (Nat.not_lt_zero k)
  frames := rfl
  closed := (emptied_shut _).isClosed (lawful_initial 1 false)

theorem ruled_initial (settings : Settings) : Ruled (initial settings : State κ) where
  guarded :=
    { alone := fun hp => by simp [initial, point?] at hp
      foreign := fun hp => by simp [initial, point?] at hp
      barred := fun hp => by simp [initial, point?] at hp
      fresh := fun _ => rfl
      running := fun hc => by simp [initial] at hc
      stopped := fun hc => by simp [initial] at hc
      sending := fun hp => by simp [initial, point?] at hp
      joining := fun hp => by simp [initial, point?] at hp
      halt := fun hm => absurd hm List.not_mem_nil }
  manned :=
    { sound := fun w hw => by simp [initial] at hw
      fallow := fun _ => fallow_initial
      generation := fun w hw => by simp [initial] at hw }
  booked :=
    { carried := fun hx => by simp [initial, carried?, point?] at hx
      apart := fun hx => by simp [initial, carried?, point?] at hx
      nodup := List.nodup_nil
      settled_lt := fun _ hm => absurd hm List.not_mem_nil
      known := fun n hn => absurd hn (Nat.not_lt_zero n) }
  delivered :=
    { received := fun _ hm => absurd hm List.not_mem_nil
      apart := List.nodup_nil
      waiting := fun _ hm => absurd hm List.not_mem_nil
      pending := fun _ hm => absurd hm List.not_mem_nil
      manned := fun _ _ hm => absurd hm List.not_mem_nil
      found := fun _ _ hm => absurd hm List.not_mem_nil
      called := fun _ _ hm => absurd hm List.not_mem_nil
      joined := fun _ _ hm => absurd hm List.not_mem_nil }

theorem Ruled.passes (h : Ruled s) (hp : Passes s t) : Ruled t where
  guarded := h.guarded.passes hp h.manned.sound
  manned := by
    refine h.manned.passes h.guarded (fun thread n request hp' => ?_) hp
    have hc : s.carried? thread = some (n, request) := by rw [carried?, hp']; rfl
    obtain ⟨c, hc, -⟩ := (h.booked.carried hc).1.continuations
    simp [hc]
  booked := h.booked.passes hp
  delivered := h.delivered.passes h.guarded h.manned h.booked hp

theorem Reachable.ruled (hs : Reachable s) : Ruled s := by
  induction hs with
  | initial settings => exact ruled_initial settings
  | step _ hl ih => exact ih.passes (passes_after ih.manned.sound hl)

theorem Reachable.generations_le (hs : Reachable s) {labels : List (Label κ)}
    (hp : s.Possible labels) :
    s.generations ≤ (s.run labels).generations := by
  induction labels generalizing s with
  | nil => exact Nat.le_refl _
  | cons l rest ih =>
    exact Nat.le_trans (passes_after hs.ruled.manned.sound hp.1).generations_le
      (ih (hs.step hp.1) hp.2)

/-! ### Calls -/

theorem Manned.kept (h : Manned s) :
    InFlight.State.Tallied s.table ∧ InFlight.State.Founded s.table := by
  cases hw : s.worker with
  | none => exact ⟨(h.fallow hw).tallied, (h.fallow hw).founded⟩
  | some w => exact ⟨(h.sound w hw).kept.tallied, (h.sound w hw).kept.founded⟩

theorem Ruled.issue_of_call (h : Ruled s) {call : InFlight.Call (Tagged κ)}
    (hc : call ∈ s.table.calls) : ∃ request, (call.ticket, request) ∈ s.table.issues ∧
      IsFor request call.continuation.submission := by
  obtain ⟨request, c, hi, hcs, hsel, -⟩ := h.manned.kept.2.call call hc
  obtain ⟨m, -, -, hf⟩ :=
    h.delivered.received request (List.mem_append_right _ (List.mem_map_of_mem hi))
  obtain ⟨c', hcs', hsub⟩ := hf.continuations
  obtain rfl := Option.some.inj (hcs.symm.trans hcs')
  refine ⟨request, hi, ?_⟩
  rw [hsel, hsub]
  exact hf

theorem Delivered.ticket_unique (h : Delivered s) {k k' : Nat} {r r' : Request (Tagged κ)}
    (hi : (k, r) ∈ s.table.issues) (hi' : (k', r') ∈ s.table.issues) (hr : IsFor r n)
    (hr' : IsFor r' n) : k = k' := by
  have hn : (s.table.issues.map fun i => submission? i.2).Nodup := by
    have hsub := (List.sublist_append_right s.waiting (s.table.issues.map (·.2))).map submission?
    simpa only [List.map_map, Function.comp_def] using h.apart.sublist hsub
  have he : submission? r = submission? r' := by rw [hr.submission?, hr'.submission?]
  exact (Prod.mk.inj (List.inj_on_of_nodup_map hn hi hi' he)).1

theorem mem_callsOf {call : InFlight.Call (Tagged κ)} :
    call ∈ s.callsOf n ↔ call ∈ s.table.calls ∧ call.continuation.submission = n := by
  simp [callsOf]

/-- Neither side of a request is called after the other, and none twice. -/
theorem Ruled.callsOf_le (h : Ruled s) (n : Nat) : (s.callsOf n).length ≤ 1 := by
  cases hcalls : s.callsOf n with
  | nil => exact Nat.zero_le 1
  | cons call rest =>
    have hm : call ∈ s.callsOf n := hcalls ▸ List.mem_cons_self
    rw [mem_callsOf] at hm
    obtain ⟨r, hi, hf⟩ := h.issue_of_call hm.1
    -- All of them are calls for one ticket.
    have hticket : ∀ c ∈ s.table.calls, decide (c.continuation.submission = n) →
        decide (c.ticket = call.ticket) := by
      intro c hc hn
      obtain ⟨r', hi', hf'⟩ := h.issue_of_call hc
      rw [of_decide_eq_true hn] at hf'
      exact decide_eq_true (h.delivered.ticket_unique hi' hi hf' (hm.2 ▸ hf))
    have honce := h.manned.kept.1.once call.ticket
    have hcount : (s.callsOf n).length ≤ (s.table.calls.map (·.ticket)).count call.ticket := by
      rw [callsOf, ← InFlight.State.length_filter_eq_count, ← List.countP_eq_length_filter,
        ← List.countP_eq_length_filter]
      exact List.countP_mono_left hticket
    rw [InFlight.State.tally] at honce
    rw [← hcalls]
    split at honce <;> omega

theorem Ruled.isIssued_of_called (h : Ruled s) (hc : s.callsOf n ≠ []) : s.IsIssued n := by
  obtain ⟨call, hm⟩ := List.exists_mem_of_ne_nil _ hc
  rw [mem_callsOf] at hm
  obtain ⟨r, hi, hf⟩ := h.issue_of_call hm.1
  exact ⟨r, List.mem_map_of_mem hi, hm.2 ▸ hf⟩

theorem Ruled.not_called_of_refused (h : Ruled s) (hn : n ∈ s.refusals) : s.callsOf n = [] := by
  by_contra hc
  obtain ⟨r, hr, hf⟩ := h.isIssued_of_called hc
  obtain ⟨m, g, ha, hf'⟩ := h.delivered.received r (List.mem_append_right _ hr)
  obtain rfl := hf.unique hf'
  exact (List.nodup_append.mp h.booked.nodup).2.2 n hn n (List.mem_map.mpr ⟨_, ha, rfl⟩) rfl

/-! ### The end of a worker -/

/-- A stop that waited for the worker of that generation found it gone, or it is gone now. -/
def HasEnded (s : State κ) (g : Nat) : Prop :=
  (∃ panicked, (g, panicked) ∈ s.joins) ∨
    ∃ w, s.worker = some w ∧ w.generation = g ∧ w.stage = .gone

/-- Of the latest worker it is the same to be gone and to have ended. -/
theorem Ruled.gone_of_ended (h : Ruled s) (he : s.HasEnded s.generation) :
    ∃ w, s.worker = some w ∧ w.stage = .gone := by
  rcases he with ⟨panicked, hj⟩ | ⟨w, hw, -, hg⟩
  · rcases h.delivered.joined _ panicked hj with hlt | ⟨w, hw, -, hg⟩
    · exact absurd hlt (Nat.lt_irrefl _)
    · exact ⟨w, hw, hg⟩
  · exact ⟨w, hw, hg⟩

theorem Ruled.isIssued_of_ended (h : Ruled s) (ha : (n, g) ∈ s.accepts) (he : s.HasEnded g)
    (hc : ¬ s.Crashed g) : s.IsIssued n := by
  rcases h.delivered.found n g ha with hi | ⟨rfl, r, hr, -⟩ | hcrash
  · exact hi
  · obtain ⟨w, hw, hg⟩ := h.gone_of_ended he
    have hp : w.panicked = false := Bool.eq_false_iff.mpr fun hp =>
      hc (.inr ⟨w, hw, (generation_eq hw).symm, hp⟩)
    rw [h.manned.not_waiting_of_gone hw hg hp] at hr
    exact absurd hr List.not_mem_nil
  · exact absurd hcrash hc

theorem Ruled.called_iff_issued (h : Ruled s) (ha : (n, g) ∈ s.accepts) (he : s.HasEnded g) :
    (s.callsOf n).length = 1 ↔ s.IsIssued n := by
  constructor
  · intro hone
    exact h.isIssued_of_called fun hn => by simp [hn] at hone
  · intro hi
    have hcalled : s.callsOf n ≠ [] := by
      rcases Nat.lt_or_eq_of_le (h.delivered.manned n g ha).2 with hlt | rfl
      · exact h.delivered.called n g ha hlt hi
      · obtain ⟨w, hw, hg⟩ := h.gone_of_ended he
        exact hi.called ((h.manned.sound w hw).fallow hg)
    exact Nat.le_antisymm (h.callsOf_le n) (List.length_pos_iff.mpr hcalled)

theorem Ruled.not_isForeign_of_ended (h : Ruled s) (he : s.HasEnded s.generation) :
    ¬ s.isForeign := by
  obtain ⟨w, hw, hg⟩ := h.gone_of_ended he
  exact not_isForeign_of_gone hw hg (h.manned.sound w hw)

/-! ### Who calls back -/

theorem Passes.calls (hp : Passes s t) : t.table.calls = s.table.calls ∨ Worked s t := by
  cases hp with
  | call _ hs => exact .inl hs.quiet.calls
  | launched hl => exact .inl (by rw [hl.table]; rfl)
  | halted hh => exact .inl (by rw [hh.table])
  | accepted _ _ hpost => exact .inl hpost.quiet.calls
  | posted _ _ hpost => exact .inl hpost.quiet.calls
  | signalled _ _ hpost => exact .inl hpost.quiet.calls
  | lowered _ _ hl => exact .inl (by rw [hl.table])
  | joined hj => exact .inl (by rw [hj.table]; rfl)
  | abandoned ha => exact .inl ha.quiet.calls
  | worked hw => exact .inr hw
  | outside _ _ hs => exact .inl hs.quiet.calls

theorem Ruled.accepted_of_call (h : Ruled s) (ht : Ruled t) (hp : Passes s t)
    (hlt : (s.callsOf n).length < (t.callsOf n).length) :
    (n, s.generation) ∈ s.accepts ∧ ¬ s.HasEnded s.generation := by
  have hne : t.table.calls ≠ s.table.calls := fun he => by
    rw [callsOf, callsOf, he] at hlt
    exact Nat.lt_irrefl _ hlt
  obtain ⟨w, d, a, ha⟩ := (hp.calls.resolve_left hne).advanced
  have hs := h.manned.sound w ha.old
  rcases ha.effect.calls_cases with he | ⟨call, he, hcall⟩
  · exact absurd (ha.calls.trans he) hne
  have hcalls : t.table.calls = call :: s.table.calls := ha.calls.trans he
  have hn : call.continuation.submission = n := by
    by_contra hn
    rw [callsOf, callsOf, hcalls, List.filter_cons_of_neg (by simpa using hn)] at hlt
    exact Nat.lt_irrefl _ hlt
  subst hn
  obtain ⟨r, hi, hf⟩ := ht.issue_of_call (hcalls ▸ List.mem_cons_self)
  rw [ha.issues] at hi
  refine ⟨?_, fun hend => ?_⟩
  · rcases ha.effect.mem_issues hi with hi | ⟨-, hr⟩
    · rcases hcall with hk | ⟨p, hp, hk⟩
      · exact absurd (hs.kept.tallied.ticket_lt hi) (by rw [hk]; exact Nat.lt_irrefl _)
      · exact h.delivered.pending p hp r _ (hk ▸ hi) hf
    · exact h.delivered.waiting r (ha.issued r hr) _ hf
  · obtain ⟨w', hw', hg⟩ := h.gone_of_ended hend
    obtain rfl := Option.some.inj (ha.old.symm.trans hw')
    exact hne (by rw [ha.calls, ha.gone hg])

/-- Whatever the threads do, and over any number of starts and stops: each submission whose call is
over was accepted for one worker or refused, not both. None is called back twice, and a refused one
never is. Once the worker that a submission was accepted for has ended, the submission was called
back once if it was issued, and it was issued unless a panic that nothing contained ended the
worker. Only that worker ever calls it back, and none that has ended. -/
theorem Reachable.submissions_resolve (hs : Reachable s) :
    (∀ n < s.submissions, n ∈ s.refusals ∨ (∃ g, (n, g) ∈ s.accepts) ∨
      ∃ thread request, s.carried? thread = some (n, request)) ∧
    (s.refusals ++ s.accepts.map (·.1)).Nodup ∧
    (∀ n, (s.callsOf n).length ≤ 1) ∧
    (∀ n ∈ s.refusals, s.callsOf n = []) ∧
    (∀ n g, (n, g) ∈ s.accepts → s.HasEnded g →
      ((s.callsOf n).length = 1 ↔ s.IsIssued n) ∧
      (¬ s.Crashed g → (s.callsOf n).length = 1)) ∧
    (s.HasEnded s.generation → ¬ s.isForeign) ∧
    ∀ l, s.Enabled l → ∀ n, (s.callsOf n).length < ((s.after l).callsOf n).length →
      (n, s.generation) ∈ s.accepts ∧ ¬ s.HasEnded s.generation := by
  have h := hs.ruled
  refine ⟨fun n hn => ?_, h.booked.nodup, h.callsOf_le, fun n => h.not_called_of_refused,
    fun n g ha he => ?_, h.not_isForeign_of_ended, fun l hl n hlt => ?_⟩
  · rcases h.booked.known n hn with hm | hc
    · rcases List.mem_append.mp hm with hm | hm
      · exact .inl hm
      · obtain ⟨⟨_, g⟩, ha, rfl⟩ := List.mem_map.mp hm
        exact .inr (.inl ⟨g, ha⟩)
    · exact .inr (.inr hc)
  · have hiff := h.called_iff_issued ha he
    exact ⟨hiff, fun hc => hiff.mpr (h.isIssued_of_ended ha he hc)⟩
  · exact h.accepted_of_call (hs.step hl).ruled (passes_after h.manned.sound hl) hlt

/-- A submission that the system refuses at once, and a stop that waits for the worker. -/
theorem submissions_resolve_after_stop :
    let request : Request Nat := ⟨"127.0.0.1", 80, .ofMillis 0, some 0, some 1⟩
    let answers : Answers := { reply := { connect := some .connectionRefused } }
    let proceed (n : Nat) : List (Label Nat) := .replicate n (.proceed (.caller 0) {})
    let labels : List (Label Nat) := [.begin (.caller 0) .start] ++ proceed 3 ++
      [.begin (.caller 0) (.submit request)] ++ proceed 4 ++ .replicate 7 (.work answers) ++
      [.leave none, .begin (.caller 0) .stop] ++ proceed 3 ++ .replicate 24 (.work answers) ++
      proceed 2
    let s := (initial { eventCapacity := 1 }).run labels
    s.HasEnded 0 ∧ (s.callsOf 0).length = 1 := by
  intro request answers proceed labels s
  have hp : (initial { eventCapacity := 1 }).Possible labels := by decide
  have hs : Reachable s := (Reachable.initial _).run hp
  have ha : (0, 0) ∈ s.accepts := by decide
  have hj : s.joins = [(0, false)] := by decide
  have hw : s.worker.map (·.panicked) = some false := by decide
  have he : s.HasEnded 0 := .inl ⟨false, by rw [hj]; exact List.mem_cons_self⟩
  refine ⟨he, (hs.submissions_resolve.2.2.2.2.1 0 0 ha he).2 ?_⟩
  rintro (hc | ⟨w, hw', -, hp⟩)
  · simp [hj] at hc
  · simp [hw', hp] at hw

/-- A panic that throws again when it is got rid of ends the worker, here in the call for an attempt
that took too long. A submission that was accepted meanwhile is never called back. -/
theorem submission_lost_in_panic :
    let request : Request Nat := ⟨"127.0.0.1", 80, .ofMillis 0, some 0, some 1⟩
    let answers : Answers := { reply := { connect := some .nowInProgress } }
    let proceed (n : Nat) : List (Label Nat) := .replicate n (.proceed (.caller 0) {})
    let labels : List (Label Nat) := [.begin (.caller 0) .start] ++ proceed 3 ++
      [.begin (.caller 0) (.submit request)] ++ proceed 4 ++ .replicate 15 (.work answers) ++
      [.begin (.caller 0) (.submit request)] ++ proceed 4 ++
      [.leave (some (.volatile none (.plain none))), .begin (.caller 0) .stop] ++ proceed 3 ++
      .replicate 3 (.work answers) ++ proceed 2
    let s := (initial { eventCapacity := 1 }).run labels
    Reachable s ∧ (1, 0) ∈ s.accepts ∧ s.HasEnded 0 ∧ (s.callsOf 1).length = 0 := by
  intro request answers proceed labels s
  have hp : (initial { eventCapacity := 1 }).Possible labels := by decide
  have hj : s.joins = [(0, true)] := by decide
  refine ⟨(Reachable.initial _).run hp, by decide, .inl ⟨true, ?_⟩, by decide⟩
  rw [hj]
  exact List.mem_cons_self

end Dialer.Service.State
