import Dialer.Proofs.InFlight.Frames

/-!
# The laws of the table

A table that is reached from an empty one keeps two laws: its attempts are registered as they should
be, and its frames are a stack in which the batch of a giving up names every attempt there is. Each
action keeps both and has one of five effects; the laws of calls are read off the effect alone.
-/

namespace Dialer.InFlight

open Readiness (Token Watch wakeToken)
open Time (Instant)

variable {κ τ : Type}

/-- The request that an action issues, if it issues one: those that are not complete are dropped. -/
def Action.request? : Action κ τ → Option (Request κ)
  | .attempt request _ _ => request.continuations?.map fun _ => request
  | _ => none

/-- Whether an action is one of those who leave tasks or listen, or of the system: whoever they are,
they can act at any time. -/
def Action.isOutside : Action κ τ → Bool
  | .enqueue _ => true
  | .becomeReady _ => true
  | .openChannel => true
  | .addReceiver _ => true
  | .dropReceiver _ => true
  | .receive _ => true
  | _ => false

namespace State

variable {s t : State κ τ}

/-- The batch in progress names every attempt there is. -/
def Covered (s : State κ τ) : Prop := ∀ token ∈ s.tokens, token ∈ (batchOf s.frames).map (·.1)

/-- How the frames of a table fit its attempts. -/
structure Ordered (s : State κ τ) : Prop where
  stacked : Stacked s.frames
  closing : .closing ∈ s.frames → Covered s
  closed : s.isClosed → s.entries = [] ∧ ∀ f ∈ s.frames, f = .closing
  receivers : s.watch.tasks.receivers ≤ 1

/-- The laws of a table. -/
structure Lawful (s : State κ τ) : Prop where
  registered : Registered s
  ordered : Ordered s

/-- What an action does to the attempts. A table gives something up only at the end, when nothing
is left, or when a panic that throws again breaks the giving up off. -/
inductive Effect (s : State κ τ) (a : Action κ τ) (t : State κ τ) : Prop
  | quiet (hn : a.request? = none) (h : Quiet s t)
  | answered {request : Request κ} {reply : Reply} {now : Instant} {call : Call κ}
      (ha : a = .attempt request reply now) (h : Answered s request reply call t)
  | begun {request : Request κ} {reply : Reply} {now : Instant} {token : Token} {e : Entry κ}
      (ha : a = .attempt request reply now) (h : Begun s request token e t)
  | concluded {release : Release} {token : Token} {cause : Cause}
      {batch : List (Token × Cause)} {rest : List (Frame κ τ)} {e : Entry κ} {call : Call κ}
      (ha : a = .advance release) (hf : s.frames = .settling ((token, cause) :: batch) :: rest)
      (h : Concluded { s with frames := .settling batch :: rest } token e cause call t)
  | emptied (hn : a.request? = none) (h : Emptied s t) (hc : .closing ∈ s.frames)
      (ht : t.frames = [])
      (hwhy : s.tokens = [] ∨ ∃ text next, a = .leave (some (.volatile text next)))

theorem isClosed_iff : s.isClosed ↔ s.watch.tasks.receivers = 0 := by
  simp [isClosed]

theorem Quiet.isClosed (h : Quiet s t) : t.isClosed = s.isClosed := by
  simp only [State.isClosed, h.receivers]

theorem Quiet.tokens (h : Quiet s t) : t.tokens = s.tokens := by
  simp only [State.tokens, h.entries]

theorem Quiet.covered (h : Quiet s t) (hc : Covered s) (hb : batchOf t.frames = batchOf s.frames) :
    Covered t := by
  rw [Covered, h.tokens, hb]
  exact hc

theorem Covered.tokens_eq_nil (h : Covered s) (hb : batchOf s.frames = []) : s.tokens = [] := by
  rw [Covered, hb] at h
  exact List.eq_nil_iff_forall_not_mem.mpr fun k hk => absurd (h k hk) List.not_mem_nil

theorem covered_of_tokens (h : s.tokens = []) : Covered s := by
  rw [Covered, h]
  exact fun _ hk => absurd hk List.not_mem_nil

/-- Only the frames matter when nothing happens to the attempts. -/
theorem Lawful.quiet (h : Lawful s) (hq : Quiet s t) (hst : Stacked t.frames)
    (hcl : .closing ∈ t.frames → Covered t)
    (hcd : s.isClosed → ∀ f ∈ t.frames, f = .closing) : Lawful t where
  registered := hq.registered_of h.registered
  ordered :=
    { stacked := hst
      closing := hcl
      closed := by
        rw [hq.isClosed, hq.entries]
        exact fun hc => ⟨(h.ordered.closed hc).1, hcd hc⟩
      receivers := by rw [hq.receivers]; exact h.ordered.receivers }

theorem Lawful.still (h : Lawful s) (hq : Quiet s t) (hf : t.frames = s.frames) : Lawful t :=
  h.quiet hq (hf ▸ h.ordered.stacked)
    (fun hm => hq.covered (h.ordered.closing (hf ▸ hm)) (by rw [hf]))
    fun hc => hf ▸ (h.ordered.closed hc).2

/-- A table that is not given up holds nothing that belongs to the giving up of another one. -/
theorem Lawful.open_of_tokens (h : Lawful s) {e : Token × Entry κ} (he : e ∈ s.entries) :
    ¬ s.isClosed := fun hc => by
  rw [(h.ordered.closed hc).1] at he
  exact absurd he List.not_mem_nil

section Operations

theorem Lawful.push_settling (h : Lawful s) (hrests : Rests s.frames) (hopen : ¬ s.isClosed)
    (batch : List (Token × Cause)) : Lawful (s.push (.settling batch)) := by
  refine h.quiet (.push s _) (.settling batch (.inl hrests)) (fun hc => ?_)
    (fun hc => absurd hc hopen)
  have hm : .closing ∈ s.frames := by simpa using hc
  exact absurd hm hrests.closing_not_mem

theorem Quiet.foldl_note (xs : List Token) (s : State κ τ) :
    Quiet s (xs.foldl (fun s token => s.note (.spurious token)) s) ∧
      (xs.foldl (fun s token => s.note (.spurious token)) s).frames = s.frames := by
  induction xs generalizing s with
  | nil => exact ⟨.refl s, rfl⟩
  | cons x xs ih =>
    obtain ⟨hq, hf⟩ := ih (s.note (.spurious x))
    exact ⟨(Quiet.note s rfl rfl rfl).trans hq, hf⟩

theorem Lawful.attempt (h : Lawful s) (hrests : Rests s.frames) (hopen : ¬ s.isClosed)
    (hroom : s.hasRoom) (request : Request κ) (reply : Reply) (now : Instant) :
    Lawful (s.attempt request reply now).2 ∧
      Effect s (.attempt request reply now) (s.attempt request reply now).2 := by
  cases hc : request.continuations? with
  | none =>
    rw [attempt_incomplete hc]
    have hq : Quiet s (s.note .ignored) := .note s rfl rfl rfl
    exact ⟨h.still hq rfl, .quiet (by simp [Action.request?, hc]) hq⟩
  | some c =>
    obtain ⟨hr, ⟨-, call, ha⟩ | ⟨token, e, -, hb⟩⟩ :=
      h.registered.attempt_complete hroom hc reply now
    · refine ⟨⟨hr, ?_, ?_, ?_, ?_⟩, .answered rfl ha⟩
      · exact ha.frames ▸ .calling call hrests
      · rw [ha.frames]
        intro hm
        exact absurd (by simpa using hm) hrests.closing_not_mem
      · rw [isClosed_iff, ha.tasks, ← isClosed_iff]
        exact fun hc => absurd hc hopen
      · exact ha.tasks ▸ h.ordered.receivers
    · refine ⟨⟨hr, ?_, ?_, ?_, ?_⟩, .begun rfl hb⟩
      · exact hb.frames ▸ .rests hrests
      · rw [hb.frames]
        intro hm
        exact absurd hm hrests.closing_not_mem
      · rw [isClosed_iff, hb.tasks, ← isClosed_iff]
        exact fun hc => absurd hc hopen
      · exact hb.tasks ▸ h.ordered.receivers

theorem Lawful.poll (h : Lawful s) (hrests : Rests s.frames) (hopen : ¬ s.isClosed)
    (report : Except Fault (List (Token × Verdict))) :
    Lawful (s.poll report).2 ∧ Quiet s (s.poll report).2 := by
  cases report with
  | ok report =>
    obtain ⟨hq, hf⟩ := Quiet.foldl_note (s.spurious report) s
    have hl := h.still hq hf
    exact ⟨hl.push_settling (hf ▸ hrests) (hq.isClosed ▸ hopen) _, hq.trans (.push _ _)⟩
  | error fault =>
    by_cases hk : fault.kind = .interrupted
    · simp only [State.poll, hk, ↓reduceIte]
      exact ⟨h, .refl s⟩
    · simp only [State.poll, hk, ↓reduceIte]
      have hq : Quiet s (s.note (.waitFailed fault)) := .note s rfl rfl rfl
      exact ⟨h.still hq rfl, hq⟩

theorem Quiet.aborting (s : State κ τ) (count : Nat) (b : Bool) :
    Quiet s (if b then s else s.note (.aborting count)) := by
  cases b
  · exact .note s rfl rfl rfl
  · exact .refl s

theorem quiet_abort (s : State κ τ) (order : List Token) : Quiet s (s.abort order).2 :=
  (Quiet.aborting s _ _).trans (.push _ _)

theorem abort_frames (s : State κ τ) (order : List Token) :
    (s.abort order).2.frames =
      .settling (arrange order (s.tokens.map (·, Cause.aborted))) :: s.frames := by
  simp only [abort, push_frames]
  split <;> simp

theorem Lawful.abort (h : Lawful s) (hrests : Rests s.frames) (hopen : ¬ s.isClosed)
    (order : List Token) : Lawful (s.abort order).2 := by
  refine h.quiet (quiet_abort s order) ?_ (fun hc => ?_) (fun hc => absurd hc hopen)
  · exact abort_frames s order ▸ .settling _ (.inl hrests)
  · rw [abort_frames] at hc
    exact absurd (by simpa using hc) hrests.closing_not_mem

theorem Lawful.drain (h : Lawful s) (hrests : Rests s.frames) (hopen : ¬ s.isClosed) :
    Lawful s.drain := by
  refine h.quiet (.push s _) (.draining 0 hrests) (fun hc => ?_) (fun hc => absurd hc hopen)
  exact absurd (by simpa [State.drain] using hc) hrests.closing_not_mem

theorem quiet_close (s : State κ τ) (order : List Token) : Quiet s (s.close order) := by
  simp only [State.close]
  split
  · exact .push s _
  · exact (Quiet.push s _).trans (quiet_abort _ order)

/-- Giving up aborts every attempt first, so that the batch names all of them. -/
theorem Lawful.close (h : Lawful s) (hf : s.frames = []) (order : List Token) :
    Lawful (s.close order) := by
  cases he : s.entries with
  | nil =>
    have heq : (s.close order).frames = [.closing] := by simp [State.close, he, hf]
    refine h.quiet (quiet_close s order) (heq ▸ .closing) (fun _ => covered_of_tokens ?_)
      (fun _ => ?_)
    · rw [(quiet_close s order).tokens, tokens, he]
      rfl
    · simp [heq]
  | cons e rest =>
    have hopen : ¬ s.isClosed := h.open_of_tokens (e := e) (by simp [he])
    have heq : (s.close order).frames =
        [.settling (arrange order (s.tokens.map (·, Cause.aborted))), .closing] := by
      have hne : ¬ (s.push .closing).entries.isEmpty := by simp [he]
      simp only [State.close, hne]
      exact (abort_frames _ order).trans (by simp [hf, tokens])
    refine h.quiet (quiet_close s order) (heq ▸ .settling _ (.inr rfl)) (fun _ => ?_)
      (fun hc => absurd hc hopen)
    rw [Covered, (quiet_close s order).tokens, heq]
    simp [batchOf]

theorem quiet_takeTask (s : State κ τ) :
    Quiet s s.takeTask.2 ∧ s.takeTask.2.frames = s.frames := by
  unfold takeTask
  cases hn : s.watch.nextTask? with
  | none => exact ⟨.refl s, rfl⟩
  | some r =>
    obtain ⟨task, watch⟩ := r
    obtain ⟨⟨_, tasks⟩, htake, heq⟩ := Option.map_eq_some_iff.mp hn
    obtain ⟨rfl, rfl⟩ := Prod.mk.inj heq
    have hr : tasks.receivers = s.watch.tasks.receivers := by
      unfold Channel.take? at htake
      split at htake
      · simp at htake
      · simp only [Option.some.injEq, Prod.mk.injEq] at htake
        rw [← htake.2]
    refine ⟨Quiet.trans ?_ (.note _ rfl rfl rfl), rfl⟩
    exact .withWatch s rfl rfl hr

/-- One more attempt of a batch. If it is gone already, nothing happens. -/
theorem Lawful.advance_settling_cases (h : Lawful s) {token : Token} {cause : Cause}
    {batch : List (Token × Cause)} {rest : List (Frame κ τ)}
    (hf : s.frames = .settling ((token, cause) :: batch) :: rest) (release : Release) :
    (s.entry? token = none ∧ s.advance release = { s with frames := .settling batch :: rest }) ∨
      ∃ e call, Registered (s.advance release) ∧
        Concluded { s with frames := .settling batch :: rest } token e cause call
          (s.advance release) := by
  have hadv : s.advance release =
      { s with frames := .settling batch :: rest }.resolve token cause release := by
    simp only [State.advance, hf]
  rw [hadv]
  cases he : s.entry? token with
  | none =>
    exact .inl ⟨rfl, resolve_missing (s := { s with frames := .settling batch :: rest }) he _ _⟩
  | some e =>
    have hr := (Quiet.withFrames s (.settling batch :: rest)).registered_of h.registered
    obtain ⟨hreg, call, hcon⟩ := hr.resolve he cause release
    exact .inr ⟨e, call, hreg, hcon⟩

/-- What is resolved is gone, so that the rest of the batch names every attempt that is left. -/
theorem Lawful.covered_advance (h : Lawful s) {batch : List (Token × Cause)}
    {rest : List (Frame κ τ)} (hf : s.frames = .settling batch :: rest) (hc : Covered s)
    (release : Release) : Covered (s.advance release) := by
  cases batch with
  | nil =>
    have hadv : s.advance release = { s with frames := rest } := by
      simp only [State.advance, hf]
    rw [hadv]
    exact covered_of_tokens (hc.tokens_eq_nil (by rw [hf]; rfl))
  | cons item batch =>
    obtain ⟨token, cause⟩ := item
    have hmem : ∀ k ∈ s.tokens, k = token ∨ k ∈ batch.map (·.1) := by
      intro k hk
      have := hc k hk
      rwa [hf, batchOf, List.map_cons, List.mem_cons] at this
    rcases h.advance_settling_cases hf release with ⟨he, heq⟩ | ⟨e, call, -, hcon⟩
    · rw [heq]
      refine fun k hk => (hmem k hk).resolve_left ?_
      rintro rfl
      have : s.isPending k := isPending_iff_mem_tokens.mpr hk
      simp [isPending, he] at this
    · rw [Covered, hcon.frames]
      intro k hk
      have hk' : k ∈ s.tokens ∧ k ≠ token := by
        simp only [tokens, hcon.entries, List.mem_map, List.mem_filter] at hk
        obtain ⟨f, ⟨hf, hne⟩, rfl⟩ := hk
        exact ⟨List.mem_map_of_mem hf, by simpa using hne⟩
      exact (hmem k hk'.1).resolve_left hk'.2

theorem Lawful.advance_settling (h : Lawful s) {token : Token} {cause : Cause}
    {batch : List (Token × Cause)} {rest : List (Frame κ τ)}
    (hf : s.frames = .settling ((token, cause) :: batch) :: rest) (release : Release) :
    Lawful (s.advance release) ∧ Effect s (.advance release) (s.advance release) := by
  have hcarries : Carries rest := by
    have := h.ordered.stacked
    rw [hf] at this
    cases this with
    | rests h => cases h
    | settling _ h => exact h
  have hcovered : .closing ∈ rest → Covered (s.advance release) := fun hm =>
    h.covered_advance hf (h.ordered.closing (by rw [hf]; exact List.mem_cons_of_mem _ hm)) _
  rcases h.advance_settling_cases hf release with ⟨he, heq⟩ | ⟨e, call, hreg, hcon⟩
  · have hq : Quiet s { s with frames := .settling batch :: rest } := .withFrames s _
    rw [heq] at hcovered ⊢
    refine ⟨h.quiet hq (.settling batch hcarries) (fun hm => hcovered (by simpa using hm))
      (fun hc => ?_), .quiet rfl hq⟩
    have := (h.ordered.closed hc).2
    rw [hf] at this
    exact absurd (this _ List.mem_cons_self) (by simp)
  · refine ⟨⟨hreg, ?_, ?_, ?_, ?_⟩, .concluded rfl hf hcon⟩
    · exact hcon.frames ▸ .answering call batch hcarries
    · exact fun hm => hcovered (by simpa [hcon.frames] using hm)
    · rw [isClosed_iff, hcon.tasks]
      exact fun hc =>
        absurd (isClosed_iff.mpr hc) (h.open_of_tokens (mem_entries_of_lookup hcon.entry))
    · exact hcon.tasks ▸ h.ordered.receivers

theorem Lawful.advance_draining (h : Lawful s) {taken : Nat} {rest : List (Frame κ τ)}
    (hf : s.frames = .draining taken :: rest) (release : Release) :
    Quiet s (s.advance release) ∧ Rests (s.advance release).frames := by
  obtain ⟨hq, -⟩ := quiet_takeTask s
  have hrests : Rests rest := by
    have := h.ordered.stacked
    rw [hf] at this
    cases this with
    | rests h => cases h
    | draining _ h => exact h
  cases ht : s.takeTask.1 with
  | none =>
    have heq : s.advance release =
        { s.takeTask.2 with frames := rest }.note (.drained taken) := by
      have : s.takeTask = (none, s.takeTask.2) := Prod.ext ht rfl
      simp only [State.advance, hf]
      rw [this]
    rw [heq]
    exact ⟨hq.trans ((Quiet.withFrames _ rest).trans (.note _ rfl rfl rfl)), hrests⟩
  | some task =>
    have heq : s.advance release = { s.takeTask.2 with
        frames := .task task :: .draining (taken + 1) :: rest }.note (.started task) := by
      have : s.takeTask = (some task, s.takeTask.2) := Prod.ext ht rfl
      simp only [State.advance, hf]
      rw [this]
    rw [heq]
    exact ⟨hq.trans ((Quiet.withFrames _ _).trans (.note _ rfl rfl rfl)), .task task _ hrests⟩

theorem Emptied.lawful (h : Lawful s) (he : Emptied s t) (hf : t.frames = []) : Lawful t where
  registered := he.registered_of h.registered
  ordered :=
    { stacked := hf ▸ .rests .nil
      closing := by simp [hf]
      closed := by simp [he.entries, hf]
      receivers := by
        rw [he.receivers]
        exact Nat.le_trans (Nat.sub_le _ _) h.ordered.receivers }

theorem Emptied.isClosed (he : Emptied s t) (h : Lawful s) : t.isClosed := by
  have := h.ordered.receivers
  rw [isClosed_iff, he.receivers]
  omega

theorem Lawful.advance_closing (h : Lawful s) {rest : List (Frame κ τ)}
    (hf : s.frames = .closing :: rest) (release : Release) :
    Lawful (s.advance release) ∧ Effect s (.advance release) (s.advance release) := by
  have hframes : s.frames = [] ++ .closing :: rest := hf
  obtain rfl : rest = [] := h.ordered.stacked.closing_last hframes
  have hadv : s.advance release = { s.shut with frames := [] } := by
    simp only [State.advance, hf]
  have he : Emptied s { s.shut with frames := [] } := (emptied_shut s).quiet (.withFrames _ _)
  rw [hadv]
  have hcovered := h.ordered.closing (by simp [hf])
  exact ⟨he.lawful h rfl, .emptied rfl he (by simp [hf]) rfl
    (.inl (hcovered.tokens_eq_nil (by rw [hf]; rfl)))⟩

theorem Lawful.closed_advance (h : Lawful s) {rest : List (Frame κ τ)}
    (hf : s.frames = .closing :: rest) (release : Release) :
    (s.advance release).isClosed := by
  have hadv : s.advance release = { s.shut with frames := rest } := by
    simp only [State.advance, hf]
  rw [hadv]
  exact ((emptied_shut s).quiet (.withFrames _ rest)).isClosed h

theorem Lawful.advance (h : Lawful s) (hf : s.frames ≠ []) (hn : ¬ s.isForeign)
    (release : Release) :
    Lawful (s.advance release) ∧ Effect s (.advance release) (s.advance release) := by
  rw [isForeign_iff] at hn
  obtain ⟨f, rest, hs⟩ := List.exists_cons_of_ne_nil hf
  cases f with
  | settling batch =>
    cases batch with
    | nil =>
      have hadv : s.advance release = { s with frames := rest } := by
        simp only [State.advance, hs]
      have hq : Quiet s { s with frames := rest } := .withFrames s rest
      rw [hadv]
      refine ⟨h.quiet hq ?_ (fun hm => ?_) (fun hc => ?_), .quiet rfl hq⟩
      · have := h.ordered.stacked
        rw [hs] at this
        cases this with
        | rests h => cases h
        | settling _ h => exact h.stacked
      · have hc := h.ordered.closing (by rw [hs]; exact List.mem_cons_of_mem _ hm)
        exact covered_of_tokens (hc.tokens_eq_nil (by rw [hs]; rfl))
      · have := (h.ordered.closed hc).2
        rw [hs] at this
        exact absurd (this _ List.mem_cons_self) (by simp)
    | cons item batch => exact h.advance_settling hs release
  | draining taken =>
    obtain ⟨hq, hr⟩ := h.advance_draining hs release
    refine ⟨h.quiet hq (.rests hr) (fun hm => absurd hm hr.closing_not_mem) (fun hc => ?_),
      .quiet rfl hq⟩
    have := (h.ordered.closed hc).2
    rw [hs] at this
    exact absurd (this _ List.mem_cons_self) (by simp)
  | closing => exact h.advance_closing hs release
  | task job => exact absurd ⟨_, _, hs, rfl⟩ hn
  | calling call => exact absurd ⟨_, _, hs, rfl⟩ hn

/-- What the end of foreign code leaves is lawful, with the same attempts or none. -/
theorem Lawful.leave (h : Lawful s) (hn : s.isForeign) (panic : Option Panic) :
    Lawful (s.leave panic) ∧ Effect s (.leave panic) (s.leave panic) := by
  obtain ⟨f, rest, hs, hf⟩ := isForeign_iff.mp hn
  have hopen : ¬ s.isClosed := fun hc => by
    have := (h.ordered.closed hc).2
    rw [hs] at this
    rw [this _ List.mem_cons_self] at hf
    simp [Frame.isForeign] at hf
  -- The foreign code that contains what comes up to it is the innermost, or some below it.
  have hcontained : ∀ (t : State κ τ) pre g, Quiet s t → g.isForeign →
      s.frames = pre ++ g :: t.frames → Lawful t := by
    intro t pre g hq hg heq
    obtain ⟨hst, hbatch⟩ := h.ordered.stacked.of_foreign heq hg
    refine h.quiet hq hst (fun hm => ?_) (fun hc => absurd hc hopen)
    exact hq.covered (h.ordered.closing (by rw [heq]; simp [hm]))
      (hbatch.resolve_right fun hb => hb.2 hm)
  by_cases hp : ∀ text next, panic ≠ some (.volatile text next)
  · obtain ⟨hq, hfr, -⟩ := leave_innermost hs hf hp
    exact ⟨hcontained _ [] f hq hf (by simp [hs, hfr]), .quiet rfl hq⟩
  · simp only [ne_eq, not_forall, Decidable.not_not] at hp
    obtain ⟨text, next, rfl⟩ := hp
    rcases unwind_cases (.volatile text next) s.frames s
      (fun pre post => h.ordered.stacked.closing_last) with
      ⟨pre, g, hg, -, heq, hq, -⟩ | ⟨hnil, -, hout, hin⟩
    · exact ⟨hcontained _ pre g hq hg heq, .quiet rfl hq⟩
    · by_cases hm : .closing ∈ s.frames
      · exact ⟨(hin hm).lawful h hnil, .emptied rfl (hin hm) hm hnil (.inr ⟨text, next, rfl⟩)⟩
      · refine ⟨h.quiet (hout hm) ?_ ?_ (fun hc => absurd hc hopen), .quiet rfl (hout hm)⟩
        · exact hnil ▸ .rests .nil
        · exact fun hc => absurd (hnil ▸ hc) List.not_mem_nil

end Operations

/-- Whatever the outside does to the queue, the sockets and the channels concerns no attempt. -/
theorem quiet_enqueue (s : State κ τ) (task : τ) :
    Quiet s (s.after (.enqueue task)) ∧ (s.after (.enqueue task)).frames = s.frames := by
  simp only [State.after, enqueue, Watch.enqueue, Channel.send]
  by_cases hr : s.watch.tasks.receivers = 0
  · simp only [hr]
    exact ⟨.refl s, rfl⟩
  · simp only [hr]
    refine ⟨Quiet.trans ?_ (.note _ rfl rfl rfl), rfl⟩
    refine .withWatch s rfl ?_ rfl
    simp only [Readiness.Selector.raise]
    split <;> rfl

theorem quiet_becomeReady (s : State κ τ) (socket : Nat) :
    Quiet s (s.after (.becomeReady socket)) := by
  refine .withWatch s rfl ?_ rfl
  simp only [Readiness.Selector.becomeReady, Readiness.Selector.raise]
  split
  · split <;> rfl
  · rfl

theorem quiet_outside {a : Action κ τ} (ha : a.isOutside) :
    Quiet s (s.after a) ∧ (s.after a).frames = s.frames ∧ (s.after a).nodelay = s.nodelay := by
  cases a with
  | enqueue task =>
    refine ⟨(quiet_enqueue s task).1, (quiet_enqueue s task).2, ?_⟩
    simp only [State.after, enqueue]
    cases s.watch.enqueue task <;> rfl
  | becomeReady socket => exact ⟨quiet_becomeReady s socket, rfl, rfl⟩
  | openChannel => exact ⟨.withChannels s _, rfl, rfl⟩
  | addReceiver id => exact ⟨.withChannels s _, rfl, rfl⟩
  | dropReceiver id => exact ⟨.withChannels s _, rfl, rfl⟩
  | receive id => exact ⟨.withChannels s _, rfl, rfl⟩
  | _ => cases ha

/-- What can happen while an operation is under way. -/
inductive Meanwhile (s : State κ τ) : Action κ τ → Prop
  | advance (release : Release) (h : ¬ s.isForeign) : Meanwhile s (.advance release)
  | leave (panic : Option Panic) (h : s.isForeign) : Meanwhile s (.leave panic)
  | outside {a : Action κ τ} (h : a.isOutside) : Meanwhile s a

/-- While an operation is under way no other one is called on top of it, but by a task. -/
theorem Meanwhile.of_enabled {a : Action κ τ} (ha : a.Enabled s) (hn : ¬ s.isFree) :
    Meanwhile s a := by
  cases a with
  | attempt request reply now => exact absurd ha.1 hn
  | poll report => exact absurd ha.1 hn
  | expire now order => exact absurd ha.1 hn
  | abort order => exact absurd ha.1 hn
  | drain => exact absurd ha.1 hn
  | watchOn monitor => exact absurd ha.1 hn
  | takeTask => exact absurd ha.1 hn
  | close order =>
    have hnil : s.frames = [] := by simpa using ha.1
    simp [isFree, hnil] at hn
  | advance release => exact .advance release ha.2
  | leave panic => exact .leave panic ha
  | _ => exact .outside rfl

/-- One step: the laws are kept, and the action has one of the five effects. -/
theorem Lawful.after (h : Lawful s) {a : Action κ τ} (ha : a.Enabled s) :
    Lawful (s.after a) ∧ Effect s a (s.after a) := by
  have hrests : s.isFree → Rests s.frames := rests_of_isFree h.ordered.stacked
  have hquiet : a.request? = none → Quiet s (s.after a) → (s.after a).frames = s.frames →
      Lawful (s.after a) ∧ Effect s a (s.after a) :=
    fun hn hq hf => ⟨h.still hq hf, .quiet hn hq⟩
  cases a with
  | attempt request reply now =>
    obtain ⟨hf, hc, hroom⟩ := ha
    exact h.attempt (hrests hf) hc hroom request reply now
  | poll report =>
    obtain ⟨hf, hc⟩ := ha
    obtain ⟨hl, hq⟩ := h.poll (hrests hf) hc report
    exact ⟨hl, .quiet rfl hq⟩
  | expire now order =>
    obtain ⟨hf, hc⟩ := ha
    exact ⟨h.push_settling (hrests hf) hc _, .quiet rfl (.push s _)⟩
  | abort order =>
    obtain ⟨hf, hc⟩ := ha
    exact ⟨h.abort (hrests hf) hc order, .quiet rfl (quiet_abort s order)⟩
  | drain =>
    obtain ⟨hf, hc⟩ := ha
    exact ⟨h.drain (hrests hf) hc, .quiet rfl (.push s _)⟩
  | close order =>
    exact ⟨h.close (by simpa using ha.1) order, .quiet rfl (quiet_close s order)⟩
  | advance release =>
    obtain ⟨hf, hn⟩ := ha
    exact h.advance (by simpa using hf) hn release
  | leave panic => exact h.leave ha panic
  | enqueue task => exact hquiet rfl (quiet_enqueue s task).1 (quiet_enqueue s task).2
  | takeTask => exact hquiet rfl (quiet_takeTask s).1 (quiet_takeTask s).2
  | becomeReady socket => exact hquiet rfl (quiet_becomeReady s socket) rfl
  | watchOn monitor => exact hquiet rfl (.withMonitor s monitor) rfl
  | openChannel => exact hquiet rfl (.withChannels s _) rfl
  | addReceiver id => exact hquiet rfl (.withChannels s _) rfl
  | dropReceiver id => exact hquiet rfl (.withChannels s _) rfl
  | receive id => exact hquiet rfl (.withChannels s _) rfl

/-- No attempt comes into the table unless a request is issued. -/
theorem Effect.tokens_eq_nil {a : Action κ τ} (he : Effect s a t) (hn : a.request? = none)
    (h : s.tokens = []) : t.tokens = [] := by
  have hs : s.entries = [] := List.map_eq_nil_iff.mp h
  cases he with
  | quiet _ hq => rw [hq.tokens, h]
  | answered _ hans => rw [tokens, hans.entries]; exact h
  | begun ha hb => simp [ha, Action.request?, hb.continuations] at hn
  | concluded _ _ hc => simp [tokens, hc.entries, hs]
  | emptied _ hem => simp [tokens, hem.entries]

theorem Effect.isClosed_eq {a : Action κ τ} (he : Effect s a t) (hc : .closing ∉ s.frames) :
    t.isClosed = s.isClosed := by
  cases he with
  | quiet _ hq => exact hq.isClosed
  | answered _ h => rw [State.isClosed, State.isClosed, h.tasks]
  | begun _ h => rw [State.isClosed, State.isClosed, h.tasks]
  | concluded _ _ h => rw [State.isClosed, State.isClosed, h.tasks]
  | emptied _ _ hm => exact absurd hm hc

theorem Effect.isClosed {a : Action κ τ} (he : Effect s a t) (hc : s.isClosed) : t.isClosed := by
  rw [isClosed_iff] at hc ⊢
  cases he with
  | quiet _ hq => rw [hq.receivers, hc]
  | answered _ h => rw [h.tasks, hc]
  | begun _ h => rw [h.tasks, hc]
  | concluded _ _ h => exact h.tasks ▸ hc
  | emptied _ h => rw [h.receivers, hc]

theorem lawful_of_empty (hr : Registered s) (hf : s.frames = [])
    (ht : s.watch.tasks.receivers = 1) : Lawful s where
  registered := hr
  ordered :=
    { stacked := hf ▸ .rests .nil
      closing := by simp [hf]
      closed := by simp [isClosed_iff, ht]
      receivers := Nat.le_of_eq ht }

theorem zero_ne_wakeToken : (0 : Token) ≠ wakeToken := by decide

theorem lawful_initial (capacity : Nat) (nodelay : Bool) :
    Lawful (initial capacity nodelay : State κ τ) :=
  lawful_of_empty (registered_of_empty rfl rfl rfl zero_ne_wakeToken) rfl rfl

theorem Reachable.lawful (h : Reachable s) : Lawful s := by
  induction h with
  | initial capacity nodelay => exact lawful_initial capacity nodelay
  | step _ ha ih => exact (ih.after ha).1

end State

end Dialer.InFlight
