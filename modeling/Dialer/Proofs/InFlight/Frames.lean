import Dialer.Proofs.InFlight.Effects

/-!
# The stack of frames

Operations are called from outside or by a task, and a task runs on top of the draining that took
it. A batch is resolved on top of such frames or of the giving up, and what it calls back calls no
operation, so a batch in progress is never buried under anything but one running continuation.
The frames that a panic unwinds are those above the foreign code that contains it, or all of them.
-/

namespace Dialer.InFlight

open Readiness (Token)

variable {κ τ : Type}

/-- Whether a frame is foreign code. -/
def Frame.isForeign : Frame κ τ → Bool
  | .task _ => true
  | .calling _ => true
  | _ => false

/-- The frames on which operations are called. -/
inductive Rests : List (Frame κ τ) → Prop
  | nil : Rests []
  | task (job : τ) (taken : Nat) {rest : List (Frame κ τ)} (h : Rests rest) :
      Rests (.task job :: .draining taken :: rest)

/-- The frames on which a batch is resolved. -/
def Carries (frames : List (Frame κ τ)) : Prop := Rests frames ∨ frames = [.closing]

inductive Stacked : List (Frame κ τ) → Prop
  | rests {frames : List (Frame κ τ)} (h : Rests frames) : Stacked frames
  | draining (taken : Nat) {rest : List (Frame κ τ)} (h : Rests rest) :
      Stacked (.draining taken :: rest)
  | settling (batch : List (Token × Cause)) {rest : List (Frame κ τ)} (h : Carries rest) :
      Stacked (.settling batch :: rest)
  | calling (call : Call κ) {rest : List (Frame κ τ)} (h : Rests rest) :
      Stacked (.calling call :: rest)
  | answering (call : Call κ) (batch : List (Token × Cause)) {rest : List (Frame κ τ)}
      (h : Carries rest) : Stacked (.calling call :: .settling batch :: rest)
  | closing : Stacked [.closing]

/-- The batch that is being resolved: what is left of it. -/
def batchOf : List (Frame κ τ) → List (Token × Cause)
  | .settling batch :: _ => batch
  | .calling _ :: .settling batch :: _ => batch
  | _ => []

theorem Rests.closing_not_mem {frames : List (Frame κ τ)} (h : Rests frames) :
    .closing ∉ frames := by
  induction h with
  | nil => exact List.not_mem_nil
  | task job taken h ih => simp [ih]

theorem Rests.batchOf_eq {frames : List (Frame κ τ)} (h : Rests frames) :
    batchOf frames = [] := by
  cases h <;> rfl

theorem Rests.batchOf_calling {call : Call κ} {frames : List (Frame κ τ)} (h : Rests frames) :
    batchOf (.calling call :: frames) = [] := by
  cases h <;> rfl

/-- Giving up is the outermost thing there is, with at most one batch and one call above it. -/
theorem Stacked.of_closing_mem {frames : List (Frame κ τ)} (h : Stacked frames)
    (hc : .closing ∈ frames) :
    frames = [.closing] ∨ (∃ batch, frames = [.settling batch, .closing]) ∨
      ∃ call batch, frames = [.calling call, .settling batch, .closing] := by
  cases h with
  | rests h => exact absurd hc h.closing_not_mem
  | draining taken h => exact absurd hc (by simp [h.closing_not_mem])
  | settling batch h =>
    rcases h with h | rfl
    · exact absurd hc (by simp [h.closing_not_mem])
    · exact .inr (.inl ⟨batch, rfl⟩)
  | calling call h => exact absurd hc (by simp [h.closing_not_mem])
  | answering call batch h =>
    rcases h with h | rfl
    · exact absurd hc (by simp [h.closing_not_mem])
    · exact .inr (.inr ⟨call, batch, rfl⟩)
  | closing => exact .inl rfl

theorem Stacked.closing_last {frames pre post : List (Frame κ τ)} (h : Stacked frames)
    (heq : frames = pre ++ .closing :: post) : post = [] := by
  rcases h.of_closing_mem (by simp [heq]) with rfl | ⟨batch, rfl⟩ | ⟨call, batch, rfl⟩ <;>
    rcases pre with _ | ⟨f, _ | ⟨g, _ | ⟨h, pre⟩⟩⟩ <;> simp_all

theorem Carries.stacked {frames : List (Frame κ τ)} (h : Carries frames) : Stacked frames := by
  rcases h with h | rfl
  · exact .rests h
  · exact .closing

section Foreign

variable {frames pre rest : List (Frame κ τ)} {f : Frame κ τ}

theorem Rests.of_foreign (h : Rests frames) (heq : frames = pre ++ f :: rest) (hf : f.isForeign) :
    Stacked rest ∧ batchOf rest = [] ∧ .closing ∉ rest := by
  induction h generalizing pre with
  | nil => simp at heq
  | task job taken h ih =>
    rcases pre with _ | ⟨g, _ | ⟨g', pre⟩⟩
    · obtain ⟨-, rfl⟩ := List.cons.inj heq
      exact ⟨.draining taken h, rfl, by simp [h.closing_not_mem]⟩
    · obtain ⟨rfl, -⟩ := List.cons.inj (List.cons.inj heq).2
      simp [Frame.isForeign] at hf
    · exact ih (List.cons.inj (List.cons.inj heq).2).2

theorem Carries.of_foreign (h : Carries frames) (heq : frames = pre ++ f :: rest)
    (hf : f.isForeign) : Stacked rest ∧ batchOf rest = [] ∧ .closing ∉ rest := by
  rcases h with h | rfl
  · exact h.of_foreign heq hf
  · rcases List.singleton_eq_append_iff.mp heq with ⟨rfl, he⟩ | ⟨rfl, he⟩
    · obtain ⟨rfl, -⟩ := List.cons.inj he
      simp [Frame.isForeign] at hf
    · simp at he

/-- What is left when foreign code ends is a stack again, and the batch below it stays. -/
theorem Stacked.of_foreign (h : Stacked frames) (heq : frames = pre ++ f :: rest)
    (hf : f.isForeign) :
    Stacked rest ∧ (batchOf rest = batchOf frames ∨ batchOf rest = [] ∧ .closing ∉ rest) := by
  have hloop : ∀ g gs, g.isForeign = false → frames = g :: gs → ∃ pre', gs = pre' ++ f :: rest := by
    intro g gs hg hgs
    rw [heq] at hgs
    cases pre with
    | nil =>
      obtain ⟨rfl, -⟩ := List.cons.inj hgs
      exact absurd hf (by simp [hg])
    | cons g' pre => exact ⟨pre, (List.cons.inj hgs).2.symm⟩
  cases h with
  | rests h => exact (h.of_foreign heq hf).imp_right .inr
  | draining taken h =>
    obtain ⟨pre', heq⟩ := hloop _ _ rfl rfl
    exact (h.of_foreign heq hf).imp_right .inr
  | settling batch h =>
    obtain ⟨pre', heq⟩ := hloop _ _ rfl rfl
    exact (h.of_foreign heq hf).imp_right .inr
  | calling call h =>
    cases pre with
    | nil =>
      obtain ⟨-, rfl⟩ := List.cons.inj heq
      exact ⟨.rests h, .inr ⟨h.batchOf_eq, h.closing_not_mem⟩⟩
    | cons g pre => exact (h.of_foreign (List.cons.inj heq).2 hf).imp_right .inr
  | answering call batch h =>
    rcases pre with _ | ⟨g, _ | ⟨g', pre⟩⟩
    · obtain ⟨-, rfl⟩ := List.cons.inj heq
      exact ⟨.settling batch h, .inl rfl⟩
    · obtain ⟨rfl, -⟩ := List.cons.inj (List.cons.inj heq).2
      simp [Frame.isForeign] at hf
    · exact (h.of_foreign (List.cons.inj (List.cons.inj heq).2).2 hf).imp_right .inr
  | closing =>
    obtain ⟨pre', heq⟩ := hloop _ _ rfl rfl
    simp at heq

end Foreign

namespace State

variable {s t : State κ τ}

theorem rests_of_isFree (h : Stacked s.frames) (hf : s.isFree) : Rests s.frames := by
  unfold isFree at hf
  cases hs : s.frames with
  | nil => exact .nil
  | cons f rest =>
    rw [hs] at h hf
    cases f <;> simp at hf
    cases h with
    | rests h => exact h

theorem isForeign_iff : s.isForeign ↔ ∃ f rest, s.frames = f :: rest ∧ f.isForeign := by
  unfold isForeign Frame.isForeign
  cases s.frames with
  | nil => simp
  | cons f rest => cases f <;> simp

theorem unwind_plain {f : Frame κ τ} (hf : f.isForeign) (text : Option String)
    (rest : List (Frame κ τ)) (s : State κ τ) :
    ∃ site, unwind (.plain text) (f :: rest) s =
      { s.note (.panicked site (Panic.plain text).message) with frames := rest } := by
  cases f with
  | task job => exact ⟨_, rfl⟩
  | calling call => exact ⟨_, rfl⟩
  | settling _ => simp [Frame.isForeign] at hf
  | draining _ => simp [Frame.isForeign] at hf
  | closing => simp [Frame.isForeign] at hf

theorem leave_innermost {f : Frame κ τ} {rest : List (Frame κ τ)} (hs : s.frames = f :: rest)
    (hf : f.isForeign) {panic : Option Panic}
    (hp : ∀ text next, panic ≠ some (.volatile text next)) :
    Quiet s (s.leave panic) ∧ (s.leave panic).frames = rest ∧
      (panic.isSome → ∃ site text before,
        (s.leave panic).history = .panicked site text :: before) := by
  rcases panic with _ | (text | ⟨text, next⟩)
  · exact ⟨.withFrames s _, by simp [leave, hs], fun h => absurd h Bool.false_ne_true⟩
  · obtain ⟨site, heq⟩ := unwind_plain hf text rest s
    have hq := (Quiet.note s rfl rfl rfl).trans
      (.withFrames (s.note (.panicked site (Panic.plain text).message)) rest)
    rw [leave, hs, heq]
    exact ⟨hq, rfl, fun _ => ⟨_, _, _, rfl⟩⟩
  · exact absurd rfl (hp text next)

/-- What a panic leaves: it is contained in some foreign code, or nothing is left of the frames and
what it unwound of a giving up is given up. -/
theorem unwind_cases (panic : Panic) (frames : List (Frame κ τ)) (s : State κ τ)
    (hlast : ∀ pre post, frames = pre ++ .closing :: post → post = []) :
    (∃ pre f, f.isForeign ∧ .closing ∉ pre ∧ frames = pre ++ f :: (unwind panic frames s).frames ∧
        Quiet s (unwind panic frames s) ∧
        ∃ site text before, (unwind panic frames s).history = .panicked site text :: before) ∨
      ((unwind panic frames s).frames = [] ∧
        (∃ text before, (unwind panic frames s).history = .escaped text :: before) ∧
        (.closing ∉ frames → Quiet s (unwind panic frames s)) ∧
        (.closing ∈ frames → Emptied s (unwind panic frames s))) := by
  induction frames generalizing panic s with
  | nil =>
    refine .inr ⟨rfl, ⟨_, _, rfl⟩, fun _ => ?_, fun h => absurd h List.not_mem_nil⟩
    exact (Quiet.withFrames s []).trans (Quiet.note _ rfl rfl rfl)
  | cons f rest ih =>
    have hrest : ∀ pre post, rest = pre ++ .closing :: post → post = [] :=
      fun pre post he => hlast (f :: pre) post (by simp [he])
    -- A frame that does not hold the panic up, and neither gives anything up.
    have hpass : ∀ (p : Panic) (t : State κ τ), f ≠ .closing → Quiet s t →
        unwind panic (f :: rest) s = unwind p rest t →
        (∃ pre f', f'.isForeign ∧ .closing ∉ pre ∧
            f :: rest = pre ++ f' :: (unwind panic (f :: rest) s).frames ∧
            Quiet s (unwind panic (f :: rest) s) ∧
            ∃ site text before,
              (unwind panic (f :: rest) s).history = .panicked site text :: before) ∨
          ((unwind panic (f :: rest) s).frames = [] ∧
            (∃ text before, (unwind panic (f :: rest) s).history = .escaped text :: before) ∧
            (.closing ∉ f :: rest → Quiet s (unwind panic (f :: rest) s)) ∧
            (.closing ∈ f :: rest → Emptied s (unwind panic (f :: rest) s))) := by
      intro p t hne hq heq
      rw [heq]
      rcases ih p t hrest with ⟨pre, f', hf', hpre, hrest', hq', hh⟩ | ⟨hfr, hh, hout, hin⟩
      · refine .inl ⟨f :: pre, f', hf', ?_, by rw [List.cons_append, ← hrest'], hq.trans hq', hh⟩
        simp [hpre, hne.symm]
      · refine .inr ⟨hfr, hh, fun hc => hq.trans (hout ?_), fun hc => (hin ?_).of_quiet hq⟩
        · exact fun hm => hc (List.mem_cons_of_mem _ hm)
        · exact (List.mem_cons.mp hc).resolve_left hne.symm
    cases f with
    | settling batch => exact hpass panic s (by simp) (.refl s) rfl
    | draining taken => exact hpass panic s (by simp) (.refl s) rfl
    | task job =>
      cases panic with
      | plain text =>
        exact .inl ⟨[], .task job, rfl, List.not_mem_nil, rfl,
          (Quiet.note s rfl rfl rfl).trans (.withFrames _ _), _, _, _, rfl⟩
      | volatile text next => exact hpass next _ (by simp) (Quiet.note s rfl rfl rfl) rfl
    | calling call =>
      cases panic with
      | plain text =>
        exact .inl ⟨[], .calling call, rfl, List.not_mem_nil, rfl,
          (Quiet.note s rfl rfl rfl).trans (.withFrames _ _), _, _, _, rfl⟩
      | volatile text next => exact hpass next _ (by simp) (Quiet.note s rfl rfl rfl) rfl
    | closing =>
      obtain rfl := hlast [] rest rfl
      refine .inr ⟨rfl, ⟨_, _, rfl⟩, fun h => absurd List.mem_cons_self h, fun _ => ?_⟩
      exact (emptied_shut s).quiet ((Quiet.withFrames _ []).trans (Quiet.note _ rfl rfl rfl))

section View

variable {α : Type} {view : State κ τ → α}
  (hn : ∀ s site text, view (s.note (.panicked site text)) = view s)
  (he : ∀ s text, view (s.note (.escaped text)) = view s)
  (hf : ∀ (s : State κ τ) frames, view { s with frames := frames } = view s)

include hn he hf

/-- A view that overlooks notes and frames overlooks a panic, if it overlooks that the table is
given up. -/
theorem unwind_overlooked (hs : ∀ s, view s.shut = view s) (panic : Panic)
    (frames : List (Frame κ τ)) (s : State κ τ) : view (unwind panic frames s) = view s := by
  induction frames generalizing panic s with
  | nil => exact (he _ _).trans (hf s [])
  | cons f rest ih =>
    cases f with
    | settling batch => exact ih panic s
    | draining taken => exact ih panic s
    | closing => exact (ih panic s.shut).trans (hs s)
    | task job =>
      cases panic with
      | plain text => exact (hf _ rest).trans (hn s _ _)
      | volatile text next => exact (ih next _).trans (hn s _ _)
    | calling call =>
      cases panic with
      | plain text => exact (hf _ rest).trans (hn s _ _)
      | volatile text next => exact (ih next _).trans (hn s _ _)

/-- A view that overlooks notes and frames overlooks a panic, unless the table is given up by it. -/
theorem unwind_overlooked_or (panic : Panic) (frames : List (Frame κ τ)) (s : State κ τ)
    (hlast : ∀ pre post, frames = pre ++ .closing :: post → post = []) :
    view (unwind panic frames s) = view s ∨
      .closing ∈ frames ∧ (unwind panic frames s).frames = [] := by
  induction frames generalizing panic s with
  | nil => exact .inl ((he _ _).trans (hf s []))
  | cons f rest ih =>
    have hbelow : ∀ p (t : State κ τ), view t = view s → view (unwind p rest t) = view s ∨
        .closing ∈ f :: rest ∧ (unwind p rest t).frames = [] := fun p t ht =>
      (ih p t fun pre post heq => hlast (f :: pre) post (by simp [heq])).imp
        (·.trans ht) (And.imp_left (List.mem_cons_of_mem f))
    cases f with
    | settling batch => exact hbelow panic s rfl
    | draining taken => exact hbelow panic s rfl
    | task job =>
      cases panic with
      | plain text => exact .inl ((hf _ rest).trans (hn s _ _))
      | volatile text next => exact hbelow next _ (hn s _ _)
    | calling call =>
      cases panic with
      | plain text => exact .inl ((hf _ rest).trans (hn s _ _))
      | volatile text next => exact hbelow next _ (hn s _ _)
    | closing =>
      obtain rfl := hlast [] rest rfl
      exact .inr ⟨List.mem_cons_self, rfl⟩

end View

end State

end Dialer.InFlight
