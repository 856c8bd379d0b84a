import Dialer.InFlight.State
import Mathlib.Data.List.Nodup
import Mathlib.Data.Nat.ModEq
import Mathlib.Logic.Function.Iterate

/-!
# The search for a free token

The tokens below the one of the task queue form a circle, on which `following` goes one place on.
The search stops at the first place that is not used. As long as there are fewer attempts than
places it stops within as many steps as there are attempts: otherwise the places it looked at would
be more tokens, all different, than are used.
-/

namespace Dialer.InFlight.State
open Readiness (Token wakeToken)

variable {κ τ : Type} {s : State κ τ}

theorem toNat_following {t : Token} (ht : t ≠ wakeToken) :
    (following t).toNat = (t.toNat + 1) % wakeToken.toNat := by
  have hw : wakeToken.toNat = 2 ^ 64 - 1 := rfl
  have hlt : t.toNat < wakeToken.toNat := by
    have hne : t.toNat ≠ wakeToken.toNat := fun h => ht (UInt64.toNat_inj.mp h)
    have := t.toNat_lt
    omega
  rw [following, UInt64.toNat_mod, UInt64.toNat_add, hw]
  rw [hw] at hlt
  rw [Nat.mod_eq_of_lt (show t.toNat + (1 : UInt64).toNat < 2 ^ 64 by simp; omega)]
  rfl

theorem following_ne_wakeToken (t : Token) : following t ≠ wakeToken := by
  intro h
  have hlt : (following t).toNat < wakeToken.toNat := by
    rw [following, UInt64.toNat_mod]
    exact Nat.mod_lt _ (by decide)
  rw [h] at hlt
  exact Nat.lt_irrefl _ hlt

/-- The token so many places on from another one. -/
def placeFrom (t : Token) (i : Nat) : Token := following^[i] t

@[simp] theorem placeFrom_zero (t : Token) : placeFrom t 0 = t := rfl

theorem placeFrom_succ (t : Token) (i : Nat) : placeFrom t (i + 1) = placeFrom (following t) i :=
  rfl

theorem placeFrom_ne_wakeToken {t : Token} (ht : t ≠ wakeToken) (i : Nat) :
    placeFrom t i ≠ wakeToken := by
  induction i generalizing t with
  | zero => exact ht
  | succ i ih => exact ih (following_ne_wakeToken t)

theorem toNat_placeFrom {t : Token} (ht : t ≠ wakeToken) (i : Nat) :
    (placeFrom t i).toNat = (t.toNat + i) % wakeToken.toNat := by
  induction i generalizing t with
  | zero =>
    have hne : t.toNat ≠ wakeToken.toNat := fun h => ht (UInt64.toNat_inj.mp h)
    have hw : wakeToken.toNat = 2 ^ 64 - 1 := rfl
    have := t.toNat_lt
    rw [placeFrom_zero, Nat.add_zero, Nat.mod_eq_of_lt (by omega)]
  | succ i ih =>
    rw [placeFrom_succ, ih (following_ne_wakeToken t), toNat_following ht, Nat.mod_add_mod]
    congr 1
    omega

/-- Going less than once around, no place is met twice. -/
theorem placeFrom_inj {t : Token} (ht : t ≠ wakeToken) {i j : Nat} (hi : i < wakeToken.toNat)
    (hj : j < wakeToken.toNat) (h : placeFrom t i = placeFrom t j) : i = j := by
  have hn := congrArg UInt64.toNat h
  rw [toNat_placeFrom ht, toNat_placeFrom ht] at hn
  have hm : i % wakeToken.toNat = j % wakeToken.toNat := Nat.ModEq.add_left_cancel' t.toNat hn
  rwa [Nat.mod_eq_of_lt hi, Nat.mod_eq_of_lt hj] at hm

theorem freeToken_eq_placeFrom (used : Token → Bool) (bound : Nat) (t : Token) :
    ∃ i ≤ bound, freeToken used bound t = placeFrom t i ∧ (∀ j < i, used (placeFrom t j)) ∧
      (i < bound → used (placeFrom t i) = false) := by
  induction bound generalizing t with
  | zero => exact ⟨0, Nat.le_refl 0, rfl, by simp, by simp⟩
  | succ bound ih =>
    cases hu : used t with
    | false => exact ⟨0, Nat.zero_le _, by simp [freeToken, hu], by simp, fun _ => hu⟩
    | true =>
      obtain ⟨i, hi, heq, hbefore, hstop⟩ := ih (following t)
      refine ⟨i + 1, by omega, by simp [freeToken, hu, heq, placeFrom_succ], ?_, ?_⟩
      · intro j hj
        cases j with
        | zero => exact hu
        | succ j => exact hbefore j (by omega)
      · exact fun h => hstop (by omega)

theorem isPending_iff_mem_tokens {t : Token} : s.isPending t ↔ t ∈ s.tokens := by
  simp only [isPending, entry?, List.lookup_isSome_iff, beq_iff_eq, tokens, List.mem_map]
  constructor
  · rintro ⟨p, hp, rfl⟩
    exact ⟨p, hp, rfl⟩
  · rintro ⟨p, hp, rfl⟩
    exact ⟨p, hp, rfl⟩

/-- With room for one more attempt the search finds the first token that belongs to none. -/
theorem freeToken_spec (hroom : s.hasRoom) (hnext : s.next ≠ wakeToken) :
    ∃ i ≤ s.entries.length,
      freeToken s.isPending s.entries.length s.next = placeFrom s.next i ∧
        (∀ j < i, placeFrom s.next j ∈ s.tokens) ∧ placeFrom s.next i ∉ s.tokens := by
  obtain ⟨i, hi, heq, hbefore, hstop⟩ := freeToken_eq_placeFrom s.isPending s.entries.length s.next
  simp only [isPending_iff_mem_tokens] at hbefore
  refine ⟨i, hi, heq, hbefore, fun hmem => ?_⟩
  have hroom : s.entries.length < wakeToken.toNat := by simpa [hasRoom] using hroom
  rcases Nat.lt_or_eq_of_le hi with hlt | rfl
  · exact absurd (isPending_iff_mem_tokens.mpr hmem) (by simp [hstop hlt])
  -- The places looked at are one more than there are tokens, and all of them are tokens.
  · have hnodup : ((List.range (s.entries.length + 1)).map (placeFrom s.next)).Nodup := by
      refine (List.nodup_range).map_on fun a ha b hb hab => ?_
      rw [List.mem_range] at ha hb
      exact placeFrom_inj hnext (by omega) (by omega) hab
    have hsub : (List.range (s.entries.length + 1)).map (placeFrom s.next) ⊆ s.tokens := by
      intro t ht
      obtain ⟨j, hj, rfl⟩ := List.mem_map.mp ht
      rw [List.mem_range] at hj
      rcases Nat.lt_or_eq_of_le (Nat.le_of_lt_succ hj) with hlt | rfl
      · exact hbefore j hlt
      · exact hmem
    have hle := hnodup.length_le_of_subset hsub
    simp only [List.length_map, List.length_range, tokens] at hle
    omega

theorem allocate_fresh (hroom : s.hasRoom) (hnext : s.next ≠ wakeToken) :
    s.allocate.1 ∉ s.tokens ∧ s.allocate.1 ≠ wakeToken := by
  obtain ⟨i, _, heq, _, hfree⟩ := freeToken_spec hroom hnext
  rw [allocate, heq]
  exact ⟨hfree, placeFrom_ne_wakeToken hnext i⟩

end Dialer.InFlight.State
