import Dialer.Text.Digits
import Mathlib.Algebra.Group.Nat.Defs
import Mathlib.Data.List.Basic

/-!
# Numerals are read back

What is written for a number are digits of its base, no more of them than the number needs and no
zero in front of others. So a reader takes exactly these characters, as long as no other digit
follows them, and gives the number.
-/

namespace Dialer.Text

/-- The text goes on with no digit of the base. -/
def EndsDigits (base : Nat) (rest : List Char) : Prop :=
  ∀ c ∈ rest.head?, digitValue? base c = none

section Digits

variable {base n d : Nat} {rest : List Char}

theorem digitValue?_sixteen (hd : d < 16) : digitValue? 16 (digitChar d) = some d := by
  have hall : ∀ d < 16, digitValue? 16 (digitChar d) = some d := by decide
  exact hall d hd

/-- A smaller base has the same digits, as far as they go. -/
theorem digitValue?_eq_filter (hb : base ≤ 16) (c : Char) :
    digitValue? base c = (digitValue? 16 c).filter (· < base) := by
  simp only [digitValue?]
  generalize (if '0' ≤ c ∧ c ≤ '9' then some (c.toNat - 48)
    else if 'a' ≤ c ∧ c ≤ 'f' then some (c.toNat - 87)
    else if 'A' ≤ c ∧ c ≤ 'F' then some (c.toNat - 55)
    else none) = value
  cases value with
  | none => rfl
  | some v =>
    by_cases hv : v < base
    · simp [Option.filter, hv, Nat.lt_of_lt_of_le hv hb]
    · by_cases hv' : v < 16 <;> simp [Option.filter, hv, hv']

theorem digitValue?_digitChar (hb : base ≤ 16) (hd : d < base) :
    digitValue? base (digitChar d) = some d := by
  rw [digitValue?_eq_filter hb, digitValue?_sixteen (Nat.lt_of_lt_of_le hd hb)]
  simp [Option.filter, hd]

theorem EndsDigits.mono {small : Nat} (h : EndsDigits base rest) (hs : small ≤ base)
    (hb : base ≤ 16) : EndsDigits small rest := by
  intro c hc
  have hnone := h c hc
  rw [digitValue?_eq_filter hb] at hnone
  rw [digitValue?_eq_filter (Nat.le_trans hs hb)]
  cases hv : digitValue? 16 c with
  | none => rfl
  | some v =>
    have hle : ¬ v < base := by simpa [hv, Option.filter] using hnone
    have hlt : ¬ v < small := fun hlt => hle (Nat.lt_of_lt_of_le hlt hs)
    simp [Option.filter, hlt]

theorem endsDigits_nil (base : Nat) : EndsDigits base [] := by
  intro c hc
  cases hc

theorem endsDigits_cons {c : Char} (h : digitValue? base c = none) (rest : List Char) :
    EndsDigits base (c :: rest) := by
  intro c' hc
  obtain rfl := Option.some.inj hc
  exact h

theorem digits_lt (hb : 2 ≤ base) (n : Nat) : ∀ d ∈ digits base n, d < base := by
  induction n using Nat.strongRecOn with
  | ind n ih =>
    intro d hd
    by_cases h : n < base
    · rw [digits_of_lt h, List.mem_singleton] at hd
      exact hd ▸ h
    · have hle := Nat.not_lt.mp h
      rw [digits_of_le hb hle, List.mem_append, List.mem_singleton] at hd
      rcases hd with hd | rfl
      · exact ih _ (Nat.div_lt_self (by omega) (by omega)) d hd
      · exact Nat.mod_lt _ (by omega)

theorem digits_ne_nil (hb : 2 ≤ base) (n : Nat) : digits base n ≠ [] := by
  by_cases h : n < base
  · simp [digits_of_lt h]
  · simp [digits_of_le hb (Nat.not_lt.mp h)]

/-- A number below a power of the base has no more digits than that. -/
theorem length_digits_le (hb : 2 ≤ base) {k : Nat} (hk : 0 < k) (hn : n < base ^ k) :
    (digits base n).length ≤ k := by
  induction k generalizing n with
  | zero => exact absurd hk (Nat.lt_irrefl 0)
  | succ k ih =>
    by_cases h : n < base
    · simp [digits_of_lt h]
    · have hle := Nat.not_lt.mp h
      have hquot : n / base < base ^ k := by
        rw [Nat.div_lt_iff_lt_mul (by omega), ← Nat.pow_succ]
        exact hn
      have hpos : 0 < k := by
        rcases Nat.eq_zero_or_pos k with rfl | hk
        · rw [Nat.zero_add, Nat.pow_one] at hn
          exact absurd hn h
        · exact hk
      rw [digits_of_le hb hle, List.length_append, List.length_singleton]
      exact Nat.succ_le_succ (ih hpos hquot)

theorem head?_digits (hb : 2 ≤ base) (hn : 0 < n) : (digits base n).head? ≠ some 0 := by
  induction n using Nat.strongRecOn with
  | ind n ih =>
    by_cases h : n < base
    · rw [digits_of_lt h]
      simpa using Nat.pos_iff_ne_zero.mp hn
    · have hle := Nat.not_lt.mp h
      have hquot : 0 < n / base := Nat.div_pos hle (by omega)
      rw [digits_of_le hb hle, List.head?_append_of_ne_nil _ (digits_ne_nil hb _)]
      exact ih _ (Nat.div_lt_self (by omega) (by omega)) hquot

/-- Only zero starts with zero, and it has no other digit. -/
theorem length_digits_of_head? (hb : 2 ≤ base) (h : (digits base n).head? = some 0) :
    (digits base n).length = 1 := by
  rcases Nat.eq_zero_or_pos n with rfl | hn
  · rw [digits_of_lt (by omega)]
    rfl
  · exact absurd h (head?_digits hb hn)

end Digits

section Reading

variable {base n : Nat} {ds : List Nat} {rest cs : List Char}

theorem readDigits_of_ends (h : EndsDigits base rest) : readDigits base rest = ([], rest) := by
  cases rest with
  | nil => rfl
  | cons c rest => simp only [readDigits, h c rfl]

theorem readDigits_append (hb : base ≤ 16) (hds : ∀ d ∈ ds, d < base)
    (h : EndsDigits base rest) : readDigits base (ds.map digitChar ++ rest) = (ds, rest) := by
  induction ds with
  | nil => exact readDigits_of_ends h
  | cons d ds ih =>
    have hd := digitValue?_digitChar hb (hds d List.mem_cons_self)
    have htail := ih fun d hm => hds d (List.mem_cons_of_mem _ hm)
    simp only [List.map_cons, List.cons_append, readDigits, hd, htail]

/-- A written number is read back, if the rule admits a number of that size. -/
theorem readNumber_writeNumber {rule : NumeralRule} (hb : 2 ≤ rule.base) (hb' : rule.base ≤ 16)
    (hn : n < rule.limit) (hk : ∀ k ∈ rule.maxDigits, 0 < k ∧ n < rule.base ^ k)
    (h : EndsDigits rule.base rest) :
    readNumber rule (writeNumber rule.base n ++ rest) = some (n, rest) := by
  have hread : readDigits rule.base (writeNumber rule.base n ++ rest) =
      (digits rule.base n, rest) := readDigits_append hb' (digits_lt hb n) h
  have hnil : (digits rule.base n).isEmpty = false := by
    simpa using digits_ne_nil hb n
  have hfits : rule.maxDigits.any (· < (digits rule.base n).length) = false := by
    cases hm : rule.maxDigits with
    | none => rfl
    | some k =>
      obtain ⟨hpos, hlt⟩ := hk k hm
      simpa using length_digits_le hb hpos hlt
  have hzero : (!rule.leadingZeros && (digits rule.base n).head? == some 0 &&
      decide (1 < (digits rule.base n).length)) = false := by
    by_cases hhead : (digits rule.base n).head? = some 0
    · simp [length_digits_of_head? hb hhead]
    · simp [hhead]
  simp [readNumber, hread, hnil, hfits, hzero, valueOf_digits hb, hn]

/-- What a reader of numbers leaves over begins after all the digits. -/
theorem readNumber_rest {rule : NumeralRule} (h : readNumber rule cs = some (n, rest)) :
    rest = (readDigits rule.base cs).2 := by
  simp only [readNumber] at h
  split at h
  · cases h
  · split at h
    · cases h
    · split at h
      · cases h
      · split at h
        · exact (congrArg Prod.snd (Option.some.inj h)).symm
        · cases h

/-- Behind the digits at the head of a text comes none of the characters that do not occur there. -/
theorem head?_readDigits_ne {stop : Char} {text : List Char} (htext : stop ∉ text)
    (h : EndsDigits base rest) (hrest : rest.head? ≠ some stop) :
    (readDigits base (text ++ rest)).2.head? ≠ some stop := by
  induction text with
  | nil => rwa [List.nil_append, readDigits_of_ends h]
  | cons c text ih =>
    simp only [List.cons_append, readDigits]
    cases digitValue? base c with
    | none =>
      intro hc
      exact htext (Option.some.inj hc ▸ List.mem_cons_self)
    | some d => exact ih fun hm => htext (List.mem_cons_of_mem _ hm)

end Reading

theorem not_mem_writeNumber {base : Nat} (hb : 2 ≤ base) (hb' : base ≤ 16) {c : Char}
    (hc : digitValue? 16 c = none) (n : Nat) : c ∉ writeNumber base n := by
  intro hm
  obtain ⟨d, hd, rfl⟩ := List.mem_map.mp hm
  have hlt := Nat.lt_of_lt_of_le (digits_lt hb n d hd) hb'
  rw [digitValue?_sixteen hlt] at hc
  cases hc

end Dialer.Text
