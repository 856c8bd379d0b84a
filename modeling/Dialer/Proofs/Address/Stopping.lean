import Dialer.Proofs.Address.Reading

/-!
# Where readers stop

A reader stops at a character if it never takes it. What follows such a character makes no
difference to what is read before it, so that a text can be cut there. A reader of numbers stops at
whatever is no digit, one of addresses of version 4 also takes points, and one of version 6 points
and colons.
-/

namespace Dialer.Text

variable {α β : Type} {stop : Char → Prop} {cs tail : List Char} {c : Char}

/-- The reader never takes a character at which it stops, and what it leaves over is the end of the
text. -/
structure StopsAt (stop : Char → Prop) (read : Reader α) : Prop where
  append : ∀ cs c tail, stop c →
    read (cs ++ c :: tail) = (read cs).map fun r => (r.1, r.2 ++ c :: tail)
  suffix : ∀ cs r, read cs = some r → r.2 <:+ cs

namespace StopsAt

variable {read : Reader α}

theorem mono {narrow : Char → Prop} (h : StopsAt stop read) (hs : ∀ c, narrow c → stop c) :
    StopsAt narrow read :=
  ⟨fun cs c tail hc => h.append cs c tail (hs c hc), h.suffix⟩

theorem map (h : StopsAt stop read) (f : α → β) :
    StopsAt stop fun cs => (read cs).map fun (a, rest) => (f a, rest) := by
  refine ⟨fun cs c tail hc => ?_, fun cs r hr => ?_⟩
  · simp only [h.append cs c tail hc, Option.map_map]
    rfl
  · obtain ⟨r', hr', rfl⟩ := Option.map_eq_some_iff.mp hr
    exact h.suffix cs r' hr'

theorem bind (h : StopsAt stop read) {next : α → Reader β} (hn : ∀ a, StopsAt stop (next a)) :
    StopsAt stop fun cs => (read cs).bind fun (a, rest) => next a rest := by
  refine ⟨fun cs c tail hc => ?_, fun cs r hr => ?_⟩
  · simp only [h.append cs c tail hc]
    cases read cs with
    | none => rfl
    | some r => exact (hn r.1).append r.2 c tail hc
  · obtain ⟨r', hr', hnext⟩ := Option.bind_eq_some_iff.mp hr
    exact ((hn r'.1).suffix r'.2 r hnext).trans (h.suffix cs r' hr')

theorem pure (a : α) : StopsAt stop fun cs => some (a, cs) :=
  ⟨fun _ _ _ _ => rfl, fun cs r hr => by obtain rfl := Option.some.inj hr; exact List.suffix_rfl⟩

theorem readAll_eq_none (h : StopsAt stop read) (hc : stop c) :
    readAll read (cs ++ c :: tail) = none := by
  unfold readAll
  rw [h.append cs c tail hc]
  cases read cs with
  | none => rfl
  | some r =>
    obtain ⟨a, rest⟩ := r
    cases rest <;> rfl

theorem readAll_eq_none_of_mem (h : StopsAt stop read) (hc : stop c) (hm : c ∈ cs) :
    readAll read cs = none := by
  obtain ⟨before, tail, rfl⟩ := List.append_of_mem hm
  exact h.readAll_eq_none hc

end StopsAt

theorem readAll_eq_some_iff {read : Reader α} {a : α} :
    readAll read cs = some a ↔ read cs = some (a, []) := by
  unfold readAll
  constructor
  · intro h
    split at h
    · next a' hread => exact Option.some.inj h ▸ hread
    · cases h
  · intro h
    rw [h]

/-! ### Numbers -/

theorem readDigits_append_stop {base : Nat} (hc : digitValue? base c = none) (cs tail : List Char) :
    readDigits base (cs ++ c :: tail) =
      ((readDigits base cs).1, (readDigits base cs).2 ++ c :: tail) := by
  induction cs with
  | nil => simp [readDigits, hc]
  | cons d cs ih =>
    simp only [List.cons_append, readDigits, ih]
    cases digitValue? base d <;> rfl

theorem readDigits_suffix (base : Nat) (cs : List Char) : (readDigits base cs).2 <:+ cs := by
  induction cs with
  | nil => exact List.suffix_rfl
  | cons d cs ih =>
    simp only [readDigits]
    cases digitValue? base d with
    | none => exact List.suffix_rfl
    | some value => exact ih.trans (List.suffix_cons d cs)

theorem stopsAt_readNumber (rule : NumeralRule) :
    StopsAt (fun c => digitValue? rule.base c = none) (readNumber rule) := by
  refine ⟨fun cs c tail hc => ?_, fun cs r hr => ?_⟩
  · simp only [readNumber, readDigits_append_stop hc]
    split
    · rfl
    · split
      · rfl
      · split
        · rfl
        · split <;> rfl
  · obtain ⟨n, rest⟩ := r
    rw [readNumber_rest hr]
    exact readDigits_suffix rule.base cs

theorem stopsAt_readChar (x : Char) : StopsAt (· ≠ x) (readChar x) := by
  refine ⟨fun cs c tail hc => ?_, fun cs r hr => ?_⟩
  · cases cs with
    | nil => simp [readChar, hc]
    | cons d cs => by_cases hd : d = x <;> simp [readChar, hd]
  · cases cs with
    | nil => cases hr
    | cons d cs =>
      by_cases hd : d = x
      · simp only [readChar, hd, ↓reduceIte, Option.some.injEq] at hr
        obtain rfl := hr
        exact List.suffix_cons d cs
      · simp [readChar, hd] at hr

end Dialer.Text

namespace Dialer.Address

open Text (Reader StopsAt digitValue? stopsAt_readNumber stopsAt_readChar)

variable {α : Type} {cs tail : List Char} {c : Char}

/-! ### Version 4 -/

/-- The characters that no address of version 4 has. -/
def Outside4 (c : Char) : Prop := digitValue? 10 c = none ∧ c ≠ '.'

/-- The characters that no address has. -/
def Outside6 (c : Char) : Prop := digitValue? 16 c = none ∧ c ≠ '.' ∧ c ≠ ':'

theorem stopsAt_readOctet : StopsAt Outside4 readOctet :=
  ((stopsAt_readNumber octetRule).map UInt8.ofNat).mono fun _ hc => hc.1

theorem stopsAt_readIPv4 : StopsAt Outside4 readIPv4 := by
  have hpoint : StopsAt Outside4 (Text.readChar '.') :=
    (stopsAt_readChar '.').mono fun _ hc => hc.2
  exact stopsAt_readOctet.bind fun a => hpoint.bind fun _ => stopsAt_readOctet.bind fun b =>
    hpoint.bind fun _ => stopsAt_readOctet.bind fun c => hpoint.bind fun _ =>
      stopsAt_readOctet.bind fun d => .pure (⟨a, b, c, d⟩ : IPv4)

theorem Outside6.outside4 (h : Outside6 c) : Outside4 c := by
  refine ⟨?_, h.2.1⟩
  rw [Text.digitValue?_eq_filter (by decide), h.1]
  rfl

/-! ### Version 6 -/

theorem stopsAt_readGroup : StopsAt Outside6 readGroup :=
  ((stopsAt_readNumber groupRule).map UInt16.ofNat).mono fun _ hc => hc.1

theorem stopsAt_readSeparated {read : Reader α} (h : StopsAt Outside6 read) (first : Bool) :
    StopsAt Outside6 (readSeparated first read) := by
  cases first with
  | true => exact h
  | false =>
    refine ⟨fun cs c tail hc => ?_, fun cs r hr => ?_⟩
    · cases cs with
      | nil =>
        simp only [readSeparated, Bool.false_eq_true, ↓reduceIte, List.nil_append]
        split
        · next heq => exact absurd (List.cons.inj heq).1 hc.2.2
        · rfl
      | cons d cs =>
        simp only [readSeparated, Bool.false_eq_true, ↓reduceIte, List.cons_append]
        by_cases hd : d = ':'
        · subst hd
          exact h.append cs c tail hc
        · simp [hd]
    · simp only [readSeparated, Bool.false_eq_true, ↓reduceIte] at hr
      split at hr
      · exact (h.suffix _ r hr).trans (List.suffix_cons _ _)
      · cases hr

/-- The attempt to read an address of version 4 where two groups are left. -/
theorem stopsAt_dotted (room : Nat) (first : Bool) : StopsAt Outside6 fun cs =>
    if 1 ≤ room then readSeparated first readIPv4 cs else none := by
  by_cases hroom : 1 ≤ room
  · simp only [hroom, ↓reduceIte]
    exact stopsAt_readSeparated (stopsAt_readIPv4.mono fun _ hc => hc.outside4) first
  · simp only [hroom, ↓reduceIte]
    exact ⟨fun _ _ _ _ => rfl, fun _ _ hr => by cases hr⟩

/-- A run of groups ends where no address goes on. -/
theorem readGroups_append (hc : Outside6 c) (room : Nat) (first : Bool) (cs tail : List Char) :
    readGroups room first (cs ++ c :: tail) = { readGroups room first cs with
      rest := (readGroups room first cs).rest ++ c :: tail } := by
  induction room generalizing first cs with
  | zero => rfl
  | succ room ih =>
    have hdotted := (stopsAt_dotted room first).append cs c tail hc
    have hgroup := (stopsAt_readSeparated stopsAt_readGroup first).append cs c tail hc
    simp only [readGroups, hdotted, hgroup]
    cases if 1 ≤ room then readSeparated first readIPv4 cs else none with
    | some r => rfl
    | none =>
      cases readSeparated first readGroup cs with
      | none => rfl
      | some r => simp only [Option.map_none, Option.map_some, ih]

theorem readGroups_suffix (room : Nat) (first : Bool) (cs : List Char) :
    (readGroups room first cs).rest <:+ cs := by
  induction room generalizing first cs with
  | zero => exact List.suffix_rfl
  | succ room ih =>
    simp only [readGroups]
    split
    · next ip rest hr => exact (stopsAt_dotted room first).suffix cs (ip, rest) hr
    · split
      · next g rest hr =>
        exact (ih false rest).trans
          ((stopsAt_readSeparated stopsAt_readGroup first).suffix cs (g, rest) hr)
      · exact List.suffix_rfl

/-- The groups behind two colons, put together with those before them. -/
def readBack (front : List UInt16) : Reader IPv6 := fun cs =>
  let back := readGroups (7 - front.length) true cs
  (IPv6.ofEnds? front back.groups).map (·, back.rest)

theorem stopsAt_readBack (front : List UInt16) : StopsAt Outside6 (readBack front) := by
  refine ⟨fun cs c tail hc => ?_, fun cs r hr => ?_⟩
  · simp only [readBack, readGroups_append hc, Option.map_map]
    rfl
  · obtain ⟨ip, -, rfl⟩ := Option.map_eq_some_iff.mp hr
    exact readGroups_suffix _ true cs

/-- Two colons and what a reader makes of the text behind them. -/
def readColons (read : Reader α) : Reader α := fun cs =>
  match cs with
  | ':' :: ':' :: rest => read rest
  | _ => none

theorem readColons_eq (read : Reader α) : readColons read = fun cs =>
    (Text.readChar ':' cs).bind fun (_, cs) =>
      (Text.readChar ':' cs).bind fun (_, cs) => read cs := by
  funext cs
  rcases cs with _ | ⟨a, _ | ⟨b, cs⟩⟩
  · rfl
  · by_cases ha : a = ':' <;> simp [readColons, Text.readChar, ha]
  · by_cases ha : a = ':' <;> by_cases hb : b = ':' <;> simp [readColons, Text.readChar, ha, hb]

theorem stopsAt_readColons {read : Reader α} (h : StopsAt Outside6 read) :
    StopsAt Outside6 (readColons read) := by
  have hcolon : StopsAt Outside6 (Text.readChar ':') :=
    (stopsAt_readChar ':').mono fun _ hc => hc.2.2
  rw [readColons_eq]
  exact hcolon.bind fun _ => hcolon.bind fun _ => h

theorem readIPv6_eq (cs : List Char) : readIPv6 cs =
    let front := readGroups 8 true cs
    if front.groups.length = 8 then (IPv6.ofEnds? front.groups []).map (·, front.rest)
    else if front.dotted then none
    else readColons (readBack front.groups) front.rest := rfl

theorem stopsAt_readIPv6 : StopsAt Outside6 readIPv6 := by
  refine ⟨fun cs c tail hc => ?_, fun cs r hr => ?_⟩
  · simp only [readIPv6_eq, readGroups_append hc]
    split
    · rw [Option.map_map]
      rfl
    · split
      · rfl
      · exact (stopsAt_readColons (stopsAt_readBack _)).append _ c tail hc
  · have hfront := readGroups_suffix 8 true cs
    simp only [readIPv6_eq] at hr
    split at hr
    · obtain ⟨ip, -, rfl⟩ := Option.map_eq_some_iff.mp hr
      exact hfront
    · split at hr
      · cases hr
      · exact ((stopsAt_readColons (stopsAt_readBack _)).suffix _ r hr).trans hfront

end Dialer.Address
