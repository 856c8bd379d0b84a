import Dialer.Proofs.Address.Reading
import Dialer.Target

/-!
# Targets are read back

A target is written after `tcp://`, and may be read with that or without. What is written for it
gives it back, but for a flow label, which no text has: so the targets that texts spell are told
apart by what is written for them.
-/

namespace Dialer.Target

open Address (SocketAddress)

theorem splitScheme?_eq_none_iff (cs : List Char) :
    splitScheme? cs = none ↔ ¬ [':', '/', '/'] <:+: cs := by
  induction cs using splitScheme?.induct with
  | case1 rest => simpa [splitScheme?] using (List.prefix_append [':', '/', '/'] rest).isInfix
  | case2 => simp [splitScheme?]
  | case3 c cs hne ih =>
    have hfront : ¬ [':', '/', '/'] <+: c :: cs := by
      rintro ⟨rest, hrest⟩
      obtain ⟨rfl, rfl⟩ := List.cons.inj hrest
      exact hne rest rfl rfl
    rw [splitScheme?, Option.map_eq_none_iff, ih, List.infix_cons_iff]
    · simp [hfront]
    · exact hne

theorem splitScheme?_tcp (cs : List Char) :
    splitScheme? (['t', 'c', 'p', ':', '/', '/'] ++ cs) = some (['t', 'c', 'p'], cs) := rfl

theorem parse_append (text : String) (h : ¬ "://".toList <:+: text.toList) :
    parse ("tcp://" ++ text) = parse text := by
  have hnone : splitScheme? text.toList = none := (splitScheme?_eq_none_iff _).mpr h
  have hsome : splitScheme? ("tcp://" ++ text).toList = some (['t', 'c', 'p'], text.toList) := by
    rw [String.toList_append]
    exact splitScheme?_tcp text.toList
  simp only [parse, hnone, hsome, ↓reduceIte]

theorem parse_text_eq (t : Target) : parse t.text = .ok ⟨t.address.withoutFlow⟩ := by
  have hsome : splitScheme? t.text.toList = some (['t', 'c', 'p'], t.address.chars) := by
    have hchars : (String.ofList t.address.chars).toList = t.address.chars := String.toList_ofList
    rw [text, SocketAddress.text, String.toList_append, hchars]
    exact splitScheme?_tcp t.address.chars
  simp only [parse, hsome, ofAddressChars, SocketAddress.ofChars?_chars, ↓reduceIte]

/-- The targets that some text spells, perhaps beside a port. -/
inductive Spelled (t : Target) : Prop
  | whole {text : String} (h : parse text = .ok t)
  | parts {address : String} {port : UInt16} (h : ofParts address port = .ok t)
  | request {address : String} {port : UInt16} (h : ofRequest address port = .ok t)

theorem withoutFlow_of_ofAddressChars {cs : List Char} {t : Target}
    (h : ofAddressChars cs = .ok t) : t.address.withoutFlow = t.address := by
  unfold ofAddressChars at h
  split at h
  · next a ha =>
    obtain rfl := Except.ok.inj h
    exact SocketAddress.withoutFlow_of_ofChars? ha
  · cases h

theorem withoutFlow_of_parse {text : String} {t : Target} (h : parse text = .ok t) :
    t.address.withoutFlow = t.address := by
  unfold parse at h
  split at h
  · split at h
    · exact withoutFlow_of_ofAddressChars h
    · cases h
  · exact withoutFlow_of_ofAddressChars h

theorem withoutFlow_of_ofParts {address : String} {port : UInt16} {t : Target}
    (h : ofParts address port = .ok t) : t.address.withoutFlow = t.address := by
  unfold ofParts at h
  split at h
  · next ip _ =>
    obtain rfl := Except.ok.inj h
    exact SocketAddress.withoutFlow_ofIp ip port
  · cases h

/-- No text spells a flow label. -/
theorem Spelled.withoutFlow {t : Target} (h : Spelled t) : t.address.withoutFlow = t.address := by
  cases h with
  | whole h => exact withoutFlow_of_parse h
  | parts h => exact withoutFlow_of_ofParts h
  | request h =>
    unfold ofRequest at h
    split at h
    · exact withoutFlow_of_parse h
    · exact withoutFlow_of_ofParts h

theorem Spelled.parse_text {t : Target} (h : Spelled t) : parse t.text = .ok t := by
  rw [parse_text_eq, h.withoutFlow]

/-- Whatever spells a target, what is written for it spells it too, and no other; a text without a
scheme spells what it spells with one; and a socket address is read back without its flow label,
hence itself exactly if it has none. -/
theorem text_spells :
    (∀ t, Spelled t → parse t.text = .ok t) ∧
    (∀ t u, Spelled t → Spelled u → t.text = u.text → t = u) ∧
    (∀ text : String, ¬ "://".toList <:+: text.toList → parse ("tcp://" ++ text) = parse text) ∧
    ∀ a : SocketAddress, parse (Target.mk a).text = .ok ⟨a.withoutFlow⟩ ∧
      (parse (Target.mk a).text = .ok ⟨a⟩ ↔
        (∃ ip port, a = .v4 ip port) ∨ ∃ ip port scope, a = .v6 ip port 0 scope) := by
  refine ⟨fun t h => h.parse_text, fun t u ht hu heq => ?_, parse_append, fun a => ?_⟩
  · have hread := ht.parse_text
    rw [heq, hu.parse_text] at hread
    exact (Except.ok.inj hread).symm
  · refine ⟨parse_text_eq ⟨a⟩, ?_⟩
    rw [parse_text_eq, ← a.withoutFlow_eq_self_iff]
    simp

/-- An address with zeros in two places and a scope, which is read back, and a mapped one with a
flow label, which is not. -/
theorem text_spells_of_scoped :
    let onLink : Target := ⟨.v6 ⟨[0xfe80, 0, 0, 1, 0, 0, 0, 2], rfl⟩ 80 0 3⟩
    parse "[fe80:0:0:1::2%3]:80" = .ok onLink ∧ parse onLink.text = .ok onLink ∧
      parse (Target.mk (.v6 (.ofMapped ⟨10, 0, 0, 1⟩) 80 7 0)).text ≠
        .ok ⟨.v6 (.ofMapped ⟨10, 0, 0, 1⟩) 80 7 0⟩ := by
  intro onLink
  have hread : parse "[fe80:0:0:1::2%3]:80" = .ok onLink := by decide
  obtain ⟨hspelled, -, -, hall⟩ := text_spells
  refine ⟨hread, hspelled onLink (.whole hread), fun h => ?_⟩
  rcases (hall _).2.mp h with ⟨ip, port, ha⟩ | ⟨ip, port, scope, ha⟩
  · cases ha
  · injection ha with _ _ hflow
    exact absurd hflow (by decide)

end Dialer.Target
