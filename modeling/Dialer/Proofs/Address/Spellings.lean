import Dialer.Proofs.Address.Stopping
import Dialer.Proofs.Address.Targets

/-!
# Two spellings of a target

An address beside a port can be spelled as one text with a scheme, in which an address of version 6
gets brackets if it has none. Both spellings are of the same target, with one exception: beside a
port an address of version 4 may stand in brackets, in the one text it may not.
-/

namespace Dialer.Address

open Text (Reader readAll readChar writeNumber)

variable {cs : List Char}

/-- What stands for a port behind an address. -/
def portChars (port : UInt16) : List Char := ':' :: writeNumber 10 port.toNat

theorem not_mem_portChars {c : Char} (hc : Outside6 c) (port : UInt16) : c ∉ portChars port := by
  intro hm
  rcases List.mem_cons.mp hm with rfl | hm
  · exact hc.2.2 rfl
  · exact Text.not_mem_writeNumber (by decide) (by decide) hc.1 _ hm

theorem outside6_bracket : Outside6 ']' ∧ Outside6 '[' := by
  refine ⟨⟨by decide, by decide, by decide⟩, by decide, by decide, by decide⟩

theorem outside4_colon : Outside4 ':' := ⟨by decide, by decide⟩

/-! ### Addresses -/

/-- An address of version 4 at the head of a text keeps one of version 6 from being read there. -/
theorem readIPv6_of_readIPv4 {r : IPv4 × List Char} (h : readIPv4 cs = some r) :
    readIPv6 cs = none := by
  have hfront : readGroups 8 true cs = ⟨r.1.groups, true, r.2⟩ :=
    readGroups_of_dotted (by decide) h
  simp [readIPv6_eq, hfront, IPv4.groups]

theorem Ip.ofChars?_eq (cs : List Char) : Ip.ofChars? cs =
    ((readAll readIPv4 cs).map Ip.v4).or ((readAll readIPv6 cs).map Ip.v6) := by
  unfold Ip.ofChars? Text.readAll readIp
  cases h : readIPv4 cs with
  | some r =>
    rw [readIPv6_of_readIPv4 h]
    obtain ⟨ip, rest⟩ := r
    cases rest <;> rfl
  | none =>
    cases readIPv6 cs with
    | none => rfl
    | some r =>
      obtain ⟨ip, rest⟩ := r
      cases rest <;> rfl

theorem Ip.ofChars?_eq_none {c : Char} (hc : Outside6 c) (hm : c ∈ cs) :
    Ip.ofChars? cs = none := by
  rw [Ip.ofChars?_eq, stopsAt_readIPv4.readAll_eq_none_of_mem hc.outside4 hm,
    stopsAt_readIPv6.readAll_eq_none_of_mem hc hm]
  rfl

theorem readGroups_eq_nil (h : ':' ∉ cs) (room : Nat) : (readGroups room false cs).groups = [] := by
  have hsep : ∀ {α : Type} (read : Reader α), readSeparated false read cs = none := by
    intro α read
    cases cs with
    | nil => rfl
    | cons c cs =>
      have hc : c ≠ ':' := fun hc => h (hc ▸ List.mem_cons_self)
      simp [readSeparated, hc]
  cases room with
  | zero => rfl
  | succ room => simp [readGroups, hsep]

theorem length_readGroups_le (h : ':' ∉ cs) (room : Nat) :
    (readGroups room true cs).groups.length ≤ 2 := by
  cases room with
  | zero => exact Nat.zero_le _
  | succ room =>
    simp only [readGroups]
    split
    · exact Nat.le_refl 2
    · split
      · next g rest hr =>
        have hrest : rest <:+ cs := stopsAt_readGroup.suffix cs (g, rest) hr
        simp [readGroups_eq_nil (fun hm => h (hrest.subset hm)) room]
      · exact Nat.zero_le _

theorem readIPv6_eq_none (h : ':' ∉ cs) : readIPv6 cs = none := by
  have hlen : (readGroups 8 true cs).groups.length ≠ 8 := by
    have hle := length_readGroups_le h 8
    omega
  have hrest := readGroups_suffix 8 true cs
  simp only [readIPv6_eq, if_neg hlen]
  split
  · rfl
  · generalize (readGroups 8 true cs).rest = rest at hrest
    cases rest with
    | nil => rfl
    | cons c rest =>
      have hc : c ≠ ':' := fun hc => h (hrest.subset (hc ▸ List.mem_cons_self))
      simp [readColons, hc]

/-! ### Socket addresses -/

theorem readPort_append {y : List Char} (hy : y ≠ []) (port q : UInt16) :
    readPort (y ++ portChars port) ≠ some (q, []) := by
  intro h
  cases y with
  | nil => exact hy rfl
  | cons c y =>
    by_cases hc : c = ':'
    · have hstop := (Text.stopsAt_readNumber portRule).append y ':' (writeNumber 10 port.toNat)
        (by decide)
      have hread : readPort (c :: y ++ portChars port) =
          (Text.readNumber portRule (y ++ portChars port)).map
            fun r => (UInt16.ofNat r.1, r.2) := by
        simp only [readPort, List.cons_append, readChar, hc, ↓reduceIte, Option.bind_eq_bind,
          Option.bind_some]
        cases Text.readNumber portRule (y ++ portChars port) <;> rfl
      rw [hread, portChars, hstop, Option.map_map, Option.map_eq_some_iff] at h
      obtain ⟨r, -, hr⟩ := h
      simp at hr
    · simp [readPort, readChar, hc] at h

theorem readIPv4_bracket (cs : List Char) : readIPv4 ('[' :: cs) = none :=
  (stopsAt_readIPv4.append [] '[' cs outside6_bracket.2.outside4).trans rfl

/-- Before a port an address of version 4 is read if the text before it is one. -/
theorem readSocketV4_append (h : ':' ∉ cs) (port : UInt16) :
    readSocketV4 (cs ++ portChars port) =
      (readAll readIPv4 cs).map fun ip => (.v4 ip port, []) := by
  have hstop := stopsAt_readIPv4.append cs ':' (writeNumber 10 port.toNat) outside4_colon
  rw [readSocketV4, portChars, hstop]
  unfold readAll
  cases hread : readIPv4 cs with
  | none => rfl
  | some r =>
    obtain ⟨ip, rest⟩ := r
    cases rest with
    | nil => simp [readPort_write]
    | cons c rest =>
      have hc : c ≠ ':' := fun hc => h ((stopsAt_readIPv4.suffix cs _ hread).subset (by simp [hc]))
      simp [readPort, readChar, hc]

/-- Between brackets an address of version 6 is read if the text between them is one. -/
theorem readSocketV6_bracket {x : List Char} (hx : ']' ∉ x) (hscope : '%' ∉ x) (y : List Char) :
    readSocketV6 ('[' :: (x ++ ']' :: y)) = (readAll readIPv6 x).bind fun ip =>
      (readPort y).map fun r => (.v6 ip r.1 0 0, r.2) := by
  have hstop := stopsAt_readIPv6.append x ']' y outside6_bracket.1
  simp only [readSocketV6, readChar_cons, Option.bind_eq_bind, Option.bind_some, hstop]
  unfold readAll
  cases hread : readIPv6 x with
  | none => rfl
  | some r =>
    obtain ⟨ip, rest⟩ := r
    cases rest with
    | nil =>
      simp [readScope, readChar]
      cases readPort y <;> rfl
    | cons c rest =>
      have hsub := (stopsAt_readIPv6.suffix x _ hread).subset
      have hc : c ≠ ']' := fun hc => hx (hsub (by simp [hc]))
      have hp : c ≠ '%' := fun hp => hscope (hsub (by simp [hp]))
      simp [readScope, readChar, hc, hp]

theorem readScope_suffix (cs : List Char) : (readScope cs).2 <:+ cs := by
  unfold readScope
  split
  · split
    · next rest _ n left hread =>
      exact ((Text.stopsAt_readNumber scopeRule).suffix _ _ hread).trans (List.suffix_cons _ _)
    · exact List.suffix_rfl
  · exact List.suffix_rfl

theorem readSocketV6_eq_none (h : ']' ∉ cs) : readSocketV6 ('[' :: cs) = none := by
  simp only [readSocketV6, readChar_cons, Option.bind_eq_bind, Option.bind_some]
  cases hread : readIPv6 cs with
  | none => rfl
  | some r =>
    have hsub := (readScope_suffix r.2).trans (stopsAt_readIPv6.suffix cs r hread)
    have hclose : readChar ']' (readScope r.2).2 = none := by
      cases hs : (readScope r.2).2 with
      | nil => rfl
      | cons c rest =>
        have hc : c ≠ ']' := fun hc => h (hsub.subset (by simp [hs, hc]))
        simp [readChar, hc]
    simp [hclose]

section Whole

variable {x y : List Char}

/-- Without brackets only an address of version 4 can stand before a port. -/
theorem SocketAddress.ofChars?_plain (h : ':' ∉ cs) (hhead : cs.head? ≠ some '[') (port : UInt16) :
    ofChars? (cs ++ portChars port) = (readAll readIPv4 cs).map (.v4 · port) := by
  have hv6 : readSocketV6 (cs ++ portChars port) = none := by
    cases cs with
    | nil => rfl
    | cons c cs =>
      have hc : c ≠ '[' := fun hc => hhead (by simp [hc])
      simp [readSocketV6, readChar, hc]
  simp only [ofChars?, readAll, readSocketAddress, readSocketV4_append h, hv6, Option.or_none]
  cases readIPv4 cs with
  | none => rfl
  | some r =>
    obtain ⟨ip, rest⟩ := r
    cases rest <;> rfl

/-- A text that begins with brackets is a socket address if nothing but the port is behind them, and
an address of version 6 between. -/
theorem SocketAddress.ofChars?_bracket (hx : ']' ∉ x) (hscope : '%' ∉ x) (port : UInt16) :
    ofChars? ('[' :: (x ++ ']' :: y) ++ portChars port) =
      if y = [] then (readAll readIPv6 x).map (.v6 · port 0 0) else none := by
  have hv4 : readSocketV4 ('[' :: (x ++ ']' :: (y ++ portChars port))) = none := by
    simp [readSocketV4, readIPv4_bracket]
  simp only [ofChars?, List.cons_append, List.append_assoc]
  rw [readAll, readSocketAddress, hv4, readSocketV6_bracket hx hscope, Option.none_or]
  by_cases hy : y = []
  · rw [if_pos hy, hy, List.nil_append, portChars, readPort_write]
    cases readAll readIPv6 x <;> rfl
  · rw [if_neg hy]
    cases readAll readIPv6 x with
    | none => rfl
    | some ip =>
      cases hport : readPort (y ++ portChars port) with
      | none => rfl
      | some r =>
        obtain ⟨q, rest⟩ := r
        cases rest with
        | nil => exact absurd hport (readPort_append hy port q)
        | cons c rest => rfl

theorem SocketAddress.ofChars?_unclosed (h : ']' ∉ cs) (port : UInt16) :
    ofChars? ('[' :: cs ++ portChars port) = none := by
  have hclose : ']' ∉ cs ++ portChars port := fun hm =>
    (List.mem_append.mp hm).elim h (not_mem_portChars outside6_bracket.1 port)
  simp [ofChars?, readAll, readSocketAddress, readSocketV4, readIPv4_bracket,
    readSocketV6_eq_none hclose]

end Whole

end Dialer.Address

namespace Dialer.Target

open Address (Ip SocketAddress portChars)
open Text (readAll)

variable {cs : List Char}

/-- How an address is spelled in one text with its port: one of version 6 in brackets. -/
def host (cs : List Char) : List Char :=
  if ':' ∈ cs ∧ cs.head? ≠ some '[' then '[' :: (cs ++ [']']) else cs

theorem unbracket_of_head (h : cs.head? ≠ some '[') : unbracket cs = cs := by
  unfold unbracket
  split
  · exact absurd rfl h
  · rfl

theorem unbracket_bracket (x : List Char) : unbracket ('[' :: (x ++ [']'])) = x := by
  simp [unbracket]

theorem ofChars?_unbracket_eq_none {rest : List Char}
    (h : ∀ x, ']' ∉ x → rest ≠ x ++ [']']) : Ip.ofChars? (unbracket ('[' :: rest)) = none := by
  unfold unbracket
  split
  · next heq =>
    obtain ⟨-, rfl⟩ := List.cons.inj heq
    split
    · next hlast =>
      obtain ⟨x, rfl⟩ := List.getLast?_eq_some_iff.mp hlast
      rw [List.dropLast_concat]
      by_cases hx : ']' ∈ x
      · exact Ip.ofChars?_eq_none Address.outside6_bracket.1 hx
      · exact absurd rfl (h x hx)
    · exact Ip.ofChars?_eq_none Address.outside6_bracket.2 List.mem_cons_self
  · exact Ip.ofChars?_eq_none Address.outside6_bracket.2 List.mem_cons_self

/-- The text is an address of version 4 in brackets. -/
def IsBracketed4 (cs : List Char) : Prop :=
  ∃ x ip, cs = '[' :: (x ++ [']']) ∧ Ip.ofChars? x = some (.v4 ip)

theorem not_isBracketed4_of_head (h : cs.head? ≠ some '[') : ¬ IsBracketed4 cs := by
  rintro ⟨x, ip, rfl, -⟩
  exact h rfl

/-- A text in brackets is read as an address of version 6 before a port, and as any address beside
one. -/
theorem ofChars?_in_brackets {x : List Char} (hx : ']' ∉ x) (hscope : '%' ∉ x) (port : UInt16)
    (a : SocketAddress) : SocketAddress.ofChars? ('[' :: (x ++ [']']) ++ portChars port) = some a ↔
      ∃ ip, Ip.ofChars? x = some ip ∧ a = .ofIp ip port ∧ ¬ IsBracketed4 ('[' :: (x ++ [']'])) := by
  have hclose : ∀ {x' : List Char}, '[' :: (x ++ [']']) = '[' :: (x' ++ [']']) → x' = x :=
    fun heq => (List.append_cancel_right (List.cons.inj heq).2).symm
  rw [SocketAddress.ofChars?_bracket hx hscope, if_pos rfl]
  cases h4 : readAll Address.readIPv4 x with
  | some v4 =>
    have hip : Ip.ofChars? x = some (.v4 v4) := by
      rw [Ip.ofChars?_eq, h4]
      rfl
    have h6 : readAll Address.readIPv6 x = none := by
      rw [readAll, Address.readIPv6_of_readIPv4 (Text.readAll_eq_some_iff.mp h4)]
    rw [h6]
    constructor
    · intro h
      cases h
    · rintro ⟨_, -, -, hno⟩
      exact absurd ⟨x, v4, rfl, hip⟩ hno
  | none =>
    have hip : Ip.ofChars? x = (readAll Address.readIPv6 x).map Ip.v6 := by
      rw [Ip.ofChars?_eq, h4]
      rfl
    have hno : ¬ IsBracketed4 ('[' :: (x ++ [']'])) := by
      rintro ⟨x', v4, heq, h⟩
      rw [hclose heq, hip] at h
      obtain ⟨v6, -, hv⟩ := Option.map_eq_some_iff.mp h
      cases hv
    rw [hip]
    constructor
    · intro h
      obtain ⟨v6, hread, rfl⟩ := Option.map_eq_some_iff.mp h
      exact ⟨.v6 v6, by rw [hread]; rfl, rfl, hno⟩
    · rintro ⟨ip, h, rfl, -⟩
      obtain ⟨v6, hread, rfl⟩ := Option.map_eq_some_iff.mp h
      rw [hread]
      rfl

/-- A text that begins with a bracket is read alike before a port and beside one, but for an address
of version 4 in brackets. -/
theorem ofChars?_bracket_iff {rest : List Char} (hscope : '%' ∉ rest) (port : UInt16)
    (a : SocketAddress) : SocketAddress.ofChars? ('[' :: rest ++ portChars port) = some a ↔
      ∃ ip, Ip.ofChars? (unbracket ('[' :: rest)) = some ip ∧ a = .ofIp ip port ∧
        ¬ IsBracketed4 ('[' :: rest) := by
  by_cases hm : ']' ∈ rest
  · obtain ⟨x, y, rfl, hx⟩ := List.eq_append_cons_of_mem hm
    have hxscope : '%' ∉ x := fun hm => hscope (List.mem_append_left _ hm)
    by_cases hy : y = []
    · subst hy
      rw [unbracket_bracket]
      exact ofChars?_in_brackets hx hxscope port a
    · rw [SocketAddress.ofChars?_bracket hx hxscope, if_neg hy, ofChars?_unbracket_eq_none]
      · simp
      · intro x' hx' heq
        obtain ⟨y, z, rfl⟩ := List.eq_nil_or_concat' y |>.resolve_left hy
        rw [← List.cons_append, ← List.append_assoc] at heq
        exact hx' ((List.append_inj' heq rfl).1 ▸ List.mem_append_right x List.mem_cons_self)
  · rw [SocketAddress.ofChars?_unclosed hm, ofChars?_unbracket_eq_none]
    · simp
    · rintro x - rfl
      exact hm (by simp)

/-- A text with a colon, which can be no address of version 4, gets the brackets that it has not. -/
theorem ofChars?_bracketed (hcolon : ':' ∈ cs) (hscope : '%' ∉ cs) (port : UInt16) :
    SocketAddress.ofChars? ('[' :: (cs ++ [']']) ++ portChars port) =
      (Ip.ofChars? cs).map (.ofIp · port) := by
  have h4 : readAll Address.readIPv4 cs = none :=
    Address.stopsAt_readIPv4.readAll_eq_none_of_mem Address.outside4_colon hcolon
  by_cases hm : ']' ∈ cs
  · obtain ⟨x, y, rfl, hx⟩ := List.eq_append_cons_of_mem hm
    have hxscope : '%' ∉ x := fun hm => hscope (List.mem_append_left _ hm)
    have happend : '[' :: (x ++ ']' :: y ++ [']']) = '[' :: (x ++ ']' :: (y ++ [']'])) := by simp
    rw [happend, SocketAddress.ofChars?_bracket hx hxscope, if_neg (by simp),
      Ip.ofChars?_eq_none Address.outside6_bracket.1 hm]
    rfl
  · rw [SocketAddress.ofChars?_bracket hm hscope, if_pos rfl, Ip.ofChars?_eq, h4]
    cases readAll Address.readIPv6 cs <;> rfl

/-- A text without a colon, which can be no address of version 6, gets no brackets. -/
theorem ofChars?_unbracketed (hcolon : ':' ∉ cs) (hhead : cs.head? ≠ some '[') (port : UInt16) :
    SocketAddress.ofChars? (cs ++ portChars port) = (Ip.ofChars? cs).map (.ofIp · port) := by
  have h6 : readAll Address.readIPv6 cs = none := by
    rw [readAll, Address.readIPv6_eq_none hcolon]
  rw [SocketAddress.ofChars?_plain hcolon hhead, Ip.ofChars?_eq, h6]
  cases readAll Address.readIPv4 cs <;> rfl

/-- What one text spells and what an address and a port spell, but for brackets around version 4. -/
theorem ofChars?_host_iff (hscope : '%' ∉ cs) (port : UInt16) (a : SocketAddress) :
    SocketAddress.ofChars? (host cs ++ portChars port) = some a ↔
      ∃ ip, Ip.ofChars? (unbracket cs) = some ip ∧ a = .ofIp ip port ∧ ¬ IsBracketed4 cs := by
  by_cases hhead : cs.head? = some '['
  · obtain ⟨rest, rfl⟩ := List.head?_eq_some_iff.mp hhead
    have hhost : host ('[' :: rest) = '[' :: rest := if_neg fun h => h.2 rfl
    rw [hhost]
    exact ofChars?_bracket_iff (fun hm => hscope (List.mem_cons_of_mem _ hm)) port a
  · have hread : SocketAddress.ofChars? (host cs ++ portChars port) =
        (Ip.ofChars? cs).map (.ofIp · port) := by
      by_cases hcolon : ':' ∈ cs
      · have hhost : host cs = '[' :: (cs ++ [']']) := if_pos ⟨hcolon, hhead⟩
        rw [hhost]
        exact ofChars?_bracketed hcolon hscope port
      · have hhost : host cs = cs := if_neg fun h => hcolon h.1
        rw [hhost]
        exact ofChars?_unbracketed hcolon hhead port
    rw [hread, unbracket_of_head hhead, Option.map_eq_some_iff]
    simp [not_isBracketed4_of_head hhead, eq_comm]

/-- The text with a scheme that an address and a port are spelled as. -/
def spelled (address : String) (port : UInt16) : String :=
  "tcp://" ++ String.ofList (host address.toList) ++ ":" ++ Text.decimal port.toNat

theorem ofRequest_spelled (address : String) (port q : UInt16) :
    ofRequest (spelled address port) q =
      ofAddressChars (host address.toList ++ portChars port) := by
  have hchars : (spelled address port).toList =
      ['t', 'c', 'p', ':', '/', '/'] ++ (host address.toList ++ portChars port) := by
    simp [spelled, portChars, Text.decimal]
  have hsplit : splitScheme? (spelled address port).toList =
      some (['t', 'c', 'p'], host address.toList ++ portChars port) := by
    rw [hchars]
    exact splitScheme?_tcp _
  simp only [ofRequest, parse, hsplit, Option.isSome_some, ↓reduceIte]

theorem ofAddressChars_eq_ok_iff {t : Target} :
    ofAddressChars cs = .ok t ↔ SocketAddress.ofChars? cs = some t.address := by
  unfold ofAddressChars
  cases SocketAddress.ofChars? cs with
  | none => simp
  | some a =>
    cases t
    simp

theorem ofRequest_eq_ok_iff {address : String} (h : ¬ "://".toList <:+: address.toList)
    {port : UInt16} {t : Target} : ofRequest address port = .ok t ↔
      ∃ ip, Ip.ofChars? (unbracket address.toList) = some ip ∧ t.address = .ofIp ip port := by
  have hnone : splitScheme? address.toList = none := (splitScheme?_eq_none_iff _).mpr h
  simp only [ofRequest, hnone, Option.isSome_none, Bool.false_eq_true, ↓reduceIte, ofParts]
  cases Ip.ofChars? (unbracket address.toList) with
  | none => simp
  | some ip =>
    cases t
    simp [eq_comm]

/-- The one text spells what an address and a port do, unless it is an address of version 4 in
brackets. -/
theorem ofRequest_spelled_iff {address : String} (h : ¬ "://".toList <:+: address.toList)
    (hscope : '%' ∉ address.toList) (port q : UInt16) (t : Target) :
    ofRequest (spelled address port) q = .ok t ↔
      ofRequest address port = .ok t ∧ ¬ IsBracketed4 address.toList := by
  rw [ofRequest_spelled, ofAddressChars_eq_ok_iff, ofChars?_host_iff hscope, ofRequest_eq_ok_iff h]
  constructor
  · rintro ⟨ip, hip, ha, hno⟩
    exact ⟨⟨ip, hip, ha⟩, hno⟩
  · rintro ⟨⟨ip, hip, ha⟩, hno⟩
    exact ⟨ip, hip, ha, hno⟩

theorem ofRequest_brackets {literal : String}
    (h : ¬ "://".toList <:+: ("[" ++ literal ++ "]").toList) (port : UInt16) :
    (∃ t, ofRequest ("[" ++ literal ++ "]") port = .ok t) ↔
      ∃ ip, Ip.ofChars? literal.toList = some ip := by
  have hchars : ("[" ++ literal ++ "]").toList = '[' :: (literal.toList ++ [']']) := by simp
  simp only [ofRequest_eq_ok_iff h, hchars, unbracket_bracket]
  constructor
  · rintro ⟨t, ip, hip, -⟩
    exact ⟨ip, hip⟩
  · rintro ⟨ip, hip⟩
    exact ⟨⟨.ofIp ip port⟩, ip, hip, rfl⟩

theorem isBracketed4_iff {literal : String} :
    IsBracketed4 ("[" ++ literal ++ "]").toList ↔
      ∃ ip, Ip.ofChars? literal.toList = some (.v4 ip) := by
  have hchars : ("[" ++ literal ++ "]").toList = '[' :: (literal.toList ++ [']']) := by simp
  rw [hchars]
  constructor
  · rintro ⟨x, ip, heq, hip⟩
    obtain rfl := List.append_cancel_right (List.cons.inj heq).2
    exact ⟨ip, hip⟩
  · rintro ⟨ip, hip⟩
    exact ⟨_, ip, rfl, hip⟩

/-- Whatever the one text spells, the address spells beside the port; the other way around this
holds of all texts but those that are an address of version 4 in brackets. For brackets may stand
around any address beside a port, but only around those of version 6 in the one text. -/
theorem spellings_agree_iff {address : String} (h : ¬ "://".toList <:+: address.toList)
    (hscope : '%' ∉ address.toList) :
    (∀ port q t, ofRequest (spelled address port) q = .ok t → ofRequest address port = .ok t) ∧
    ((∀ port q t, ofRequest address port = .ok t ↔ ofRequest (spelled address port) q = .ok t) ↔
      ¬ IsBracketed4 address.toList) ∧
    ∀ literal, address = "[" ++ literal ++ "]" → ∀ port q,
      ((∃ t, ofRequest address port = .ok t) ↔ ∃ ip, Ip.ofChars? literal.toList = some ip) ∧
      ((∃ t, ofRequest (spelled address port) q = .ok t) ↔
        ∃ ip, Ip.ofChars? literal.toList = some (.v6 ip)) := by
  have hiff := ofRequest_spelled_iff h hscope
  refine ⟨fun port q t ht => ((hiff port q t).mp ht).1,
    ⟨fun hall hv4 => ?_, fun hno port q t => ?_⟩, ?_⟩
  · obtain ⟨x, ip, hx, hip⟩ := id hv4
    have hshort : ofRequest address 0 = .ok ⟨.ofIp (.v4 ip) 0⟩ := by
      rw [ofRequest_eq_ok_iff h, hx, unbracket_bracket]
      exact ⟨_, hip, rfl⟩
    exact ((hiff 0 0 _).mp ((hall 0 0 _).mp hshort)).2 hv4
  · rw [hiff]
    exact (and_iff_left hno).symm
  · rintro literal rfl port q
    refine ⟨ofRequest_brackets h port, ?_⟩
    simp only [hiff, exists_and_right, ofRequest_brackets h, isBracketed4_iff]
    constructor
    · rintro ⟨⟨ip, hip⟩, hno⟩
      cases ip with
      | v4 ip => exact absurd ⟨ip, hip⟩ hno
      | v6 ip => exact ⟨ip, hip⟩
    · rintro ⟨ip, hip⟩
      exact ⟨⟨_, hip⟩, fun ⟨v4, hv4⟩ => by cases hip.symm.trans hv4⟩

/-- An address of version 6 may have brackets in both spellings, and need not in either. -/
theorem spellings_agree_of_loopback :
    ofRequest (spelled "::1" 80) 7 = .ok ⟨.v6 .loopback 80 0 0⟩ ∧
      ofRequest (spelled "[::1]" 80) 7 = .ok ⟨.v6 .loopback 80 0 0⟩ := by
  have hplain : ¬ IsBracketed4 "::1".toList := not_isBracketed4_of_head (by decide)
  have hbracket : ¬ IsBracketed4 "[::1]".toList := by
    have hchars : "[::1]".toList = ("[" ++ "::1" ++ "]").toList := by decide
    have hloopback : Ip.ofChars? "::1".toList = some (.v6 .loopback) := by decide
    rw [hchars, isBracketed4_iff, hloopback]
    simp
  have hscheme : ¬ "://".toList <:+: "::1".toList := (splitScheme?_eq_none_iff _).mp (by decide)
  have hscheme' : ¬ "://".toList <:+: "[::1]".toList := (splitScheme?_eq_none_iff _).mp (by decide)
  obtain ⟨-, hagree, -⟩ := spellings_agree_iff hscheme (by decide)
  obtain ⟨-, hagree', -⟩ := spellings_agree_iff hscheme' (by decide)
  exact ⟨(hagree.mpr hplain 80 7 _).mp (by decide), (hagree'.mpr hbracket 80 7 _).mp (by decide)⟩

/-- An address of version 4 in brackets is accepted beside a port and not in one text with it. -/
theorem spellings_differ_in_brackets :
    ¬ "://".toList <:+: "[10.0.0.1]".toList ∧ '%' ∉ "[10.0.0.1]".toList ∧
      spelled "[10.0.0.1]" 22 = "tcp://[10.0.0.1]:22" ∧
      ofRequest "[10.0.0.1]" 22 = .ok ⟨.v4 ⟨10, 0, 0, 1⟩ 22⟩ ∧
      ofRequest "tcp://[10.0.0.1]:22" 0 = .error (.address "[10.0.0.1]:22") := by
  have hport : Text.decimal (22 : UInt16).toNat = "22" := by
    simp [Text.decimal, Text.writeNumber, Text.digits, Text.digitChar]
  have hspelled : spelled "[10.0.0.1]" 22 = "tcp://[10.0.0.1]:22" := by
    rw [spelled, hport]
    decide
  exact ⟨(splitScheme?_eq_none_iff _).mp (by decide), by decide, hspelled, by decide, by decide⟩

end Dialer.Target
