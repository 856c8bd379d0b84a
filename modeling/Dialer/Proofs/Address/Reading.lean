import Dialer.Address.SocketAddress
import Dialer.Proofs.Text.Numerals

/-!
# Addresses are read back

Every reader of an address takes what is written for one and leaves what follows, provided that it
does not look like more of the address. For version 6 this turns on the zeros that are left out: the
groups before the two colons end there, and those behind them are too few to fill the address, so
that the zeros between are just the ones that were left out.
-/

namespace Dialer.Address

open Text (readChar readNumber writeNumber digitValue? EndsDigits endsDigits_cons endsDigits_nil
  readNumber_writeNumber)

variable {rest : List Char}

/-! ### Version 4 -/

theorem readOctet_write (x : UInt8) (h : EndsDigits 10 rest) :
    readOctet (writeNumber 10 x.toNat ++ rest) = some (x, rest) := by
  have hx := x.toNat_lt
  have hread : readNumber octetRule (writeNumber octetRule.base x.toNat ++ rest) =
      some (x.toNat, rest) :=
    readNumber_writeNumber (by decide) (by decide) hx (fun k hk => by
      obtain rfl := Option.some.inj hk
      exact ⟨by decide, Nat.lt_of_lt_of_le hx (by decide)⟩) h
  have hread : readNumber octetRule (writeNumber 10 x.toNat ++ rest) = some (x.toNat, rest) := hread
  simp [readOctet, hread]

theorem endsDigits_point (rest : List Char) : EndsDigits 10 ('.' :: rest) :=
  endsDigits_cons (by decide) rest

theorem readChar_cons (c : Char) (rest : List Char) :
    readChar c (c :: rest) = some ((), rest) := by
  simp [readChar]

theorem readIPv4_chars (ip : IPv4) (h : EndsDigits 10 rest) :
    readIPv4 (ip.chars ++ rest) = some (ip, rest) := by
  have hpoint : ∀ (x : UInt8) (rest : List Char),
      readOctet (writeNumber 10 x.toNat ++ '.' :: rest) = some (x, '.' :: rest) :=
    fun x rest => readOctet_write x (endsDigits_point rest)
  simp only [readIPv4, IPv4.chars, List.append_assoc, List.cons_append, hpoint, readChar_cons,
    readOctet_write ip.d h, Option.bind_eq_bind, Option.bind_some]
  rfl

theorem readIPv4_append_eq_none {text : List Char} (htext : '.' ∉ text) (h : EndsDigits 10 rest)
    (hrest : rest.head? ≠ some '.') : readIPv4 (text ++ rest) = none := by
  cases hread : readNumber octetRule (text ++ rest) with
  | none => simp [readIPv4, readOctet, hread]
  | some read =>
    obtain ⟨n, left⟩ := read
    have hleft : left.head? ≠ some '.' := by
      rw [Text.readNumber_rest hread]
      exact Text.head?_readDigits_ne htext h hrest
    have hpoint : readChar '.' left = none := by
      cases left with
      | nil => rfl
      | cons c left =>
        have hne : c ≠ '.' := fun hc => hleft (by simp [hc])
        simp [readChar, hne]
    simp [readIPv4, readOctet, hread, hpoint]

theorem readIPv4_eq_none (h : EndsDigits 10 rest) (hrest : rest.head? ≠ some '.') :
    readIPv4 rest = none :=
  readIPv4_append_eq_none List.not_mem_nil h hrest

theorem IPv4.groups_ofGroups (high low : UInt16) :
    (IPv4.ofGroups high low).groups = [high, low] := by
  have hjoin : ∀ x : UInt16, (x / 256).toUInt8.toUInt16 * 256 + x.toUInt8.toUInt16 = x := by
    intro x
    apply UInt16.toNat_inj.mp
    have hx := x.toNat_lt
    have hbase : (256 : UInt16).toNat = 256 := rfl
    simp only [UInt16.toNat_add, UInt16.toNat_mul, UInt8.toNat_toUInt16, UInt16.toNat_toUInt8,
      UInt16.toNat_div, hbase]
    omega
  simp only [IPv4.groups, IPv4.ofGroups, hjoin]

/-! ### Runs of groups -/

theorem readGroup_write (x : UInt16) (h : EndsDigits 16 rest) :
    readGroup (writeNumber 16 x.toNat ++ rest) = some (x, rest) := by
  have hx := x.toNat_lt
  have hread : readNumber groupRule (writeNumber groupRule.base x.toNat ++ rest) =
      some (x.toNat, rest) :=
    readNumber_writeNumber (by decide) (by decide) hx (fun k hk => by
      obtain rfl := Option.some.inj hk
      exact ⟨by decide, hx⟩) h
  have hread : readNumber groupRule (writeNumber 16 x.toNat ++ rest) = some (x.toNat, rest) := hread
  simp [readGroup, hread]

theorem readGroup_eq_none (h : EndsDigits 16 rest) : readGroup rest = none := by
  simp [readGroup, readNumber, groupRule, Text.readDigits_of_ends h]

/-- The text goes on with neither a group nor a point, nor with a colon and a group. -/
structure EndsGroups (rest : List Char) : Prop where
  digits : EndsDigits 16 rest
  point : rest.head? ≠ some '.'
  colon : ∀ left, rest = ':' :: left → EndsDigits 16 left ∧ left.head? ≠ some '.'

theorem endsGroups_cons {c : Char} (hd : digitValue? 16 c = none) (hp : c ≠ '.') (hc : c ≠ ':')
    (rest : List Char) : EndsGroups (c :: rest) :=
  ⟨endsDigits_cons hd rest, by simpa using hp, fun _ h => absurd (List.cons.inj h).1 hc⟩

theorem endsGroups_colons (rest : List Char) : EndsGroups (':' :: ':' :: rest) := by
  refine ⟨endsDigits_cons (by decide) _, by simp, fun left h => ?_⟩
  obtain rfl := (List.cons.inj h).2
  exact ⟨endsDigits_cons (by decide) _, by simp⟩

theorem EndsGroups.octets (h : EndsGroups rest) : EndsDigits 10 rest :=
  h.digits.mono (by decide) (by decide)

/-- An address of version 4 ends the run. -/
theorem readGroups_of_dotted {room : Nat} {first : Bool} {cs left : List Char} {ip : IPv4}
    (hroom : 1 ≤ room) (h : readSeparated first readIPv4 cs = some (ip, left)) :
    readGroups (room + 1) first cs = ⟨ip.groups, true, left⟩ := by
  simp [readGroups, hroom, h]

/-- Where there is no address of version 4 a group is taken, and then what follows it. -/
theorem readGroups_of_group {room : Nat} {first : Bool} {cs left : List Char} {g : UInt16}
    (hv4 : readSeparated first readIPv4 cs = none)
    (h : readSeparated first readGroup cs = some (g, left)) :
    readGroups (room + 1) first cs =
      { readGroups room false left with groups := g :: (readGroups room false left).groups } := by
  simp [readGroups, hv4, h]

/-- A run ends where no more of it follows. -/
theorem readGroups_of_ends (h : EndsGroups rest) (room : Nat) (first : Bool) :
    readGroups room first rest = ⟨[], false, rest⟩ := by
  cases room with
  | zero => rfl
  | succ room =>
    have hsep : ∀ {α : Type} (read : Text.Reader α), read rest = none →
        (∀ left, rest = ':' :: left → read left = none) →
        readSeparated first read rest = none := by
      intro α read hhere hcolon
      cases first with
      | true => exact hhere
      | false =>
        simp only [readSeparated, Bool.false_eq_true, ↓reduceIte]
        split
        · exact hcolon _ rfl
        · rfl
    have hv4 : readSeparated first readIPv4 rest = none := by
      refine hsep readIPv4 ?_ fun left hleft => ?_
      · exact readIPv4_eq_none h.octets h.point
      · obtain ⟨hd, hp⟩ := h.colon left hleft
        exact readIPv4_eq_none (hd.mono (by decide) (by decide)) hp
    have hgroup : readSeparated first readGroup rest = none :=
      hsep readGroup (readGroup_eq_none h.digits) fun left hleft =>
        readGroup_eq_none (h.colon left hleft).1
    simp [readGroups, hv4, hgroup]

/-- What is written for groups, with a colon in front unless the run begins with them. -/
def runChars (first : Bool) (gs : List UInt16) : List Char :=
  if first ∨ gs = [] then IPv6.groupChars gs else ':' :: IPv6.groupChars gs

theorem runChars_cons (first : Bool) (g : UInt16) (gs : List UInt16) :
    runChars first (g :: gs) =
      (if first then [] else [':']) ++ writeNumber 16 g.toNat ++ runChars false gs := by
  cases gs with
  | nil => cases first <;> simp [runChars, IPv6.groupChars]
  | cons g' gs => cases first <;> simp [runChars, IPv6.groupChars]

theorem endsDigits_runChars (h : EndsGroups rest) (gs : List UInt16) :
    EndsDigits 16 (runChars false gs ++ rest) ∧ (runChars false gs ++ rest).head? ≠ some '.' := by
  cases gs with
  | nil => exact ⟨h.digits, h.point⟩
  | cons g gs => exact ⟨endsDigits_cons (by decide) _, by simp [runChars]⟩

/-- Groups are read back where there is room for them. Where there is no room left it does not
matter what follows, but that it is not a digit. -/
theorem readGroups_runChars (h : EndsGroups rest) {gs : List UInt16} {room : Nat}
    (hroom : gs.length ≤ room) (first : Bool) :
    readGroups room first (runChars first gs ++ rest) = ⟨gs, false, rest⟩ := by
  induction gs generalizing room first with
  | nil =>
    have hnil : runChars first [] ++ rest = rest := by simp [runChars, IPv6.groupChars]
    rw [hnil]
    exact readGroups_of_ends h room first
  | cons g gs ih =>
    obtain ⟨room, rfl⟩ : ∃ r, room = r + 1 :=
      ⟨room - 1, by simp only [List.length_cons] at hroom; omega⟩
    obtain ⟨hd, hp⟩ := endsDigits_runChars h gs
    have hsep : ∀ {α : Type} (read : Text.Reader α),
        readSeparated first read (runChars first (g :: gs) ++ rest) =
          read (writeNumber 16 g.toNat ++ (runChars false gs ++ rest)) := by
      intro α read
      rw [runChars_cons]
      cases first <;> simp [readSeparated]
    have hv4 : readIPv4 (writeNumber 16 g.toNat ++ (runChars false gs ++ rest)) = none :=
      readIPv4_append_eq_none (Text.not_mem_writeNumber (by decide) (by decide) (by decide) _)
        (hd.mono (by decide) (by decide)) hp
    have hrest : readGroups room false (runChars false gs ++ rest) = ⟨gs, false, rest⟩ :=
      ih (Nat.le_of_succ_le_succ hroom) false
    rw [readGroups_of_group ((hsep readIPv4).trans hv4)
      ((hsep readGroup).trans (readGroup_write g hd)), hrest]

/-! ### Version 6 -/

theorem IPv6.longestZeros_spec (gs : List UInt16) :
    gs = gs.take (longestZeros gs).1 ++ List.replicate (longestZeros gs).2 0 ++
      gs.drop ((longestZeros gs).1 + (longestZeros gs).2) := by
  induction gs with
  | nil => rfl
  | cons g gs ih =>
    simp only [longestZeros]
    split
    · have hfront : List.replicate (zerosAtFront (g :: gs)) 0 =
          (g :: gs).takeWhile (· == 0) := by
        symm
        rw [List.eq_replicate_iff]
        refine ⟨rfl, fun b hb => ?_⟩
        have hzero := List.all_takeWhile (p := (· == 0)) (l := g :: gs)
        simpa using List.all_eq_true.mp hzero b hb
      have hdrop : (g :: gs).drop (zerosAtFront (g :: gs)) = (g :: gs).dropWhile (· == 0) := by
        have hwhole := List.takeWhile_append_dropWhile (p := (· == 0)) (l := g :: gs)
        exact (congrArg (List.drop _) hwhole.symm).trans List.drop_left
      rw [List.take_zero, List.nil_append, Nat.zero_add, hfront, hdrop,
        List.takeWhile_append_dropWhile]
    · have harrange : (longestZeros gs).1 + 1 + (longestZeros gs).2 =
          (longestZeros gs).1 + (longestZeros gs).2 + 1 := by omega
      rw [List.take_succ_cons, harrange, List.drop_succ_cons, List.cons_append, List.cons_append,
        ← ih]

theorem IPv6.longestZeros_le (gs : List UInt16) :
    (longestZeros gs).1 + (longestZeros gs).2 ≤ gs.length := by
  induction gs with
  | nil => exact Nat.le_refl 0
  | cons g gs ih =>
    simp only [longestZeros]
    split
    · rw [Nat.zero_add]
      exact List.Sublist.length_le (List.takeWhile_sublist _)
    · simp only [List.length_cons]
      omega

/-- An address is put together again from its groups before and behind some zeros. -/
theorem IPv6.ofEnds?_eq {ip : IPv6} {front back : List UInt16} {n : Nat}
    (h : ip.groups = front ++ List.replicate n 0 ++ back) :
    ofEnds? front back = some ip := by
  have hlength := ip.eight
  rw [h] at hlength
  have hn : 8 - front.length - back.length = n := by
    simp only [List.length_append, List.length_replicate] at hlength
    omega
  simp only [ofEnds?, hn]
  rw [dif_pos hlength]
  congr 1
  cases ip
  simp_all

theorem runChars_true (gs : List UInt16) : runChars true gs = IPv6.groupChars gs := by
  simp [runChars]

theorem IPv6.groups_of_mapped? {ip : IPv6} {v4 : IPv4} (h : ip.mapped? = some v4) :
    ip.groups = [0, 0, 0, 0, 0, 0xffff] ++ v4.groups := by
  unfold mapped? at h
  split at h
  · next high low hgroups =>
    obtain rfl := Option.some.inj h
    rw [IPv4.groups_ofGroups]
    exact hgroups
  · cases h

theorem readGroups_mapped (ip : IPv4) (h : EndsDigits 10 rest) :
    readGroups 7 true (['f', 'f', 'f', 'f', ':'] ++ ip.chars ++ rest) =
      ⟨0xffff :: ip.groups, true, rest⟩ := by
  have htext : ['f', 'f', 'f', 'f', ':'] ++ ip.chars ++ rest =
      writeNumber 16 (0xffff : UInt16).toNat ++ (':' :: (ip.chars ++ rest)) := by
    simp [writeNumber, Text.digits, Text.digitChar]
  have hv4 : readSeparated true readIPv4
      (writeNumber 16 (0xffff : UInt16).toNat ++ (':' :: (ip.chars ++ rest))) = none :=
    readIPv4_append_eq_none (Text.not_mem_writeNumber (by decide) (by decide) (by decide) _)
      (endsDigits_cons (by decide) _) (by simp)
  have hgroup : readSeparated true readGroup
      (writeNumber 16 (0xffff : UInt16).toNat ++ (':' :: (ip.chars ++ rest))) =
        some (0xffff, ':' :: (ip.chars ++ rest)) :=
    readGroup_write 0xffff (endsDigits_cons (by decide) _)
  have hdotted : readSeparated false readIPv4 (':' :: (ip.chars ++ rest)) = some (ip, rest) :=
    readIPv4_chars ip h
  rw [htext, readGroups_of_group hv4 hgroup,
    readGroups_of_dotted (by decide) hdotted]

theorem readIPv6_chars (ip : IPv6) (h : EndsGroups rest) :
    readIPv6 (ip.chars ++ rest) = some (ip, rest) := by
  unfold IPv6.chars
  cases hm : ip.mapped? with
  | some v4 =>
    have hcolons : ∀ left : List Char,
        readGroups 8 true (':' :: ':' :: left) = ⟨[], false, ':' :: ':' :: left⟩ :=
      fun left => readGroups_of_ends (endsGroups_colons left) 8 true
    have hends : IPv6.ofEnds? [] (0xffff :: v4.groups) = some ip :=
      IPv6.ofEnds?_eq (n := 5) (IPv6.groups_of_mapped? hm)
    have hback := readGroups_mapped v4 h.octets
    simp only [List.cons_append, List.nil_append] at hback
    simp [readIPv6, hcolons, hback, hends]
  | none =>
    simp only
    have hle := IPv6.longestZeros_le ip.groups
    have hspec := IPv6.longestZeros_spec ip.groups
    have height := ip.eight
    split
    · next hlong =>
      generalize IPv6.longestZeros ip.groups = run at hle hspec hlong
      have hfront : (ip.groups.take run.1).length = run.1 := by
        rw [List.length_take]
        omega
      have hback : (ip.groups.drop (run.1 + run.2)).length ≤
          7 - (ip.groups.take run.1).length := by
        rw [List.length_drop, hfront]
        omega
      have hreadFront : ∀ left : List Char, readGroups 8 true
          (IPv6.groupChars (ip.groups.take run.1) ++ ':' :: ':' :: left) =
            ⟨ip.groups.take run.1, false, ':' :: ':' :: left⟩ := fun left => by
        rw [← runChars_true]
        exact readGroups_runChars (endsGroups_colons left) (by rw [hfront]; omega) true
      have hreadBack := readGroups_runChars h hback true
      rw [runChars_true] at hreadBack
      have hne : (ip.groups.take run.1).length ≠ 8 := by
        rw [hfront]
        omega
      have hends := IPv6.ofEnds?_eq hspec
      simp only [List.append_assoc, List.cons_append, List.nil_append, readIPv6, hreadFront,
        if_neg hne, Bool.false_eq_true, if_false, hreadBack, hends, Option.map_some]
    · have hread := readGroups_runChars h (Nat.le_of_eq height) true
      rw [runChars_true] at hread
      have hends : IPv6.ofEnds? ip.groups [] = some ip :=
        IPv6.ofEnds?_eq (n := 0) (by simp)
      simp only [readIPv6, hread, height, ↓reduceIte, hends, Option.map_some]

/-! ### Socket addresses -/

theorem readPort_write (port : UInt16) :
    readPort (':' :: writeNumber 10 port.toNat) = some (port, []) := by
  have hread : readNumber portRule (writeNumber portRule.base port.toNat ++ []) =
      some (port.toNat, []) :=
    readNumber_writeNumber (by decide) (by decide) port.toNat_lt (fun k hk => by cases hk)
      (endsDigits_nil 10)
  rw [List.append_nil] at hread
  have hread : readNumber portRule (writeNumber 10 port.toNat) = some (port.toNat, []) := hread
  simp [readPort, readChar, hread]

/-- What is written for a scope. -/
def scopeChars (scope : UInt32) : List Char :=
  if scope = 0 then [] else '%' :: writeNumber 10 scope.toNat

theorem readScope_write (scope : UInt32) (rest : List Char) :
    readScope (scopeChars scope ++ ']' :: rest) = (scope, ']' :: rest) := by
  by_cases hzero : scope = 0
  · subst hzero
    rfl
  · have hread : readNumber scopeRule (writeNumber scopeRule.base scope.toNat ++ ']' :: rest) =
        some (scope.toNat, ']' :: rest) :=
      readNumber_writeNumber (by decide) (by decide) scope.toNat_lt (fun k hk => by cases hk)
        (endsDigits_cons (by decide) rest)
    have hread : readNumber scopeRule (writeNumber 10 scope.toNat ++ ']' :: rest) =
        some (scope.toNat, ']' :: rest) := hread
    simp [readScope, scopeChars, hzero, hread]

theorem endsGroups_scopeChars (scope : UInt32) (rest : List Char) :
    EndsGroups (scopeChars scope ++ ']' :: rest) := by
  unfold scopeChars
  split
  · exact endsGroups_cons (by decide) (by decide) (by decide) rest
  · exact endsGroups_cons (by decide) (by decide) (by decide) _

theorem SocketAddress.chars_v6 (ip : IPv6) (port : UInt16) (flow scope : UInt32) :
    (v6 ip port flow scope).chars =
      '[' :: (ip.chars ++ (scopeChars scope ++ ']' :: ':' :: writeNumber 10 port.toNat)) := by
  simp [SocketAddress.chars, scopeChars]

/-- A socket address is read back from what is written for it, but for its flow label, which is
never written. -/
theorem SocketAddress.ofChars?_chars (a : SocketAddress) :
    ofChars? a.chars = some a.withoutFlow := by
  suffices hread : readSocketAddress a.chars = some (a.withoutFlow, []) by
    simp [ofChars?, Text.readAll, hread]
  cases a with
  | v4 ip port =>
    have hip : readIPv4 (ip.chars ++ ':' :: writeNumber 10 port.toNat) =
        some (ip, ':' :: writeNumber 10 port.toNat) :=
      readIPv4_chars ip (endsDigits_cons (by decide) _)
    simp [readSocketAddress, readSocketV4, SocketAddress.chars, hip, readPort_write, withoutFlow]
  | v6 ip port flow scope =>
    rw [chars_v6]
    have hv4 : ∀ rest, readIPv4 ('[' :: rest) = none := fun rest =>
      readIPv4_eq_none (endsDigits_cons (by decide) rest) (by simp)
    have hip := readIPv6_chars ip
      (endsGroups_scopeChars scope (':' :: writeNumber 10 port.toNat))
    have hscope := readScope_write scope (':' :: writeNumber 10 port.toNat)
    simp [readSocketAddress, readSocketV4, readSocketV6, hv4, readChar_cons, hip, hscope,
      readPort_write, withoutFlow]

theorem SocketAddress.withoutFlow_of_ofChars? {cs : List Char} {a : SocketAddress}
    (h : ofChars? cs = some a) : a.withoutFlow = a := by
  unfold ofChars? Text.readAll at h
  split at h
  · next b hread =>
    obtain rfl := Option.some.inj h
    rw [readSocketAddress, Option.or_eq_some_iff] at hread
    rcases hread with hread | ⟨-, hread⟩
    · simp only [readSocketV4, Option.bind_eq_bind, Option.bind_eq_some_iff] at hread
      obtain ⟨ip, -, port, -, hb⟩ := hread
      obtain rfl := congrArg Prod.fst (Option.some.inj hb)
      rfl
    · simp only [readSocketV6, Option.bind_eq_bind, Option.bind_eq_some_iff] at hread
      obtain ⟨_, -, ip, -, _, -, port, -, hb⟩ := hread
      obtain rfl := congrArg Prod.fst (Option.some.inj hb)
      rfl
  · cases h

theorem SocketAddress.withoutFlow_ofIp (ip : Ip) (port : UInt16) :
    (ofIp ip port).withoutFlow = ofIp ip port := by
  cases ip <;> rfl

theorem SocketAddress.withoutFlow_eq_self_iff (a : SocketAddress) :
    a.withoutFlow = a ↔
      (∃ ip port, a = v4 ip port) ∨ ∃ ip port scope, a = v6 ip port 0 scope := by
  cases a with
  | v4 ip port => simp [withoutFlow]
  | v6 ip port flow scope => simp [withoutFlow, eq_comm]

end Dialer.Address
