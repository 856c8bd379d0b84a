import Dialer.Address.Ip

/-!
# Reading internet addresses

An octet has at most three digits and no zero in front of others; a group has at most four
hexadecimal digits of either case. An address of version 6 is eight groups, or fewer with two
colons where at least one group of zeros is left out. Its last two groups may be written as an
address of version 4, which must not stand before the two colons.
-/

namespace Dialer.Address

open Text (Reader readChar readNumber NumeralRule)

/-- An octet: up to three decimal digits, no zero in front. -/
def octetRule : NumeralRule := ⟨10, some 3, false, 256⟩

/-- A group: up to four hexadecimal digits. -/
def groupRule : NumeralRule := ⟨16, some 4, true, 65536⟩

def readOctet : Reader UInt8 := fun cs =>
  (readNumber octetRule cs).map fun (n, rest) => (UInt8.ofNat n, rest)

def readGroup : Reader UInt16 := fun cs =>
  (readNumber groupRule cs).map fun (n, rest) => (UInt16.ofNat n, rest)

def readIPv4 : Reader IPv4 := fun cs => do
  let (a, cs) ← readOctet cs
  let (_, cs) ← readChar '.' cs
  let (b, cs) ← readOctet cs
  let (_, cs) ← readChar '.' cs
  let (c, cs) ← readOctet cs
  let (_, cs) ← readChar '.' cs
  let (d, cs) ← readOctet cs
  return (⟨a, b, c, d⟩, cs)

/-- Reads what `read` reads, after a colon unless it comes first. -/
def readSeparated {α : Type} (first : Bool) (read : Reader α) : Reader α := fun cs =>
  if first then read cs
  else match cs with
    | ':' :: rest => read rest
    | _ => none

/-- A run of groups with colons between. -/
structure GroupRun where
  groups : List UInt16
  /-- Whether the run ends in an address of version 4. -/
  dotted : Bool
  rest : List Char

/-- Reads groups while there is room for them. An address of version 4 is tried first wherever two
groups are left; it ends the run. -/
def readGroups : (room : Nat) → (first : Bool) → List Char → GroupRun
  | 0, _, cs => ⟨[], false, cs⟩
  | room + 1, first, cs =>
    match if 1 ≤ room then readSeparated first readIPv4 cs else none with
    | some (ip, rest) => ⟨ip.groups, true, rest⟩
    | none =>
      match readSeparated first readGroup cs with
      | some (g, rest) =>
        let run := readGroups room false rest
        { run with groups := g :: run.groups }
      | none => ⟨[], false, cs⟩

/-- The address with groups at both ends and zeros between. -/
def IPv6.ofEnds? (front back : List UInt16) : Option IPv6 :=
  let groups := front ++ List.replicate (8 - front.length - back.length) 0 ++ back
  if h : groups.length = 8 then some ⟨groups, h⟩ else none

/-- Reads eight groups, or two colons in place of at least one. -/
def readIPv6 : Reader IPv6 := fun cs =>
  let front := readGroups 8 true cs
  if front.groups.length = 8 then
    (IPv6.ofEnds? front.groups []).map (·, front.rest)
  else if front.dotted then none
  else match front.rest with
    | ':' :: ':' :: rest =>
      let back := readGroups (7 - front.groups.length) true rest
      (IPv6.ofEnds? front.groups back.groups).map (·, back.rest)
    | _ => none

def readIp : Reader Ip := fun cs =>
  match readIPv4 cs with
  | some (ip, rest) => some (.v4 ip, rest)
  | none => (readIPv6 cs).map fun (ip, rest) => (.v6 ip, rest)

namespace Ip

def ofChars? (cs : List Char) : Option Ip := Text.readAll readIp cs

end Ip

end Dialer.Address
