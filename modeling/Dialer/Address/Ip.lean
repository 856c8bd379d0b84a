import Dialer.Text.Digits

/-!
# Internet addresses

An address of version 4 is four octets, one of version 6 eight groups of sixteen bits. Octets are
written in decimal with points between, groups in hexadecimal with colons between. In an address
of version 6 the first of the longest runs of zero groups, if it has at least two, is written as
two colons; an address of version 4 in its version 6 form keeps its points.
-/

namespace Dialer.Address

structure IPv4 where
  (a b c d : UInt8)
  deriving DecidableEq, Hashable

structure IPv6 where
  groups : List UInt16
  eight : groups.length = 8
  deriving DecidableEq

instance : Hashable IPv6 := ⟨fun ip => hash ip.groups⟩

namespace IPv4

/-- The octets with points between. -/
def chars (ip : IPv4) : List Char :=
  Text.writeNumber 10 ip.a.toNat ++ '.' :: Text.writeNumber 10 ip.b.toNat ++
    '.' :: Text.writeNumber 10 ip.c.toNat ++ '.' :: Text.writeNumber 10 ip.d.toNat

/-- The two groups that the octets fill. -/
def groups (ip : IPv4) : List UInt16 :=
  [ip.a.toUInt16 * 256 + ip.b.toUInt16, ip.c.toUInt16 * 256 + ip.d.toUInt16]

/-- The address whose octets fill two groups. -/
def ofGroups (high low : UInt16) : IPv4 :=
  ⟨(high / 256).toUInt8, high.toUInt8, (low / 256).toUInt8, low.toUInt8⟩

def isLoopback (ip : IPv4) : Bool := ip.a == 127

def loopback : IPv4 := ⟨127, 0, 0, 1⟩

/-- All hosts of the network 127. -/
def loopbackBroadcast : IPv4 := ⟨127, 255, 255, 255⟩

def unspecified : IPv4 := ⟨0, 0, 0, 0⟩

end IPv4

namespace IPv6

/-- The address of version 4 that the groups stand for, if they are its version 6 form. -/
def mapped? (ip : IPv6) : Option IPv4 :=
  match ip.groups with
  | [0, 0, 0, 0, 0, 0xffff, high, low] => some (.ofGroups high low)
  | _ => none

/-- An address of version 4 in its version 6 form. -/
def ofMapped (ip : IPv4) : IPv6 :=
  ⟨[0, 0, 0, 0, 0, 0xffff] ++ ip.groups, rfl⟩

def loopback : IPv6 := ⟨[0, 0, 0, 0, 0, 0, 0, 1], rfl⟩

def unspecified : IPv6 := ⟨[0, 0, 0, 0, 0, 0, 0, 0], rfl⟩

/-- Addresses that are valid on one link only: the first ten bits are 1111111010. -/
def isLinkLocal (ip : IPv6) : Bool :=
  match ip.groups with
  | first :: _ => first &&& 0xffc0 == 0xfe80
  | [] => false

/-- The number of zero groups at the front. -/
def zerosAtFront (groups : List UInt16) : Nat :=
  (groups.takeWhile (· == 0)).length

/-- Where the first of the longest runs of zero groups starts, and how long it is. -/
def longestZeros : List UInt16 → Nat × Nat
  | [] => (0, 0)
  | g :: gs =>
    let here := zerosAtFront (g :: gs)
    let later := longestZeros gs
    if later.2 ≤ here then (0, here) else (later.1 + 1, later.2)

def groupChars : List UInt16 → List Char
  | [] => []
  | [g] => Text.writeNumber 16 g.toNat
  | g :: gs => Text.writeNumber 16 g.toNat ++ ':' :: groupChars gs

/-- The groups, with the first longest run of at least two zeros left out. -/
def chars (ip : IPv6) : List Char :=
  match ip.mapped? with
  | some v4 => [':', ':', 'f', 'f', 'f', 'f', ':'] ++ v4.chars
  | none =>
    let run := longestZeros ip.groups
    if 1 < run.2 then
      groupChars (ip.groups.take run.1) ++ [':', ':'] ++ groupChars (ip.groups.drop (run.1 + run.2))
    else
      groupChars ip.groups

end IPv6

inductive Ip where
  | v4 (ip : IPv4)
  | v6 (ip : IPv6)
  deriving DecidableEq, Hashable

namespace Ip

def chars : Ip → List Char
  | .v4 ip => ip.chars
  | .v6 ip => ip.chars

def text (ip : Ip) : String := String.ofList ip.chars

end Ip

end Dialer.Address
