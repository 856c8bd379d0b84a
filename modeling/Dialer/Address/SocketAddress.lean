import Dialer.Address.IpReader

/-!
# Socket addresses

An address together with a port. One of version 6 also carries a flow label and the number of the
scope it is valid in; it is written in brackets, with the scope after a percent sign unless that is
zero, and the flow label is never written. Reading gives the flow label zero.
-/

namespace Dialer.Address

open Text (Reader readChar readNumber NumeralRule)

inductive SocketAddress where
  | v4 (ip : IPv4) (port : UInt16)
  | v6 (ip : IPv6) (port : UInt16) (flow scope : UInt32)
  deriving DecidableEq, Hashable

namespace SocketAddress

/-- An address and a port, with no flow label and no scope. -/
def ofIp : Ip → UInt16 → SocketAddress
  | .v4 ip, port => .v4 ip port
  | .v6 ip, port => .v6 ip port 0 0

def ip : SocketAddress → Ip
  | .v4 ip _ => .v4 ip
  | .v6 ip _ _ _ => .v6 ip

def port : SocketAddress → UInt16
  | .v4 _ port => port
  | .v6 _ port _ _ => port

def withoutFlow : SocketAddress → SocketAddress
  | .v4 ip port => .v4 ip port
  | .v6 ip port _ scope => .v6 ip port 0 scope

def chars : SocketAddress → List Char
  | .v4 ip port => ip.chars ++ ':' :: Text.writeNumber 10 port.toNat
  | .v6 ip port _ scope =>
    let scopeChars := if scope = 0 then [] else '%' :: Text.writeNumber 10 scope.toNat
    '[' :: ip.chars ++ scopeChars ++ [']', ':'] ++ Text.writeNumber 10 port.toNat

def text (a : SocketAddress) : String := String.ofList a.chars

end SocketAddress

/-- A port: decimal, zeros in front allowed. -/
def portRule : NumeralRule := ⟨10, none, true, 65536⟩

/-- A scope: decimal, zeros in front allowed. -/
def scopeRule : NumeralRule := ⟨10, none, true, 4294967296⟩

def readPort : Reader UInt16 := fun cs => do
  let (_, cs) ← readChar ':' cs
  let (n, cs) ← readNumber portRule cs
  return (UInt16.ofNat n, cs)

/-- Reads a percent sign and a scope, or nothing for the scope zero. -/
def readScope (cs : List Char) : UInt32 × List Char :=
  match cs with
  | '%' :: rest =>
    match readNumber scopeRule rest with
    | some (n, rest) => (UInt32.ofNat n, rest)
    | none => (0, cs)
  | _ => (0, cs)

/-- Reads an address of version 4 and a port. -/
def readSocketV4 : Reader SocketAddress := fun cs => do
  let (ip, cs) ← readIPv4 cs
  let (port, cs) ← readPort cs
  return (.v4 ip port, cs)

/-- Reads an address of version 6 in brackets, perhaps with a scope, and a port. -/
def readSocketV6 : Reader SocketAddress := fun cs => do
  let (_, cs) ← readChar '[' cs
  let (ip, cs) ← readIPv6 cs
  let (scope, cs) := readScope cs
  let (_, cs) ← readChar ']' cs
  let (port, cs) ← readPort cs
  return (.v6 ip port 0 scope, cs)

/-- Reads a socket address of version 4, else one of version 6. -/
def readSocketAddress : Reader SocketAddress := fun cs =>
  (readSocketV4 cs).or (readSocketV6 cs)

namespace SocketAddress

/-- The socket address a text spells, with nothing left over. -/
def ofChars? (cs : List Char) : Option SocketAddress := Text.readAll readSocketAddress cs

end SocketAddress

end Dialer.Address
