import Dialer.Address.SocketAddress
import Dialer.Text.Quoted

/-!
# Connect targets

A target is the socket address a request is aimed at. It is spelled either as an IP literal beside
a port, where the literal may stand in brackets, or as one text `ip:port`, perhaps after `tcp://`.
Names are never looked up. A target is written `tcp://ip:port`.
-/

namespace Dialer

open Address (Ip SocketAddress)

structure Target where
  address : SocketAddress
  deriving DecidableEq, Hashable

/-- Why a text is not a target; each cause carries the text at fault. -/
inductive TargetError where
  | scheme (text : String)
  | address (text : String)
  deriving DecidableEq

namespace TargetError

def message : TargetError → String
  | .scheme text => "Invalid scheme in target: " ++ text ++ " (expected tcp://)"
  | .address text => "Invalid IP address: " ++ text

def name : TargetError → String
  | .scheme _ => "InvalidScheme"
  | .address _ => "InvalidAddress"

def culprit : TargetError → String
  | .scheme text => text
  | .address text => text

def shown (e : TargetError) : String :=
  e.name ++ "(" ++ Text.quoted e.culprit ++ ")"

end TargetError

namespace Target

/-- Takes one pair of brackets off, if the text has both. -/
def unbracket (cs : List Char) : List Char :=
  match cs with
  | '[' :: rest => if rest.getLast? = some ']' then rest.dropLast else cs
  | _ => cs

/-- Splits a text at the first `://`. -/
def splitScheme? : List Char → Option (List Char × List Char)
  | ':' :: '/' :: '/' :: rest => some ([], rest)
  | [] => none
  | c :: cs => (splitScheme? cs).map fun (scheme, rest) => (c :: scheme, rest)

def ofParts (address : String) (port : UInt16) : Except TargetError Target :=
  match Ip.ofChars? (unbracket address.toList) with
  | some ip => .ok ⟨.ofIp ip port⟩
  | none => .error (.address address)

/-- The target whose address and port a text spells. -/
def ofAddressChars (cs : List Char) : Except TargetError Target :=
  match SocketAddress.ofChars? cs with
  | some address => .ok ⟨address⟩
  | none => .error (.address (String.ofList cs))

/-- The target of a text `tcp://ip:port` or `ip:port`. -/
def parse (text : String) : Except TargetError Target :=
  match splitScheme? text.toList with
  | some (scheme, rest) =>
    if scheme = ['t', 'c', 'p'] then ofAddressChars rest else .error (.scheme text)
  | none => ofAddressChars text.toList

/-- The target of a request: a text with a scheme carries its own port, any other is a literal. -/
def ofRequest (address : String) (port : UInt16) : Except TargetError Target :=
  if (splitScheme? address.toList).isSome then parse address else ofParts address port

def text (t : Target) : String := "tcp://" ++ t.address.text

/-- The target between parentheses, without its scheme. -/
def shown (t : Target) : String := "Target(" ++ t.address.text ++ ")"

end Target

end Dialer
