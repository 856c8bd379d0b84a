import Dialer.Text.Digits

/-!
# JSON strings

A string in JSON stands in quotation marks. Quotation marks, backslashes and control characters
are escaped, the latter by a letter where JSON has one for them and by four hexadecimal digits
elsewhere; every other character stands for itself.
-/

namespace Dialer.Text

/-- How a character is written inside a JSON string. -/
def jsonEscape (c : Char) : List Char :=
  if c = '"' then ['\\', '"']
  else if c = '\\' then ['\\', '\\']
  else if c = '\x08' then ['\\', 'b']
  else if c = '\t' then ['\\', 't']
  else if c = '\n' then ['\\', 'n']
  else if c = '\x0c' then ['\\', 'f']
  else if c = '\r' then ['\\', 'r']
  else if c.toNat < 32 then
    let digits := writeNumber 16 c.toNat
    ['\\', 'u'] ++ List.replicate (4 - digits.length) '0' ++ digits
  else [c]

/-- A text as a JSON string. -/
def jsonString (text : String) : String :=
  String.ofList ('"' :: text.toList.flatMap jsonEscape ++ ['"'])

end Dialer.Text
