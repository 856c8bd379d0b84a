import Dialer.Text.Digits
import Dialer.Text.Extending
import Dialer.Text.Printable

/-!
# Quoted text

A text is shown between double quotes. The quote, the backslash and the four common controls have
an escape of one letter; every other character that does not show as itself, or that would attach
to the character before it, is written as its code point in hexadecimal between braces.
-/

namespace Dialer.Text

/-- The code point of `c` between braces. -/
def codePointEscape (c : Char) : List Char :=
  ['\\', 'u', '\x7b'] ++ writeNumber 16 c.toNat ++ ['\x7d']

/-- How a character appears inside quotes. -/
def escapeChar (c : Char) : List Char :=
  if c = '\x00' then ['\\', '0']
  else if c = '\t' then ['\\', 't']
  else if c = '\r' then ['\\', 'r']
  else if c = '\n' then ['\\', 'n']
  else if c = '\\' then ['\\', '\\']
  else if c = '"' then ['\\', '"']
  else if isExtending c then codePointEscape c
  else if isPrintable c then [c]
  else codePointEscape c

/-- A text between quotes. -/
def quoted (s : String) : String :=
  String.ofList (['"'] ++ s.toList.flatMap escapeChar ++ ['"'])

end Dialer.Text
