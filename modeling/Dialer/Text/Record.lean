/-!
# Shown values

A value is shown as an atom, or as a named record of shown fields. A record has a compact form on
one line, and a spread form with one field a line, each indented by four more spaces than the
record and followed by a comma.
-/

namespace Dialer.Text

/-- A value ready to be shown. -/
inductive Shown where
  | atom (text : String)
  | record (name : String) (fields : List (String × Shown))

namespace Shown

def ofBool (b : Bool) : Shown := .atom (if b then "true" else "false")

mutual

def compact : Shown → String
  | .atom text => text
  | .record name [] => name
  | .record name (f :: fs) => name ++ " \x7b " ++ compactFields (f :: fs) ++ " \x7d"

def compactFields : List (String × Shown) → String
  | [] => ""
  | [(name, value)] => name ++ ": " ++ compact value
  | (name, value) :: rest => name ++ ": " ++ compact value ++ ", " ++ compactFields rest

end

mutual

/-- The form with one field a line; `indent` is the margin of the enclosing line. -/
def spreadAt (indent : String) : Shown → String
  | .atom text => text
  | .record name [] => name
  | .record name (f :: fs) =>
    name ++ " \x7b\n" ++ spreadFields (indent ++ "    ") (f :: fs) ++ indent ++ "\x7d"

/-- Fields one a line, each after `indent`. -/
def spreadFields (indent : String) : List (String × Shown) → String
  | [] => ""
  | (name, value) :: rest =>
    indent ++ name ++ ": " ++ spreadAt indent value ++ ",\n" ++ spreadFields indent rest

end

def spread : Shown → String := spreadAt ""

end Shown

end Dialer.Text
