import Dialer.Text.JsonText

/-!
# Log lines

A line has a level, a message and named fields, which are kept in the order of their names. Lines
whose order is not determined are compared by their text in JSON.
-/

namespace Dialer.Log

inductive Level where
  | trace | debug | warn | error
  deriving DecidableEq

def Level.name : Level → String
  | .trace => "TRACE"
  | .debug => "DEBUG"
  | .warn => "WARN"
  | .error => "ERROR"

/-- Whether somebody should look into it. -/
def Level.isAlarming : Level → Bool
  | .warn => true
  | .error => true
  | _ => false

structure Line where
  level : Level
  message : String
  fields : List (String × String) := []
  deriving DecidableEq

namespace Line

/-- A name and its value in JSON. -/
def member (m : String × String) : String :=
  Text.jsonString m.1 ++ ":" ++ Text.jsonString m.2

/-- The line in JSON, without blanks and with all names in order. -/
def text (l : Line) : String :=
  "\x7b\"fields\":\x7b" ++ ",".intercalate (l.fields.map member) ++ "\x7d,\"level\":" ++
    Text.jsonString l.level.name ++ ",\"message\":" ++ Text.jsonString l.message ++ "\x7d"

end Line

def sorted (lines : List Line) : List Line :=
  lines.mergeSort fun a b => decide (a.text ≤ b.text)

end Dialer.Log
