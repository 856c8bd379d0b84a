/-!
# Panics

A piece of foreign code can end in a panic instead of returning. What it throws may carry a text,
and getting rid of what was thrown may end in a panic again.
-/

namespace Dialer

/-- What was thrown. -/
inductive Panic where
  /-- Can be got rid of. -/
  | plain (text : Option String)
  /-- Throws `next` when it is got rid of. -/
  | volatile (text : Option String) (next : Panic)
  deriving DecidableEq

namespace Panic

/-- What can be said of a panic. -/
def message : Panic → String
  | .plain text => text.getD "<non-string panic>"
  | .volatile text _ => text.getD "<non-string panic>"

/-- The panic that follows when this one is got rid of. -/
def next? : Panic → Option Panic
  | .plain _ => none
  | .volatile _ next => some next

end Panic

end Dialer
