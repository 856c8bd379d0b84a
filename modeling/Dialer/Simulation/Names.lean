/-!
# Names

What a simulation holds, it holds under names: at most one thing under each.
-/

namespace Dialer.Simulation.Names

variable {α : Type}

/-- Holds `a` under a name, in place of what was held under it. -/
def put (held : List (String × α)) (name : String) (a : α) : List (String × α) :=
  held.filter (·.1 ≠ name) ++ [(name, a)]

/-- Lets go of what is held under a name. -/
def drop (held : List (String × α)) (name : String) : List (String × α) :=
  held.filter (·.1 ≠ name)

/-- Adds a name to a set of names. -/
def hold (names : List String) (name : String) : List String :=
  if name ∈ names then names else names ++ [name]

end Dialer.Simulation.Names
