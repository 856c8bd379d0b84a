/-!
# Sets of characters given by their borders

A set of code points is written as the increasing list of the places where membership changes.
A point lies in the set exactly when an odd number of borders are at or below it, so the list
`[0, 32, 127]` stands for the points below 32 and those from 127 on.
-/

namespace Dialer.Text

/-- Membership in the set whose borders are `borders`, an increasing list. -/
def withinBorders (borders : List Nat) (point : Nat) : Bool :=
  (borders.takeWhile (· ≤ point)).length % 2 == 1

theorem withinBorders_nil (point : Nat) : withinBorders [] point = false := rfl

/-- Below the first border nothing is in the set. -/
theorem withinBorders_of_lt {border point : Nat} (borders : List Nat) (h : point < border) :
    withinBorders (border :: borders) point = false := by
  simp [withinBorders, Nat.not_le.mpr h]

/-- Passing a border turns membership around. -/
theorem withinBorders_of_le {border point : Nat} (borders : List Nat) (h : border ≤ point) :
    withinBorders (border :: borders) point = !withinBorders borders point := by
  simp only [withinBorders, List.takeWhile_cons, h, decide_true, if_true, List.length_cons]
  rcases Nat.mod_two_eq_zero_or_one (borders.takeWhile (· ≤ point)).length with hp | hp <;>
    simp [Nat.add_mod, hp]

end Dialer.Text
