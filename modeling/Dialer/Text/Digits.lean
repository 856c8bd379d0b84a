/-!
# Numerals

Numbers are written with the least number of digits, lower case above nine, and read back from the
longest run of digits at the head of a text. A reader may bound the number of digits, the value,
and whether a numeral of several digits may start with zero. Reading gives the number and the rest
of the text.
-/

namespace Dialer.Text

/-- A reader consumes the head of a text; it gives a value and the rest, or declines. -/
abbrev Reader (α : Type) := List Char → Option (α × List Char)

def digitChar (d : Nat) : Char :=
  if d < 10 then Char.ofNat (48 + d) else Char.ofNat (87 + d)

/-- The digit a character stands for in `base` at most sixteen; both cases of letters count. -/
def digitValue? (base : Nat) (c : Char) : Option Nat :=
  let value :=
    if '0' ≤ c ∧ c ≤ '9' then some (c.toNat - 48)
    else if 'a' ≤ c ∧ c ≤ 'f' then some (c.toNat - 87)
    else if 'A' ≤ c ∧ c ≤ 'F' then some (c.toNat - 55)
    else none
  value.filter (· < base)

/-- The digits of `n` in `base`, most significant first; zero has the digit zero. -/
def digits (base n : Nat) : List Nat :=
  if _h : n < base ∨ base < 2 then [n]
  else digits base (n / base) ++ [n % base]
termination_by n
decreasing_by
  simp only [not_or, Nat.not_lt] at _h
  exact Nat.div_lt_self (by omega) (by omega)

def valueOf (base : Nat) (ds : List Nat) : Nat :=
  ds.foldl (fun n d => n * base + d) 0

def writeNumber (base n : Nat) : List Char :=
  (digits base n).map digitChar

def decimal (n : Nat) : String :=
  String.ofList (writeNumber 10 n)

def signedDecimal : Int → String
  | .ofNat n => decimal n
  | .negSucc n => "-" ++ decimal (n + 1)

/-- The longest run of digits at the head of a text, and what follows it. -/
def readDigits (base : Nat) : List Char → List Nat × List Char
  | [] => ([], [])
  | c :: cs =>
    match digitValue? base c with
    | some d => ((d :: (readDigits base cs).1), (readDigits base cs).2)
    | none => ([], c :: cs)

/-- What a numeral may look like. -/
structure NumeralRule where
  base : Nat
  /-- The most digits a numeral may have, if there is a bound. -/
  maxDigits : Option Nat
  /-- Whether a numeral of several digits may start with zero. -/
  leadingZeros : Bool
  limit : Nat

/-- Reads a numeral: all the digits there are, if the rule admits them. -/
def readNumber (rule : NumeralRule) : Reader Nat := fun cs =>
  let ds := (readDigits rule.base cs).1
  if ds.isEmpty then none
  else if rule.maxDigits.any (· < ds.length) then none
  else if !rule.leadingZeros && ds.head? == some 0 && 1 < ds.length then none
  else if valueOf rule.base ds < rule.limit then
    some (valueOf rule.base ds, (readDigits rule.base cs).2)
  else none

def readChar (c : Char) : Reader Unit
  | [] => none
  | x :: rest => if x = c then some ((), rest) else none

/-- Runs a reader on a whole text: nothing may be left over. -/
def readAll {α : Type} (read : Reader α) (text : List Char) : Option α :=
  match read text with
  | some (a, []) => some a
  | _ => none

theorem digits_of_lt {base n : Nat} (h : n < base) : digits base n = [n] := by
  rw [digits]; simp [h]

theorem digits_of_le {base n : Nat} (hb : 2 ≤ base) (h : base ≤ n) :
    digits base n = digits base (n / base) ++ [n % base] := by
  rw [digits]; simp [Nat.not_lt.mpr h, Nat.not_lt.mpr hb]

theorem valueOf_append (base : Nat) (ds : List Nat) (d : Nat) :
    valueOf base (ds ++ [d]) = valueOf base ds * base + d := by
  simp [valueOf]

theorem valueOf_digits {base : Nat} (hb : 2 ≤ base) (n : Nat) :
    valueOf base (digits base n) = n := by
  induction n using Nat.strongRecOn with
  | ind n ih =>
    by_cases h : n < base
    · simp [digits_of_lt h, valueOf]
    · have hle := Nat.not_lt.mp h
      rw [digits_of_le hb hle, valueOf_append, ih _ (Nat.div_lt_self (by omega) (by omega))]
      rw [Nat.mul_comm]
      exact Nat.div_add_mod n base

end Dialer.Text
