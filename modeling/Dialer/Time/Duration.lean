import Dialer.Text.Digits

/-!
# Spans of time

A duration is a whole number of nanoseconds whose seconds fit in 64 bits. It is shown in the
largest of the units s, ms, µs, ns in which its whole part is not zero, with the exact fraction and
no zeros at the end of it.
-/

namespace Dialer.Time

def second : Nat := 1000000000

def millisecond : Nat := 1000000

/-- The number of nanoseconds whose seconds fit in 64 bits. -/
def longest : Nat := 18446744073709551616 * second

structure Duration where
  nanos : Nat
  bounded : nanos < longest := by decide
  deriving DecidableEq

namespace Duration

/-- The duration of `n` nanoseconds, cut off at the longest one. -/
def ofNanos (n : Nat) : Duration :=
  ⟨min n (longest - 1), by
    have : 0 < longest := by decide
    omega⟩

/-- The duration of `n` milliseconds, cut off at the longest one. -/
def ofMillis (n : Nat) : Duration := ofNanos (n * millisecond)

/-- The duration of whole seconds and further nanoseconds, cut off at the longest one. -/
def ofParts (seconds nanos : Nat) : Duration := ofNanos (seconds * second + nanos)

def seconds (d : Duration) : Nat := d.nanos / second

def subsecond (d : Duration) : Nat := d.nanos % second

def longer (a b : Duration) : Duration := if a.nanos ≤ b.nanos then b else a

/-- A fraction of `places` decimal places: its digits without the zeros at the end. -/
def fractionDigits (places fraction : Nat) : List Char :=
  let written := Text.writeNumber 10 fraction
  let padded := List.replicate (places - written.length) '0' ++ written
  (padded.reverse.dropWhile (· == '0')).reverse

/-- So many `nanos` in a unit of ten to the power of `places` nanoseconds. -/
def inUnit (nanos places : Nat) (unit : String) : String :=
  let whole := Text.decimal (nanos / Nat.pow 10 places)
  match fractionDigits places (nanos % Nat.pow 10 places) with
  | [] => whole ++ unit
  | digits => whole ++ "." ++ String.ofList digits ++ unit

/-- The duration in its largest unit. -/
def text (d : Duration) : String :=
  if second ≤ d.nanos then inUnit d.nanos 9 "s"
  else if millisecond ≤ d.nanos then inUnit d.nanos 6 "ms"
  else if 1000 ≤ d.nanos then inUnit d.nanos 3 "µs"
  else inUnit d.nanos 0 "ns"

@[simp] theorem nanos_ofNanos {n : Nat} (h : n < longest) : (ofNanos n).nanos = n := by
  simp only [ofNanos]; omega

theorem nanos_longer (a b : Duration) : (longer a b).nanos = max a.nanos b.nanos := by
  unfold longer; split <;> omega

end Duration

end Dialer.Time
