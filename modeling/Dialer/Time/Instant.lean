import Dialer.Time.Duration

/-!
# Points in time

An instant is a whole number of nanoseconds from an origin, its seconds within 63 bits either way.
The time elapsed between two instants is floored at zero and always a duration: two instants are
less than `2 ^ 64` seconds apart.
-/

namespace Dialer.Time

/-- Half the number of nanoseconds that instants range over. -/
def horizon : Int := 9223372036854775808 * (second : Int)

structure Instant where
  nanos : Int
  lower : -horizon ≤ nanos := by decide
  upper : nanos < horizon := by decide
  deriving DecidableEq

namespace Instant

def origin : Instant := ⟨0, by decide, by decide⟩

/-- The instant at `n` nanoseconds, kept within the horizon. -/
def ofNanos (n : Int) : Instant :=
  ⟨max (-horizon) (min n (horizon - 1)), by omega, by
    have : 0 < horizon := by decide
    omega⟩

/-- The instant `n` nanoseconds later, or earlier for a negative `n`. -/
def shift (t : Instant) (n : Int) : Instant := ofNanos (t.nanos + n)

/-- Time from `earlier` to `t`, zero if `t` comes first. -/
def since (t earlier : Instant) : Duration :=
  ⟨(t.nanos - earlier.nanos).toNat, by
    have hu := t.upper
    have hl := earlier.lower
    simp only [horizon, longest, second] at *
    omega⟩

@[simp] theorem nanos_since (t earlier : Instant) :
    (t.since earlier).nanos = (t.nanos - earlier.nanos).toNat := rfl

/-- A clock behind the start shows no time elapsed. -/
theorem since_eq_zero {t earlier : Instant} (h : t.nanos ≤ earlier.nanos) :
    (t.since earlier).nanos = 0 := by
  simp; omega

/-- A later clock shows at least as much time elapsed. -/
theorem since_mono {a b : Instant} (h : a.nanos ≤ b.nanos) (start : Instant) :
    (a.since start).nanos ≤ (b.since start).nanos := by
  simp; omega

end Instant

end Dialer.Time
