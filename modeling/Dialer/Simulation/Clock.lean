import Dialer.Time.Instant

/-!
# The clock of the simulations

Time passes only in steps that take some. Still no attempt is let expire at the very moment at which
it was made: that is done by the next reading of the clock.
-/

namespace Dialer.Simulation

open Time (Instant)

/-- What a clock shows when it is read once more: a microsecond has passed. -/
def nextReading (clock : Instant) : Instant := clock.shift 1000

end Dialer.Simulation
