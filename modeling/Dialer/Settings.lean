import Dialer.Text.Quoted
import Dialer.Text.Record
import Dialer.Time.Duration

/-!
# Settings of a service

The bounded wait of the worker and the number of readiness events it takes at once have lower
bounds, one millisecond and one event, so that the worker neither spins nor starves.
-/

namespace Dialer

open Time (Duration)

structure Settings where
  /-- The longest wait of one pass of the worker. -/
  pollInterval : Duration := .ofMillis 10
  /-- Readiness events taken at once. -/
  eventCapacity : Nat := 256
  /-- Whether sockets send small packets at once. -/
  nodelay : Bool := false
  threadName : String := "tether-connector"
  /-- Whether lifecycle events can be watched. -/
  monitor : Bool := false

namespace Settings

def withPollInterval (s : Settings) (interval : Duration) : Settings :=
  { s with pollInterval := Duration.longer interval (.ofMillis 1) }

def withEventCapacity (s : Settings) (capacity : Nat) : Settings :=
  { s with eventCapacity := max capacity 1 }

def withNodelay (s : Settings) (nodelay : Bool) : Settings :=
  { s with nodelay := nodelay }

def withThreadName (s : Settings) (name : String) : Settings :=
  { s with threadName := name }

def withMonitor (s : Settings) (monitor : Bool) : Settings :=
  { s with monitor := monitor }

/-- Whether memory can hold the events taken at once: one fills twelve bytes, and nothing in memory
is longer than 63 bits count. -/
def fitsMemory (s : Settings) : Bool := s.eventCapacity * 12 < 9223372036854775808

def shown (s : Settings) : Text.Shown :=
  .record "ConnectorOptions" [
    ("poll_interval", .atom s.pollInterval.text),
    ("event_capacity", .atom (Text.decimal s.eventCapacity)),
    ("tcp_nodelay", .ofBool s.nodelay),
    ("thread_name", .atom (Text.quoted s.threadName)),
    ("monitor", .ofBool s.monitor)]

end Settings

end Dialer
