import Dialer.Failure

/-!
# Lifecycle events

Every attempt is announced when its connect is issued, and again when it resolves. A request whose
target is unusable is only ever announced as failed, without an address.
-/

namespace Dialer

open Address (SocketAddress)

/-- Something that happened to an attempt. -/
inductive Event where
  /-- A connect to the address was issued. -/
  | attempting (address : SocketAddress)
  /-- The attempt succeeded and its socket was handed over. -/
  | connected (address : SocketAddress)
  /-- The attempt failed. -/
  | failed (address : Option SocketAddress) (kind : Failure.Kind)
  deriving DecidableEq

namespace Event

def message : Event → String
  | .attempting address => "Connecting to " ++ address.text
  | .connected address => "Connected to " ++ address.text
  | .failed (some address) kind => "Connect to " ++ address.text ++ " failed: " ++ kind.name
  | .failed none kind => "Connect failed: " ++ kind.name

/-- The event as a value. -/
def shown : Event → String
  | .attempting address => "Attempting(" ++ address.text ++ ")"
  | .connected address => "Connected(" ++ address.text ++ ")"
  | .failed address kind =>
    let place := match address with
      | some a => "Some(" ++ a.text ++ ")"
      | none => "None"
    (Text.Shown.record "Failed" [("addr", .atom place), ("kind", .atom kind.name)]).compact

end Event

end Dialer
