import Dialer.Event
import Dialer.Log
import Dialer.Readiness
import Dialer.Request

/-!
# What happens to attempts

The history of a table of attempts: which requests were issued under which ticket, which sockets
were opened and closed, which events were published, which continuations were called with what,
and which tasks were accepted and taken. Most of it is also said in the log, in fixed words.
-/

namespace Dialer.InFlight

open Address (SocketAddress)
open Readiness (Token)
open Time (Duration)

/-- A connected socket on its way to its new owner. -/
structure Handed where
  socket : Nat
  nodelay : Bool
  deriving DecidableEq

abbrev Outcome := Except Failure Handed

/-- The one call of a continuation that a request ends in. -/
structure Call (κ : Type) where
  ticket : Nat
  continuation : κ
  outcome : Outcome

/-- The side of its request that a call is made on. -/
def Call.site {κ : Type} (call : Call κ) : String :=
  match call.outcome with
  | .ok _ => "on_success"
  | .error _ => "on_failure"

/-- Something that happened to a table of attempts over continuations `κ` and tasks `τ`. -/
inductive Happening (κ τ : Type) where
  /-- A request was dropped that had not both continuations. -/
  | ignored
  /-- A request was taken up under a ticket. -/
  | issued (ticket : Nat) (request : Request κ)
  | unusable (address : String) (port : UInt16) (error : TargetError)
  | opened (ticket socket : Nat)
  | closed (socket : Nat)
  | rejected (address : SocketAddress) (fault : Fault)
  | immediate (address : SocketAddress)
  | unregistered (address : SocketAddress) (fault : Fault)
  | tracked (address : SocketAddress) (token : Token) (timeout : Duration)
  | unwatched (token : Token) (fault : Fault)
  | published (channel : Nat) (event : Event)
  /-- The channel that was published on has no receiver any more. -/
  | detached
  | waitFailed (fault : Fault)
  | spurious (token : Token)
  | established (address : SocketAddress)
  | broken (address : SocketAddress) (fault : Fault)
  | timedOut (address : SocketAddress) (timeout : Duration)
  | aborting (count : Nat)
  /-- The socket could not be set up to send small packets at once. -/
  | unprepared (address : SocketAddress) (fault : Fault)
  | called (call : Call κ)
  | accepted (task : τ)
  | taken (task : τ)
  | started (task : τ)
  /-- All queued tasks ran, so many in this go. -/
  | drained (count : Nat)
  | panicked (site text : String)
  | escaped (text : String)

namespace Happening

variable {κ τ : Type}

/-- What the log says of it. -/
def line? : Happening κ τ → Option Log.Line
  | .ignored => some ⟨.warn, "connect request without callbacks dropped", []⟩
  | .unusable address port error => some ⟨.debug, "unusable connect target",
      [("address", address), ("error", error.message), ("port", Text.decimal port.toNat)]⟩
  | .rejected address fault => some ⟨.debug, "connect rejected",
      [("addr", address.text), ("error", fault.message)]⟩
  | .immediate address => some ⟨.trace, "connect completed immediately", [("addr", address.text)]⟩
  | .unregistered address fault => some ⟨.warn, "readiness registration failed",
      [("addr", address.text), ("error", fault.message)]⟩
  | .tracked address token timeout => some ⟨.trace, "connect in progress",
      [("addr", address.text), ("timeout", timeout.text), ("token", Text.decimal token.toNat)]⟩
  | .unwatched token fault => some ⟨.trace, "deregister failed",
      [("error", fault.message), ("token", Text.decimal token.toNat)]⟩
  | .detached => some ⟨.trace, "monitor receiver dropped; detaching", []⟩
  | .waitFailed fault => some ⟨.warn, "readiness poll failed", [("error", fault.message)]⟩
  | .spurious token => some ⟨.trace, "spurious write readiness",
      [("token", Text.decimal token.toNat)]⟩
  | .established address => some ⟨.trace, "connected", [("addr", address.text)]⟩
  | .broken address fault => some ⟨.debug, "connect failed",
      [("addr", address.text), ("error", fault.message)]⟩
  | .timedOut address timeout => some ⟨.debug, "connect timed out",
      [("addr", address.text), ("timeout", timeout.text)]⟩
  | .aborting count => some ⟨.debug, "aborting pending connects",
      [("count", Text.decimal count)]⟩
  | .unprepared address fault => some ⟨.warn, "failed to set TCP_NODELAY",
      [("addr", address.text), ("error", fault.message)]⟩
  | .panicked site text => some ⟨.error, "callback panicked; continuing",
      [("callback", site), ("panic", text)]⟩
  | _ => none

end Happening

end Dialer.InFlight
