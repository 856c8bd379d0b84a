import Dialer.Channel
import Dialer.Event
import Dialer.Simulation.Names

/-!
# Watching through named handles

One event channel whose senders and receivers are held under names. A step acts on a handle; what
can be seen afterwards is, for every handle, how many events are queued and whether the other side
is gone. Receivers share one queue, so each event is taken by exactly one of them.
-/

namespace Dialer.Simulation

/-- An event channel and the names its handles are held under. -/
structure EventChannel where
  channel : Channel Event := {}
  senders : List String := ["tx"]
  receivers : List String := ["rx"]

/-- One use of a handle. A clone may take the place of another handle. -/
inductive EventChannel.Step where
  | send (name : String) (event : Event)
  | receive (name : String)
  | drain (name : String)
  | cloneSender (name as : String)
  | cloneReceiver (name as : String)
  | dropSender (name : String)
  | dropReceiver (name : String)

inductive EventChannel.Answer where
  | flag (b : Bool)
  | received (r : Received Event)
  | events (es : List Event)

namespace EventChannel

def withReceivers (c : EventChannel) (names : List String) : EventChannel :=
  { c with receivers := names, channel := { c.channel with receivers := names.length } }

def step (c : EventChannel) : Step → Answer × EventChannel
  | .send name event =>
    if name ∈ c.senders then
      match c.channel.send event with
      | .ok channel => (.flag true, { c with channel := channel })
      | .error _ => (.flag false, c)
    else (.flag false, c)
  | .receive name =>
    if name ∈ c.receivers then
      let (r, channel) := c.channel.receive !c.senders.isEmpty
      (.received r, { c with channel := channel })
    else (.received .disconnected, c)
  | .drain name =>
    if name ∈ c.receivers then
      let (es, channel) := c.channel.drain
      (.events es, { c with channel := channel })
    else (.events [], c)
  | .cloneSender name as =>
    if name ∈ c.senders then
      (.flag (as ∉ c.senders), { c with senders := Names.hold c.senders as })
    else (.flag false, c)
  | .cloneReceiver name as =>
    if name ∈ c.receivers then
      (.flag (as ∉ c.receivers), c.withReceivers (Names.hold c.receivers as))
    else (.flag false, c)
  | .dropSender name =>
    (.flag (name ∈ c.senders), { c with senders := c.senders.filter (· ≠ name) })
  | .dropReceiver name =>
    (.flag (name ∈ c.receivers), c.withReceivers (c.receivers.filter (· ≠ name)))

def sendersDisconnected (c : EventChannel) : Bool := c.channel.receivers == 0

def receiversDisconnected (c : EventChannel) : Bool := c.senders.isEmpty

end EventChannel

end Dialer.Simulation
