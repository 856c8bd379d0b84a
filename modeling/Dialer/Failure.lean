import Dialer.Fault
import Dialer.Time.Duration

/-!
# Failures

A failure is the way a request is rejected when it is handed in, or resolves without a connection.
Its kind forgets the details. A failure is worth another try when the attempt ran out of time or
the peer or the network broke it off.
-/

namespace Dialer

open Time (Duration)

inductive Failure.Kind where
  | invalidArgument | notRunning | socketCreateFailed | connectFailed | timeout | aborted
  deriving DecidableEq

namespace Failure.Kind

def name : Failure.Kind → String
  | .invalidArgument => "InvalidArgument"
  | .notRunning => "NotRunning"
  | .socketCreateFailed => "SocketCreateFailed"
  | .connectFailed => "ConnectFailed"
  | .timeout => "Timeout"
  | .aborted => "Aborted"

def ofName? (name : String) : Option Failure.Kind :=
  [Failure.Kind.invalidArgument, .notRunning, .socketCreateFailed, .connectFailed, .timeout,
    .aborted].find? (·.name = name)

end Failure.Kind

/-- A rejected or unsuccessful request. -/
inductive Failure where
  /-- A continuation is missing; the text says which. -/
  | invalidArgument (text : String)
  | notRunning
  /-- The descriptors of the worker could not be made. -/
  | socketCreateFailed (fault : Fault)
  | workerSpawn (fault : Fault)
  /-- The socket could not be made, or the connect was rejected or broken off. -/
  | connectFailed (fault : Fault)
  /-- The attempt was still in flight when its time was over. -/
  | timeout (after : Duration)
  /-- The service stopped while the attempt was in flight. -/
  | aborted
  deriving DecidableEq

namespace Failure

def kind : Failure → Kind
  | .invalidArgument _ => .invalidArgument
  | .notRunning => .notRunning
  | .socketCreateFailed _ => .socketCreateFailed
  | .workerSpawn _ => .socketCreateFailed
  | .connectFailed _ => .connectFailed
  | .timeout _ => .timeout
  | .aborted => .aborted

def name : Failure → String
  | .workerSpawn _ => "WorkerSpawn"
  | f => f.kind.name

def fault? : Failure → Option Fault
  | .socketCreateFailed fault => some fault
  | .workerSpawn fault => some fault
  | .connectFailed fault => some fault
  | _ => none

/-- Whether the attempt itself failed, and not its submission or the service. -/
def isConnectFailure : Failure → Bool
  | .connectFailed _ => true
  | .timeout _ => true
  | _ => false

/-- Kinds of faults after which a connect may well succeed. -/
def isTransient : Fault.Kind → Bool
  | .connectionRefused => true
  | .connectionReset => true
  | .connectionAborted => true
  | .timedOut => true
  | .interrupted => true
  | _ => false

/-- Whether the same request may well succeed another time. -/
def isRetryable : Failure → Bool
  | .timeout _ => true
  | .connectFailed fault => isTransient fault.kind
  | _ => false

def message : Failure → String
  | .invalidArgument text => "Invalid argument: " ++ text
  | .notRunning => "Connector is not running"
  | .socketCreateFailed fault => "Socket create failed: " ++ fault.message
  | .workerSpawn fault => "Worker spawn failed: " ++ fault.message
  | .connectFailed fault => "Connect failed: " ++ fault.message
  | .timeout after => "Connect timeout after " ++ after.text
  | .aborted => "Connect aborted by connector shutdown"

/-- The failure as a value: its name and what it carries. -/
def shown (f : Failure) : String :=
  match f with
  | .invalidArgument text => f.name ++ "(" ++ Text.quoted text ++ ")"
  | .socketCreateFailed fault => f.name ++ "(" ++ fault.shown ++ ")"
  | .workerSpawn fault => f.name ++ "(" ++ fault.shown ++ ")"
  | .connectFailed fault => f.name ++ "(" ++ fault.shown ++ ")"
  | .timeout after => f.name ++ "(" ++ after.text ++ ")"
  | .notRunning => f.name
  | .aborted => f.name

end Failure

end Dialer
