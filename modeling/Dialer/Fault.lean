import Dialer.Fault.Numbered
import Dialer.Target
import Dialer.Text.Record

/-!
# Faults of the operating system

A fault is a numbered error of the system, a bare kind of error, or a kind with a payload that
says more.
-/

namespace Dialer

inductive Fault.Payload where
  | text (words : String)
  | target (error : TargetError)
  deriving DecidableEq

namespace Fault.Payload

def message : Fault.Payload → String
  | .text words => words
  | .target error => error.message

def shown : Fault.Payload → String
  | .text words => Text.quoted words
  | .target error => error.shown

end Fault.Payload

/-- Something that the system, or a look at a request's target, reports as wrong. -/
inductive Fault where
  | system (code : Int)
  | bare (kind : Fault.Kind)
  | custom (kind : Fault.Kind) (payload : Fault.Payload)
  deriving DecidableEq

namespace Fault

def kind : Fault → Kind
  | .system code => systemKind code
  | .bare kind => kind
  | .custom kind _ => kind

def code? : Fault → Option Int
  | .system code => some code
  | _ => none

def message : Fault → String
  | .system code => systemWording code ++ " (os error " ++ Text.signedDecimal code ++ ")"
  | .bare kind => kind.wording
  | .custom _ payload => payload.message

/-- The fault as a value: its form, its kind and what it carries. -/
def shown : Fault → String
  | .system code =>
    (Text.Shown.record "Os" [
      ("code", .atom (Text.signedDecimal code)),
      ("kind", .atom (systemKind code).name),
      ("message", .atom (Text.quoted (systemWording code)))]).compact
  | .bare kind => "Kind(" ++ kind.name ++ ")"
  | .custom kind payload =>
    (Text.Shown.record "Custom" [
      ("kind", .atom kind.name),
      ("error", .atom payload.shown)]).compact

def tooManyOpenFiles : Fault := .system 24

def networkUnreachable : Fault := .system 101

def connectionRefused : Fault := .system 111

def notConnected : Fault := .system 107

def nowInProgress : Fault := .system 115

def invalidArgument : Fault := .system 22

def alreadyRegistered : Fault := .system 17

def notRegistered : Fault := .system 2

end Fault

end Dialer
