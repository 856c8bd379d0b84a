import Dialer.Failure

/-!
# Requests

A request says where to connect, how long to wait, and what to do with either outcome. Nothing is
checked while it is put together; it is complete when both continuations are there. What a
continuation is, is left open: requests are over a type of labels for continuations.
-/

namespace Dialer

open Time (Duration)

/-- One outbound connect to be tried. -/
structure Request (κ : Type) where
  address : String
  port : UInt16
  timeout : Duration
  onSuccess : Option κ := none
  onFailure : Option κ := none
  deriving DecidableEq

structure Continuations (κ : Type) where
  onSuccess : κ
  onFailure : κ

namespace Request

variable {κ : Type}

def continuations? (r : Request κ) : Option (Continuations κ) :=
  match r.onSuccess, r.onFailure with
  | some s, some f => some ⟨s, f⟩
  | _, _ => none

/-- Why the request is not complete, if it is not: the success side is looked at first. -/
def refusal? (r : Request κ) : Option Failure :=
  if r.onSuccess.isNone then some (.invalidArgument "missing success callback")
  else if r.onFailure.isNone then some (.invalidArgument "missing failure callback")
  else none

/-- The request as a value; of the continuations only their presence shows. -/
def shown (r : Request κ) : Text.Shown :=
  .record "ConnectRequest" [
    ("address", .atom (Text.quoted r.address)),
    ("port", .atom (Text.decimal r.port.toNat)),
    ("timeout", .atom r.timeout.text),
    ("on_success", .ofBool r.onSuccess.isSome),
    ("on_failure", .ofBool r.onFailure.isSome)]

/-- A request is refused exactly when it has not both continuations. -/
theorem refusal?_eq_none_iff (r : Request κ) :
    r.refusal? = none ↔ r.continuations?.isSome := by
  unfold refusal? continuations?
  cases r.onSuccess <;> cases r.onFailure <;> simp

end Request

namespace Continuations

variable {κ : Type}

/-- The continuation that an outcome goes to. -/
def select {α : Type} (c : Continuations κ) : Except Failure α → κ
  | .ok _ => c.onSuccess
  | .error _ => c.onFailure

/-- Continuations show nothing of themselves. -/
def shown : String := "Callbacks \x7b .. \x7d"

end Continuations

end Dialer
