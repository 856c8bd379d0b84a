import Dialer.Failure

/-!
# Completions

A completion stands between a request and whoever waits for its outcome. It has room for one
outcome and is filled by either continuation of the request; each continuation holds one end of
it, and lets go of that end when it is over or is dropped. Asking a completion takes the outcome;
when there is none, the answer is that the request was aborted once both ends are released, and no
answer before that.
-/

namespace Dialer

inductive Side where
  | success
  | failure
  deriving DecidableEq

def Side.other : Side → Side
  | .success => .failure
  | .failure => .success

/-- What became of a request. -/
inductive Life where
  | unresolved
  | resolved (side : Side)
  | discarded
  deriving DecidableEq

structure Completion (α : Type) where
  /-- The outcome, from when it is sent until it is taken. -/
  slot : Option (Except Failure α) := none
  life : Life := .unresolved
  /-- The ends that are still held, in the order they are released. -/
  ends : List Side := [.success, .failure]
  /-- Whether somebody can still ask. -/
  handle : Bool := true

namespace Completion

variable {α : Type}

/-- A continuation is called: it sends the outcome, which is lost if nobody can ask. Its own end
will be released first. -/
def resolve (c : Completion α) (side : Side) (outcome : Except Failure α) : Completion α :=
  { c with
    slot := if c.handle then some outcome else none
    life := .resolved side
    ends := [side, side.other] }

def discard (c : Completion α) : Completion α := { c with life := .discarded }

def release (c : Completion α) : Completion α := { c with ends := c.ends.tail }

/-- What asking gives at this moment: the outcome, or that the request was aborted, or nothing
yet. -/
def ask (c : Completion α) : Option (Except Failure α) × Completion α :=
  match c.slot with
  | some outcome => (some outcome, { c with slot := none })
  | none => (if c.ends.isEmpty then some (.error .aborted) else none, c)

/-- Nobody asks any more. -/
def dropHandle (c : Completion α) : Completion α := { c with handle := false, slot := none }

inductive Action (α : Type) where
  | resolve (side : Side) (outcome : Except Failure α)
  | discard
  | release
  /-- Asks once. A wait with a bound that is not over does the same again later. -/
  | ask
  /-- Waits for the outcome and gives the handle up. -/
  | wait
  | dropHandle

def Enabled (c : Completion α) : Action α → Prop
  | .resolve _ _ => c.life = .unresolved
  | .discard => c.life = .unresolved
  | .release => c.life ≠ .unresolved ∧ c.ends ≠ []
  | .ask => c.handle
  | .wait => c.handle ∧ c.ask.1.isSome
  | .dropHandle => c.handle

instance (c : Completion α) (a : Action α) : Decidable (c.Enabled a) := by
  cases a <;> unfold Enabled <;> infer_instance

/-- The completion after a step, and what the step answers. -/
def after (c : Completion α) : Action α → Option (Except Failure α) × Completion α
  | .resolve side outcome => (none, c.resolve side outcome)
  | .discard => (none, c.discard)
  | .release => (none, c.release)
  | .ask => c.ask
  | .wait => let (answer, c) := c.ask; (answer, c.dropHandle)
  | .dropHandle => (none, c.dropHandle)

/-- The answers of a sequence of steps, one for each, and the completion after it. -/
def run (c : Completion α) : List (Action α) → List (Option (Except Failure α)) × Completion α
  | [] => ([], c)
  | a :: rest =>
    let (answer, d) := c.after a
    let (answers, e) := d.run rest
    (answer :: answers, e)

/-- Each step of a sequence can happen where it does. -/
def Possible (c : Completion α) : List (Action α) → Prop
  | [] => True
  | a :: rest => c.Enabled a ∧ (c.after a).2.Possible rest

/-- What is taken is gone. -/
theorem slot_after_ask (c : Completion α) : c.ask.2.slot = none := by
  unfold ask; split <;> simp_all

/-- An answer is missing only while an end is held. -/
theorem ask_eq_none_iff (c : Completion α) :
    c.ask.1 = none ↔ c.slot = none ∧ c.ends ≠ [] := by
  unfold ask
  split <;> simp_all

end Completion

end Dialer
