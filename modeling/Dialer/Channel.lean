/-!
# Channels

A channel keeps what was sent until a receiver takes it, in order. Sending fails once no receiver
is left; what was queued then stays queued and can be taken by nobody. Who holds the sending side
is known to the owner of the channel, so receiving is told whether a sender is left.
-/

namespace Dialer

structure Channel (α : Type) where
  queue : List α := []
  receivers : Nat := 1

inductive Received (α : Type) where
  | item (a : α)
  /-- Nothing is queued, but a sender is left. -/
  | empty
  /-- Nothing is queued and nothing can come any more. -/
  | disconnected

namespace Channel

variable {α : Type}

/-- Queues `a`, or gives it back if there is no receiver. -/
def send (c : Channel α) (a : α) : Except α (Channel α) :=
  if c.receivers = 0 then .error a else .ok { c with queue := c.queue ++ [a] }

/-- The item to come next and the channel without it. -/
def take? (c : Channel α) : Option (α × Channel α) :=
  match c.queue with
  | [] => none
  | a :: rest => some (a, { c with queue := rest })

/-- Tries to receive; `senders` tells whether a sender is left. -/
def receive (c : Channel α) (senders : Bool) : Received α × Channel α :=
  match c.take? with
  | some (a, c) => (.item a, c)
  | none => (if senders then .empty else .disconnected, c)

def drain (c : Channel α) : List α × Channel α :=
  (c.queue, { c with queue := [] })

def addReceiver (c : Channel α) : Channel α :=
  { c with receivers := c.receivers + 1 }

def dropReceiver (c : Channel α) : Channel α :=
  { c with receivers := c.receivers - 1 }

/-- What is accepted comes last. -/
theorem queue_of_send {c d : Channel α} {a : α} (h : c.send a = .ok d) :
    d.queue = c.queue ++ [a] := by
  unfold send at h
  split at h <;> simp at h
  subst h; rfl

/-- What is taken came first. -/
theorem queue_of_take {c d : Channel α} {a : α} (h : c.take? = some (a, d)) :
    c.queue = a :: d.queue := by
  unfold take? at h
  split at h
  · simp at h
  · rename_i b rest hq
    simp only [Option.some.injEq, Prod.mk.injEq] at h
    rw [hq, ← h.1, ← h.2]

end Channel

end Dialer
