/-!
# Channels

A channel carries messages from one sender to any number of receivers. It keeps the latest messages
up to its capacity. A receiver that falls further behind is told how many it has lost and goes on
with the oldest that is kept.
-/

namespace HttpGateway

/-- A channel. Receivers are numbered in the order in which they came, and each holds the number of
the message it is to receive next; one that has left holds none. -/
structure Channel (α : Type) where
  capacity : Nat
  /-- The number of messages sent so far. -/
  sent : Nat := 0
  /-- The latest messages, oldest first. -/
  kept : List α := []
  receivers : List (Option Nat) := []
  closed : Bool := false
  deriving Repr

/-- What a receiver finds. -/
inductive Received (α : Type) where
  | message (a : α)
  | lagged (lost : Nat)
  | empty
  | closed
  deriving Repr, DecidableEq

namespace Channel

variable {α : Type}

/-- The number of receivers that have not left. -/
def receiverCount (c : Channel α) : Nat := c.receivers.countP Option.isSome

/-- A new receiver, which gets the messages sent from now on, and its number. -/
def subscribe (c : Channel α) : Nat × Channel α :=
  (c.receivers.length, { c with receivers := c.receivers ++ [some c.sent] })

/-- A receiver leaves. -/
def leave (c : Channel α) (receiver : Nat) : Channel α :=
  { c with receivers := c.receivers.set receiver none }

/-- Sends a message, if there is anyone to receive it; the answer tells whether there is. -/
def send (c : Channel α) (a : α) : Bool × Channel α :=
  if c.receiverCount = 0 then (false, c)
  else
    let kept := c.kept ++ [a]
    (true, { c with sent := c.sent + 1, kept := kept.drop (kept.length - c.capacity) })

/-- The sender leaves. -/
def close (c : Channel α) : Channel α := { c with closed := true }

/-- The number of the oldest message that is kept. -/
def oldest (c : Channel α) : Nat := c.sent - c.kept.length

/-- Looks for the next message of a receiver. -/
def receive (c : Channel α) (receiver : Nat) : Received α × Channel α :=
  match c.receivers[receiver]?.join with
  | none => (.closed, c)
  | some next =>
    let goOn (n : Nat) : Channel α := { c with receivers := c.receivers.set receiver (some n) }
    if next + c.capacity < c.sent then
      (.lagged (c.sent - c.capacity - next), goOn (c.sent - c.capacity))
    else match c.kept[next - c.oldest]? with
      | some a => (.message a, goOn (next + 1))
      | none => (if c.closed then .closed else .empty, c)

/-- Looks for messages until there is none, and tells how often something was found. -/
def drain (c : Channel α) (receiver : Nat) : (fuel : Nat) → Nat × Channel α
  | 0 => (0, c)
  | fuel + 1 =>
    match c.receive receiver with
    | (.message _, c) => let (n, c) := c.drain receiver fuel; (n + 1, c)
    | (.lagged _, c) => let (n, c) := c.drain receiver fuel; (n + 1, c)
    | (_, c) => (0, c)

/-- Looks for messages until there is none. A receiver finds at most one loss and what is kept. -/
def drainAll (c : Channel α) (receiver : Nat) : Nat × Channel α :=
  c.drain receiver (c.capacity + 2)

end Channel

end HttpGateway
