import HttpGateway.Channel

/-!
# Shutdown

A signal to end the work, heard by all who have subscribed to it.
-/

namespace HttpGateway

/-- A shutdown signal. -/
structure Shutdown where
  channel : Channel Unit := { capacity := 1 }
  deriving Repr

namespace Shutdown

/-- Someone else wants to hear the signal. -/
def subscribe (s : Shutdown) : Nat × Shutdown :=
  let (receiver, channel) := s.channel.subscribe
  (receiver, { s with channel })

/-- Someone no longer wants to hear the signal. -/
def leave (s : Shutdown) (receiver : Nat) : Shutdown := { s with channel := s.channel.leave receiver }

/-- Gives the signal, and tells whether anyone can hear it. -/
def trigger (s : Shutdown) : Bool × Shutdown :=
  let (heard, channel) := s.channel.send ()
  (heard, { s with channel })

/-- Listens for the signal. -/
def receive (s : Shutdown) (receiver : Nat) : Received Unit × Shutdown :=
  let (found, channel) := s.channel.receive receiver
  (found, { s with channel })

/-- The number of those who can hear the signal. -/
def receiverCount (s : Shutdown) : Nat := s.channel.receiverCount

end Shutdown

end HttpGateway
