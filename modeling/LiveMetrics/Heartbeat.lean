import LiveMetrics.Frame
import LiveMetrics.Span

/-!
# The heartbeat

Pings show that a peer is alive, and their pongs how far away it is. Every frame that comes in
counts as a sign of life; a peer that has been silent for longer than the liveness timeout is
overdue. Instants are nanoseconds.
-/

set_option autoImplicit false

namespace LiveMetrics

structure Heartbeat where
  /-- The time between two pings. -/
  interval : Span
  /-- How long a peer may be silent. -/
  liveness : Span
  /-- Whether pings of the peer are answered elsewhere. -/
  autoPong : Bool
  /-- When the last ping was sent, unless a pong has come since. -/
  lastPing : Option Nat
  /-- When the last frame came in. -/
  lastInbound : Nat
  deriving DecidableEq

/-- What a frame means to the heartbeat. -/
inductive Pulse where
  /-- Nothing; the frame has another purpose. -/
  | none
  /-- A pong, with its round trip if a ping was waiting for it. -/
  | pong (roundTrip : Option Span)
  /-- A ping that this frame answers. -/
  | reply (frame : Frame)
  deriving DecidableEq

namespace Heartbeat

/-- A heartbeat that begins at an instant. -/
def start (interval liveness : Span) (autoPong : Bool) (now : Nat) : Heartbeat :=
  ⟨interval, liveness, autoPong, none, now⟩

/-- Begins anew, as for a new connection. -/
def reset (h : Heartbeat) (now : Nat) : Heartbeat :=
  { h with lastPing := none, lastInbound := now }

def pingFrame : Frame := .ping ByteArray.empty

def ping (h : Heartbeat) (now : Nat) : Heartbeat :=
  { h with lastPing := some now }

/-- Takes note of a frame that comes in. -/
def inbound (h : Heartbeat) (now : Nat) (frame : Frame) : Heartbeat × Pulse :=
  let h := { h with lastInbound := now }
  match frame with
  | .pong _ => ({ h with lastPing := none }, .pong (h.lastPing.map fun sent => .between sent now))
  | .ping payload => (h, if h.autoPong then .none else .reply (.pong payload))
  | .text _ | .binary _ | .close _ => (h, .none)

/-- How long the peer has been silent, if that is too long. -/
def overdue? (h : Heartbeat) (now : Nat) : Option Span :=
  let silence := Span.between h.lastInbound now
  if h.liveness.nanos < silence.nanos then some silence else none

end Heartbeat

end LiveMetrics
