import LiveMetrics.Connection.State
import LiveMetrics.Histogram
import LiveMetrics.Span
import LiveMetrics.Text.Utf8
import LiveMetrics.Window

/-!
# The health of a connection

Counts of what happened over the life of a client, the last errors, and the round trips of pings.
The counts stay at their greatest value when they reach it; only the uptime begins anew with each
connection. `Health.stats` puts all of it together. Instants are nanoseconds.

The record of an error also has `at_ms`, the time of day at which it was noted. It is left out of
`ErrorRecord`: no function reads it, and the clock that it comes from is not the one of the instants.
-/

set_option autoImplicit false

namespace LiveMetrics

/-- An error that was noted. -/
structure ErrorRecord where
  kind : String
  message : String
  deriving Repr, DecidableEq

structure Health where
  connectedAt : Option Nat
  lastFrame : Option Nat
  framesReceived : Nat
  samplesDispatched : Nat
  decodeFailures : Nat
  callbackFailures : Nat
  unroutedFrames : Nat
  reconnects : Nat
  recentErrors : Window ErrorRecord
  roundTrips : Histogram

/-- What a client tells about its connection. -/
structure Stats where
  state : ConnectionState
  uptime : Span
  framesReceived : Nat
  samplesDispatched : Nat
  decodeFailures : Nat
  callbackFailures : Nat
  unroutedFrames : Nat
  reconnects : Nat
  lastFrameAge : Span
  recentErrors : List ErrorRecord
  /-- Half of the round trips took no more than this many microseconds. -/
  roundTripP50 : Nat
  /-- All but one in a hundred round trips took no more than this many microseconds. -/
  roundTripP99 : Nat
  roundTripCount : Nat
  topics : Nat
  subscriptions : Nat

namespace Health

/-- The greatest value of a count. -/
def maxCount : Nat := Nat.pow 2 64 - 1

/-- A count and `n` more. -/
def raise (count n : Nat) : Nat := min (count + n) maxCount

/-- How many errors are kept. -/
def maxRecentErrors : Nat := 100

/-- How many bytes of an error's text are kept. -/
def maxErrorBytes : Nat := 1024

def new : Health := ⟨none, none, 0, 0, 0, 0, 0, 0, .empty maxRecentErrors, .empty⟩

def connected (h : Health) (now : Nat) : Health :=
  { h with connectedAt := some now, lastFrame := some now }

def disconnected (h : Health) : Health := { h with connectedAt := none }

def frame (h : Health) (now : Nat) : Health :=
  { h with lastFrame := some now, framesReceived := raise h.framesReceived 1 }

/-- A sample has gone to its subscribers; `failed` of them could not take it. -/
def delivery (h : Health) (failed : Nat) : Health :=
  { h with
    samplesDispatched := raise h.samplesDispatched 1
    callbackFailures := raise h.callbackFailures failed }

/-- A sample had no subscribers. -/
def unrouted (h : Health) : Health :=
  { h with unroutedFrames := raise h.unroutedFrames 1 }

/-- Notes an error, as much of its text as is kept. -/
def error (h : Health) (kind message : String) : Health :=
  { h with recentErrors := (h.recentErrors.push ⟨kind, Text.clip maxErrorBytes message⟩).1 }

def decodeFailure (h : Health) (message : String) : Health :=
  { h with decodeFailures := raise h.decodeFailures 1 }.error "decode" message

/-- A ping has come back; less than a microsecond counts as one. -/
def roundTrip (h : Health) (time : Span) : Health :=
  { h with roundTrips := h.roundTrips.record (max 1 time.micros) }

/-- Another attempt to connect is planned. -/
def reconnect (h : Health) : Health :=
  { h with reconnects := raise h.reconnects 1 }

/-- The time since an instant; none at all if there was no such instant. -/
def age (since : Option Nat) (now : Nat) : Span :=
  match since with
  | some instant => .between instant now
  | none => .zero

def stats (h : Health) (now : Nat) (state : ConnectionState) (topics subscriptions : Nat) : Stats where
  state
  uptime := age h.connectedAt now
  framesReceived := h.framesReceived
  samplesDispatched := h.samplesDispatched
  decodeFailures := h.decodeFailures
  callbackFailures := h.callbackFailures
  unroutedFrames := h.unroutedFrames
  reconnects := h.reconnects
  lastFrameAge := age h.lastFrame now
  recentErrors := h.recentErrors.items
  roundTripP50 := h.roundTrips.percentile 50
  roundTripP99 := h.roundTrips.percentile 99
  roundTripCount := h.roundTrips.size
  topics
  subscriptions

end Health

end LiveMetrics
