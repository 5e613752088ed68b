import LiveMetrics.Connection.State
import LiveMetrics.Control
import LiveMetrics.Span
import LiveMetrics.Subscription.Dispatch

/-!
# Log events

What the client writes to its log. An event has a level, a message and named fields; a field that
has no value is left out.
-/

set_option autoImplicit false

namespace LiveMetrics

inductive LogLevel where
  | debug
  | info
  | warn
  | error
  deriving Repr, DecidableEq

/-- What is told about a connection that was lost. -/
structure ReconnectPlan where
  endpoint : String
  cause : DisconnectCause
  attempt : Nat
  /-- The delay before the next attempt; there is none when the policy gave up. -/
  delay : Option Span
  lastFrameAge : Span
  frames : Nat
  topics : Nat

inductive LogEvent where
  | connectDropped
  | disconnectDropped
  | subscriptionDropped (handle : Handle) (topic : Topic)
  | unsubscribeDropped (handle : Handle)
  | noSubscribers (topic : Topic)
  | malformedFrame (reason : DropReason)
  | managerPanicked (reason : String)
  | connectIgnored (state : ConnectionState)
  | retryingNow (attempt : Nat)
  | reconnectCancelled (attempt : Nat)
  | closeNotDelivered (error : StreamError)
  | closeTimedOut
  | disconnected (endpoint : String) (was : ConnectionState) (topics : Nat)
  | registered (handle : Handle) (topic : Topic) (first : Bool) (state : ConnectionState)
  | unknownHandle (handle : Handle)
  | removed (handle : Handle) (topic : Topic) (last : Bool)
  | stateChanged (was is : ConnectionState)
  | observerPanicked (state : ConnectionState)
  | opening (endpoint : String) (generation : UInt64) (attempt : Nat)
  | openPanicked (generation : UInt64) (reason : String)
  | connected (endpoint : String) (generation : UInt64) (topics : Nat)
  | sendingControl (context : String) (control : ControlFrame)
  | plan (plan : ReconnectPlan)
  | duplicateHandle (handle : Handle) (topic : Topic)
  | callbackFailed (handle : Handle) (topic : Topic) (reason : String)
  | callbackPanicked (handle : Handle) (topic : Topic) (reason : String)

namespace LogEvent

def level : LogEvent → LogLevel
  | connectDropped | disconnectDropped | subscriptionDropped _ _ | unsubscribeDropped _
  | malformedFrame _ | observerPanicked _ | plan _ | duplicateHandle _ _ | callbackFailed _ _ _
  | callbackPanicked _ _ _ => .warn
  | managerPanicked _ | openPanicked _ _ => .error
  | disconnected _ _ _ | connected _ _ _ => .info
  | noSubscribers _ | connectIgnored _ | retryingNow _ | reconnectCancelled _
  | closeNotDelivered _ | closeTimedOut | registered _ _ _ _ | unknownHandle _ | removed _ _ _
  | stateChanged _ _ | opening _ _ _ | sendingControl _ _ => .debug

def message : LogEvent → String
  | connectDropped => "connection manager unavailable; connect dropped"
  | disconnectDropped => "connection manager unavailable; disconnect dropped"
  | subscriptionDropped _ _ => "connection manager unavailable; subscription dropped"
  | unsubscribeDropped _ => "connection manager unavailable; unsubscribe dropped"
  | noSubscribers _ => "frame for topic without subscribers"
  | malformedFrame _ => "dropping malformed frame"
  | managerPanicked _ => "ConnectionManager panicked"
  | connectIgnored _ => "connect ignored; connection already active"
  | retryingNow _ => "connect while reconnecting; retrying now"
  | reconnectCancelled _ => "pending reconnect cancelled"
  | closeNotDelivered _ => "close frame not delivered"
  | closeTimedOut => "close handshake timed out"
  | disconnected _ _ _ => "metrics stream disconnected"
  | registered _ _ _ _ => "subscription registered"
  | unknownHandle _ => "unsubscribe for unknown handle ignored"
  | removed _ _ _ => "subscription removed"
  | stateChanged _ _ => "connection state changed"
  | observerPanicked _ => "state change callback panicked"
  | opening _ _ _ => "opening transport"
  | openPanicked _ _ => "transport connect panicked"
  | connected _ _ _ => "metrics stream connected"
  | sendingControl _ _ => "sending control frame"
  | plan _ => "metrics stream reconnect plan"
  | duplicateHandle _ _ => "duplicate subscription handle ignored"
  | callbackFailed _ _ _ => "subscriber callback failed"
  | callbackPanicked _ _ _ => "subscriber callback panicked"

/-- What is said of a call that finds the manager stopped. -/
def notRunning : String := "actor not running"

/-- Milliseconds as far as 64 bits go. -/
def millisText (d : Span) : String := toString (min d.millis (Nat.pow 2 64 - 1))

def planFields (p : ReconnectPlan) : List (String × String) :=
  [("endpoint", p.endpoint), ("cause", p.cause.kind), ("reason", p.cause.message),
    ("note", if p.delay.isSome then "scheduled" else "exhausted"),
    ("attempt", toString p.attempt)] ++
  (p.delay.map fun delay => ("delay_ms", millisText delay)).toList ++
  [("last_frame_age_ms", millisText p.lastFrameAge), ("frames", toString p.frames),
    ("topics", toString p.topics)]

/-- The fields of an event that have a value. -/
def fields : LogEvent → List (String × String)
  | connectDropped | disconnectDropped => [("error", notRunning)]
  | subscriptionDropped handle topic =>
    [("handle", handle.text), ("topic", topic.name), ("error", notRunning)]
  | unsubscribeDropped handle => [("handle", handle.text), ("error", notRunning)]
  | noSubscribers topic => [("topic", topic.name)]
  | malformedFrame reason => [("reason", reason.message)]
  | managerPanicked reason =>
    [("error", "PanicError \x7b err: " ++ Text.quoted reason ++ " \x7d")]
  | connectIgnored state => [("state", state.name)]
  | retryingNow attempt | reconnectCancelled attempt => [("attempt", toString attempt)]
  | closeNotDelivered error => [("error", error.message)]
  | closeTimedOut => []
  | disconnected endpoint was topics =>
    [("endpoint", endpoint), ("from", was.name), ("topics", toString topics)]
  | registered handle topic first state =>
    [("handle", handle.text), ("topic", topic.name), ("first", toString first),
      ("state", state.name)]
  | unknownHandle handle => [("handle", handle.text)]
  | removed handle topic last =>
    [("handle", handle.text), ("topic", topic.name), ("last", toString last)]
  | stateChanged was is => [("from", was.name), ("to", is.name)]
  | observerPanicked state => [("state", state.name)]
  | opening endpoint generation attempt =>
    [("endpoint", endpoint), ("generation", toString generation.toNat),
      ("attempt", toString attempt)]
  | openPanicked generation reason =>
    [("generation", toString generation.toNat), ("panic", reason)]
  | connected endpoint generation topics =>
    [("endpoint", endpoint), ("generation", toString generation.toNat),
      ("topics", toString topics)]
  | sendingControl context control => [("context", context), ("control", control.termText)]
  | plan p => planFields p
  | duplicateHandle handle topic => [("handle", handle.text), ("topic", topic.name)]
  | callbackFailed handle topic reason =>
    [("handle", handle.text), ("topic", topic.name), ("error", reason)]
  | callbackPanicked handle topic reason =>
    [("handle", handle.text), ("topic", topic.name), ("panic", reason)]

/-- The event of a call of a callback, if it did not come to its end. -/
def ofInvocation? (topic : Topic) (i : Invocation) : Option LogEvent :=
  match i.result with
  | .done => none
  | .failed reason => some (callbackFailed i.handle topic reason)
  | .panicked reason => some (callbackPanicked i.handle topic reason)

def ofDelivery (topic : Topic) (d : Delivery) : List LogEvent :=
  d.calls.filterMap (ofInvocation? topic)

end LogEvent

end LiveMetrics
