import LiveMetrics.Connection.LogEvent
import LiveMetrics.Health

/-!
# Messages and effects of the connection manager

The manager takes messages one at a time: requests of the client, and reports of the tasks that it
has started. What it does besides changing its own state is a list of effects. Reports carry the
generation of the attempt or connection that they come from.
-/

set_option autoImplicit false

namespace LiveMetrics

/-- Somebody who is told about changes of the state, and may panic at it. -/
structure Observer where
  name : String
  panics : ConnectionState → Bool

/-- What the manager can be asked or told; connections are known by their number. -/
inductive Message (κ : Type) where
  /-- Open a connection; an observer replaces the one before. -/
  | connect (endpoint : String) (observer : Option Observer)
  /-- Close the connection; subscriptions stay. -/
  | disconnect
  | subscribe (handle : Handle) (topic : Topic) (callback : κ)
  | unsubscribe (handle : Handle)
  | tellState
  | tellStats
  /-- Stop for good. -/
  | stop
  /-- An attempt has led to a connection. -/
  | opened (generation : UInt64) (link : Nat)
  /-- An attempt has failed. -/
  | openFailed (generation : UInt64) (cause : DisconnectCause)
  /-- A frame has come in. -/
  | inbound (generation : UInt64) (frame : Frame)
  /-- Nothing more will come in. -/
  | closed (generation : UInt64) (cause : DisconnectCause)
  /-- The delay before the next attempt is over. -/
  | retry (generation : UInt64)
  /-- It is time for a ping. -/
  | tick (generation : UInt64)

/-- What the manager starts to run beside itself. -/
inductive Task where
  /-- Opens a connection within a limit, then reports `opened` or `openFailed`. -/
  | opening (generation : UInt64) (endpoint : String) (limit : Span)
  /-- Reports every frame of a connection as `inbound`, then `closed`. -/
  | reading (generation : UInt64) (link : Nat)
  /-- Reports `tick` again and again. -/
  | ticking (generation : UInt64) (interval : Span)
  /-- Reports `retry` once. -/
  | retrying (generation : UInt64) (delay : Span)
  deriving DecidableEq

inductive WriteOutcome where
  | done
  | failed (error : StreamError)
  /-- The write never ends. -/
  | stalled
  deriving DecidableEq

/-- What the manager does to the outside; tasks are known by their number. -/
inductive Effect where
  /-- Writes to the log. -/
  | log (event : LogEvent)
  /-- Publishes a new state. -/
  | publish (was is : ConnectionState)
  /-- Tells an observer about a new state. -/
  | observe (observer : Observer) (state : ConnectionState)
  /-- Has dispatched a data frame to callbacks. -/
  | dispatched (outcome : Outcome)
  /-- Has written a frame. -/
  | wrote (link : Nat) (frame : Frame)
  | start (task : Nat) (what : Task)
  | abort (task : Nat)
  /-- Leaves a connection to a close handshake that runs by itself. -/
  | farewell (link : Nat)
  /-- Lets go of the writing side of a connection. -/
  | release (link : Nat)
  /-- Lets go of both sides of a connection that nobody waits for any more. -/
  | discard (link : Nat)
  | answerState (state : ConnectionState)
  | answerStats (stats : Stats)

def Effect.logged : Effect → List LogEvent
  | log event => [event]
  | publish was is => [.stateChanged was is]
  | observe observer state => if observer.panics state then [.observerPanicked state] else []
  | dispatched (.delivered topic delivery) => LogEvent.ofDelivery topic delivery
  | dispatched (.unrouted topic) => [.noSubscribers topic]
  | dispatched (.dropped reason) => [.malformedFrame reason]
  | wrote _ _ | start _ _ | abort _ | farewell _ | release _ | discard _ | answerState _
  | answerStats _ => []

end LiveMetrics
