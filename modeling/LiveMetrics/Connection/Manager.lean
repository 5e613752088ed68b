import LiveMetrics.Config
import LiveMetrics.Connection.Message
import LiveMetrics.Heartbeat
import LiveMetrics.Reconnect.Policy

/-!
# The connection manager

The manager owns the one connection of a client: the state, the writing side, the subscriptions,
and the tasks that open, read, tick and wait. It takes messages one at a time (`Manager.handle`).

* Every attempt, disconnect and failure begins a new generation; a report of an older one changes
  nothing.
* A failure takes the connection down once, whatever else is reported of it, and asks the policy
  when to try again.
* Subscriptions outlive connections: a connection that opens is told all topics, one that is open
  is told when a topic gets its first or loses its last callback.

A turn (`Turn`) is the handling of one message: the manager as it changes, what the callbacks
share, and the effects in order.
-/

set_option autoImplicit false

namespace LiveMetrics

/-- Whether the manager takes messages. -/
inductive Phase where
  | running
  /-- It waits for a write that does not end. -/
  | suspended
  | stopped
  deriving Repr, DecidableEq

structure Manager (κ : Type) where
  config : Config
  policy : Nat → Verdict
  phase : Phase
  state : ConnectionState
  observer : Option Observer
  endpoint : Option String
  registry : Registry κ
  health : Health
  heartbeat : Heartbeat
  /-- The connection that is written to. -/
  writer : Option Nat
  openTask : Option Nat
  readerTask : Option Nat
  heartbeatTask : Option Nat
  retryTask : Option Nat
  generation : UInt64
  /-- The failures since a connection was last opened or asked for. -/
  attempt : Nat
  /-- How many tasks have been started. -/
  tasks : Nat

/-- The handling of one message. -/
structure Turn (κ σ : Type) where
  manager : Manager κ
  shared : σ
  now : Nat
  /-- How the writes of this turn go, by connection and number. -/
  outcomes : Nat → Nat → WriteOutcome
  writes : Nat
  effects : List Effect

namespace Manager

variable {κ : Type}

/-- A manager that has done nothing yet; `autoPong` tells whether pings of the server are answered
by the connection itself. -/
def new (config : Config) (policy : Nat → Verdict) (autoPong : Bool) : Manager κ where
  config
  policy
  phase := .running
  state := .disconnected
  observer := none
  endpoint := none
  registry := .empty
  health := .new
  heartbeat := .start config.heartbeatInterval config.liveness autoPong 0
  writer := none
  openTask := none
  readerTask := none
  heartbeatTask := none
  retryTask := none
  generation := 0
  attempt := 0
  tasks := 0

/-- The greatest number of failures that is counted. -/
def maxAttempt : Nat := Nat.pow 2 32 - 1

def endpointLabel (m : Manager κ) : String := m.endpoint.getD "<unset>"

def stats (m : Manager κ) (now : Nat) : Stats :=
  m.health.stats now m.state m.registry.topicCount m.registry.size

/-- What is logged of a failure. -/
def plan (m : Manager κ) (now : Nat) (cause : DisconnectCause) (delay : Option Span) :
    ReconnectPlan where
  endpoint := m.endpointLabel
  cause
  attempt := m.attempt
  delay
  lastFrameAge := (m.stats now).lastFrameAge
  frames := (m.stats now).framesReceived
  topics := (m.stats now).topics

end Manager

namespace Turn

variable {κ σ : Type}

/-! ## Steps of a turn -/

def emit (t : Turn κ σ) (e : Effect) : Turn κ σ := { t with effects := t.effects ++ [e] }

def log (t : Turn κ σ) (event : LogEvent) : Turn κ σ := t.emit (.log event)

def update (t : Turn κ σ) (f : Manager κ → Manager κ) : Turn κ σ :=
  { t with manager := f t.manager }

/-- Starts a task; it is known by the number of tasks before it. -/
def start (t : Turn κ σ) (what : Task) : Turn κ σ :=
  (t.emit (.start t.manager.tasks what)).update fun m => { m with tasks := m.tasks + 1 }

def abort? (t : Turn κ σ) : Option Nat → Turn κ σ
  | some task => t.emit (.abort task)
  | none => t

def release? (t : Turn κ σ) : Option Nat → Turn κ σ
  | some link => t.emit (.release link)
  | none => t

def observe (t : Turn κ σ) (state : ConnectionState) : Turn κ σ :=
  match t.manager.observer with
  | some observer => t.emit (.observe observer state)
  | none => t

/-- Enters a state: it is published and the observer is told, unless it is the present one. -/
def enter (t : Turn κ σ) (next : ConnectionState) : Turn κ σ :=
  if t.manager.state = next then t
  else
    ((t.emit (.publish t.manager.state next)).update fun m => { m with state := next }).observe next

/-- Lets go of the connection: its tasks are aborted and nothing can be written any more. -/
def teardown (t : Turn κ σ) : Turn κ σ :=
  let m := t.manager
  ((((t.abort? m.openTask).abort? m.readerTask).abort? m.heartbeatTask).release? m.writer).update
    fun m =>
      { m with
        openTask := none
        readerTask := none
        heartbeatTask := none
        writer := none
        health := m.health.disconnected }

def cancelRetry (t : Turn κ σ) : Turn κ σ :=
  (t.abort? t.manager.retryTask).update fun m => { m with retryTask := none }

/-- Stops the manager and all its tasks. -/
def halt (t : Turn κ σ) : Turn κ σ :=
  t.cancelRetry.teardown.update fun m => { m with phase := .stopped }

def nextGeneration (t : Turn κ σ) : Turn κ σ :=
  t.update fun m => { m with generation := m.generation + 1 }

def beginAttempt (t : Turn κ σ) : Turn κ σ :=
  match t.manager.endpoint with
  | none => t
  | some endpoint =>
    let t := (t.abort? t.manager.openTask).nextGeneration.enter .connecting
    let m := t.manager
    let t := t.log (.opening endpoint m.generation m.attempt)
    (t.start (.opening m.generation endpoint m.config.connectTimeout)).update
      fun m' => { m' with openTask := some m.tasks }

def scheduleRetry (t : Turn κ σ) (delay : Span) : Turn κ σ :=
  let t := t.abort? t.manager.retryTask
  let m := t.manager
  (t.start (.retrying m.generation delay)).update
    fun m' => { m' with retryTask := some m.tasks }

/-- Notes a failure: the connection is gone, its generation over, and the failure counted. -/
def noteFailure (t : Turn κ σ) (cause : DisconnectCause) : Turn κ σ :=
  t.teardown.nextGeneration.update fun m =>
    { m with
      attempt := min (m.attempt + 1) Manager.maxAttempt
      health := m.health.error cause.kind cause.message }

/-- Does what the policy says after a failure. -/
def obey (t : Turn κ σ) (cause : DisconnectCause) : Verdict → Turn κ σ
  | .broken reason => (t.log (.managerPanicked reason)).halt
  | .giveUp => (t.log (.plan (t.manager.plan t.now cause none))).enter .failed
  | .wait delay =>
    (((t.log (.plan (t.manager.plan t.now cause (some delay)))).update fun m =>
      { m with health := m.health.reconnect }).enter .reconnecting).scheduleRetry delay

/-- Gives the connection up, or the attempt to open it. -/
def fail (t : Turn κ σ) (cause : DisconnectCause) : Turn κ σ :=
  if t.manager.state.isIdle then t
  else
    let t := t.noteFailure cause
    t.obey cause (t.manager.policy t.manager.attempt)

/-! ## Writing -/

/-- Writes a frame. A write that stalls suspends the manager. -/
def write (t : Turn κ σ) (frame : Frame) : Turn κ σ × WriteOutcome :=
  match t.manager.writer with
  | none => (t, .failed (.invalidState "no open transport"))
  | some link =>
    let outcome := t.outcomes link t.writes
    let t := { t with writes := t.writes + 1 }
    match outcome with
    | .done => (t.emit (.wrote link frame), .done)
    | .failed error => (t, .failed error)
    | .stalled => (t.update fun m => { m with phase := .suspended }, .stalled)

/-- Writes a frame; an error gives the connection up. Tells whether the frame was written. -/
def writeOrFail (t : Turn κ σ) (context : String) (frame : Frame) : Turn κ σ × Bool :=
  match t.write frame with
  | (t, .done) => (t, true)
  | (t, .failed error) => (t.fail (.writeFailure context error.message), false)
  | (t, .stalled) => (t, false)

def control (t : Turn κ σ) (context : String) (c : ControlFrame) : Turn κ σ × Bool :=
  (t.log (.sendingControl context c)).writeOrFail context c.encode

/-- Subscribes to topics one after the other, until a write does not succeed. -/
def replay (t : Turn κ σ) : List Topic → Turn κ σ
  | [] => t
  | topic :: rest =>
    match t.control "replay" ⟨.subscribe, topic⟩ with
    | (t, true) => t.replay rest
    | (t, false) => t

/-! ## Messages -/

/-- Takes a connection into use: it is read, kept alive, and told all topics. -/
def install (t : Turn κ σ) (link : Nat) : Turn κ σ :=
  let t := t.update fun m =>
    { m with
      openTask := none
      attempt := 0
      writer := some link
      health := m.health.connected t.now
      heartbeat := m.heartbeat.reset t.now
      readerTask := some m.tasks }
  let m := t.manager
  let t := (t.start (.reading m.generation link)).abort? m.heartbeatTask
  let t := t.update fun m => { m with heartbeatTask := some m.tasks }
  let t := (t.start (.ticking m.generation m.heartbeat.interval)).enter .connected
  let t := t.log (.connected m.endpointLabel m.generation m.registry.topicCount)
  t.replay m.registry.topics

def connectTo (t : Turn κ σ) (endpoint : String) (observer : Option Observer) : Turn κ σ :=
  (t.update fun m =>
    { m with
      endpoint := some endpoint
      observer := observer <|> m.observer
      attempt := 0 }).beginAttempt

/-- Opens a connection unless there is one or an attempt at one; a planned retry is cancelled. -/
def connect (t : Turn κ σ) (endpoint : String) (observer : Option Observer) : Turn κ σ :=
  let m := t.manager
  match m.state with
  | .connected | .connecting => t.log (.connectIgnored m.state)
  | .reconnecting => (t.cancelRetry.log (.retryingNow m.attempt)).connectTo endpoint observer
  | .disconnected | .failed => t.connectTo endpoint observer

/-- Cancels the planned retry and says so. -/
def cancelReconnect (t : Turn κ σ) : Turn κ σ :=
  match t.manager.retryTask with
  | some _ => t.cancelRetry.log (.reconnectCancelled t.manager.attempt)
  | none => t

/-- Leaves the writing side to a close handshake. -/
def sayGoodbye (t : Turn κ σ) : Turn κ σ :=
  match t.manager.writer with
  | some link => (t.emit (.farewell link)).update fun m => { m with writer := none }
  | none => t

/-- Closes the connection and gives up every plan to open one. -/
def disconnect (t : Turn κ σ) : Turn κ σ :=
  let m := t.manager
  let t := (t.cancelReconnect.sayGoodbye.teardown.nextGeneration.update fun m =>
    { m with attempt := 0 }).enter .disconnected
  if m.state = .disconnected then t
  else t.log (.disconnected m.endpointLabel m.state m.registry.topicCount)

/-- Registers a callback; the first one of a topic subscribes to it. -/
def subscribe (t : Turn κ σ) (handle : Handle) (topic : Topic) (callback : κ) : Turn κ σ :=
  let m := t.manager
  let (registry, first) := m.registry.insert handle topic callback
  let t := if m.registry.contains handle then t.log (.duplicateHandle handle topic) else t
  let t := (t.update fun m => { m with registry }).log (.registered handle topic first m.state)
  if first && m.state == .connected then (t.control "subscribe" ⟨.subscribe, topic⟩).1 else t

/-- Removes a callback; the last one of a topic unsubscribes from it. -/
def unsubscribe (t : Turn κ σ) (handle : Handle) : Turn κ σ :=
  let m := t.manager
  match m.registry.remove handle with
  | (_, none) => t.log (.unknownHandle handle)
  | (registry, some removed) =>
    let t := (t.update fun m => { m with registry }).log
      (.removed handle removed.topic removed.nowEmpty)
    if removed.nowEmpty && m.state == .connected then
      (t.control "unsubscribe" ⟨.unsubscribe, removed.topic⟩).1
    else t

def countOutcome (h : Health) : Outcome → Health
  | .delivered _ delivery => h.delivery delivery.failed
  | .unrouted _ => h.unrouted
  | .dropped reason => h.decodeFailure reason.message

def dispatch [Callback κ σ] (t : Turn κ σ) (payload : ByteArray) : Turn κ σ :=
  let m := t.manager
  let (registry, shared, outcome) :=
    m.registry.dispatch m.config.buffers.maxMessage payload (t.now / nanosPerMilli) t.shared
  ({ t with shared }.update fun m =>
    { m with registry, health := countOutcome m.health outcome }).emit (.dispatched outcome)

/-- Why a close frame ends the connection. -/
def remoteClose : Option CloseReason → DisconnectCause
  | some why => .remoteClosed (some why.code) (Text.lossy why.reason)
  | none => .remoteClosed none ""

/-- Does what a frame asks for that is not part of the heartbeat. -/
def route [Callback κ σ] (t : Turn κ σ) : Frame → Turn κ σ
  | .text payload | .binary payload => t.dispatch payload
  | .close why => t.fail (remoteClose why)
  | .ping _ | .pong _ => t

def receive [Callback κ σ] (t : Turn κ σ) (frame : Frame) : Turn κ σ :=
  let (heartbeat, pulse) := t.manager.heartbeat.inbound t.now frame
  let t := t.update fun m => { m with heartbeat, health := m.health.frame t.now }
  match pulse with
  | .reply pong => (t.writeOrFail "pong" pong).1
  | .pong (some trip) => t.update fun m => { m with health := m.health.roundTrip trip }
  | .pong none => t
  | .none => t.route frame

/-- Sends a ping, or gives up a connection that has been silent for too long. -/
def beat (t : Turn κ σ) : Turn κ σ :=
  match t.manager.heartbeat.overdue? t.now with
  | some silence => t.fail (.heartbeatTimeout silence)
  | none =>
    let t := t.update fun m => { m with heartbeat := m.heartbeat.ping t.now }
    (t.writeOrFail "ping" Heartbeat.pingFrame).1

/-- Whether a report is of the present generation, in the state that it belongs to. -/
def current (t : Turn κ σ) (generation : UInt64) (state : ConnectionState) : Bool :=
  generation == t.manager.generation && t.manager.state == state

def handle [Callback κ σ] (t : Turn κ σ) : Message κ → Turn κ σ
  | .connect endpoint observer => t.connect endpoint observer
  | .disconnect => t.disconnect
  | .subscribe handle topic callback => t.subscribe handle topic callback
  | .unsubscribe handle => t.unsubscribe handle
  | .tellState => t.emit (.answerState t.manager.state)
  | .tellStats => t.emit (.answerStats (t.manager.stats t.now))
  | .stop => t.halt
  | .opened generation link =>
    if t.current generation .connecting then t.install link else t.emit (.discard link)
  | .openFailed generation cause =>
    if t.current generation .connecting then
      (t.update fun m => { m with openTask := none }).fail cause
    else t
  | .inbound generation frame =>
    if t.current generation .connected then t.receive frame else t
  | .closed generation cause =>
    if generation == t.manager.generation then t.fail cause else t
  | .retry generation =>
    if t.current generation .reconnecting then
      (t.update fun m => { m with retryTask := none }).beginAttempt
    else t
  | .tick generation =>
    if t.current generation .connected then t.beat else t

end Turn

/-- Handles a message at an instant: the manager afterwards, what the callbacks share, and the
effects in order. -/
def Manager.handle {κ σ : Type} [Callback κ σ] (m : Manager κ) (shared : σ) (now : Nat)
    (outcomes : Nat → Nat → WriteOutcome) (message : Message κ) : Manager κ × σ × List Effect :=
  let t := (Turn.mk m shared now outcomes 0 []).handle message
  (t.manager, t.shared, t.effects)

end LiveMetrics
