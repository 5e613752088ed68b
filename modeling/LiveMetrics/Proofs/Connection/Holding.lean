import LiveMetrics.Connection.Manager

/-!
# What a manager holds

The part of a turn that decides about connections: the state, the writing side, the four tasks, the
generation, and the marks that the turn has left so far (tasks started and aborted, states
published, failures planned). `Holding` has an operation for each operation of a turn that touches
this part, and `holding_fail`, `holding_beginAttempt`, `holding_settle`, `holding_disconnect` and
`holding_halt` say that the two agree.
-/

set_option autoImplicit false

namespace LiveMetrics

/-- What a turn does to tasks, to the published state and to the count of failures. -/
inductive Mark where
  | start (task : Nat) (what : Task)
  | abort (task : Nat)
  | publish (was is : ConnectionState)
  | failure (attempt : Nat) (delay : Option Span)
  deriving DecidableEq

/-- The mark of an effect, if it leaves one. -/
def Effect.mark? : Effect → Option Mark
  | .start task what => some (.start task what)
  | .abort task => some (.abort task)
  | .publish was is => some (.publish was is)
  | .log (.plan plan) => some (.failure plan.attempt plan.delay)
  | _ => none

/-- The state of a connection with what is held for it, and the marks of the turn so far. -/
structure Holding where
  stopped : Bool
  state : ConnectionState
  endpoint : Option String
  writer : Option Nat
  openTask : Option Nat
  readerTask : Option Nat
  heartbeatTask : Option Nat
  retryTask : Option Nat
  generation : UInt64
  attempt : Nat
  tasks : Nat
  connectedAt : Option Nat
  marks : List Mark

namespace Holding

def mark (c : Holding) (m : Mark) : Holding := { c with marks := c.marks ++ [m] }

def abort? (c : Holding) (task : Option Nat) : Holding :=
  { c with marks := c.marks ++ task.toList.map .abort }

def start (c : Holding) (what : Task) : Holding :=
  { c with tasks := c.tasks + 1, marks := c.marks ++ [.start c.tasks what] }

def enter (c : Holding) (next : ConnectionState) : Holding :=
  { c with
    state := next
    marks := c.marks ++ if c.state = next then [] else [.publish c.state next] }

def teardown (c : Holding) : Holding :=
  { ((c.abort? c.openTask).abort? c.readerTask).abort? c.heartbeatTask with
    openTask := none
    readerTask := none
    heartbeatTask := none
    writer := none
    connectedAt := none }

def cancelRetry (c : Holding) : Holding := { c.abort? c.retryTask with retryTask := none }

def halt (c : Holding) : Holding := { c.cancelRetry.teardown with stopped := true }

/-- An attempt that begins, for the endpoint and within the limit. -/
def opening (c : Holding) (endpoint : String) (limit : Span) : Holding :=
  let c := { c.abort? c.openTask with generation := c.generation + 1 }.enter .connecting
  { c.start (.opening c.generation endpoint limit) with openTask := some c.tasks }

def retrying (c : Holding) (delay : Span) : Holding :=
  let c := c.abort? c.retryTask
  { c.start (.retrying c.generation delay) with retryTask := some c.tasks }

/-- The connection lost, and the failure counted. -/
def lose (c : Holding) : Holding :=
  { c.teardown with
    generation := c.generation + 1
    attempt := min (c.attempt + 1) Manager.maxAttempt }

/-- The answer of the policy obeyed. -/
def obey (c : Holding) : Verdict → Holding
  | .broken _ => c.halt
  | .giveUp => (c.mark (.failure c.attempt none)).enter .failed
  | .wait delay => ((c.mark (.failure c.attempt (some delay))).enter .reconnecting).retrying delay

/-- A failure, after which the policy is asked. -/
def fail (c : Holding) (policy : Nat → Verdict) : Holding := c.lose.obey (policy c.lose.attempt)

/-- A connection that is taken into use, and read. -/
def settling (c : Holding) (link now : Nat) : Holding :=
  { c.start (.reading c.generation link) with
    openTask := none
    attempt := 0
    writer := some link
    connectedAt := some now
    readerTask := some c.tasks }

/-- A connection that is taken into use, read and kept alive. -/
def settle (c : Holding) (link now : Nat) (interval : Span) : Holding :=
  ({ (c.settling link now).abort? c.heartbeatTask with
    heartbeatTask := some (c.tasks + 1) }.start (.ticking c.generation interval)).enter .connected

/-- A request to disconnect obeyed. -/
def disconnect (c : Holding) : Holding :=
  { c.cancelRetry.teardown with generation := c.generation + 1, attempt := 0 }.enter .disconnected

end Holding

namespace Manager

variable {κ : Type}

/-- What a manager holds between two turns. -/
def holding (m : Manager κ) : Holding where
  stopped := m.phase == .stopped
  state := m.state
  endpoint := m.endpoint
  writer := m.writer
  openTask := m.openTask
  readerTask := m.readerTask
  heartbeatTask := m.heartbeatTask
  retryTask := m.retryTask
  generation := m.generation
  attempt := m.attempt
  tasks := m.tasks
  connectedAt := m.health.connectedAt
  marks := []

end Manager

namespace Turn

variable {κ σ : Type}

/-- What a manager holds in the middle of a turn. -/
def holding (t : Turn κ σ) : Holding :=
  { t.manager.holding with marks := t.effects.filterMap Effect.mark? }

/-! ## The operations on what is held -/

section Operations

variable (t : Turn κ σ)

@[simp] theorem manager_emit (e : Effect) : (t.emit e).manager = t.manager := rfl
@[simp] theorem manager_log (e : LogEvent) : (t.log e).manager = t.manager := rfl

@[simp] theorem manager_abort? (task : Option Nat) : (t.abort? task).manager = t.manager := by
  cases task <;> rfl

@[simp] theorem manager_release? (link : Option Nat) : (t.release? link).manager = t.manager := by
  cases link <;> rfl

@[simp] theorem manager_observe (state : ConnectionState) : (t.observe state).manager = t.manager := by
  unfold observe; split <;> rfl

@[simp] theorem manager_enter (next : ConnectionState) :
    (t.enter next).manager = { t.manager with state := next } := by
  unfold enter
  split
  · rename_i h; rw [← h]
  · rw [manager_observe]; rfl

@[simp] theorem holding_state : t.holding.state = t.manager.state := rfl
@[simp] theorem holding_generation : t.holding.generation = t.manager.generation := rfl

theorem holding_update (f : Manager κ → Manager κ) :
    (t.update f).holding = { (f t.manager).holding with marks := t.holding.marks } := rfl

theorem holding_emit_of_none {e : Effect} (h : e.mark? = none) : (t.emit e).holding = t.holding := by
  unfold holding emit; simp [h]

theorem holding_emit_of_some {e : Effect} {m : Mark} (h : e.mark? = some m) :
    (t.emit e).holding = t.holding.mark m := by
  unfold holding emit Holding.mark; simp [h]

theorem holding_abort? (task : Option Nat) : (t.abort? task).holding = t.holding.abort? task := by
  cases task with
  | none => unfold Holding.abort?; rw [Option.toList_none, List.map_nil, List.append_nil]; rfl
  | some n => exact holding_emit_of_some t rfl

theorem holding_release? (link : Option Nat) : (t.release? link).holding = t.holding := by
  cases link with
  | none => rfl
  | some n => exact holding_emit_of_none t rfl

theorem holding_observe (state : ConnectionState) : (t.observe state).holding = t.holding := by
  unfold observe
  split
  · exact holding_emit_of_none t rfl
  · rfl

theorem holding_start (what : Task) : (t.start what).holding = t.holding.start what := by
  unfold start
  rw [holding_update, holding_emit_of_some t rfl]
  rfl

theorem holding_enter (next : ConnectionState) :
    (t.enter next).holding = t.holding.enter next := by
  unfold enter Holding.enter
  by_cases h : t.manager.state = next
  · rw [if_pos h, if_pos (show t.holding.state = next from h), List.append_nil, ← h]
    rfl
  · rw [if_neg h, if_neg (show t.holding.state ≠ next from h), holding_observe, holding_update,
      holding_emit_of_some t rfl]
    rfl

theorem holding_teardown : t.teardown.holding = t.holding.teardown := by
  unfold teardown
  rw [holding_update, holding_release?, holding_abort?, holding_abort?, holding_abort?]
  simp only [manager_release?, manager_abort?]
  rfl

theorem holding_cancelRetry : t.cancelRetry.holding = t.holding.cancelRetry := by
  unfold cancelRetry
  rw [holding_update, holding_abort?]
  simp only [manager_abort?]
  rfl

theorem holding_halt : t.halt.holding = t.holding.halt := by
  unfold halt Holding.halt
  rw [holding_update, ← holding_cancelRetry, ← holding_teardown]
  rfl

theorem holding_log {e : LogEvent} (h : (Effect.log e).mark? = none) :
    (t.log e).holding = t.holding :=
  holding_emit_of_none t h

theorem holding_noteFailure (cause : DisconnectCause) :
    (t.noteFailure cause).holding = t.holding.lose := by
  show { t.teardown.holding with
    generation := t.teardown.holding.generation + 1
    attempt := min (t.teardown.holding.attempt + 1) Manager.maxAttempt } = _
  rw [holding_teardown]
  rfl

theorem holding_scheduleRetry (delay : Span) :
    (t.scheduleRetry delay).holding = t.holding.retrying delay := by
  let u := t.abort? t.manager.retryTask
  show { (u.start (.retrying u.manager.generation delay)).holding with
    retryTask := some u.manager.tasks } = _
  rw [holding_start, holding_abort?, manager_abort?]
  rfl

theorem holding_obey (cause : DisconnectCause) (v : Verdict) :
    (t.obey cause v).holding = t.holding.obey v := by
  cases v with
  | broken reason =>
    show (t.log _).halt.holding = t.holding.halt
    rw [holding_halt, holding_log t rfl]
  | giveUp =>
    show ((t.log _).enter .failed).holding = _
    rw [holding_enter]
    exact congrArg (Holding.enter · .failed) (holding_emit_of_some t rfl)
  | wait delay =>
    show ((((t.log (.plan (t.manager.plan t.now cause (some delay)))).update _).enter
      .reconnecting).scheduleRetry delay).holding = _
    rw [holding_scheduleRetry, holding_enter]
    exact congrArg (fun c : Holding => (c.enter .reconnecting).retrying delay)
      (holding_emit_of_some t rfl)

theorem holding_fail {cause : DisconnectCause} (h : t.manager.state.isIdle = false) :
    (t.fail cause).holding =
      t.holding.fail t.manager.policy := by
  unfold fail
  rw [if_neg (by simp [h]), holding_obey, holding_noteFailure]
  have hp : (t.noteFailure cause).manager.policy = t.manager.policy := by
    unfold noteFailure teardown nextGeneration update; simp
  have ha : (t.noteFailure cause).manager.attempt = t.holding.lose.attempt :=
    congrArg Holding.attempt (holding_noteFailure t cause)
  rw [hp, ha]
  rfl

theorem holding_beginAttempt {endpoint : String} (h : t.manager.endpoint = some endpoint) :
    t.beginAttempt.holding = t.holding.opening endpoint t.manager.config.connectTimeout := by
  let u := (t.abort? t.manager.openTask).nextGeneration.enter .connecting
  let v := u.log (.opening endpoint u.manager.generation u.manager.attempt)
  have hu : u.holding = { t.holding.abort? t.manager.openTask with
      generation := t.manager.generation + 1 }.enter .connecting := by
    show Turn.holding (Turn.enter _ _) = _
    rw [holding_enter]
    show ({ (t.abort? t.manager.openTask).holding with
      generation := (t.abort? t.manager.openTask).manager.generation + 1 } : Holding).enter _ = _
    rw [holding_abort?, manager_abort?]
  have hc : u.manager.config = t.manager.config := by
    show (Turn.enter _ _).manager.config = _
    rw [manager_enter]
    show (t.abort? _).manager.config = _
    rw [manager_abort?]
  have ht : t.beginAttempt = (v.start (.opening u.manager.generation endpoint
      u.manager.config.connectTimeout)).update fun m => { m with openTask := some u.manager.tasks } := by
    unfold beginAttempt; rw [h]
  rw [ht, hc]
  show { (v.start _).holding with openTask := some u.holding.tasks } = _
  rw [holding_start, holding_log u rfl, show u.manager.generation = u.holding.generation from rfl, hu]
  rfl

/-- A connection taken into use, before the topics are replayed. -/
def settle (t : Turn κ σ) (link : Nat) : Turn κ σ :=
  let t := t.update fun m =>
    { m with
      openTask := none
      attempt := 0
      writer := some link
      health := m.health.connected t.now
      heartbeat := m.heartbeat.reset t.now
      readerTask := some m.tasks }
  let m := t.manager
  let t := (t.start (.reading m.generation link)).abort? m.heartbeatTask
  let t := t.update fun m => { m with heartbeatTask := some m.tasks }
  let t := (t.start (.ticking m.generation m.heartbeat.interval)).enter .connected
  t.log (.connected m.endpointLabel m.generation m.registry.topicCount)

theorem install_eq (link : Nat) :
    t.install link = (t.settle link).replay t.manager.registry.topics := rfl

theorem holding_settle (link : Nat) :
    (t.settle link).holding = t.holding.settle link t.now t.manager.heartbeat.interval := by
  let m := (t.update fun m =>
    { m with
      openTask := none
      attempt := 0
      writer := some link
      health := m.health.connected t.now
      heartbeat := m.heartbeat.reset t.now
      readerTask := some m.tasks }).manager
  let u := Turn.start { t with manager := m } (.reading m.generation link)
  let v := (u.abort? m.heartbeatTask).update fun m => { m with heartbeatTask := some m.tasks }
  have hv : v.holding = { (t.holding.settling link t.now).abort? t.holding.heartbeatTask with
      heartbeatTask := some (t.holding.tasks + 1) } := by
    have hu : u.holding = t.holding.settling link t.now := holding_start _ _
    show { (u.abort? _).holding with heartbeatTask := some (u.abort? m.heartbeatTask).manager.tasks } = _
    rw [holding_abort?, manager_abort?, hu]
    rfl
  show (Turn.log (Turn.enter (v.start (.ticking m.generation m.heartbeat.interval)) _) _).holding = _
  rw [holding_log _ rfl, holding_enter, holding_start, hv]
  rfl

theorem holding_connectTo (endpoint : String) (observer : Option Observer) :
    (t.connectTo endpoint observer).holding =
      ({ t.holding with endpoint := some endpoint, attempt := 0 } : Holding).opening endpoint
        t.manager.config.connectTimeout := by
  unfold connectTo
  rw [holding_beginAttempt _ rfl]
  rfl

theorem holding_cancelReconnect : t.cancelReconnect.holding = t.holding.cancelRetry := by
  unfold cancelReconnect
  cases h : t.manager.retryTask with
  | some task => exact (holding_log _ rfl).trans (holding_cancelRetry t)
  | none =>
    rw [← holding_cancelRetry]
    unfold cancelRetry abort?
    rw [h]
    exact congrArg (fun task => { t.holding with retryTask := task }) h

theorem holding_sayGoodbye : t.sayGoodbye.holding = { t.holding with writer := none } := by
  unfold sayGoodbye
  cases h : t.manager.writer with
  | some link =>
    have he : (t.emit (.farewell link)).holding = t.holding := holding_emit_of_none t rfl
    exact congrArg (fun c : Holding => { c with writer := none }) he
  | none => exact congrArg (fun link => { t.holding with writer := link }) h

theorem holding_disconnect : t.disconnect.holding = t.holding.disconnect := by
  let u := t.cancelReconnect.sayGoodbye.teardown
  have hu : u.holding = { t.holding.cancelRetry with writer := none }.teardown := by
    rw [show u.holding = _ from holding_teardown _, holding_sayGoodbye, holding_cancelReconnect]
  let v := (u.nextGeneration.update fun m => { m with attempt := 0 }).enter .disconnected
  have hv : v.holding = t.holding.disconnect := by
    rw [show v.holding = _ from holding_enter _ _]
    show ({ u.holding with generation := u.holding.generation + 1, attempt := 0 } : Holding).enter _ = _
    rw [hu]
    rfl
  show (if t.manager.state = .disconnected then v else v.log _).holding = _
  split
  · exact hv
  · rw [holding_log v rfl, hv]

end Operations

end Turn

end LiveMetrics
