import LiveMetrics.Proofs.Connection.Holding

/-!
# The ledger of a turn

What a turn tells of failures, beside what is held (`Turn.holding`): the answers of the policy, the
errors, and the connections that are left to a close handshake. `Turn.ledger` puts side by side what
the effects say of this and what the health of the connection counts.

Most operations leave the ledger alone. A failure enters one answer and one error (`ledger_fail`), a
data frame that is dropped one error (`ledger_dispatch`), and a disconnect the connection that it
finds open (`ledger_disconnect`).
-/

set_option autoImplicit false

namespace LiveMetrics

/-! ## What effects tell -/

/-- The entry of a cause in the error log. -/
def DisconnectCause.record (cause : DisconnectCause) : ErrorRecord :=
  ⟨cause.kind, Text.clip Health.maxErrorBytes cause.message⟩

def DropReason.record (reason : DropReason) : ErrorRecord :=
  ⟨"decode", Text.clip Health.maxErrorBytes reason.message⟩

/-- The answer of the policy to a failure that is planned for. -/
def ReconnectPlan.answer (plan : ReconnectPlan) : Verdict :=
  match plan.delay with
  | some delay => .wait delay
  | none => .giveUp

namespace Effect

/-- The answer of the policy that an effect tells of. -/
def answer? : Effect → Option Verdict
  | .log (.plan plan) => some plan.answer
  | .log (.managerPanicked reason) => some (.broken reason)
  | _ => none

/-- The error that an effect tells of. -/
def record? : Effect → Option ErrorRecord
  | .log (.plan plan) => some plan.cause.record
  | .dispatched (.dropped reason) => some reason.record
  | _ => none

/-- The connection that an effect leaves to a close handshake. -/
def farewell? : Effect → Option Nat
  | .farewell link => some link
  | _ => none

end Effect

/-- Why a data frame was dropped, if it was. -/
def Outcome.reason? : Outcome → Option DropReason
  | .dropped reason => some reason
  | .delivered _ _ | .unrouted _ => none

/-- What is told of failures, and what is counted of them. -/
structure Ledger where
  answers : List Verdict
  records : List ErrorRecord
  farewells : List Nat
  errors : Window ErrorRecord
  reconnects : Nat

namespace Ledger

/-- The drop of a data frame is told of and noted, if there is one. -/
def drop? (l : Ledger) : Option DropReason → Ledger
  | some reason =>
    { l with
      records := l.records ++ [reason.record]
      errors := (l.errors.push reason.record).1 }
  | none => l

/-- The answer of the policy to a failure is told of. -/
def obey (l : Ledger) (cause : DisconnectCause) (v : Verdict) : Ledger :=
  match v with
  | .broken _ => { l with answers := l.answers ++ [v] }
  | .giveUp => { l with answers := l.answers ++ [v], records := l.records ++ [cause.record] }
  | .wait _ =>
    { l with
      answers := l.answers ++ [v]
      records := l.records ++ [cause.record]
      reconnects := Health.raise l.reconnects 1 }

/-- A failure is noted, and the answer of the policy to it is told of. -/
def fail (l : Ledger) (cause : DisconnectCause) (v : Verdict) : Ledger :=
  { l with errors := (l.errors.push cause.record).1 }.obey cause v

/-- Connections are left to a close handshake. -/
def part (l : Ledger) (links : List Nat) : Ledger := { l with farewells := l.farewells ++ links }

@[simp] theorem answers_fail (l : Ledger) (cause : DisconnectCause) (v : Verdict) :
    (l.fail cause v).answers = l.answers ++ [v] := by
  cases v <;> rfl

@[simp] theorem errors_fail (l : Ledger) (cause : DisconnectCause) (v : Verdict) :
    (l.fail cause v).errors = (l.errors.push cause.record).1 := by
  cases v <;> rfl

@[simp] theorem farewells_fail (l : Ledger) (cause : DisconnectCause) (v : Verdict) :
    (l.fail cause v).farewells = l.farewells := by
  cases v <;> rfl

@[simp] theorem answers_drop? (l : Ledger) (reason : Option DropReason) :
    (l.drop? reason).answers = l.answers := by
  cases reason <;> rfl

@[simp] theorem farewells_drop? (l : Ledger) (reason : Option DropReason) :
    (l.drop? reason).farewells = l.farewells := by
  cases reason <;> rfl

end Ledger

namespace Turn

variable {κ σ : Type}

/-- What a turn has told of failures so far, and what is counted of them. -/
def ledger (t : Turn κ σ) : Ledger where
  answers := t.effects.filterMap Effect.answer?
  records := t.effects.filterMap Effect.record?
  farewells := t.effects.filterMap Effect.farewell?
  errors := t.manager.health.recentErrors
  reconnects := t.manager.health.reconnects

/-! ## Operations that leave the ledger alone -/

section Operations

variable (t : Turn κ σ)

@[simp] theorem ledger_update {f : Manager κ → Manager κ}
    (he : (f t.manager).health.recentErrors = t.manager.health.recentErrors)
    (hr : (f t.manager).health.reconnects = t.manager.health.reconnects) :
    (t.update f).ledger = t.ledger := by
  unfold ledger update
  rw [he, hr]

theorem ledger_emit {e : Effect} (ha : e.answer? = none) (hr : e.record? = none)
    (hf : e.farewell? = none) : (t.emit e).ledger = t.ledger := by
  unfold ledger emit
  simp [ha, hr, hf]

theorem ledger_start (what : Task) : (t.start what).ledger = t.ledger := by
  unfold start
  rw [ledger_update _ rfl rfl]
  exact ledger_emit t rfl rfl rfl

theorem ledger_abort? (task : Option Nat) : (t.abort? task).ledger = t.ledger := by
  cases task with
  | none => rfl
  | some n => exact ledger_emit t rfl rfl rfl

theorem ledger_release? (link : Option Nat) : (t.release? link).ledger = t.ledger := by
  cases link with
  | none => rfl
  | some n => exact ledger_emit t rfl rfl rfl

theorem ledger_observe (state : ConnectionState) : (t.observe state).ledger = t.ledger := by
  unfold observe
  split
  · exact ledger_emit t rfl rfl rfl
  · rfl

theorem ledger_enter (next : ConnectionState) : (t.enter next).ledger = t.ledger := by
  unfold enter
  split
  · rfl
  · rw [ledger_observe, ledger_update _ rfl rfl]
    exact ledger_emit t rfl rfl rfl

theorem ledger_teardown : t.teardown.ledger = t.ledger := by
  unfold teardown
  dsimp only
  rw [ledger_update _ rfl rfl, ledger_release?, ledger_abort?, ledger_abort?, ledger_abort?]

theorem ledger_cancelRetry : t.cancelRetry.ledger = t.ledger := by
  unfold cancelRetry
  rw [ledger_update _ rfl rfl, ledger_abort?]

theorem ledger_halt : t.halt.ledger = t.ledger := by
  unfold halt
  rw [ledger_update _ rfl rfl, ledger_teardown, ledger_cancelRetry]

theorem ledger_nextGeneration : t.nextGeneration.ledger = t.ledger := ledger_update t rfl rfl

theorem ledger_beginAttempt : t.beginAttempt.ledger = t.ledger := by
  unfold beginAttempt
  split
  · rfl
  · dsimp only
    rw [ledger_update _ rfl rfl, ledger_start, log, ledger_emit _ rfl rfl rfl, ledger_enter,
      ledger_nextGeneration, ledger_abort?]

theorem ledger_scheduleRetry (delay : Span) : (t.scheduleRetry delay).ledger = t.ledger := by
  unfold scheduleRetry
  dsimp only
  rw [ledger_update _ rfl rfl, ledger_start, ledger_abort?]

theorem ledger_connectTo (endpoint : String) (observer : Option Observer) :
    (t.connectTo endpoint observer).ledger = t.ledger := by
  unfold connectTo
  rw [ledger_beginAttempt, ledger_update _ rfl rfl]

theorem ledger_connect (endpoint : String) (observer : Option Observer) :
    (t.connect endpoint observer).ledger = t.ledger := by
  unfold connect
  dsimp only
  split
  · exact ledger_emit t rfl rfl rfl
  · exact ledger_emit t rfl rfl rfl
  · rw [ledger_connectTo, log, ledger_emit _ rfl rfl rfl, ledger_cancelRetry]
  · exact ledger_connectTo t endpoint observer
  · exact ledger_connectTo t endpoint observer

theorem ledger_settle (link : Nat) : (t.settle link).ledger = t.ledger := by
  unfold settle
  dsimp only
  rw [log, ledger_emit _ rfl rfl rfl, ledger_enter, ledger_start, ledger_update _ rfl rfl,
    ledger_abort?, ledger_start, ledger_update _ rfl rfl]

theorem ledger_cancelReconnect : t.cancelReconnect.ledger = t.ledger := by
  unfold cancelReconnect
  split
  · rw [log, ledger_emit _ rfl rfl rfl, ledger_cancelRetry]
  · rfl

/-! ## Operations that are entered -/

theorem ledger_sayGoodbye : t.sayGoodbye.ledger = t.ledger.part t.manager.writer.toList := by
  unfold sayGoodbye
  cases hw : t.manager.writer with
  | some link =>
    rw [ledger_update _ rfl rfl]
    unfold ledger emit Ledger.part
    simp [Effect.answer?, Effect.record?, Effect.farewell?]
  | none =>
    unfold Ledger.part
    rw [Option.toList_none, List.append_nil]

theorem writer_cancelReconnect : t.cancelReconnect.manager.writer = t.manager.writer :=
  congrArg Holding.writer (holding_cancelReconnect t)

theorem ledger_disconnect : t.disconnect.ledger = t.ledger.part t.manager.writer.toList := by
  let u := (t.cancelReconnect.sayGoodbye.teardown.nextGeneration.update fun m =>
    { m with attempt := 0 }).enter .disconnected
  have hu : u.ledger = t.ledger.part t.manager.writer.toList := by
    show (Turn.enter _ _).ledger = _
    rw [ledger_enter, ledger_update _ rfl rfl, ledger_nextGeneration, ledger_teardown,
      ledger_sayGoodbye, ledger_cancelReconnect, writer_cancelReconnect]
  show (if _ then u else u.log _).ledger = _
  split
  · exact hu
  · exact (ledger_emit u rfl rfl rfl).trans hu

theorem ledger_plan (plan : ReconnectPlan) : (t.log (.plan plan)).ledger =
    { t.ledger with
      answers := t.ledger.answers ++ [plan.answer]
      records := t.ledger.records ++ [plan.cause.record] } := by
  unfold ledger log emit
  simp [Effect.answer?, Effect.record?, Effect.farewell?]

theorem ledger_managerPanicked (reason : String) : (t.log (.managerPanicked reason)).ledger =
    { t.ledger with answers := t.ledger.answers ++ [.broken reason] } := by
  unfold ledger log emit
  simp [Effect.answer?, Effect.record?, Effect.farewell?]

theorem ledger_obey (cause : DisconnectCause) (v : Verdict) :
    (t.obey cause v).ledger = t.ledger.obey cause v := by
  cases v with
  | broken reason =>
    show (t.log _).halt.ledger = _
    rw [ledger_halt, ledger_managerPanicked]
    rfl
  | giveUp =>
    show ((t.log _).enter .failed).ledger = _
    rw [ledger_enter, ledger_plan]
    rfl
  | wait delay =>
    let u := t.log (.plan (t.manager.plan t.now cause (some delay)))
    let v := u.update fun m => { m with health := m.health.reconnect }
    have hv : v.ledger = { u.ledger with reconnects := Health.raise u.ledger.reconnects 1 } := rfl
    show ((v.enter .reconnecting).scheduleRetry delay).ledger = _
    rw [ledger_scheduleRetry, ledger_enter, hv, show u.ledger = _ from ledger_plan t _]
    rfl

theorem ledger_noteFailure (cause : DisconnectCause) : (t.noteFailure cause).ledger =
    { t.ledger with errors := (t.ledger.errors.push cause.record).1 } := by
  have hu : t.teardown.nextGeneration.ledger = t.ledger := by
    rw [ledger_nextGeneration, ledger_teardown]
  rw [← hu]
  rfl

/-- A failure enters the answer of the policy and the error. -/
theorem ledger_fail {cause : DisconnectCause} (h : t.manager.state.isIdle = false) :
    (t.fail cause).ledger =
      t.ledger.fail cause (t.manager.policy t.holding.lose.attempt) := by
  have hp : (t.noteFailure cause).manager.policy = t.manager.policy := by
    unfold noteFailure teardown nextGeneration update; simp
  have ha : (t.noteFailure cause).manager.attempt = t.holding.lose.attempt :=
    congrArg Holding.attempt (holding_noteFailure t cause)
  unfold fail
  rw [if_neg (by simp [h]), ledger_obey, ledger_noteFailure, hp, ha]
  rfl

theorem ledger_dispatch [Callback κ σ] (payload : ByteArray) :
    ∃ reason, (t.dispatch payload).ledger = t.ledger.drop? reason := by
  unfold dispatch
  dsimp only
  generalize t.manager.registry.dispatch _ payload _ t.shared = result
  obtain ⟨registry, shared, outcome⟩ := result
  refine ⟨outcome.reason?, ?_⟩
  unfold ledger emit update
  cases outcome with
  | delivered topic delivery =>
    simp [Effect.answer?, Effect.record?, Effect.farewell?, Outcome.reason?, Ledger.drop?,
      countOutcome, Health.delivery]
  | unrouted topic =>
    simp [Effect.answer?, Effect.record?, Effect.farewell?, Outcome.reason?, Ledger.drop?,
      countOutcome, Health.unrouted]
  | dropped reason =>
    simp [Effect.answer?, Effect.record?, Effect.farewell?, Outcome.reason?, Ledger.drop?,
      countOutcome, Health.decodeFailure, Health.error, DropReason.record]

end Operations

end Turn

end LiveMetrics
