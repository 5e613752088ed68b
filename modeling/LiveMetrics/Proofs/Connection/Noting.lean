import LiveMetrics.Proofs.Connection.Entries

/-!
# What the health notes of frames

Frames are counted when they are taken, and only there: the rest of a turn opens and ends connections,
notes errors and plans attempts (`Health.Weathers`). `health_handled` says this of an entry: its health
is that of the frame that it has taken, if there is one, and of what has happened apart from frames.
-/

set_option autoImplicit false

namespace LiveMetrics

/-! ## Counters -/

namespace Health

/-- The counters of frames, and of what became of them. -/
inductive Counter where
  | frames
  | samples
  | unrouted
  | drops
  | failures
  deriving DecidableEq

def count (h : Health) : Counter → Nat
  | .frames => h.framesReceived
  | .samples => h.samplesDispatched
  | .unrouted => h.unroutedFrames
  | .drops => h.decodeFailures
  | .failures => h.callbackFailures

/-- What happens to the health apart from frames: connections open and end, errors are noted, and
attempts are planned. -/
inductive Weathers (h : Health) : Health → Prop where
  | refl : Weathers h h
  | connected {h' : Health} (before : Weathers h h') (now : Nat) : Weathers h (h'.connected now)
  | disconnected {h' : Health} (before : Weathers h h') : Weathers h h'.disconnected
  | error {h' : Health} (before : Weathers h h') (kind message : String) :
      Weathers h (h'.error kind message)
  | reconnect {h' : Health} (before : Weathers h h') : Weathers h h'.reconnect

namespace Weathers

variable {h h' h'' : Health}

theorem trans (first : h.Weathers h') (rest : h'.Weathers h'') : h.Weathers h'' := by
  induction rest with
  | refl => exact first
  | connected before now ih => exact ih.connected now
  | disconnected before ih => exact ih.disconnected
  | error before kind message ih => exact ih.error kind message
  | reconnect before ih => exact ih.reconnect

theorem count (w : h.Weathers h') (c : Counter) : h'.count c = h.count c := by
  induction w with
  | refl => rfl
  | connected before now ih | disconnected before ih | error before kind message ih
  | reconnect before ih => rw [← ih]; cases c <;> rfl

theorem roundTrips (w : h.Weathers h') : h'.roundTrips = h.roundTrips := by
  induction w with
  | refl => rfl
  | connected before now ih | disconnected before ih | error before kind message ih
  | reconnect before ih => exact ih

theorem reconnects (w : h.Weathers h') (most : h.reconnects ≤ maxCount) :
    h.reconnects ≤ h'.reconnects ∧ h'.reconnects ≤ maxCount := by
  induction w with
  | refl => exact ⟨Nat.le_refl _, most⟩
  | connected before now ih | disconnected before ih | error before kind message ih => exact ih
  | reconnect before ih =>
    rename_i later
    have more : later.reconnect.reconnects = min (later.reconnects + 1) maxCount := rfl
    omega

end Weathers

end Health

namespace Turn

variable {κ σ : Type}

/-! ## Operations that count no frame -/

/-- No frame is counted on the way from one turn to the other. -/
def Weathers (t u : Turn κ σ) : Prop := t.manager.health.Weathers u.manager.health

namespace Weathers

variable {t u v : Turn κ σ}

theorem of_same (same : u.manager.health = t.manager.health) : t.Weathers u := by
  unfold Weathers
  rw [same]
  exact .refl

theorem trans (h : t.Weathers u) (h' : u.Weathers v) : t.Weathers v := Health.Weathers.trans h h'

end Weathers

section Operations

variable (t : Turn κ σ)

theorem weathers_teardown : t.Weathers t.teardown := by
  have ends : t.teardown.manager.health = t.manager.health.disconnected := by
    unfold teardown update
    simp
  unfold Weathers
  rw [ends]
  exact .disconnected .refl

theorem health_cancelRetry : t.cancelRetry.manager.health = t.manager.health := by
  unfold cancelRetry update
  simp

theorem weathers_halt : t.Weathers t.halt :=
  (Weathers.of_same t.health_cancelRetry).trans ((weathers_teardown _).trans (.of_same rfl))

theorem health_beginAttempt : t.beginAttempt.manager.health = t.manager.health := by
  unfold beginAttempt
  split
  · rfl
  · simp [start, update, nextGeneration]

theorem health_scheduleRetry (delay : Span) :
    (t.scheduleRetry delay).manager.health = t.manager.health := by
  simp [scheduleRetry, start, update]

theorem weathers_noteFailure (cause : DisconnectCause) : t.Weathers (t.noteFailure cause) :=
  Health.Weathers.error (weathers_teardown t) _ _

theorem weathers_obey (cause : DisconnectCause) (v : Verdict) : t.Weathers (t.obey cause v) := by
  cases v with
  | broken reason => exact weathers_halt (t.log _)
  | giveUp => exact .of_same (by simp [obey])
  | wait delay =>
    let u := (t.log (.plan (t.manager.plan t.now cause (some delay)))).update fun m =>
      { m with health := m.health.reconnect }
    have counted : t.Weathers u := Health.Weathers.reconnect .refl
    refine counted.trans (.of_same ?_)
    show ((u.enter .reconnecting).scheduleRetry delay).manager.health = _
    rw [health_scheduleRetry, manager_enter]

theorem weathers_fail (cause : DisconnectCause) : t.Weathers (t.fail cause) := by
  unfold fail
  split
  · exact .of_same rfl
  · exact (t.weathers_noteFailure cause).trans (weathers_obey _ _ _)

theorem health_write (frame : Frame) : (t.write frame).1.manager.health = t.manager.health := by
  unfold write
  split
  · rfl
  · dsimp only
    split <;> rfl

theorem weathers_writeOrFail (context : String) (frame : Frame) :
    t.Weathers (t.writeOrFail context frame).1 := by
  have same := t.health_write frame
  unfold writeOrFail
  split <;> rename_i u _ he <;> rw [he] at same
  · exact .of_same same
  · exact (Weathers.of_same same).trans (u.weathers_fail _)
  · exact .of_same same

theorem weathers_control (context : String) (c : ControlFrame) :
    t.Weathers (t.control context c).1 :=
  weathers_writeOrFail (t.log _) _ _

theorem weathers_replay (topics : List Topic) : t.Weathers (t.replay topics) := by
  induction topics generalizing t with
  | nil => exact .of_same rfl
  | cons topic rest ih =>
    have asked := t.weathers_control "replay" ⟨.subscribe, topic⟩
    unfold replay
    split <;> rename_i u he <;> rw [he] at asked
    · exact asked.trans (ih u)
    · exact asked

theorem weathers_install (link : Nat) : t.Weathers (t.install link) := by
  have settled : (t.settle link).manager.health = t.manager.health.connected t.now := by
    unfold settle
    simp [start, update]
  have opened : t.Weathers (t.settle link) := by
    unfold Weathers
    rw [settled]
    exact .connected .refl t.now
  rw [install_eq]
  exact opened.trans (weathers_replay _ _)

theorem health_connect (endpoint : String) (observer : Option Observer) :
    (t.connect endpoint observer).manager.health = t.manager.health := by
  have begins : ∀ u : Turn κ σ, (u.connectTo endpoint observer).manager.health = u.manager.health := by
    intro u
    unfold connectTo
    rw [health_beginAttempt]
    rfl
  unfold connect
  dsimp only
  split
  · rfl
  · rfl
  · rw [begins, manager_log, health_cancelRetry]
  · exact begins t
  · exact begins t

theorem weathers_disconnect : t.Weathers t.disconnect := by
  have cancelled : t.cancelReconnect.manager.health = t.manager.health := by
    unfold cancelReconnect
    split
    · exact t.health_cancelRetry
    · rfl
  have left : t.cancelReconnect.sayGoodbye.manager.health = t.cancelReconnect.manager.health := by
    unfold sayGoodbye
    split <;> rfl
  let u := t.cancelReconnect.sayGoodbye.teardown
  have ended : t.Weathers u := (Weathers.of_same (left.trans cancelled)).trans (weathers_teardown _)
  refine ended.trans (.of_same ?_)
  unfold disconnect
  dsimp only
  split <;> simp [nextGeneration, update, u]

theorem weathers_subscribe (handle : Handle) (topic : Topic) (callback : κ) :
    t.Weathers (t.subscribe handle topic callback) := by
  let u := if t.manager.registry.contains handle then t.log (.duplicateHandle handle topic) else t
  have same : u.manager.health = t.manager.health := by
    show (if _ then _ else _ : Turn κ σ).manager.health = _
    split <;> rfl
  let v := (u.update fun m => { m with registry := (t.manager.registry.insert handle topic callback).1 }).log
    (.registered handle topic (t.manager.registry.insert handle topic callback).2 t.manager.state)
  show t.Weathers (if _ then (v.control _ _).1 else v)
  have registered : t.Weathers v := .of_same same
  split
  · exact registered.trans (v.weathers_control _ _)
  · exact registered

theorem weathers_unsubscribe (handle : Handle) : t.Weathers (t.unsubscribe handle) := by
  unfold unsubscribe
  dsimp only
  split
  · exact .of_same rfl
  · rename_i registry removed _
    split
    · exact weathers_control ((t.update fun m => { m with registry }).log _) _ _
    · exact .of_same rfl

/-! ## Frames that are taken -/

variable [Callback κ σ]

/-- A frame is counted, and what became of it. -/
def noting (frame : Frame) : Health :=
  let h := t.manager.health.frame t.now
  match frame.payload? with
  | some payload => countOutcome h (t.outcome payload)
  | none =>
    match (t.manager.heartbeat.inbound t.now frame).2 with
    | .pong (some trip) => h.roundTrip trip
    | _ => h

theorem frames_noting (frame : Frame) :
    (t.noting frame).framesReceived = Health.raise t.manager.health.framesReceived 1 := by
  unfold noting
  dsimp only
  split
  · generalize t.outcome _ = outcome
    cases outcome <;> rfl
  · split <;> rfl

theorem count_noting_of_other {frame : Frame} (other : frame.payload? = none) (c : Health.Counter) :
    (t.noting frame).count c = (t.manager.health.frame t.now).count c := by
  unfold noting
  rw [other]
  dsimp only
  split <;> cases c <;> rfl

theorem receive_weathers (frame : Frame) :
    (t.noting frame).Weathers (t.receive frame).manager.health := by
  let u := t.update fun m =>
    { m with heartbeat := (t.manager.heartbeat.inbound t.now frame).1, health := m.health.frame t.now }
  unfold noting receive
  dsimp only
  cases frame with
  | text payload | binary payload => exact .refl
  | close why => exact weathers_fail u _
  | ping payload | pong payload =>
    generalize (t.manager.heartbeat.inbound t.now _).2 = pulse
    cases pulse with
    | none => exact .refl
    | pong trip => cases trip <;> exact .refl
    | reply pong => exact weathers_writeOrFail u "pong" pong

/-- **A turn counts the frame that it takes** and nothing else. -/
theorem handle_weathers (message : Message κ) :
    (match message with
      | .inbound generation frame =>
        if t.current generation .connected then t.noting frame else t.manager.health
      | _ => t.manager.health).Weathers (t.handle message).manager.health := by
  cases message with
  | connect endpoint observer => exact Weathers.of_same (t.health_connect endpoint observer)
  | disconnect => exact t.weathers_disconnect
  | subscribe handle topic callback => exact t.weathers_subscribe handle topic callback
  | unsubscribe handle => exact t.weathers_unsubscribe handle
  | tellState | tellStats => exact .refl
  | stop => exact t.weathers_halt
  | opened generation link =>
    unfold handle
    dsimp only
    split
    · exact t.weathers_install link
    · exact .refl
  | openFailed generation cause =>
    unfold handle
    dsimp only
    split
    · exact weathers_fail (t.update fun m => { m with openTask := none }) cause
    · exact .refl
  | inbound generation frame =>
    unfold handle
    dsimp only
    split
    · exact t.receive_weathers frame
    · exact .refl
  | closed generation cause =>
    unfold handle
    dsimp only
    split
    · exact t.weathers_fail cause
    · exact .refl
  | retry generation =>
    unfold handle
    dsimp only
    split
    · exact Weathers.of_same (health_beginAttempt _)
    · exact .refl
  | tick generation =>
    unfold handle
    dsimp only
    split
    · unfold beat
      split
      · exact t.weathers_fail _
      · exact weathers_writeOrFail (t.update fun m => { m with heartbeat := m.heartbeat.ping t.now }) _ _
    · exact .refl

end Operations

end Turn

namespace World

variable {κ σ : Type} [Callback κ σ]

theorem health_handled (w : World κ σ) (letter : Letter κ) (outcomes : Nat → Nat → WriteOutcome) :
    (match (w.handled letter outcomes).takes? with
      | some frame => (w.beginning outcomes).noting frame
      | none => w.manager.health).Weathers (w.handled letter outcomes).after.health := by
  obtain ⟨sender, message⟩ := letter
  have counts := (w.beginning outcomes).handle_weathers message
  cases message with
  | inbound generation frame =>
    show Health.Weathers (match (if (w.beginning outcomes).current generation .connected then some frame
      else none) with
      | some frame => (w.beginning outcomes).noting frame
      | none => w.manager.health) _
    by_cases current : (w.beginning outcomes).current generation .connected = true
    · dsimp only at counts
      rw [if_pos current] at counts ⊢
      exact counts
    · dsimp only at counts
      rw [if_neg current] at counts ⊢
      exact counts
  | _ => exact counts

end World

end LiveMetrics
