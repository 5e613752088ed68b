import LiveMetrics.Proofs.Connection.Course

/-!
# What a turn tells

A turn publishes states, tells the observer about them, reports what has become of data frames, and
reads or resets the heartbeat. Most operations do only the first two, and in step: whatever is
published is told to the observer that there is (`Turn.Tells`).

What a message itself changes of this comes at the beginning (`Turn.heeding`): the observer that it
brings, the heartbeat, and the data frame that it is about. `handle_tells` says that nothing else
happens in the rest of the turn.
-/

set_option autoImplicit false

namespace LiveMetrics

namespace Effect

/-- The state that an effect publishes. -/
def published? : Effect → Option ConnectionState
  | .publish _ is => some is
  | _ => none

/-- Who is told about which state. -/
def told? : Effect → Option (Observer × ConnectionState)
  | .observe observer state => some (observer, state)
  | _ => none

/-- What has become of a data frame. -/
def outcome? : Effect → Option Outcome
  | .dispatched outcome => some outcome
  | _ => none

end Effect

/-- What an observer is told about states, if there is an observer. -/
def tidings (observer : Option Observer) (states : List ConnectionState) :
    List (Observer × ConnectionState) :=
  observer.toList.flatMap fun o => states.map (o, ·)

@[simp] theorem tidings_nil (observer : Option Observer) : tidings observer [] = [] := by
  cases observer <;> rfl

@[simp] theorem tidings_none (states : List ConnectionState) : tidings none states = [] := rfl

@[simp] theorem tidings_some (o : Observer) (states : List ConnectionState) :
    tidings (some o) states = states.map (o, ·) := by
  unfold tidings
  simp

theorem tidings_append (observer : Option Observer) (states states' : List ConnectionState) :
    tidings observer (states ++ states') = tidings observer states ++ tidings observer states' := by
  cases observer with
  | none => rfl
  | some o => simp

namespace Turn

variable {κ σ : Type}

/-- Some states have been published, the observer was told about them, and nothing else was told. -/
structure Tells (t u : Turn κ σ) : Prop where
  observer : u.manager.observer = t.manager.observer
  heartbeat : u.manager.heartbeat = t.manager.heartbeat
  outcomes : u.effects.filterMap Effect.outcome? = t.effects.filterMap Effect.outcome?
  states : ∃ states,
    u.effects.filterMap Effect.published? = t.effects.filterMap Effect.published? ++ states ∧
    u.effects.filterMap Effect.told? =
      t.effects.filterMap Effect.told? ++ tidings t.manager.observer states

namespace Tells

theorem refl (t : Turn κ σ) : Tells t t := ⟨rfl, rfl, rfl, [], by simp, by simp⟩

theorem trans {t u v : Turn κ σ} (h : Tells t u) (h' : Tells u v) : Tells t v := by
  obtain ⟨states, hp, ht⟩ := h.states
  obtain ⟨states', hp', ht'⟩ := h'.states
  refine ⟨h'.observer.trans h.observer, h'.heartbeat.trans h.heartbeat,
    h'.outcomes.trans h.outcomes, states ++ states', ?_, ?_⟩
  · rw [hp', hp, List.append_assoc]
  · rw [ht', ht, h.observer, tidings_append, List.append_assoc]

end Tells

/-! ## Operations on the connection -/

section Operations

variable (t : Turn κ σ)

theorem tells_emit {e : Effect} (hp : e.published? = none) (ht : e.told? = none)
    (ho : e.outcome? = none) : Tells t (t.emit e) := by
  refine ⟨rfl, rfl, ?_, [], ?_, ?_⟩ <;> unfold emit <;> simp [hp, ht, ho]

theorem tells_update {f : Manager κ → Manager κ} (ho : (f t.manager).observer = t.manager.observer)
    (hh : (f t.manager).heartbeat = t.manager.heartbeat) : Tells t (t.update f) :=
  ⟨ho, hh, rfl, [], by simp [update], by simp [update]⟩

theorem tells_log (e : LogEvent) : Tells t (t.log e) := t.tells_emit rfl rfl rfl

theorem tells_start (what : Task) : Tells t (t.start what) :=
  (t.tells_emit rfl rfl rfl).trans (tells_update _ rfl rfl)

theorem tells_abort? (task : Option Nat) : Tells t (t.abort? task) := by
  cases task with
  | none => exact .refl t
  | some n => exact t.tells_emit rfl rfl rfl

theorem tells_release? (link : Option Nat) : Tells t (t.release? link) := by
  cases link with
  | none => exact .refl t
  | some n => exact t.tells_emit rfl rfl rfl

theorem tells_enter (next : ConnectionState) : Tells t (t.enter next) := by
  by_cases same : t.manager.state = next
  · unfold enter
    rw [if_pos same]
    exact .refl t
  · unfold enter
    rw [if_neg same]
    refine ⟨by simp [update], by simp [update], ?_, [next], ?_, ?_⟩ <;> unfold observe <;>
      cases ho : t.manager.observer <;>
      simp [ho, emit, update, Effect.outcome?, Effect.published?, Effect.told?, List.filterMap_cons]

theorem tells_teardown : Tells t t.teardown := by
  let u := (((t.abort? t.manager.openTask).abort? t.manager.readerTask).abort?
    t.manager.heartbeatTask).release? t.manager.writer
  have hu : Tells t u :=
    (((t.tells_abort? _).trans (tells_abort? _ _)).trans (tells_abort? _ _)).trans
      (tells_release? _ _)
  unfold teardown
  exact hu.trans (u.tells_update rfl rfl)

theorem tells_cancelRetry : Tells t t.cancelRetry :=
  (t.tells_abort? _).trans (tells_update _ rfl rfl)

theorem silent_cancelRetry {α : Type} {f : Effect → Option α} (abort : ∀ n, f (.abort n) = none) :
    t.cancelRetry.effects.filterMap f = t.effects.filterMap f := by
  unfold cancelRetry
  cases t.manager.retryTask with
  | none => rfl
  | some n =>
    show (t.effects ++ [Effect.abort n]).filterMap f = _
    simp [abort]

theorem tells_halt : Tells t t.halt :=
  (t.tells_cancelRetry.trans (tells_teardown _)).trans (tells_update _ rfl rfl)

theorem tells_nextGeneration : Tells t t.nextGeneration := t.tells_update rfl rfl

theorem tells_beginAttempt : Tells t t.beginAttempt := by
  unfold beginAttempt
  split
  · exact .refl t
  · have hu := ((t.tells_abort? t.manager.openTask).trans (tells_nextGeneration _)).trans
      (tells_enter _ .connecting)
    exact ((hu.trans (tells_log _ _)).trans (tells_start _ _)).trans (tells_update _ rfl rfl)

theorem tells_scheduleRetry (delay : Span) : Tells t (t.scheduleRetry delay) := by
  unfold scheduleRetry
  exact ((t.tells_abort? _).trans (tells_start _ _)).trans (tells_update _ rfl rfl)

theorem tells_noteFailure (cause : DisconnectCause) : Tells t (t.noteFailure cause) :=
  (t.tells_teardown.trans (tells_nextGeneration _)).trans (tells_update _ rfl rfl)

theorem tells_obey (cause : DisconnectCause) (v : Verdict) : Tells t (t.obey cause v) := by
  cases v with
  | broken reason => exact (t.tells_log _).trans (tells_halt _)
  | giveUp => exact (t.tells_log _).trans (tells_enter _ _)
  | wait delay =>
    exact (((t.tells_log _).trans (tells_update _ rfl rfl)).trans (tells_enter _ _)).trans
      (tells_scheduleRetry _ _)

theorem tells_fail (cause : DisconnectCause) : Tells t (t.fail cause) := by
  unfold fail
  split
  · exact .refl t
  · exact (t.tells_noteFailure cause).trans (tells_obey _ _ _)

theorem tells_write (frame : Frame) : Tells t (t.write frame).1 := by
  let u : Turn κ σ := { t with writes := t.writes + 1 }
  have hu : Tells t u := ⟨rfl, rfl, rfl, [], by simp [u], by simp [u]⟩
  unfold write
  split
  · exact .refl t
  · dsimp only
    split
    · exact hu.trans (u.tells_emit rfl rfl rfl)
    · exact hu
    · exact hu.trans (u.tells_update (f := fun m => { m with phase := .suspended }) rfl rfl)

theorem tells_writeOrFail (context : String) (frame : Frame) :
    Tells t (t.writeOrFail context frame).1 := by
  have hw := t.tells_write frame
  unfold writeOrFail
  split <;> rename_i u _ he <;> rw [he] at hw
  · exact hw
  · exact hw.trans (tells_fail u _)
  · exact hw

theorem tells_control (context : String) (c : ControlFrame) : Tells t (t.control context c).1 :=
  (t.tells_log _).trans (tells_writeOrFail _ _ _)

theorem tells_replay (topics : List Topic) : Tells t (t.replay topics) := by
  induction topics generalizing t with
  | nil => exact .refl t
  | cons topic rest ih =>
    have hc := t.tells_control "replay" ⟨.subscribe, topic⟩
    unfold replay
    split <;> rename_i u he <;> rw [he] at hc
    · exact hc.trans (ih u)
    · exact hc

theorem tells_disconnect : Tells t t.disconnect := by
  have hc : Tells t t.cancelReconnect := by
    unfold cancelReconnect
    split
    · exact t.tells_cancelRetry.trans (tells_log _ _)
    · exact .refl t
  have hs : Tells t.cancelReconnect t.cancelReconnect.sayGoodbye := by
    unfold sayGoodbye
    split
    · exact (tells_emit _ rfl rfl rfl).trans (tells_update _ rfl rfl)
    · exact .refl _
  let u := (t.cancelReconnect.sayGoodbye.teardown.nextGeneration.update fun m =>
    { m with attempt := 0 }).enter .disconnected
  have hu : Tells t u :=
    ((((hc.trans hs).trans (tells_teardown _)).trans (tells_nextGeneration _)).trans
      (tells_update _ rfl rfl)).trans (tells_enter _ _)
  show Tells t (if t.manager.state = .disconnected then u else u.log _)
  split
  · exact hu
  · exact hu.trans (u.tells_log _)

theorem tells_subscribe (handle : Handle) (topic : Topic) (callback : κ) :
    Tells t (t.subscribe handle topic callback) := by
  let m := t.manager
  let u := if m.registry.contains handle then t.log (.duplicateHandle handle topic) else t
  let v := (u.update fun m' => { m' with registry := (m.registry.insert handle topic callback).1 }).log
    (.registered handle topic (m.registry.insert handle topic callback).2 m.state)
  have hu : Tells t u := by
    show Tells t (if _ then _ else _)
    split
    · exact t.tells_log _
    · exact .refl t
  have hv : Tells t v := (hu.trans (tells_update _ rfl rfl)).trans (tells_log _ _)
  show Tells t (if _ then (v.control _ _).1 else v)
  split
  · exact hv.trans (v.tells_control _ _)
  · exact hv

theorem tells_unsubscribe (handle : Handle) : Tells t (t.unsubscribe handle) := by
  unfold unsubscribe
  dsimp only
  split
  · exact t.tells_log _
  · rename_i registry removed _
    have hv := (t.tells_update (f := fun m => { m with registry }) rfl rfl).trans
      (tells_log _ (.removed handle removed.topic removed.nowEmpty))
    split
    · exact hv.trans (tells_control _ _ _)
    · exact hv

end Operations

/-! ## Messages -/

section Messages

variable (t : Turn κ σ)

theorem install_tells (link : Nat) :
    Tells (t.update fun m => { m with heartbeat := m.heartbeat.reset t.now }) (t.install link) := by
  let u := t.update fun m => { m with heartbeat := m.heartbeat.reset t.now }
  have hs : Tells u (t.settle link) := by
    unfold settle
    refine Tells.trans ?_ (tells_log _ _)
    refine Tells.trans ?_ (tells_enter _ _)
    refine Tells.trans ?_ (tells_start _ _)
    refine Tells.trans ?_ (tells_update _ rfl rfl)
    refine Tells.trans ?_ (tells_abort? _ _)
    refine Tells.trans ?_ (tells_start _ _)
    exact ⟨rfl, rfl, rfl, [], by simp [update, u], by simp [update, u]⟩
  rw [install_eq]
  exact hs.trans (tells_replay _ _)

theorem connectTo_tells (endpoint : String) (observer : Option Observer) :
    Tells (t.update fun m => { m with observer := observer <|> m.observer })
      (t.connectTo endpoint observer) := by
  let u := t.update fun m => { m with observer := observer <|> m.observer }
  unfold connectTo
  exact (u.tells_update (f := fun m => { m with endpoint := some endpoint, attempt := 0 })
    rfl rfl).trans (tells_beginAttempt _)

variable [Callback κ σ]

/-- What becomes of a data frame that comes in now. -/
def outcome (payload : ByteArray) : Outcome :=
  (t.manager.registry.dispatch t.manager.config.buffers.maxMessage payload (t.now / nanosPerMilli)
    t.shared).2.2

/-- A turn with what a message itself brings: an observer if an attempt is begun for it, a new reading
of the heartbeat, and what becomes of a data frame. -/
def heeding : Message κ → Turn κ σ
  | .connect _ observer =>
    if t.manager.state = .connecting ∨ t.manager.state = .connected then t
    else t.update fun m => { m with observer := observer <|> m.observer }
  | .opened generation _ =>
    if t.current generation .connecting then
      t.update fun m => { m with heartbeat := m.heartbeat.reset t.now }
    else t
  | .inbound generation frame =>
    if t.current generation .connected then
      let u := t.update fun m => { m with heartbeat := (m.heartbeat.inbound t.now frame).1 }
      match frame.payload? with
      | some payload => u.emit (.dispatched (t.outcome payload))
      | none => u
    else t
  | .tick generation =>
    if t.current generation .connected && (t.manager.heartbeat.overdue? t.now).isNone then
      t.update fun m => { m with heartbeat := m.heartbeat.ping t.now }
    else t
  | _ => t

/-- What a message brings publishes no state. -/
theorem states_heeding (message : Message κ) :
    (t.heeding message).effects.filterMap Effect.published? =
        t.effects.filterMap Effect.published? ∧
      (t.heeding message).effects.filterMap Effect.told? = t.effects.filterMap Effect.told? := by
  cases message with
  | connect endpoint observer =>
    unfold heeding
    dsimp only
    split <;> exact ⟨rfl, rfl⟩
  | opened generation link =>
    unfold heeding
    dsimp only
    split <;> exact ⟨rfl, rfl⟩
  | inbound generation frame =>
    unfold heeding
    dsimp only
    split
    · split
      · unfold emit
        rw [List.filterMap_append, List.filterMap_append]
        exact ⟨List.append_nil _, List.append_nil _⟩
      · exact ⟨rfl, rfl⟩
    · exact ⟨rfl, rfl⟩
  | tick generation =>
    unfold heeding
    dsimp only
    split <;> exact ⟨rfl, rfl⟩
  | _ => exact ⟨rfl, rfl⟩

/-- Only a request to connect brings an observer. -/
theorem observer_heeding {message : Message κ} (other : message.isConnect = false) :
    (t.heeding message).manager.observer = t.manager.observer := by
  cases message with
  | connect endpoint observer => cases other
  | opened generation link =>
    unfold heeding
    dsimp only
    split <;> rfl
  | inbound generation frame =>
    unfold heeding
    dsimp only
    split
    · split <;> rfl
    · rfl
  | tick generation =>
    unfold heeding
    dsimp only
    split <;> rfl
  | _ => rfl

/-- Nothing is told before an attempt is begun for the observer that was brought. -/
theorem connect_tells (endpoint : String) (observer : Option Observer) :
    Tells (t.heeding (.connect endpoint observer)) (t.connect endpoint observer) := by
  have idle : t.manager.state ≠ .connecting → t.manager.state ≠ .connected →
      t.heeding (.connect endpoint observer) =
        t.update fun m => { m with observer := observer <|> m.observer } :=
    fun h h' => if_neg (not_or.mpr ⟨h, h'⟩)
  unfold connect
  dsimp only
  split <;> rename_i hs
  · rw [show t.heeding (.connect endpoint observer) = t from if_pos (.inr hs)]
    exact t.tells_log _
  · rw [show t.heeding (.connect endpoint observer) = t from if_pos (.inl hs)]
    exact t.tells_log _
  · rw [idle (by rw [hs]; nofun) (by rw [hs]; nofun)]
    let u := t.cancelRetry.log (.retryingNow t.manager.attempt)
    have silent : ∀ {α : Type} {f : Effect → Option α}, (∀ n, f (.abort n) = none) →
        (∀ e, f (.log e) = none) → u.effects.filterMap f = t.effects.filterMap f := by
      intro α f abort log
      show (t.cancelRetry.effects ++ [_]).filterMap f = _
      rw [List.filterMap_append, t.silent_cancelRetry abort, List.filterMap_cons_none (log _)]
      exact List.append_nil _
    have same : u.manager.observer = t.manager.observer ∧
        u.manager.heartbeat = t.manager.heartbeat :=
      ⟨t.tells_cancelRetry.observer, t.tells_cancelRetry.heartbeat⟩
    refine Tells.trans ?_ (connectTo_tells u endpoint observer)
    refine ⟨congrArg (observer <|> ·) same.1, same.2, silent (fun _ => rfl) fun _ => rfl, [], ?_, ?_⟩
    · rw [List.append_nil]
      exact silent (fun _ => rfl) fun _ => rfl
    · rw [tidings_nil, List.append_nil]
      exact silent (fun _ => rfl) fun _ => rfl
  · rw [idle (by rw [hs]; nofun) (by rw [hs]; nofun)]
    exact connectTo_tells t endpoint observer
  · rw [idle (by rw [hs]; nofun) (by rw [hs]; nofun)]
    exact connectTo_tells t endpoint observer

/-- What becomes of a data frame is told when it has been dispatched. -/
theorem dispatch_tells (payload : ByteArray) :
    Tells (t.emit (.dispatched (t.outcome payload))) (t.dispatch payload) := by
  refine ⟨rfl, rfl, rfl, [], ?_, ?_⟩
  · rw [List.append_nil]
    rfl
  · rw [tidings_nil, List.append_nil]
    rfl

theorem receive_tells {generation : UInt64} {frame : Frame}
    (current : t.current generation .connected = true) :
    Tells (t.heeding (.inbound generation frame)) (t.receive frame) := by
  let u := t.update fun m => { m with heartbeat := (m.heartbeat.inbound t.now frame).1 }
  let v := u.update fun m => { m with health := m.health.frame t.now }
  have hv : Tells u v := u.tells_update rfl rfl
  -- a data frame changes the health before it is dispatched
  have data : ∀ payload, Tells (u.emit (.dispatched (t.outcome payload))) (v.dispatch payload) :=
    fun payload => ((u.emit (.dispatched (t.outcome payload))).tells_update
      (f := fun m => { m with health := m.health.frame t.now }) rfl rfl).trans
      (v.dispatch_tells payload)
  unfold heeding
  dsimp only
  rw [if_pos current]
  cases frame with
  | text payload => exact data payload
  | binary payload => exact data payload
  | close why => exact hv.trans (v.tells_fail _)
  | ping payload | pong payload =>
    show Tells u _
    unfold receive
    dsimp only
    split
    · exact hv.trans (v.tells_writeOrFail _ _)
    · exact hv.trans (v.tells_update (f := fun m => { m with health := m.health.roundTrip _ }) rfl rfl)
    · exact hv
    · exact hv

theorem beat_tells {generation : UInt64} (current : t.current generation .connected = true) :
    Tells (t.heeding (.tick generation)) t.beat := by
  unfold heeding beat
  dsimp only
  rw [current]
  cases t.manager.heartbeat.overdue? t.now with
  | some silence => exact t.tells_fail _
  | none => exact tells_writeOrFail _ _ _

/-- **What a turn tells** beside what its message brings: states that are published, and the observer
is told about. -/
theorem handle_tells (message : Message κ) : Tells (t.heeding message) (t.handle message) := by
  cases message with
  | connect endpoint observer => exact t.connect_tells endpoint observer
  | disconnect => exact t.tells_disconnect
  | subscribe handle topic callback => exact t.tells_subscribe handle topic callback
  | unsubscribe handle => exact t.tells_unsubscribe handle
  | tellState => exact t.tells_emit rfl rfl rfl
  | tellStats => exact t.tells_emit rfl rfl rfl
  | stop => exact t.tells_halt
  | opened generation link =>
    unfold handle heeding
    dsimp only
    split
    · exact t.install_tells link
    · exact t.tells_emit rfl rfl rfl
  | openFailed generation cause =>
    unfold handle
    dsimp only
    split
    · exact (t.tells_update (f := fun m => { m with openTask := none }) rfl rfl).trans
        (tells_fail _ cause)
    · exact .refl t
  | inbound generation frame =>
    by_cases current : t.current generation .connected = true
    · rw [show t.handle (.inbound generation frame) = t.receive frame from if_pos current]
      exact t.receive_tells current
    · rw [show t.handle (.inbound generation frame) = t from if_neg current,
        show t.heeding (.inbound generation frame) = t from if_neg current]
      exact .refl t
  | closed generation cause =>
    unfold handle
    dsimp only
    split
    · exact t.tells_fail cause
    · exact .refl t
  | retry generation =>
    unfold handle
    dsimp only
    split
    · exact (t.tells_update (f := fun m => { m with retryTask := none }) rfl rfl).trans
        (tells_beginAttempt _)
    · exact .refl t
  | tick generation =>
    by_cases current : t.current generation .connected = true
    · rw [show t.handle (.tick generation) = t.beat from if_pos current]
      exact t.beat_tells current
    · rw [show t.handle (.tick generation) = t from if_neg current]
      unfold heeding
      dsimp only
      rw [Bool.eq_false_iff.mpr current]
      exact .refl t

end Messages

end Turn

end LiveMetrics
