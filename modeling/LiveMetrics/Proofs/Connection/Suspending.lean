import LiveMetrics.Proofs.Connection.Writing

/-!
# When a turn is suspended

The manager writes in the middle of a turn, and a write that stalls suspends it for good. This
happens exactly if the script of the message has a frame to write, and the connection that it is
written to stalls (`Turn.handle_waits`). Nothing else in a turn waits: a failure does not, and the
end of a connection is left to a close handshake.
-/

set_option autoImplicit false

namespace LiveMetrics

namespace Turn

variable {κ σ : Type}

/-- Whether the turn waits for a write that does not end. -/
def Waits (t : Turn κ σ) : Prop := t.manager.phase = .suspended

/-- Whether writes to the connection stall. -/
def Stuck (t : Turn κ σ) : Prop :=
  ∃ link, t.manager.writer = some link ∧ t.outcomes link 0 = .stalled

/-- Whether a frame of a script is to be written to a connection that stalls. -/
def Script.Sticks (s : Script κ σ) (outcomes : Nat → Nat → WriteOutcome) : Prop :=
  s.frames ≠ [] ∧ ∃ link, s.link = some link ∧ outcomes link 0 = .stalled

/-! ## Operations that do not wait -/

section Operations

variable (t : Turn κ σ)

@[simp] theorem phase_update {f : Manager κ → Manager κ} (h : ∀ m, (f m).phase = m.phase) :
    (t.update f).manager.phase = t.manager.phase := h _

@[simp] theorem phase_start (what : Task) : (t.start what).manager.phase = t.manager.phase := rfl

@[simp] theorem phase_teardown : t.teardown.manager.phase = t.manager.phase := by
  unfold teardown
  simp

@[simp] theorem phase_cancelRetry : t.cancelRetry.manager.phase = t.manager.phase := by
  unfold cancelRetry
  simp

@[simp] theorem phase_halt : t.halt.manager.phase = .stopped := rfl

@[simp] theorem phase_nextGeneration : t.nextGeneration.manager.phase = t.manager.phase := rfl

@[simp] theorem phase_beginAttempt : t.beginAttempt.manager.phase = t.manager.phase := by
  unfold beginAttempt
  split
  · rfl
  · simp

@[simp] theorem phase_scheduleRetry (delay : Span) :
    (t.scheduleRetry delay).manager.phase = t.manager.phase := by
  unfold scheduleRetry
  simp

@[simp] theorem phase_noteFailure (cause : DisconnectCause) :
    (t.noteFailure cause).manager.phase = t.manager.phase := by
  unfold noteFailure
  simp

@[simp] theorem phase_settle (link : Nat) : (t.settle link).manager.phase = t.manager.phase := by
  unfold settle
  simp

@[simp] theorem phase_connect (endpoint : String) (observer : Option Observer) :
    (t.connect endpoint observer).manager.phase = t.manager.phase := by
  unfold connect connectTo
  dsimp only
  split <;> simp

@[simp] theorem phase_cancelReconnect : t.cancelReconnect.manager.phase = t.manager.phase := by
  unfold cancelReconnect
  split <;> simp

@[simp] theorem phase_sayGoodbye : t.sayGoodbye.manager.phase = t.manager.phase := by
  unfold sayGoodbye
  split <;> simp

@[simp] theorem phase_disconnect : t.disconnect.manager.phase = t.manager.phase := by
  unfold disconnect
  dsimp only
  split <;> simp

variable {t}

/-- A failure does not wait: it asks the policy and goes on, or stops. -/
theorem waits_of_fail {cause : DisconnectCause} (h : (t.fail cause).Waits) : t.Waits := by
  unfold fail at h
  split at h
  · exact h
  · dsimp only at h
    generalize (t.noteFailure cause).manager.policy _ = v at h
    cases v with
    | broken reason => cases h
    | giveUp | wait delay => simpa [Waits, obey] using h

end Operations

/-! ## Writing -/

section Writing

variable {t u : Turn κ σ}

/-- **A write waits exactly if it stalls.** -/
theorem writeOrFail_waits (still : ¬ t.Waits) (same : ∀ link n, t.outcomes link n = t.outcomes link 0)
    (context : String) (frame : Frame) : (t.writeOrFail context frame).1.Waits ↔ t.Stuck := by
  cases hw : t.manager.writer with
  | none =>
    have failed : ¬ (t.writeOrFail context frame).1.Waits := by
      unfold writeOrFail write
      rw [hw]
      exact fun h => still (waits_of_fail h)
    simp [failed, Stuck, hw]
  | some link =>
    have stuck : t.Stuck ↔ t.outcomes link 0 = .stalled := by simp [Stuck, hw]
    rw [stuck]
    unfold writeOrFail write
    rw [hw]
    dsimp only
    rw [same link t.writes]
    cases t.outcomes link 0 with
    | done => exact ⟨fun h => absurd h still, nofun⟩
    | failed error => exact ⟨fun h => absurd (waits_of_fail h) still, nofun⟩
    | stalled => exact ⟨fun _ => rfl, fun _ => rfl⟩

theorem control_waits (still : ¬ t.Waits) (same : ∀ link n, t.outcomes link n = t.outcomes link 0)
    (context : String) (c : ControlFrame) : (t.control context c).1.Waits ↔ t.Stuck :=
  writeOrFail_waits (t := t.log (.sendingControl context c)) still same context c.encode

theorem replay_waits (still : ¬ t.Waits) (same : ∀ link n, t.outcomes link n = t.outcomes link 0)
    (open_ : t.manager.state = .connected) (topics : List Topic) :
    (t.replay topics).Waits ↔ topics ≠ [] ∧ t.Stuck := by
  induction topics generalizing t with
  | nil => simp [replay, still]
  | cons topic rest ih =>
    have waits := control_waits still same "replay" ⟨.subscribe, topic⟩
    have wrote : Wrote t (asks topic) (t.control "replay" ⟨.subscribe, topic⟩) :=
      control_wrote open_ _ _
    unfold replay
    split <;> rename_i u h <;> rw [h] at wrote waits
    · -- the first frame has been written, so no other one stalls
      cases wrote with
      | done writer manager rest_ =>
        have outcomes : u.outcomes = t.outcomes := congrArg Rest.outcomes rest_
        have calm : ¬ u.Waits := fun hu => still (by rw [Waits, ← manager]; exact hu)
        have free : ¬ t.Stuck := fun hs => calm (waits.mpr hs)
        rw [ih calm (by rw [outcomes]; exact same) (manager ▸ open_)]
        unfold Stuck at free ⊢
        rw [manager, outcomes]
        simp [free]
    · simpa using waits

end Writing

/-! ## Turns -/

section Turns

variable [Callback κ σ] {t : Turn κ σ}

omit [Callback κ σ] in
theorem waits_iff_of_silent {u : Turn κ σ} (still : ¬ t.Waits) (calm : u.Waits → t.Waits) :
    u.Waits ↔ (t.writing []).Sticks t.outcomes :=
  ⟨fun h => absurd (calm h) still, fun h => absurd rfl h.1⟩

omit [Callback κ σ] in
/-- A frame that is written after other work. -/
theorem waits_iff_of_writing {u v : Turn κ σ} {s : Script κ σ} (still : ¬ t.Waits)
    (same : ∀ link n, t.outcomes link n = t.outcomes link 0) (phase : v.manager.phase = t.manager.phase)
    (outcomes : v.outcomes = t.outcomes) (link : s.link = v.manager.writer) (frames : s.frames ≠ [])
    (writes : ¬ v.Waits → (∀ link n, v.outcomes link n = v.outcomes link 0) → (u.Waits ↔ v.Stuck)) :
    u.Waits ↔ s.Sticks t.outcomes := by
  have calm : ¬ v.Waits := fun h => still (phase.symm.trans h)
  rw [writes calm (by rw [outcomes]; exact same)]
  unfold Stuck Script.Sticks
  rw [link, outcomes]
  simp [frames]

variable (still : ¬ t.Waits) (same : ∀ link n, t.outcomes link n = t.outcomes link 0)
include still same

theorem subscribe_waits (handle : Handle) (topic : Topic) (callback : κ) :
    (t.subscribe handle topic callback).Waits ↔
      (t.script (.subscribe handle topic callback)).Sticks t.outcomes := by
  let m := t.manager
  let u := if m.registry.contains handle then t.log (.duplicateHandle handle topic) else t
  let v := (u.update fun m' => { m' with registry := (m.registry.insert handle topic callback).1 }).log
    (.registered handle topic (m.registry.insert handle topic callback).2 m.state)
  have hu : u.manager = t.manager ∧ u.outcomes = t.outcomes := by
    show (if _ then _ else _ : Turn κ σ).manager = _ ∧ (if _ then _ else _ : Turn κ σ).outcomes = _
    split <;> exact ⟨rfl, rfl⟩
  have phase : v.manager.phase = t.manager.phase := congrArg (fun m => m.phase) hu.1
  have writer : t.manager.writer = v.manager.writer := congrArg (fun m => m.writer) hu.1.symm
  show (if _ then (v.control _ _).1 else v).Waits ↔
    ({ t.writing (if _ then [asks topic] else []) with
      registry := (m.registry.insert handle topic callback).1 } : Script κ σ).Sticks _
  split
  · exact waits_iff_of_writing still same phase hu.2 writer (List.cons_ne_nil _ _) fun calm same' =>
      control_waits calm same' _ _
  · exact waits_iff_of_silent still fun h => phase.symm.trans h

theorem unsubscribe_waits (handle : Handle) :
    (t.unsubscribe handle).Waits ↔ (t.script (.unsubscribe handle)).Sticks t.outcomes := by
  unfold script unsubscribe
  dsimp only
  obtain ⟨registry, removed⟩ := t.manager.registry.remove handle
  cases removed with
  | none => exact waits_iff_of_silent still id
  | some removed =>
    dsimp only
    split
    · exact waits_iff_of_writing still same rfl rfl rfl (List.cons_ne_nil _ _) fun calm same' =>
        control_waits (t := (t.update fun m => { m with registry }).log
          (.removed handle removed.topic removed.nowEmpty)) calm same' _ _
    · exact waits_iff_of_silent still id

theorem install_waits {generation : UInt64} {link : Nat}
    (current : t.current generation .connecting = true) :
    (t.install link).Waits ↔ (t.script (.opened generation link)).Sticks t.outcomes := by
  have hm : (t.settle link).manager.writer = some link := by
    unfold settle
    simp [start, update]
  have outcomes : (t.settle link).outcomes = t.outcomes := congrArg Rest.outcomes (rest_settle t link)
  have open_ : (t.settle link).manager.state = .connected :=
    congrArg Holding.state (holding_settle t link)
  have calm : ¬ (t.settle link).Waits := fun h => still ((phase_settle t link).symm.trans h)
  rw [install_eq, replay_waits calm (by rw [outcomes]; exact same) open_]
  unfold script Stuck Script.Sticks
  dsimp only
  rw [if_pos current, hm, outcomes]
  simp [writing]

theorem receive_waits {generation : UInt64} {frame : Frame}
    (current : t.current generation .connected = true) :
    (t.receive frame).Waits ↔ (t.script (.inbound generation frame)).Sticks t.outcomes := by
  let u := t.update fun m =>
    { m with heartbeat := (t.manager.heartbeat.inbound t.now frame).1, health := m.health.frame t.now }
  have calm : ¬ u.Waits := still
  unfold script receive
  dsimp only
  rw [if_pos current]
  cases frame with
  | text payload | binary payload => exact waits_iff_of_silent still id
  | close why =>
    have fails : (u.fail (remoteClose why)).Waits → u.Waits := waits_of_fail
    exact waits_iff_of_silent still fails
  | pong payload =>
    show _ ↔ (t.writing []).Sticks _
    split
    · rename_i h; cases h
    · exact waits_iff_of_silent still id
    · exact waits_iff_of_silent still id
    · exact waits_iff_of_silent still id
  | ping payload =>
    cases ha : t.manager.heartbeat.autoPong with
    | true =>
      have hp : (t.manager.heartbeat.inbound t.now (.ping payload)).2 = .none := by
        unfold Heartbeat.inbound; simp [ha]
      rw [hp]
      exact waits_iff_of_silent still id
    | false =>
      have hp : (t.manager.heartbeat.inbound t.now (.ping payload)).2 = .reply (.pong payload) := by
        unfold Heartbeat.inbound; simp [ha]
      rw [hp]
      exact waits_iff_of_writing (v := u) still same rfl rfl rfl (List.cons_ne_nil _ _)
        fun calm same' => writeOrFail_waits calm same' "pong" (.pong payload)

theorem beat_waits {generation : UInt64} (current : t.current generation .connected = true) :
    t.beat.Waits ↔ (t.script (.tick generation)).Sticks t.outcomes := by
  unfold script beat
  dsimp only
  rw [current]
  cases ho : t.manager.heartbeat.overdue? t.now with
  | some silence => exact waits_iff_of_silent still fun h => waits_of_fail h
  | none =>
    exact waits_iff_of_writing still same rfl rfl rfl (List.cons_ne_nil _ _) fun calm same' =>
      writeOrFail_waits (t := t.update fun m => { m with heartbeat := m.heartbeat.ping t.now })
        calm same' _ _

/-- **A turn is suspended exactly if it has a frame to write to a connection that stalls.** -/
theorem handle_waits (message : Message κ) :
    (t.handle message).Waits ↔ (t.script message).Sticks t.outcomes := by
  cases message with
  | connect endpoint observer =>
    exact waits_iff_of_silent still fun h => (phase_connect t endpoint observer).symm.trans h
  | disconnect => exact waits_iff_of_silent still fun h => (phase_disconnect t).symm.trans h
  | subscribe handle topic callback => exact subscribe_waits still same handle topic callback
  | unsubscribe handle => exact unsubscribe_waits still same handle
  | tellState | tellStats => exact waits_iff_of_silent still id
  | stop => exact waits_iff_of_silent still fun h => nomatch (phase_halt t).symm.trans h
  | opened generation link =>
    unfold handle
    dsimp only
    split <;> rename_i hc
    · exact install_waits still same hc
    · unfold script
      dsimp only
      rw [if_neg hc]
      exact waits_iff_of_silent still id
  | openFailed generation cause =>
    unfold handle
    dsimp only
    split
    · let u := t.update fun m => { m with openTask := none }
      exact waits_iff_of_silent still fun h => waits_of_fail (t := u) h
    · exact waits_iff_of_silent still id
  | inbound generation frame =>
    unfold handle
    dsimp only
    split <;> rename_i hc
    · exact receive_waits still same hc
    · unfold script
      dsimp only
      rw [if_neg hc]
      exact waits_iff_of_silent still id
  | closed generation cause =>
    unfold handle
    dsimp only
    split
    · exact waits_iff_of_silent still waits_of_fail
    · exact waits_iff_of_silent still id
  | retry generation =>
    unfold handle
    dsimp only
    split
    · let u := t.update fun m => { m with retryTask := none }
      exact waits_iff_of_silent still fun h => (phase_beginAttempt u).symm.trans h
    · exact waits_iff_of_silent still id
  | tick generation =>
    unfold handle
    dsimp only
    split <;> rename_i hc
    · exact beat_waits still same hc
    · unfold script
      dsimp only
      rw [Bool.eq_false_iff.mpr hc]
      exact waits_iff_of_silent still id

end Turns

end Turn

end LiveMetrics
