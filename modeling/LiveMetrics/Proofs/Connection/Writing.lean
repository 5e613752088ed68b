import LiveMetrics.Proofs.Connection.Turns
import LiveMetrics.Proofs.Subscription.Registry

/-!
# What a turn writes

Beside the connection a turn has the subscriptions, what the callbacks share, and the frames that
it has written (`Turn.rest`). The operations on the connection leave all of that alone.

Each message has a script (`Turn.script`): what its handling makes of the subscriptions, and the
frames that it is to write. `handle_follows` says that a turn follows the script: it writes the first
frames of it, all of them if the connection is still up afterwards, and changes nothing else beside
the connection.

What a script makes of the subscriptions is what a request asks for, or what dispatching data leaves
(`Turn.script_revises`). What all operations on a registry preserve is so preserved by scripts.
-/

set_option autoImplicit false

namespace LiveMetrics

/-- The frame that an effect writes, with its connection. -/
def Effect.wrote? : Effect → Option (Nat × Frame)
  | .wrote link frame => some (link, frame)
  | _ => none

/-- What a request makes of the subscriptions. -/
def Message.register {κ : Type} (registry : Registry κ) : Message κ → Registry κ
  | .subscribe handle topic callback => (registry.insert handle topic callback).1
  | .unsubscribe handle => (registry.remove handle).1
  | _ => registry

/-- Whether a manager goes on with an open connection. -/
def Manager.Up {κ : Type} (m : Manager κ) : Prop := m.phase = .running ∧ m.state = .connected

namespace Turn

variable {κ σ : Type}

/-- What a turn has beside the connection. -/
structure Rest (κ σ : Type) where
  config : Config
  policy : Nat → Verdict
  now : Nat
  outcomes : Nat → Nat → WriteOutcome
  registry : Registry κ
  shared : σ
  written : List (Nat × Frame)

/-- What a turn has beside the connection. -/
def rest (t : Turn κ σ) : Rest κ σ where
  config := t.manager.config
  policy := t.manager.policy
  now := t.now
  outcomes := t.outcomes
  registry := t.manager.registry
  shared := t.shared
  written := t.effects.filterMap Effect.wrote?

/-! ## Operations on the connection -/

section Operations

variable (t : Turn κ σ)

@[simp] theorem rest_update {f : Manager κ → Manager κ} (hc : ∀ m, (f m).config = m.config)
    (hp : ∀ m, (f m).policy = m.policy) (hr : ∀ m, (f m).registry = m.registry) :
    (t.update f).rest = t.rest := by
  unfold rest update
  rw [hc, hp, hr]

theorem rest_emit {e : Effect} (h : e.wrote? = none) : (t.emit e).rest = t.rest := by
  unfold rest emit
  simp [h]

@[simp] theorem rest_log (e : LogEvent) : (t.log e).rest = t.rest := rest_emit t rfl

@[simp] theorem rest_publish (was is : ConnectionState) :
    (t.emit (.publish was is)).rest = t.rest := rest_emit t rfl

@[simp] theorem rest_farewell (link : Nat) : (t.emit (.farewell link)).rest = t.rest :=
  rest_emit t rfl

@[simp] theorem rest_start (what : Task) : (t.start what).rest = t.rest := by
  have he : (t.emit (.start t.manager.tasks what)).rest = t.rest := rest_emit t rfl
  unfold start
  simp [he]

@[simp] theorem rest_abort? (task : Option Nat) : (t.abort? task).rest = t.rest := by
  cases task with
  | none => rfl
  | some n => exact rest_emit t rfl

@[simp] theorem rest_release? (link : Option Nat) : (t.release? link).rest = t.rest := by
  cases link with
  | none => rfl
  | some n => exact rest_emit t rfl

@[simp] theorem rest_observe (state : ConnectionState) : (t.observe state).rest = t.rest := by
  unfold observe
  split
  · exact rest_emit t rfl
  · rfl

@[simp] theorem rest_enter (next : ConnectionState) : (t.enter next).rest = t.rest := by
  unfold enter
  split
  · rfl
  · simp

@[simp] theorem rest_teardown : t.teardown.rest = t.rest := by
  unfold teardown
  simp

@[simp] theorem rest_cancelRetry : t.cancelRetry.rest = t.rest := by
  unfold cancelRetry
  simp

@[simp] theorem rest_halt : t.halt.rest = t.rest := by
  unfold halt
  simp

@[simp] theorem rest_nextGeneration : t.nextGeneration.rest = t.rest := by
  unfold nextGeneration
  simp

@[simp] theorem rest_beginAttempt : t.beginAttempt.rest = t.rest := by
  unfold beginAttempt
  split
  · rfl
  · simp

@[simp] theorem rest_scheduleRetry (delay : Span) : (t.scheduleRetry delay).rest = t.rest := by
  unfold scheduleRetry
  simp

@[simp] theorem rest_noteFailure (cause : DisconnectCause) :
    (t.noteFailure cause).rest = t.rest := by
  unfold noteFailure
  simp

@[simp] theorem rest_obey (cause : DisconnectCause) (v : Verdict) :
    (t.obey cause v).rest = t.rest := by
  cases v with
  | broken reason => unfold obey; simp
  | giveUp => unfold obey; simp
  | wait delay => unfold obey; simp

@[simp] theorem rest_fail (cause : DisconnectCause) : (t.fail cause).rest = t.rest := by
  unfold fail
  split
  · rfl
  · simp

@[simp] theorem rest_settle (link : Nat) : (t.settle link).rest = t.rest := by
  unfold settle
  simp

@[simp] theorem rest_connectTo (endpoint : String) (observer : Option Observer) :
    (t.connectTo endpoint observer).rest = t.rest := by
  unfold connectTo
  simp

@[simp] theorem rest_connect (endpoint : String) (observer : Option Observer) :
    (t.connect endpoint observer).rest = t.rest := by
  unfold connect
  dsimp only
  split <;> simp

@[simp] theorem rest_cancelReconnect : t.cancelReconnect.rest = t.rest := by
  unfold cancelReconnect
  split <;> simp

@[simp] theorem rest_sayGoodbye : t.sayGoodbye.rest = t.rest := by
  unfold sayGoodbye
  split
  · simp
  · rfl

@[simp] theorem rest_disconnect : t.disconnect.rest = t.rest := by
  unfold disconnect
  dsimp only
  split <;> simp

end Operations

/-! ## Scripts -/

/-- What a message makes of what a turn has beside the connection: the frames that are to be written,
the connection that they are written to, the subscriptions, and what the callbacks share. -/
structure Script (κ σ : Type) where
  link : Option Nat
  frames : List Frame
  registry : Registry κ
  shared : σ

/-- Frames are to be written, and nothing else. -/
def writing (t : Turn κ σ) (frames : List Frame) : Script κ σ :=
  ⟨t.manager.writer, frames, t.manager.registry, t.shared⟩

/-- The request for a topic. -/
def asks (topic : Topic) : Frame := ControlFrame.encode ⟨.subscribe, topic⟩

def waives (topic : Topic) : Frame := ControlFrame.encode ⟨.unsubscribe, topic⟩

def script [Callback κ σ] (t : Turn κ σ) : Message κ → Script κ σ
  | .subscribe handle topic callback =>
    let (registry, first) := t.manager.registry.insert handle topic callback
    let frames := if first && t.manager.state == .connected then [asks topic] else []
    { t.writing frames with registry }
  | .unsubscribe handle =>
    match t.manager.registry.remove handle with
    | (_, none) => t.writing []
    | (registry, some removed) =>
      let frames :=
        if removed.nowEmpty && t.manager.state == .connected then [waives removed.topic] else []
      { t.writing frames with registry }
  | .opened generation link =>
    if t.current generation .connecting then
      { t.writing (t.manager.registry.topics.map asks) with link := some link }
    else t.writing []
  | .inbound generation frame =>
    if t.current generation .connected then
      match frame.payload?, (t.manager.heartbeat.inbound t.now frame).2 with
      | some payload, _ =>
        let (registry, shared, _) := t.manager.registry.dispatch
          t.manager.config.buffers.maxMessage payload (t.now / nanosPerMilli) t.shared
        { t.writing [] with registry, shared }
      | none, .reply pong => t.writing [pong]
      | none, _ => t.writing []
    else t.writing []
  | .tick generation =>
    t.writing (if t.current generation .connected && (t.manager.heartbeat.overdue? t.now).isNone then
      [Heartbeat.pingFrame] else [])
  | _ => t.writing []

/-- What a script makes of the subscriptions and of what the callbacks share: it edits the subscriptions
as a request says, or it dispatches data of the open connection. -/
inductive Revises [Callback κ σ] (t : Turn κ σ) (message : Message κ) (s : Script κ σ) : Prop where
  | edits (registry : s.registry = message.register t.manager.registry) (shared : s.shared = t.shared)
  | dispatches {generation : UInt64} {frame : Frame} {payload : ByteArray}
      (asked : message = .inbound generation frame)
      (current : t.current generation .connected = true) (brings : frame.payload? = some payload)
      (registry : s.registry = (t.manager.registry.dispatch t.manager.config.buffers.maxMessage payload
        (t.now / nanosPerMilli) t.shared).1)
      (shared : s.shared = (t.manager.registry.dispatch t.manager.config.buffers.maxMessage payload
        (t.now / nanosPerMilli) t.shared).2.1)

theorem script_revises [Callback κ σ] (t : Turn κ σ) (message : Message κ) :
    t.Revises message (t.script message) := by
  cases message with
  | unsubscribe handle =>
    unfold script
    dsimp only
    split <;> rename_i he
    · exact .edits (Registry.remove_of_none (congrArg Prod.snd he)).symm rfl
    · exact .edits (congrArg Prod.fst he).symm rfl
  | opened generation link =>
    unfold script
    dsimp only
    split <;> exact .edits rfl rfl
  | inbound generation frame =>
    unfold script
    dsimp only
    split <;> rename_i current
    · split <;> rename_i brings
      · exact .dispatches rfl current brings rfl rfl
      · exact .edits rfl rfl
      · exact .edits rfl rfl
    · exact .edits rfl rfl
  | _ => exact .edits rfl rfl

/-- A turn has followed a script: the first frames of it have been written, all of them if the
connection is still up, and nothing else has changed beside the connection. -/
def Follows (t : Turn κ σ) (s : Script κ σ) (u : Turn κ σ) : Prop :=
  ∃ said : List (Nat × Frame),
    (said.map Prod.snd <+: s.frames ∧ ∀ p ∈ said, s.link = some p.1) ∧
    u.rest = { t.rest with
      registry := s.registry
      shared := s.shared
      written := t.rest.written ++ said } ∧
    (u.manager.Up → said.map Prod.snd = s.frames)

section Following

variable {t u v : Turn κ σ} {s : Script κ σ}

theorem Follows.silent (frames : s.frames = [])
    (rest : u.rest = { t.rest with registry := s.registry, shared := s.shared }) : Follows t s u :=
  ⟨[], ⟨List.nil_prefix, nofun⟩, by rw [rest, List.append_nil], fun _ => frames.symm⟩

theorem Follows.still (rest : u.rest = t.rest) : Follows t (t.writing []) u := .silent rfl rest

/-- Nothing has been written, and the connection is not up. -/
theorem Follows.down (rest : u.rest = { t.rest with registry := s.registry, shared := s.shared })
    (down : ¬ u.manager.Up) : Follows t s u :=
  ⟨[], ⟨List.nil_prefix, nofun⟩, by rw [rest, List.append_nil], fun up => absurd up down⟩

/-- What comes before the writing has the effect of the script on the rest. -/
theorem Follows.after (h : Follows v s u)
    (rest : v.rest = { t.rest with registry := s.registry, shared := s.shared }) : Follows t s u := by
  obtain ⟨said, hs, hr, hu⟩ := h
  rw [rest] at hr
  exact ⟨said, hs, hr, hu⟩

/-! ## Writing -/

theorem not_up_fail (open_ : t.manager.state = .connected) (cause : DisconnectCause) :
    ¬ (t.fail cause).manager.Up := by
  rintro ⟨runs, up⟩
  have hf : (t.fail cause).holding = _ := holding_fail t (by rw [open_]; rfl)
  rcases Course.settled_state_fail t.holding t.manager.policy with hs | hs
  · have hp : ((t.fail cause).manager.phase == .stopped) = true :=
      (congrArg Holding.stopped hf).trans hs
    rw [runs] at hp
    cases hp
  · exact hs ((congrArg Holding.state hf).symm.trans up)

/-- How the writing of one frame ends: it has been written and the manager is as before, or it has not
been written and the connection is not up. -/
inductive Wrote (t : Turn κ σ) (frame : Frame) : Turn κ σ × Bool → Prop where
  | done {u : Turn κ σ} {link : Nat} (writer : t.manager.writer = some link)
      (manager : u.manager = t.manager)
      (rest : u.rest = { t.rest with written := t.rest.written ++ [(link, frame)] }) :
      Wrote t frame (u, true)
  | lost {u : Turn κ σ} (rest : u.rest = t.rest) (down : ¬ u.manager.Up) : Wrote t frame (u, false)

theorem Wrote.follows {frame : Frame} {p : Turn κ σ × Bool} (h : Wrote t frame p) :
    Follows t (t.writing [frame]) p.1 := by
  cases h with
  | done writer manager rest =>
    refine ⟨[(_, frame)], ⟨List.prefix_rfl, fun p hp => ?_⟩, rest, fun _ => rfl⟩
    rw [List.mem_singleton.mp hp]
    exact writer
  | lost rest down => exact .down rest down

/-- A frame that is written to an open connection. -/
theorem writeOrFail_wrote (open_ : t.manager.state = .connected) (context : String)
    (frame : Frame) : Wrote t frame (t.writeOrFail context frame) := by
  cases hw : t.manager.writer with
  | none =>
    have he : t.write frame = (t, .failed (.invalidState "no open transport")) := by
      unfold write; rw [hw]
    unfold writeOrFail
    rw [he]
    exact .lost (rest_fail t _) (not_up_fail open_ _)
  | some link =>
    let u : Turn κ σ := { t with writes := t.writes + 1 }
    have hu : u.rest = t.rest := rfl
    have hs : u.manager.state = .connected := open_
    cases ho : t.outcomes link t.writes with
    | done =>
      have he : t.write frame = (u.emit (.wrote link frame), .done) := by
        unfold write; rw [hw]; dsimp only; rw [ho]
      unfold writeOrFail
      rw [he]
      refine .done hw rfl ?_
      unfold rest emit
      simp [Effect.wrote?, u]
    | failed error =>
      have he : t.write frame = (u, .failed error) := by
        unfold write; rw [hw]; dsimp only; rw [ho]
      unfold writeOrFail
      rw [he]
      exact .lost ((rest_fail u _).trans hu) (not_up_fail hs _)
    | stalled =>
      have he : t.write frame = (u.update fun m => { m with phase := .suspended }, .stalled) := by
        unfold write; rw [hw]; dsimp only; rw [ho]
      unfold writeOrFail
      rw [he]
      refine .lost hu ?_
      rintro ⟨runs, -⟩
      cases runs

theorem control_wrote (open_ : t.manager.state = .connected) (context : String)
    (c : ControlFrame) : Wrote t c.encode (t.control context c) := by
  have hl : (t.log (.sendingControl context c)).rest = t.rest := rest_log t _
  have hw := writeOrFail_wrote (t := t.log (.sendingControl context c)) open_ context c.encode
  unfold control
  generalize (t.log (.sendingControl context c)).writeOrFail context c.encode = p at hw ⊢
  cases hw with
  | done writer manager rest => exact .done writer manager (hl ▸ rest)
  | lost rest down => exact .lost (rest.trans hl) down

/-- Topics are asked for in their order. -/
theorem replay_follows (open_ : t.manager.state = .connected) (topics : List Topic) :
    Follows t (t.writing (topics.map asks)) (t.replay topics) := by
  induction topics generalizing t with
  | nil => exact .still rfl
  | cons topic rest ih =>
    have hw : Wrote t (asks topic) (t.control "replay" ⟨.subscribe, topic⟩) := control_wrote open_ _ _
    unfold replay
    split <;> rename_i u h <;> rw [h] at hw
    · cases hw with
      | done writer manager same =>
        rename_i link
        obtain ⟨said, ⟨hp, hs⟩, hr, hu⟩ := ih (t := u) (manager ▸ open_)
        refine ⟨(link, asks topic) :: said, ⟨?_, ?_⟩, ?_, fun up => ?_⟩
        · exact List.cons_prefix_cons.mpr ⟨rfl, hp⟩
        · intro p hp
          rcases List.mem_cons.mp hp with rfl | hp
          · exact writer
          · exact (congrArg Manager.writer manager).symm.trans (hs p hp)
        · have hm : u.manager.registry = t.manager.registry := congrArg Manager.registry manager
          have hs : u.shared = t.shared := congrArg Rest.shared same
          rw [hr, same]
          unfold writing
          rw [hm, hs]
          simp
        · rw [List.map_cons, hu up]
          rfl
    · cases hw with
      | lost same down => exact .down same down

/-! ## Turns -/

variable [Callback κ σ]

theorem subscribe_follows (handle : Handle) (topic : Topic) (callback : κ) :
    Follows t (t.script (.subscribe handle topic callback)) (t.subscribe handle topic callback) := by
  let m := t.manager
  let u := if m.registry.contains handle then t.log (.duplicateHandle handle topic) else t
  let v := (u.update fun m' => { m' with registry := (m.registry.insert handle topic callback).1 }).log
    (.registered handle topic (m.registry.insert handle topic callback).2 m.state)
  have hu : u.rest = t.rest ∧ u.manager = t.manager := by
    by_cases hc : m.registry.contains handle = true
    · have he : u = t.log (.duplicateHandle handle topic) := if_pos hc
      rw [he]
      exact ⟨rest_log t _, rfl⟩
    · have he : u = t := if_neg hc
      rw [he]
      exact ⟨rfl, rfl⟩
  have hv : v.rest = { t.rest with registry := (m.registry.insert handle topic callback).1 } := by
    rw [← hu.1]
    exact rest_log _ _
  have hm : v.manager = { m with registry := (m.registry.insert handle topic callback).1 } :=
    congrArg (fun m' : Manager κ =>
      { m' with registry := (m.registry.insert handle topic callback).1 }) hu.2
  show Follows t { t.writing (if _ then [asks topic] else []) with
    registry := (m.registry.insert handle topic callback).1 } (if _ then (v.control _ _).1 else v)
  split
  · rename_i hc
    have open_ : v.manager.state = .connected := by
      rw [hm]
      simpa using (Bool.and_eq_true_iff.mp hc).2
    have hw := (control_wrote open_ "subscribe" ⟨.subscribe, topic⟩).follows
    unfold writing at hw
    rw [hm, show v.shared = t.shared from congrArg Rest.shared hv] at hw
    exact hw.after hv
  · exact .silent rfl hv

theorem unsubscribe_follows (handle : Handle) :
    Follows t (t.script (.unsubscribe handle)) (t.unsubscribe handle) := by
  unfold script unsubscribe
  dsimp only
  obtain ⟨registry, removed⟩ := t.manager.registry.remove handle
  cases removed with
  | none => exact .still (rest_log t _)
  | some removed =>
    let v := (t.update fun m => { m with registry }).log
      (.removed handle removed.topic removed.nowEmpty)
    have hv : v.rest = { t.rest with registry } := rest_log _ _
    dsimp only
    split
    · rename_i hc
      have open_ : t.manager.state = .connected := by simpa using (Bool.and_eq_true_iff.mp hc).2
      exact (control_wrote (t := v) open_ "unsubscribe" ⟨.unsubscribe, removed.topic⟩).follows.after hv
    · exact .silent rfl hv

theorem install_follows {generation : UInt64} {link : Nat}
    (current : t.current generation .connecting = true) :
    Follows t (t.script (.opened generation link)) (t.install link) := by
  have hm : (t.settle link).manager.writer = some link ∧
      (t.settle link).manager.registry = t.manager.registry := by
    unfold settle
    simp [start, update]
  have open_ : (t.settle link).manager.state = .connected :=
    congrArg Holding.state (holding_settle t link)
  have hr : (t.settle link).rest = t.rest := rest_settle t link
  have hw := replay_follows open_ t.manager.registry.topics
  unfold writing at hw
  rw [hm.1, hm.2, show (t.settle link).shared = t.shared from congrArg Rest.shared hr] at hw
  unfold script
  dsimp only
  rw [install_eq, if_pos current]
  exact hw.after hr

theorem receive_follows {generation : UInt64} {frame : Frame}
    (current : t.current generation .connected = true) :
    Follows t (t.script (.inbound generation frame)) (t.receive frame) := by
  let u := t.update fun m =>
    { m with heartbeat := (t.manager.heartbeat.inbound t.now frame).1, health := m.health.frame t.now }
  have hu : u.rest = t.rest := rfl
  have open_ : u.manager.state = .connected := ((current_iff _ _).mp current).2
  unfold script receive
  dsimp only
  rw [if_pos current]
  cases frame with
  | text payload => exact .silent rfl (rest_emit _ rfl)
  | binary payload => exact .silent rfl (rest_emit _ rfl)
  | close why => exact .still ((rest_fail u _).trans hu)
  | pong payload =>
    show Follows t (t.writing []) _
    split
    · rename_i h; cases h
    · exact .still rfl
    · exact .still rfl
    · exact .still rfl
  | ping payload =>
    cases ha : t.manager.heartbeat.autoPong with
    | true =>
      have hp : (t.manager.heartbeat.inbound t.now (.ping payload)).2 = .none := by
        unfold Heartbeat.inbound; simp [ha]
      rw [hp]
      exact .still rfl
    | false =>
      have hp : (t.manager.heartbeat.inbound t.now (.ping payload)).2 = .reply (.pong payload) := by
        unfold Heartbeat.inbound; simp [ha]
      rw [hp]
      exact (writeOrFail_wrote open_ "pong" (.pong payload)).follows.after hu

theorem beat_follows {generation : UInt64} (current : t.current generation .connected = true) :
    Follows t (t.script (.tick generation)) t.beat := by
  unfold script beat
  dsimp only
  rw [current]
  cases ho : t.manager.heartbeat.overdue? t.now with
  | some silence => exact .still (rest_fail t _)
  | none =>
    let u := t.update fun m => { m with heartbeat := m.heartbeat.ping t.now }
    have open_ : u.manager.state = .connected := ((current_iff _ _).mp current).2
    exact (writeOrFail_wrote open_ "ping" Heartbeat.pingFrame).follows.after rfl

/-- **A turn follows the script of its message.** -/
theorem handle_follows (message : Message κ) : Follows t (t.script message) (t.handle message) := by
  cases message with
  | connect endpoint observer => exact .still (rest_connect t endpoint observer)
  | disconnect => exact .still (rest_disconnect t)
  | subscribe handle topic callback => exact subscribe_follows handle topic callback
  | unsubscribe handle => exact unsubscribe_follows handle
  | tellState => exact .still (rest_emit t rfl)
  | tellStats => exact .still (rest_emit t rfl)
  | stop => exact .still (rest_halt t)
  | opened generation link =>
    unfold handle
    dsimp only
    split <;> rename_i hc
    · exact install_follows hc
    · unfold script
      dsimp only
      rw [if_neg hc]
      exact .silent rfl (rest_emit t rfl)
  | openFailed generation cause =>
    unfold handle
    dsimp only
    split
    · exact .still (rest_fail _ cause)
    · exact .still rfl
  | inbound generation frame =>
    unfold handle
    dsimp only
    split <;> rename_i hc
    · exact receive_follows hc
    · unfold script
      dsimp only
      rw [if_neg hc]
      exact .still rfl
  | closed generation cause =>
    unfold handle
    dsimp only
    split
    · exact .still (rest_fail t cause)
    · exact .still rfl
  | retry generation =>
    unfold handle
    dsimp only
    split
    · exact .still (rest_beginAttempt _)
    · exact .still rfl
  | tick generation =>
    unfold handle
    dsimp only
    split <;> rename_i hc
    · exact beat_follows hc
    · unfold script
      dsimp only
      rw [Bool.eq_false_iff.mpr hc]
      exact .still rfl

end Following

end Turn

/-! ## Runs -/

namespace World

variable {κ σ : Type} [Callback κ σ] {config : Config} {policy : Nat → Verdict} {autoPong : Bool}
  {shared : σ}

theorem Step.settings {w w' : World κ σ} (step : Step w w') :
    w'.manager.config = w.manager.config ∧ w'.manager.policy = w.manager.policy := by
  rcases step.turn_or_apart with ⟨letter, rest, outcomes, -, -, rfl⟩ | ⟨letters, apart⟩
  · obtain ⟨said, -, hr, -⟩ : (Turn.mk w.manager w.shared w.now outcomes 0 []).Follows _
      (w.handling letter outcomes) := Turn.handle_follows letter.message
    rw [manager_turn]
    exact ⟨congrArg Turn.Rest.config hr, congrArg Turn.Rest.policy hr⟩
  · rw [apart.manager]
    exact ⟨rfl, rfl⟩

theorem settings_of_run {w : World κ σ} (h : Run config policy autoPong shared w) :
    w.manager.config = config ∧ w.manager.policy = policy := by
  induction h with
  | start => exact ⟨rfl, rfl⟩
  | step before step ih =>
    rw [step.settings.1, step.settings.2]
    exact ih

end World

end LiveMetrics
