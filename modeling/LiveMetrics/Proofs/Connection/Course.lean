import LiveMetrics.Proofs.Connection.Ledger

/-!
# The course of a turn

What the handling of one message can do to the state, the writing side, the tasks and the
generation of a manager, and what it tells of failures.

1. Most work is quiet: it leaves all of that alone (`Turn.Quiet`), and when it writes it may end in
   a failure (`Turn.Ends`).
2. `Deal` lists the ways in which a turn can go. The last report of a task, if the manager takes
   it (`Holding.Takes`), never leaves things as they are. `Turn.handle_deal`: every turn goes in one
   of these ways.
3. `Course` is the part of it that concerns what is held.
-/

set_option autoImplicit false

namespace LiveMetrics

namespace Turn

variable {κ σ : Type}

/-! ## Quiet work -/

/-- Work that leaves alone what is held, and tells nothing of failures. -/
structure Quiet (t u : Turn κ σ) : Prop where
  holding : u.holding = t.holding
  policy : u.manager.policy = t.manager.policy
  ledger : u.ledger = t.ledger

/-- Quiet work on an open connection that may end in a failure. -/
inductive Ends (t u : Turn κ σ) : Prop where
  | quiet (h : Quiet t u)
  | fails {v : Turn κ σ} (h : Quiet t v) (up : v.manager.state = .connected)
      (cause : DisconnectCause) (last : u = v.fail cause)

namespace Quiet

theorem refl (t : Turn κ σ) : Quiet t t := ⟨rfl, rfl, rfl⟩

theorem trans {t u v : Turn κ σ} (h : Quiet t u) (h' : Quiet u v) : Quiet t v :=
  ⟨h'.holding.trans h.holding, h'.policy.trans h.policy, h'.ledger.trans h.ledger⟩

theorem state {t u : Turn κ σ} (h : Quiet t u) : u.manager.state = t.manager.state :=
  congrArg Holding.state h.holding

theorem running {t u : Turn κ σ} (h : Quiet t u) (hs : t.manager.phase ≠ .stopped) :
    u.manager.phase ≠ .stopped := by
  have he : (u.manager.phase == .stopped) = (t.manager.phase == .stopped) :=
    congrArg Holding.stopped h.holding
  intro hu
  rw [hu] at he
  exact hs (by simpa using he.symm)

theorem ends {t u v : Turn κ σ} (h : Quiet t u) (h' : Ends u v) : Ends t v := by
  cases h' with
  | quiet h' => exact .quiet (h.trans h')
  | fails h' up cause last => exact .fails (h.trans h') up cause last

theorem of_emit {t : Turn κ σ} {e : Effect} (h : e.mark? = none) (ha : e.answer? = none)
    (hr : e.record? = none) (hf : e.farewell? = none) : Quiet t (t.emit e) :=
  ⟨holding_emit_of_none t h, rfl, ledger_emit t ha hr hf⟩

theorem of_log {t : Turn κ σ} {e : LogEvent} (h : (Effect.log e).mark? = none)
    (ha : (Effect.log e).answer? = none) (hr : (Effect.log e).record? = none) :
    Quiet t (t.log e) :=
  of_emit h ha hr rfl

end Quiet

/-! ## Writing -/

section Writing

variable {t : Turn κ σ}

theorem fail_of_idle {cause : DisconnectCause} (h : t.manager.state.isIdle = true) :
    t.fail cause = t := by
  unfold fail; rw [if_pos h]

theorem fail_ends (up : t.manager.state = .connected) (cause : DisconnectCause) :
    Ends t (t.fail cause) :=
  .fails (.refl t) up cause rfl

theorem write_quiet (h : t.manager.phase ≠ .stopped) (frame : Frame) : Quiet t (t.write frame).1 := by
  unfold write
  split
  · exact .refl t
  · dsimp only
    split
    · exact ⟨holding_emit_of_none { t with writes := t.writes + 1 } rfl, rfl,
        ledger_emit { t with writes := t.writes + 1 } rfl rfl rfl⟩
    · exact ⟨rfl, rfl, rfl⟩
    · refine ⟨?_, rfl, rfl⟩
      have hs : (t.manager.phase == .stopped) = false := by simpa using h
      rw [holding_update]
      show { Turn.holding t with stopped := false } = t.holding
      rw [← hs]
      rfl

/-- A write of a frame succeeds quietly, or it ends the turn. -/
theorem writeOrFail_ends (h : t.manager.phase ≠ .stopped) (up : t.manager.state = .connected)
    (context : String) (frame : Frame) :
    Ends t (t.writeOrFail context frame).1 ∧
      ((t.writeOrFail context frame).2 = true → Quiet t (t.writeOrFail context frame).1) := by
  have hq := write_quiet h frame
  unfold writeOrFail
  split <;> rename_i u _ hw <;> rw [hw] at hq
  · exact ⟨.quiet hq, fun _ => hq⟩
  · exact ⟨hq.ends (fail_ends (hq.state.trans up) _), nofun⟩
  · exact ⟨.quiet hq, fun _ => hq⟩

theorem control_ends (h : t.manager.phase ≠ .stopped) (up : t.manager.state = .connected)
    (context : String) (c : ControlFrame) :
    Ends t (t.control context c).1 ∧
      ((t.control context c).2 = true → Quiet t (t.control context c).1) := by
  have hl : Quiet t (t.log (.sendingControl context c)) := .of_log rfl rfl rfl
  obtain ⟨he, hq⟩ := writeOrFail_ends (t := t.log (.sendingControl context c)) h up context c.encode
  exact ⟨hl.ends he, fun hb => hl.trans (hq hb)⟩

theorem replay_ends (h : t.manager.phase ≠ .stopped) (up : t.manager.state = .connected)
    (topics : List Topic) : Ends t (t.replay topics) := by
  induction topics generalizing t with
  | nil => exact .quiet (.refl t)
  | cons topic rest ih =>
    obtain ⟨he, hq⟩ := control_ends h up "replay" ⟨.subscribe, topic⟩
    unfold replay
    split <;> rename_i u hc <;> rw [hc] at he hq
    · have hu : Quiet t u := hq rfl
      exact hu.ends (ih (hu.running h) (hu.state.trans up))
    · exact he

end Writing

/-! ## The handlers that write -/

section Handlers

variable {t : Turn κ σ}

theorem subscribe_ends (h : t.manager.phase ≠ .stopped) (handle : Handle) (topic : Topic)
    (callback : κ) : Ends t (t.subscribe handle topic callback) := by
  let m := t.manager
  let u := if m.registry.contains handle then t.log (.duplicateHandle handle topic) else t
  let v := (u.update fun m' => { m' with registry := (m.registry.insert handle topic callback).1 }).log
    (.registered handle topic (m.registry.insert handle topic callback).2 m.state)
  have hu : Quiet t u := by
    show Quiet t (if _ then _ else _)
    split
    · exact .of_log rfl rfl rfl
    · exact .refl t
  have hv : Quiet t v := hu.trans ⟨holding_log _ rfl, rfl, ledger_emit _ rfl rfl rfl⟩
  show Ends t (if _ then (v.control _ _).1 else v)
  split
  · rename_i hc
    have up : t.manager.state = .connected := by simpa using (Bool.and_eq_true_iff.mp hc).2
    exact hv.ends (control_ends (hv.running h) (hv.state.trans up) _ _).1
  · exact .quiet hv

theorem unsubscribe_ends (h : t.manager.phase ≠ .stopped) (handle : Handle) :
    Ends t (t.unsubscribe handle) := by
  unfold unsubscribe
  dsimp only
  split
  · exact .quiet (.of_log rfl rfl rfl)
  · rename_i registry removed _
    let v := (t.update fun m => { m with registry }).log
      (.removed handle removed.topic removed.nowEmpty)
    have hv : Quiet t v := ⟨holding_log _ rfl, rfl, ledger_emit _ rfl rfl rfl⟩
    split
    · rename_i hc
      have up : t.manager.state = .connected := by simpa using (Bool.and_eq_true_iff.mp hc).2
      exact hv.ends (control_ends (hv.running h) (hv.state.trans up) _ _).1
    · exact .quiet hv

@[simp] theorem connectedAt_countOutcome (h : Health) (o : Outcome) :
    (countOutcome h o).connectedAt = h.connectedAt := by
  cases o <;> rfl

theorem holding_dispatch [Callback κ σ] (payload : ByteArray) :
    (t.dispatch payload).holding = t.holding := by
  unfold dispatch
  dsimp only
  rw [holding_emit_of_none _ rfl, holding_update]
  simp only [Manager.holding, connectedAt_countOutcome]
  rfl

/-- A frame that is taken either leads to work that ends, or is a data frame. -/
theorem receive_ends [Callback κ σ] (h : t.manager.phase ≠ .stopped)
    (up : t.manager.state = .connected) (frame : Frame) :
    Ends t (t.receive frame) ∨
      ∃ u payload, Quiet t u ∧ t.receive frame = u.dispatch payload := by
  let u := t.update fun m =>
    { m with heartbeat := (t.manager.heartbeat.inbound t.now frame).1, health := m.health.frame t.now }
  have hu : Quiet t u := ⟨rfl, rfl, rfl⟩
  unfold receive
  dsimp only
  split
  · exact .inl (hu.ends (writeOrFail_ends (hu.running h) up _ _).1)
  · exact .inl (.quiet (hu.trans ⟨rfl, rfl, rfl⟩))
  · exact .inl (.quiet hu)
  · cases frame with
    | text payload => exact .inr ⟨u, payload, hu, rfl⟩
    | binary payload => exact .inr ⟨u, payload, hu, rfl⟩
    | close why => exact .inl (hu.ends (fail_ends (hu.state.trans up) _))
    | ping payload => exact .inl (.quiet hu)
    | pong payload => exact .inl (.quiet hu)

theorem beat_ends (h : t.manager.phase ≠ .stopped) (up : t.manager.state = .connected) :
    Ends t t.beat := by
  unfold beat
  split
  · exact fail_ends up _
  · have hu : Quiet t (t.update fun m => { m with heartbeat := m.heartbeat.ping t.now }) :=
      ⟨rfl, rfl, rfl⟩
    exact hu.ends (writeOrFail_ends (hu.running h) up _ _).1

end Handlers

end Turn

/-! ## Deals -/

namespace Message

variable {κ : Type}

def isLast : Message κ → Bool
  | .opened _ _ | .openFailed _ _ | .closed _ _ | .retry _ => true
  | _ => false

def isConnect : Message κ → Bool
  | .connect _ _ => true
  | _ => false

def isDisconnect : Message κ → Bool
  | .disconnect => true
  | _ => false

end Message

/-- Whether a report is of the present generation, in a state that it belongs to; requests always
are. -/
def Holding.Takes {κ : Type} (c : Holding) : Message κ → Prop
  | .opened generation _ | .openFailed generation _ =>
    generation = c.generation ∧ c.state = .connecting
  | .inbound generation _ | .tick generation => generation = c.generation ∧ c.state = .connected
  | .closed generation _ => generation = c.generation ∧ c.state.isIdle = false
  | .retry generation => generation = c.generation ∧ c.state = .reconnecting
  | _ => True

/-- What is held when a failure takes effect: as at the beginning of the turn while a connection is
open or its end is reported, without the attempt when that has failed, and with the new connection
when its topics could not be replayed. -/
inductive Holding.Fails {κ : Type} (c : Holding) : Message κ → Holding → Prop where
  | writing {message : Message κ} (up : c.state = .connected) (steady : message.isLast = false)
      (asks : message.isConnect = false) (stays : message.isDisconnect = false) :
      Fails c message c
  | closed {cause : DisconnectCause} (busy : c.state.isIdle = false) :
      Fails c (.closed c.generation cause) c
  | refused {cause : DisconnectCause} (trying : c.state = .connecting) :
      Fails c (.openFailed c.generation cause) { c with openTask := none }
  | opened {link now : Nat} {interval : Span} (trying : c.state = .connecting) :
      Fails c (.opened c.generation link) (c.settle link now interval)

/-- The ways in which a turn can go that begins with `c` and `l` and handles a message; `limit` is
that of an attempt to connect. -/
inductive Deal {κ : Type} (limit : Span) (policy : Nat → Verdict) (c : Holding) (l : Ledger) :
    Message κ → Holding → Ledger → Prop where
  | stays {message : Message κ} (last : message.isLast = true → ¬ c.Takes message)
      (busy : message.isConnect = true → c.state = .connecting ∨ c.state = .connected)
      (other : message.isDisconnect = false) (reason : Option DropReason) :
      Deal limit policy c l message c (l.drop? reason)
  | fails {message : Message κ} {d : Holding} (failing : c.Fails message d)
      (cause : DisconnectCause) : Deal limit policy c l message (d.fail policy)
        (l.fail cause (policy d.lose.attempt))
  | connects {endpoint : String} {observer : Option Observer}
      (from_ : c.state = .disconnected ∨ c.state = .failed) :
      Deal limit policy c l (.connect endpoint observer)
        ({ c with endpoint := some endpoint, attempt := 0 }.opening endpoint limit) l
  | reconnects {endpoint : String} {observer : Option Observer} (from_ : c.state = .reconnecting) :
      Deal limit policy c l (.connect endpoint observer)
        ({ c.cancelRetry with endpoint := some endpoint, attempt := 0 }.opening endpoint limit) l
  | retries {endpoint : String} (from_ : c.state = .reconnecting) (target : c.endpoint = some endpoint) :
      Deal limit policy c l (.retry c.generation)
        ({ c with retryTask := none }.opening endpoint limit) l
  | installs {link now : Nat} {interval : Span} (from_ : c.state = .connecting) :
      Deal limit policy c l (.opened c.generation link) (c.settle link now interval) l
  | disconnects : Deal limit policy c l .disconnect c.disconnect (l.part c.writer.toList)
  | stops : Deal limit policy c l .stop c.halt l

namespace Turn

variable {κ σ : Type} {t : Turn κ σ}

theorem current_iff (generation : UInt64) (state : ConnectionState) :
    t.current generation state = true ↔
      generation = t.manager.generation ∧ t.manager.state = state := by
  unfold current; simp

section Cases

variable {limit : Span} {message : Message κ}

theorem Quiet.deal {u : Turn κ σ} (h : Quiet t u)
    (last : message.isLast = true → ¬ t.holding.Takes message)
    (busy : message.isConnect = true → t.manager.state = .connecting ∨ t.manager.state = .connected)
    (other : message.isDisconnect = false) :
    Deal limit t.manager.policy t.holding t.ledger message u.holding u.ledger := by
  rw [h.holding, h.ledger]
  exact .stays last busy other none

theorem ignored_deal (last : message.isLast = true → ¬ t.holding.Takes message)
    (asks : message.isConnect = false) (other : message.isDisconnect = false) :
    Deal limit t.manager.policy t.holding t.ledger message t.holding t.ledger :=
  (Quiet.refl t).deal last (fun h => nomatch asks.symm.trans h) other

theorem Ends.deal {u : Turn κ σ} (h : Ends t u) (steady : message.isLast = false)
    (asks : message.isConnect = false) (stays : message.isDisconnect = false) :
    Deal limit t.manager.policy t.holding t.ledger message u.holding u.ledger := by
  cases h with
  | quiet h =>
    exact h.deal (fun hl => nomatch steady.symm.trans hl) (fun hc => nomatch asks.symm.trans hc) stays
  | @fails v h up cause last =>
    have hi : v.manager.state.isIdle = false := by rw [up]; rfl
    rw [last, holding_fail v hi, ledger_fail v hi, h.holding, h.ledger, h.policy]
    exact .fails (.writing (h.state.symm.trans up) steady asks stays) cause

theorem connect_deal (endpoint : String) (observer : Option Observer) :
    Deal t.manager.config.connectTimeout t.manager.policy t.holding t.ledger
      (.connect endpoint observer : Message κ) (t.connect endpoint observer).holding
      (t.connect endpoint observer).ledger := by
  have calm : Quiet t (t.log (.connectIgnored t.manager.state)) := .of_log rfl rfl rfl
  rw [ledger_connect]
  unfold connect
  dsimp only
  split <;> rename_i hs
  · rw [calm.holding]
    exact .stays (by nofun) (fun _ => .inr hs) rfl none
  · rw [calm.holding]
    exact .stays (by nofun) (fun _ => .inl hs) rfl none
  · have hu : (t.cancelRetry.log (.retryingNow t.manager.attempt)).holding = t.holding.cancelRetry :=
      (holding_log _ rfl).trans (holding_cancelRetry t)
    have hc : (t.cancelRetry.log (.retryingNow t.manager.attempt)).manager.config =
        t.manager.config := by
      show (Turn.abort? _ _).manager.config = _
      rw [manager_abort?]
    rw [holding_connectTo, hu, hc]
    exact .reconnects (c := t.holding) hs
  · rw [holding_connectTo]; exact .connects (c := t.holding) (.inl hs)
  · rw [holding_connectTo]; exact .connects (c := t.holding) (.inr hs)

theorem opened_deal (running : t.manager.phase ≠ .stopped) (from_ : t.manager.state = .connecting)
    (link : Nat) :
    Deal limit t.manager.policy t.holding t.ledger (.opened t.manager.generation link : Message κ)
      (t.install link).holding (t.install link).ledger := by
  have hs : (t.settle link).holding = _ := holding_settle t link
  have hm : (t.settle link).manager.policy = t.manager.policy ∧
      (t.settle link).manager.phase = t.manager.phase := by
    unfold settle; simp [start, update]
  have up : (t.settle link).manager.state = .connected := congrArg Holding.state hs
  rw [install_eq]
  cases replay_ends (hm.2 ▸ running) up t.manager.registry.topics with
  | quiet h =>
    rw [h.holding, h.ledger, hs, ledger_settle]
    exact .installs from_
  | @fails v h up cause last =>
    have hi : v.manager.state.isIdle = false := by rw [up]; rfl
    rw [last, holding_fail v hi, ledger_fail v hi, h.holding, h.ledger, h.policy, hs, hm.1,
      ledger_settle]
    exact .fails (.opened from_) cause

theorem inbound_deal [Callback κ σ] (running : t.manager.phase ≠ .stopped)
    (up : t.manager.state = .connected) (generation : UInt64) (frame : Frame) :
    Deal limit t.manager.policy t.holding t.ledger (.inbound generation frame : Message κ)
      (t.receive frame).holding (t.receive frame).ledger := by
  rcases receive_ends running up frame with h | ⟨u, payload, hu, hr⟩
  · exact h.deal rfl rfl rfl
  · obtain ⟨reason, hl⟩ := ledger_dispatch u payload
    rw [hr, holding_dispatch, hl, hu.holding, hu.ledger]
    exact .stays (by nofun) (by nofun) rfl reason

/-- The end of a connection is taken in every state that is not idle. -/
theorem closed_deal [Callback κ σ] (generation : UInt64) (cause : DisconnectCause) :
    Deal limit t.manager.policy t.holding t.ledger (.closed generation cause : Message κ)
      (t.handle (.closed generation cause)).holding
      (t.handle (.closed generation cause)).ledger := by
  unfold handle
  dsimp only
  split <;> rename_i hc
  · obtain rfl : generation = t.manager.generation := by simpa using hc
    cases hi : t.manager.state.isIdle with
    | true =>
      rw [fail_of_idle hi]
      exact ignored_deal (fun _ ht => Bool.noConfusion (hi.symm.trans ht.2)) rfl rfl
    | false =>
      rw [holding_fail _ hi, ledger_fail _ hi]
      exact .fails (.closed hi) cause
  · refine ignored_deal (fun _ ht => hc ?_) rfl rfl
    simpa using ht.1

theorem retry_deal [Callback κ σ]
    (target : t.manager.state = .reconnecting → t.manager.endpoint.isSome = true)
    (generation : UInt64) :
    Deal t.manager.config.connectTimeout t.manager.policy t.holding t.ledger
      (.retry generation : Message κ) (t.handle (.retry generation)).holding
      (t.handle (.retry generation)).ledger := by
  unfold handle
  dsimp only
  split <;> rename_i hc
  · obtain ⟨rfl, hs⟩ := (current_iff _ _).mp hc
    obtain ⟨endpoint, he⟩ := Option.isSome_iff_exists.mp (target hs)
    let u := t.update fun m => { m with retryTask := none }
    rw [show u.beginAttempt.holding = _ from holding_beginAttempt u he,
      show u.beginAttempt.ledger = t.ledger from ledger_beginAttempt u]
    exact .retries hs he
  · exact ignored_deal (fun _ ht => hc ((current_iff _ _).mpr ht)) rfl rfl

end Cases

/-- **How a turn goes.** -/
theorem handle_deal [Callback κ σ] (running : t.manager.phase ≠ .stopped)
    (target : t.manager.state = .reconnecting → t.manager.endpoint.isSome = true)
    (message : Message κ) :
    Deal t.manager.config.connectTimeout t.manager.policy t.holding t.ledger message
      (t.handle message).holding (t.handle message).ledger := by
  cases message with
  | connect endpoint observer => exact connect_deal endpoint observer
  | disconnect =>
    rw [show (t.handle .disconnect).holding = _ from holding_disconnect t,
      show (t.handle .disconnect).ledger = _ from ledger_disconnect t]
    exact .disconnects
  | subscribe handle topic callback =>
    exact (subscribe_ends running handle topic callback).deal rfl rfl rfl
  | unsubscribe handle => exact (unsubscribe_ends running handle).deal rfl rfl rfl
  | tellState => exact (Ends.quiet (.of_emit rfl rfl rfl rfl)).deal rfl rfl rfl
  | tellStats => exact (Ends.quiet (.of_emit rfl rfl rfl rfl)).deal rfl rfl rfl
  | stop =>
    rw [show (t.handle .stop).holding = _ from holding_halt t,
      show (t.handle .stop).ledger = _ from ledger_halt t]
    exact .stops
  | opened generation link =>
    unfold handle
    dsimp only
    split <;> rename_i hc
    · obtain ⟨rfl, hs⟩ := (current_iff _ _).mp hc
      exact opened_deal running hs link
    · exact (Quiet.of_emit rfl rfl rfl rfl).deal (fun _ ht => hc ((current_iff _ _).mpr ht))
        (fun h => nomatch h) rfl
  | openFailed generation cause =>
    unfold handle
    dsimp only
    split <;> rename_i hc
    · obtain ⟨rfl, hs⟩ := (current_iff _ _).mp hc
      have hi : (t.update fun m => { m with openTask := none }).manager.state.isIdle = false := by
        show t.manager.state.isIdle = false
        rw [hs]; rfl
      rw [holding_fail _ hi, ledger_fail _ hi]
      exact .fails (.refused hs) cause
    · exact ignored_deal (fun _ ht => hc ((current_iff _ _).mpr ht)) rfl rfl
  | inbound generation frame =>
    unfold handle
    dsimp only
    split <;> rename_i hc
    · exact inbound_deal running ((current_iff _ _).mp hc).2 generation frame
    · exact ignored_deal (fun h => nomatch h) rfl rfl
  | closed generation cause => exact closed_deal generation cause
  | retry generation => exact retry_deal target generation
  | tick generation =>
    unfold handle
    dsimp only
    split <;> rename_i hc
    · exact (beat_ends running ((current_iff _ _).mp hc).2).deal rfl rfl rfl
    · exact ignored_deal (fun h => nomatch h) rfl rfl

end Turn

/-! ## Courses -/

/-- The ways in which a turn can go that begins with `c` and handles a message; `limit` is that of
an attempt to connect. -/
inductive Course {κ : Type} (limit : Span) (policy : Nat → Verdict) (c : Holding) :
    Message κ → Holding → Prop where
  | steady {message : Message κ} (last : message.isLast = true → ¬ c.Takes message)
      (other : message ≠ .disconnect) : Course limit policy c message c
  | fails {message : Message κ}
      (from_ : c.state = .connected ∨
        ∃ cause, message = .closed c.generation cause ∧ c.state.isIdle = false) :
      Course limit policy c message (c.fail policy)
  | refused {cause : DisconnectCause} (from_ : c.state = .connecting) :
      Course limit policy c (.openFailed c.generation cause)
        ({ c with openTask := none }.fail policy)
  | connects {endpoint : String} {observer : Option Observer}
      (from_ : c.state = .disconnected ∨ c.state = .failed) :
      Course limit policy c (.connect endpoint observer)
        ({ c with endpoint := some endpoint, attempt := 0 }.opening endpoint limit)
  | reconnects {endpoint : String} {observer : Option Observer} (from_ : c.state = .reconnecting) :
      Course limit policy c (.connect endpoint observer)
        ({ c.cancelRetry with endpoint := some endpoint, attempt := 0 }.opening endpoint limit)
  | retries {endpoint : String} (from_ : c.state = .reconnecting) (target : c.endpoint = some endpoint) :
      Course limit policy c (.retry c.generation)
        ({ c with retryTask := none }.opening endpoint limit)
  | installs {link now : Nat} {interval : Span} (from_ : c.state = .connecting) :
      Course limit policy c (.opened c.generation link) (c.settle link now interval)
  | installsFails {link now : Nat} {interval : Span} (from_ : c.state = .connecting) :
      Course limit policy c (.opened c.generation link)
        ((c.settle link now interval).fail policy)
  | disconnects : Course limit policy c .disconnect c.disconnect
  | stops : Course limit policy c .stop c.halt

theorem Deal.course {κ : Type} {limit : Span} {policy : Nat → Verdict} {c d : Holding}
    {l l' : Ledger} {message : Message κ} (h : Deal limit policy c l message d l') :
    Course limit policy c message d := by
  cases h with
  | stays last _ other _ => exact .steady last (fun h => by rw [h] at other; cases other)
  | fails failing _ =>
    cases failing with
    | writing up => exact .fails (.inl up)
    | closed busy => exact .fails (.inr ⟨_, rfl, busy⟩)
    | refused trying => exact .refused trying
    | opened trying => exact .installsFails trying
  | connects from_ => exact .connects from_
  | reconnects from_ => exact .reconnects from_
  | retries from_ target => exact .retries from_ target
  | installs from_ => exact .installs from_
  | disconnects => exact .disconnects
  | stops => exact .stops

theorem Turn.handle_course {κ σ : Type} [Callback κ σ] {t : Turn κ σ}
    (running : t.manager.phase ≠ .stopped)
    (target : t.manager.state = .reconnecting → t.manager.endpoint.isSome = true)
    (message : Message κ) :
    Course t.manager.config.connectTimeout t.manager.policy t.holding message
      (t.handle message).holding :=
  (handle_deal running target message).course

end LiveMetrics
