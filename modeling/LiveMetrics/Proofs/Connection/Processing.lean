import LiveMetrics.Proofs.Connection.Blaming
import LiveMetrics.Proofs.Connection.Noting
import LiveMetrics.Proofs.Connection.Serving
import LiveMetrics.Proofs.Subscription.Dispatching

/-!
# What becomes of a frame that is taken

An entry that takes a frame counts it and notes the sign of life. The rest depends on the frame: data
are dispatched, a ping is answered, and a close frame ends the connection (`Handled.Processes`).

What is dispatched starts from the registry before the turn and from what the callbacks share then, and
what the calls leave of both is what the turn leaves (`Registry.Dispatches`). `processes_handled` says
this of one turn, `Turned.processes` of any entry of a run. An entry that takes no frame counts none and
calls nobody (`Handled.Leaves`).
-/

set_option autoImplicit false

namespace LiveMetrics

namespace World

variable {κ σ : Type}

namespace Handled

def calls (r : Handled κ) : List Invocation := r.outcomes.flatMap Outcome.calls

/-- What becomes of a frame that an entry takes; `shared` and `shared'` are what the callbacks share
before and after it. -/
structure Processes [Callback κ σ] (r : Handled κ) (frame : Frame) (shared shared' : σ) : Prop where
  counted : r.after.health.framesReceived = Health.raise r.before.health.framesReceived 1
  heard : r.after.heartbeat.lastInbound = r.now
  /-- Data are dispatched, once. -/
  dispatched : ∀ payload, frame.payload? = some payload → ∃ calls outcome, r.outcomes = [outcome] ∧
    Registry.Dispatches r.before.config.buffers.maxMessage payload (r.now / nanosPerMilli)
      r.before.registry shared calls r.after.registry shared' outcome
  /-- Nobody is called for any other frame. -/
  silent : frame.payload? = none →
    r.outcomes = [] ∧ r.after.registry = r.before.registry ∧ shared' = shared
  /-- A ping is answered, unless the connection does so itself. -/
  answered : ∀ payload, frame = .ping payload → r.before.heartbeat.autoPong = false → r.after.Up →
    ∃ link, r.before.writer = some link ∧ r.written = [(link, .pong payload)]
  ended : ∀ why, frame = .close why → r.GivesUp (Turn.remoteClose why)

/-- What an entry that takes no frame leaves alone; `shared` and `shared'` are what the callbacks share
before and after it. -/
structure Leaves (r : Handled κ) (shared shared' : σ) : Prop where
  uncounted : r.after.health.framesReceived = r.before.health.framesReceived
  silent : r.outcomes = [] ∧ shared' = shared
  /-- A frame that comes too late leaves no trace. -/
  late : ∀ g frame, r.letter.message = .inbound g frame → r.after = r.before ∧ r.effects = []

end Handled

variable [Callback κ σ] {w : World κ σ} {letter : Letter κ} {outcomes : Nat → Nat → WriteOutcome}
  {frame : Frame}

/-- A turn that ends with a failure gives the connection up for its cause. -/
theorem gives_of_fail (room : 0 < w.manager.health.recentErrors.capacity) {u : Turn κ σ}
    (told : u.ledger = (w.beginning outcomes).ledger) (busy : u.manager.state.isIdle = false)
    {cause : DisconnectCause} (ends : w.handling letter outcomes = u.fail cause) :
    (w.handled letter outcomes).GivesUp cause := by
  have ledger : (w.handled letter outcomes).ledger = (u.fail cause).ledger := ends ▸ rfl
  rw [u.ledger_fail busy, told] at ledger
  refine ⟨fun none_ => ?_, ?_⟩
  · have answers := congrArg Ledger.answers ledger
    rw [Ledger.answers_fail, show Ledger.answers _ = [] from none_] at answers
    exact nomatch (List.append_eq_nil_iff.mp answers.symm).2
  · have errors : (w.handled letter outcomes).after.health.recentErrors = _ :=
      congrArg Ledger.errors ledger
    rw [errors, Ledger.errors_fail]
    exact Window.latest?_push room _

section Taking

variable (takes : (w.handled letter outcomes).takes? = some frame)
include takes

theorem current_of_takes : letter.message = .inbound w.manager.generation frame ∧
    (w.beginning outcomes).current w.manager.generation .connected = true := by
  obtain ⟨asked, state⟩ := Handled.takes?_eq_some.mp takes
  exact ⟨asked, (Turn.current_iff _ _).mpr ⟨rfl, state⟩⟩

theorem handling_receive : w.handling letter outcomes = (w.beginning outcomes).receive frame := by
  obtain ⟨asked, current⟩ := current_of_takes takes
  unfold handling
  rw [asked]
  exact if_pos current

theorem script_of_takes : w.script letter outcomes =
    (w.beginning outcomes).script (.inbound w.manager.generation frame) :=
  congrArg (w.beginning outcomes).script (current_of_takes takes).1

theorem script_of_data {payload : ByteArray} (brings : frame.payload? = some payload) :
    (w.script letter outcomes).registry = (w.manager.registry.dispatch
        w.manager.config.buffers.maxMessage payload (w.now / nanosPerMilli) w.shared).1 ∧
      (w.script letter outcomes).shared = (w.manager.registry.dispatch
        w.manager.config.buffers.maxMessage payload (w.now / nanosPerMilli) w.shared).2.1 := by
  rw [script_of_takes takes]
  unfold Turn.script
  dsimp only
  rw [if_pos (current_of_takes takes).2, brings]
  exact ⟨rfl, rfl⟩

/-- The script of a turn that takes another frame: it writes at most. -/
theorem script_of_other (other : frame.payload? = none) : w.script letter outcomes =
    (w.beginning outcomes).writing (match (w.manager.heartbeat.inbound w.now frame).2 with
      | .reply pong => [pong]
      | _ => []) := by
  rw [script_of_takes takes]
  unfold Turn.script
  dsimp only
  rw [if_pos (current_of_takes takes).2, other]
  show _ = (w.beginning outcomes).writing (match ((w.beginning outcomes).manager.heartbeat.inbound
    (w.beginning outcomes).now frame).2 with
      | .reply pong => [pong]
      | _ => [])
  cases ((w.beginning outcomes).manager.heartbeat.inbound (w.beginning outcomes).now frame).2 <;> rfl

theorem counted_of_takes : (w.handled letter outcomes).after.health.framesReceived =
    Health.raise w.manager.health.framesReceived 1 := by
  have counts := (health_handled w letter outcomes).count .frames
  rw [takes] at counts
  exact counts.trans ((w.beginning outcomes).frames_noting frame)

theorem heard_of_takes : (w.handled letter outcomes).after.heartbeat.lastInbound = w.now := by
  have closed : (w.handled letter outcomes).opens = false := by
    refine Bool.eq_false_iff.mpr fun opens => ?_
    obtain ⟨-, -, dialling⟩ := Handled.opens_iff.mp opens
    exact nomatch (Handled.takes?_eq_some.mp takes).2.symm.trans dialling
  rw [heartbeat_handled, closed, takes]
  show (w.manager.heartbeat.inbound w.now frame).1.lastInbound = w.now
  cases frame <;> rfl

/-- Data are dispatched to the callbacks that the registry holds. -/
theorem dispatched_of_takes (coherent : w.manager.registry.Coherent) {payload : ByteArray}
    (brings : frame.payload? = some payload) : ∃ calls outcome,
    (w.handled letter outcomes).outcomes = [outcome] ∧
    Registry.Dispatches w.manager.config.buffers.maxMessage payload (w.now / nanosPerMilli)
      w.manager.registry w.shared calls (w.handling letter outcomes).manager.registry
      (w.handling letter outcomes).shared outcome := by
  obtain ⟨said, wrote⟩ := w.turn_wrote letter outcomes
  obtain ⟨registry, shared⟩ := script_of_data takes brings
  refine ⟨w.manager.registry.calls w.manager.config.buffers.maxMessage payload
    (w.now / nanosPerMilli) w.shared, (w.beginning outcomes).outcome payload, ?_, ?_⟩
  · rw [outcomes_handled, takes, Option.bind_some, brings]
    rfl
  · rw [wrote.registry, registry, wrote.shared, shared]
    exact coherent.dispatches _ _ _ _

theorem silent_of_takes (other : frame.payload? = none) :
    (w.handled letter outcomes).outcomes = [] ∧
      (w.handling letter outcomes).manager.registry = w.manager.registry ∧
      (w.handling letter outcomes).shared = w.shared := by
  obtain ⟨said, wrote⟩ := w.turn_wrote letter outcomes
  have script := script_of_other takes other
  refine ⟨?_, ?_, ?_⟩
  · rw [outcomes_handled, takes, Option.bind_some, other]
    rfl
  · rw [wrote.registry, script]
    rfl
  · rw [wrote.shared, script]
    rfl

/-- The pong of a ping is all that is written. -/
theorem answered_of_takes {payload : ByteArray} (asks : frame = .ping payload)
    (own : w.manager.heartbeat.autoPong = false) (up : (w.handled letter outcomes).after.Up) :
    ∃ link, w.manager.writer = some link ∧
      (w.handled letter outcomes).written = [(link, .pong payload)] := by
  subst asks
  obtain ⟨said, wrote⟩ := w.turn_wrote letter outcomes
  have script : w.script letter outcomes = (w.beginning outcomes).writing [.pong payload] := by
    rw [script_of_other takes rfl]
    unfold Heartbeat.inbound
    dsimp only
    rw [own]
    rfl
  have frames := wrote.all up
  rw [script] at frames
  obtain ⟨⟨link, pong⟩, rfl, rfl⟩ := List.map_eq_singleton_iff.mp frames
  have target := wrote.link _ List.mem_cons_self
  rw [script] at target
  exact ⟨link, target, wrote.effects⟩

theorem ended_of_takes (room : 0 < w.manager.health.recentErrors.capacity)
    {why : Option CloseReason} (closes : frame = .close why) :
    (w.handled letter outcomes).GivesUp (Turn.remoteClose why) := by
  subst closes
  have busy : w.manager.state.isIdle = false :=
    congrArg ConnectionState.isIdle (Handled.takes?_eq_some.mp takes).2
  let u := (w.beginning outcomes).update fun m =>
    { m with
      heartbeat := (w.manager.heartbeat.inbound w.now (.close why)).1
      health := m.health.frame w.now }
  have told : u.ledger = (w.beginning outcomes).ledger := rfl
  exact gives_of_fail room told busy (handling_receive takes)

/-- **What becomes of a frame** that a turn takes. -/
theorem processes_handled (coherent : w.manager.registry.Coherent)
    (room : 0 < w.manager.health.recentErrors.capacity) :
    (w.handled letter outcomes).Processes frame w.shared (w.handling letter outcomes).shared where
  counted := counted_of_takes takes
  heard := heard_of_takes takes
  dispatched _ brings := dispatched_of_takes takes coherent brings
  silent other := silent_of_takes takes other
  answered _ asks own up := answered_of_takes takes asks own up
  ended _ closes := ended_of_takes takes room closes

end Taking

section Leaving

variable (left : (w.handled letter outcomes).takes? = none)
include left

theorem silent_of_left :
    (w.handled letter outcomes).outcomes = [] ∧ (w.handling letter outcomes).shared = w.shared := by
  obtain ⟨said, wrote⟩ := w.turn_wrote letter outcomes
  refine ⟨by rw [outcomes_handled, left]; rfl, wrote.shared.trans ?_⟩
  cases (w.beginning outcomes).script_revises letter.message with
  | edits registry shared => exact shared
  | dispatches asked current =>
    obtain ⟨rfl, state⟩ := (Turn.current_iff _ _).mp current
    exact nomatch left.symm.trans (Handled.takes?_eq_some.mpr ⟨asked, state⟩)

theorem ignored_of_left {g : UInt64} (asked : letter.message = .inbound g frame) :
    (w.handled letter outcomes).after = w.manager ∧ (w.handled letter outcomes).effects = [] := by
  have stale : ¬ (w.beginning outcomes).current g .connected = true := by
    intro current
    obtain ⟨rfl, state⟩ := (Turn.current_iff _ _).mp current
    exact nomatch left.symm.trans (Handled.takes?_eq_some.mpr ⟨asked, state⟩)
  have same : w.handling letter outcomes = w.beginning outcomes := by
    unfold handling
    rw [asked]
    exact if_neg stale
  exact ⟨congrArg Turn.manager same, congrArg Turn.effects same⟩

/-- **What a turn leaves alone** that takes no frame. -/
theorem leaves_handled :
    (w.handled letter outcomes).Leaves w.shared (w.handling letter outcomes).shared where
  uncounted := by
    have counts := (health_handled w letter outcomes).count .frames
    rw [left] at counts
    exact counts
  silent := silent_of_left left
  late _ _ asked := ignored_of_left left asked

end Leaving

section Runs

variable {config : Config} {policy : Nat → Verdict} {autoPong : Bool} {shared : σ}
  {w₀ w₁ : World κ σ} {past : List (Handled κ)} {r : Handled κ}

theorem Turned.leaves (turned : Turned w₀ w₁ w past r) (left : r.takes? = none) :
    r.Leaves w₀.shared w₁.shared := by
  obtain ⟨rest, outcomes, -, -, entry, rfl⟩ := turned.turn
  rw [shared_turn]
  generalize r.letter = letter at entry ⊢
  subst entry
  exact leaves_handled left

/-- **What becomes of a frame** that an entry of a run takes. -/
theorem Turned.processes (turned : Turned w₀ w₁ w past r)
    (run : Run config policy autoPong shared w₀) (takes : r.takes? = some frame) :
    r.Processes frame w₀.shared w₁.shared := by
  obtain ⟨rest, outcomes, -, -, entry, rfl⟩ := turned.turn
  have room : 0 < w₀.manager.health.recentErrors.capacity := by rw [room_of_run run]; decide
  rw [shared_turn]
  generalize r.letter = letter at entry ⊢
  subst entry
  exact processes_handled takes (serves_of_run run).coherent room

end Runs

end World

end LiveMetrics
