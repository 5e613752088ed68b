import LiveMetrics.Proofs.Connection.History
import LiveMetrics.Proofs.Window

/-!
# What a connection is given up for

A turn that gives the connection or the attempt up notes why (`Handled.GivesUp`). Which causes there
can be depends on the message (`Turn.Blames`): a report of the end brings its cause along, a close
frame and a silent peer have their own, and in every other turn it was a write that failed.

`Began.blames` reads the cause of an entry off its message. Reports tell only of what can happen to
their tasks (`Message.Honest`), so each cause has one way to come about.
-/

set_option autoImplicit false

namespace LiveMetrics

/-! ## Causes -/

namespace Turn

variable {κ σ : Type}

def IsWriteFailure (cause : DisconnectCause) : Prop :=
  ∃ context error, cause = .writeFailure context error

/-- The causes for which a turn can give the connection up that handles a message. -/
inductive Blames (t : Turn κ σ) : Message κ → DisconnectCause → Prop where
  | writing {message : Message κ} (context error : String) :
      Blames t message (.writeFailure context error)
  | refused (generation : UInt64) (cause : DisconnectCause) :
      Blames t (.openFailed generation cause) cause
  | closed (generation : UInt64) (cause : DisconnectCause) : Blames t (.closed generation cause) cause
  | left {generation : UInt64} (current : t.current generation .connected = true)
      (why : Option CloseReason) : Blames t (.inbound generation (.close why)) (remoteClose why)
  | silent {generation : UInt64} {silence : Span}
      (current : t.current generation .connected = true)
      (overdue : t.manager.heartbeat.overdue? t.now = some silence) :
      Blames t (.tick generation) (.heartbeatTimeout silence)

/-- No failure has been noted, or one whose cause is of a kind. -/
inductive Faults (P : DisconnectCause → Prop) (t u : Turn κ σ) : Prop where
  | none (answers : u.ledger.answers = t.ledger.answers)
      (capacity : u.ledger.errors.capacity = t.ledger.errors.capacity)
  | once {cause : DisconnectCause} (blame : P cause) {v : Verdict}
      (answers : u.ledger.answers = t.ledger.answers ++ [v])
      (errors : u.ledger.errors = (t.ledger.errors.push cause.record).1)

namespace Faults

variable {P Q : DisconnectCause → Prop} {t u v : Turn κ σ}

theorem of_ledger (h : u.ledger = t.ledger) : Faults P t u := by
  refine .none ?_ ?_ <;> rw [h]

theorem mono (h : Faults P t u) (sub : ∀ cause, P cause → Q cause) : Faults Q t u := by
  cases h with
  | none answers capacity => exact .none answers capacity
  | once blame answers errors => exact .once (sub _ blame) answers errors

theorem after (h : Faults P v u) (same : v.ledger = t.ledger) : Faults P t u := by
  cases h with
  | none answers capacity => exact .none (same ▸ answers) (same ▸ capacity)
  | once blame answers errors => exact .once blame (same ▸ answers) (same ▸ errors)

theorem capacity (h : Faults P t u) : u.ledger.errors.capacity = t.ledger.errors.capacity := by
  cases h with
  | none answers capacity => exact capacity
  | once blame answers errors => rw [errors, Window.capacity_push]

end Faults

section Operations

variable (t : Turn κ σ)

theorem faults_fail (cause : DisconnectCause) : Faults (· = cause) t (t.fail cause) := by
  cases idle : t.manager.state.isIdle with
  | true => exact .of_ledger (by rw [fail_of_idle idle])
  | false =>
    have told : (t.fail cause).ledger = _ := ledger_fail t idle
    exact .once rfl ((congrArg Ledger.answers told).trans (Ledger.answers_fail ..))
      ((congrArg Ledger.errors told).trans (Ledger.errors_fail ..))

theorem ledger_write (frame : Frame) : (t.write frame).1.ledger = t.ledger := by
  unfold write
  split
  · rfl
  · dsimp only
    split
    · exact ledger_emit { t with writes := t.writes + 1 } rfl rfl rfl
    · rfl
    · rfl

/-- A write that succeeds leaves the ledger alone, another one is noted at most. -/
theorem faults_writeOrFail (context : String) (frame : Frame) :
    Faults IsWriteFailure t (t.writeOrFail context frame).1 ∧
      ((t.writeOrFail context frame).2 = true →
        (t.writeOrFail context frame).1.ledger = t.ledger) := by
  have hw := t.ledger_write frame
  unfold writeOrFail
  split <;> rename_i u _ he <;> rw [he] at hw
  · exact ⟨.of_ledger hw, fun _ => hw⟩
  · refine ⟨((faults_fail u _).mono ?_).after hw, nofun⟩
    rintro cause rfl
    exact ⟨_, _, rfl⟩
  · exact ⟨.of_ledger hw, nofun⟩

theorem faults_control (context : String) (c : ControlFrame) :
    Faults IsWriteFailure t (t.control context c).1 ∧
      ((t.control context c).2 = true → (t.control context c).1.ledger = t.ledger) := by
  have hl : (t.log (.sendingControl context c)).ledger = t.ledger := ledger_emit t rfl rfl rfl
  obtain ⟨hf, hs⟩ := faults_writeOrFail (t.log (.sendingControl context c)) context c.encode
  exact ⟨hf.after hl, fun h => (hs h).trans hl⟩

theorem faults_replay (topics : List Topic) : Faults IsWriteFailure t (t.replay topics) := by
  induction topics generalizing t with
  | nil => exact .of_ledger rfl
  | cons topic rest ih =>
    obtain ⟨hf, hs⟩ := t.faults_control "replay" ⟨.subscribe, topic⟩
    unfold replay
    split <;> rename_i u he <;> rw [he] at hf hs
    · exact (ih u).after (hs rfl)
    · exact hf

theorem faults_subscribe (handle : Handle) (topic : Topic) (callback : κ) :
    Faults IsWriteFailure t (t.subscribe handle topic callback) := by
  let m := t.manager
  let u := if m.registry.contains handle then t.log (.duplicateHandle handle topic) else t
  let v := (u.update fun m' => { m' with registry := (m.registry.insert handle topic callback).1 }).log
    (.registered handle topic (m.registry.insert handle topic callback).2 m.state)
  have hu : u.ledger = t.ledger := by
    show (if _ then _ else _ : Turn κ σ).ledger = _
    split
    · exact ledger_emit t rfl rfl rfl
    · rfl
  have hv : v.ledger = t.ledger := (ledger_emit _ rfl rfl rfl).trans hu
  show Faults _ t (if _ then (v.control _ _).1 else v)
  split
  · exact (v.faults_control _ _).1.after hv
  · exact .of_ledger hv

theorem faults_unsubscribe (handle : Handle) : Faults IsWriteFailure t (t.unsubscribe handle) := by
  unfold unsubscribe
  dsimp only
  split
  · exact .of_ledger (ledger_emit t rfl rfl rfl)
  · rename_i registry removed _
    let v := (t.update fun m => { m with registry }).log
      (.removed handle removed.topic removed.nowEmpty)
    have hv : v.ledger = t.ledger := ledger_emit _ rfl rfl rfl
    split
    · exact (v.faults_control _ _).1.after hv
    · exact .of_ledger hv

theorem faults_install (link : Nat) : Faults IsWriteFailure t (t.install link) := by
  rw [install_eq]
  exact (faults_replay _ _).after (t.ledger_settle link)

theorem faults_dispatch [Callback κ σ] {P : DisconnectCause → Prop} (payload : ByteArray) :
    Faults P t (t.dispatch payload) := by
  obtain ⟨reason, hr⟩ := t.ledger_dispatch payload
  refine .none ?_ ?_
  · rw [hr, Ledger.answers_drop?]
  · rw [hr]
    cases reason with
    | none => rfl
    | some reason => exact Window.capacity_push _ _

theorem faults_receive [Callback κ σ] {generation : UInt64} {frame : Frame}
    (current : t.current generation .connected = true) :
    Faults (t.Blames (.inbound generation frame)) t (t.receive frame) := by
  let u := t.update fun m =>
    { m with heartbeat := (t.manager.heartbeat.inbound t.now frame).1, health := m.health.frame t.now }
  have hu : u.ledger = t.ledger := rfl
  have written : ∀ cause, IsWriteFailure cause → t.Blames (.inbound generation frame) cause := by
    rintro cause ⟨context, error, rfl⟩
    exact .writing context error
  unfold receive
  dsimp only
  split
  · exact ((faults_writeOrFail u _ _).1.mono written).after hu
  · exact .of_ledger hu
  · exact .of_ledger hu
  · cases frame with
    | text payload => exact (u.faults_dispatch payload).after hu
    | binary payload => exact (u.faults_dispatch payload).after hu
    | close why =>
      refine ((u.faults_fail (remoteClose why)).mono ?_).after hu
      rintro cause rfl
      exact .left current why
    | ping payload => exact .of_ledger hu
    | pong payload => exact .of_ledger hu

theorem faults_beat {generation : UInt64} (current : t.current generation .connected = true) :
    Faults (t.Blames (.tick generation)) t t.beat := by
  unfold beat
  split
  · rename_i silence overdue
    refine (t.faults_fail _).mono ?_
    rintro cause rfl
    exact .silent current overdue
  · let u := t.update fun m => { m with heartbeat := m.heartbeat.ping t.now }
    refine ((faults_writeOrFail u _ _).1.mono ?_).after rfl
    rintro cause ⟨context, error, rfl⟩
    exact .writing context error

end Operations

/-- **Why a turn gives the connection up** follows from its message. -/
theorem handle_faults [Callback κ σ] (t : Turn κ σ) (message : Message κ) :
    Faults (t.Blames message) t (t.handle message) := by
  have written : ∀ cause, IsWriteFailure cause → t.Blames message cause := by
    rintro cause ⟨context, error, rfl⟩
    exact .writing context error
  cases message with
  | connect endpoint observer => exact .of_ledger (t.ledger_connect endpoint observer)
  | disconnect =>
    refine .none ?_ ?_ <;> rw [show (t.handle .disconnect).ledger = _ from t.ledger_disconnect] <;> rfl
  | subscribe handle topic callback => exact (t.faults_subscribe handle topic callback).mono written
  | unsubscribe handle => exact (t.faults_unsubscribe handle).mono written
  | tellState => exact .of_ledger (ledger_emit t rfl rfl rfl)
  | tellStats => exact .of_ledger (ledger_emit t rfl rfl rfl)
  | stop => exact .of_ledger t.ledger_halt
  | opened generation link =>
    unfold handle
    dsimp only
    split
    · exact (t.faults_install link).mono written
    · exact .of_ledger (ledger_emit t rfl rfl rfl)
  | openFailed generation cause =>
    unfold handle
    dsimp only
    split
    · refine ((faults_fail _ cause).mono ?_).after rfl
      rintro cause rfl
      exact .refused generation cause
    · exact .of_ledger rfl
  | inbound generation frame =>
    unfold handle
    dsimp only
    split <;> rename_i current
    · exact t.faults_receive current
    · exact .of_ledger rfl
  | closed generation cause =>
    unfold handle
    dsimp only
    split
    · refine (t.faults_fail cause).mono ?_
      rintro cause rfl
      exact .closed generation cause
    · exact .of_ledger rfl
  | retry generation =>
    unfold handle
    dsimp only
    split
    · exact .of_ledger (ledger_beginAttempt _)
    · exact .of_ledger rfl
  | tick generation =>
    unfold handle
    dsimp only
    split <;> rename_i current
    · exact t.faults_beat current
    · exact .of_ledger rfl

end Turn

/-! ## Reports -/

/-- A report of the end tells of something that can happen to the task that sends it. -/
inductive Message.Honest {κ : Type} : Message κ → Prop where
  | refused (generation : UInt64) (error : String) : Honest (.openFailed generation (.openFailed error))
  | expired (generation : UInt64) (limit : Span) : Honest (.openFailed generation (.openTimeout limit))
  | broken (generation : UInt64) (error : String) : Honest (.closed generation (.readFailure error))
  | ended (generation : UInt64) : Honest (.closed generation .streamEnded)
  | other {message : Message κ} (refused : ∀ g cause, message ≠ .openFailed g cause)
      (closed : ∀ g cause, message ≠ .closed g cause) : Honest message

theorem Message.honest_of_request {κ : Type} {message : Message κ} (request : message.isRequest = true) :
    message.Honest := by
  cases message with
  | openFailed g cause => cases request
  | closed g cause => cases request
  | _ => exact .other nofun nofun

namespace World

variable {κ σ : Type}

theorem honest_post {w : World κ σ} (honest : ∀ letter ∈ w.mailbox, letter.message.Honest)
    {sender : Option Nat} {message : Message κ} (new : message.Honest) :
    ∀ letter ∈ (w.post sender message).mailbox, letter.message.Honest := by
  unfold post
  split
  · exact honest
  · intro letter hl
    rcases List.mem_append.mp hl with hl | hl
    · exact honest letter hl
    · rw [List.mem_singleton.mp hl]
      exact new

variable [Callback κ σ] {config : Config} {policy : Nat → Verdict} {autoPong : Bool} {shared : σ}

theorem honest_of_run {w : World κ σ} (run : Run config policy autoPong shared w) :
    ∀ letter ∈ w.mailbox, letter.message.Honest := by
  induction run with
  | start => exact List.forall_mem_nil _
  | step before step ih =>
    rename_i w w'
    cases step with
    | turns runs next outcomes =>
      rw [mailbox_turn]
      split
      · exact List.forall_mem_nil _
      · exact fun letter hl => ih letter (next ▸ List.mem_cons_of_mem _ hl)
    | asks request => exact honest_post ih (Message.honest_of_request request)
    | opens runs => exact honest_post (w := w.joined) ih (.other nofun nofun)
    | refuses runs error => exact honest_post ih (.refused _ _)
    | expires runs due => exact honest_post ih (.expired _ _)
    | breaks runs there next => exact honest_post ih (.broken _ _)
    | ends runs there closed last => exact honest_post ih (.ended _)
    | retries runs due => exact honest_post ih (.other nofun nofun)
    | ticks runs due again => exact honest_post ih (.other nofun nofun)
    | reads runs there next =>
      rename_i task link g l frame
      exact honest_post (w := w.onLink link fun l => { l with read := l.read + 1 }) ih
        (.other nofun nofun)
    | waits | stirs | cancels | sends | leaves | parts => exact ih

/-! ## What an entry gives up for -/

/-- The connection, or the attempt, was given up for a cause: the policy was asked, and the error was
noted last. -/
def Handled.GivesUp (r : Handled κ) (cause : DisconnectCause) : Prop :=
  r.answers ≠ [] ∧ r.after.health.recentErrors.latest? = some cause.record

theorem room_of_run {w : World κ σ} (run : Run config policy autoPong shared w) :
    w.manager.health.recentErrors.capacity = Health.maxRecentErrors := by
  induction run with
  | start => rfl
  | step before step ih =>
    rcases step.turn_or_apart with ⟨letter, rest, outcomes, runs, next, rfl⟩ | ⟨letters, apart⟩
    · rename_i w
      rw [manager_turn, ← ih]
      exact (Turn.handle_faults ⟨w.manager, w.shared, w.now, outcomes, 0, []⟩ letter.message).capacity
    · rw [apart.manager]
      exact ih

/-- **The cause of a failure** is one for which its message gives the connection up. -/
theorem Began.blames {w₀ : World κ σ} {past : List (Handled κ)} {r : Handled κ}
    (began : Began w₀ past r) (run : Run config policy autoPong shared w₀)
    {cause : DisconnectCause} (gives : r.GivesUp cause) :
    ∃ (t : Turn κ σ) (cause' : DisconnectCause), t.manager = w₀.manager ∧ t.now = r.now ∧
      t.Blames r.letter.message cause' ∧ cause'.record = cause.record := by
  obtain ⟨rest, outcomes, next, entry⟩ := began.entry
  obtain ⟨asked, noted⟩ := gives
  let t : Turn κ σ := ⟨w₀.manager, w₀.shared, w₀.now, outcomes, 0, []⟩
  have now : t.now = r.now := by rw [entry]; rfl
  have after : r.ledger = (t.handle r.letter.message).ledger := by rw [entry]; rfl
  cases t.handle_faults r.letter.message with
  | none answers =>
    exact absurd ((congrArg Ledger.answers after).trans answers) asked
  | @once cause' blame v answers errors =>
    refine ⟨t, cause', rfl, now, blame, ?_⟩
    have room : 0 < w₀.manager.health.recentErrors.capacity := by
      rw [room_of_run run]
      decide
    have pushed : r.after.health.recentErrors = (w₀.manager.health.recentErrors.push cause'.record).1 :=
      (congrArg Ledger.errors after).trans errors
    rw [pushed, Window.latest?_push room] at noted
    exact Option.some.inj noted

end World

end LiveMetrics
