import LiveMetrics.Proofs.Connection.Attempts
import LiveMetrics.Proofs.Connection.Telling
import LiveMetrics.Proofs.Connection.Writing

/-!
# What an entry is about

Some reports are current and some come too late. An entry of the history opens a connection
(`Handled.opens`), takes a frame of the open connection (`Handled.takes?`), or answers to its timer
(`Handled.beats`) only with a current report. What the entry tells, what becomes of the heartbeat and
which data frames are dispatched follows from that.
-/

set_option autoImplicit false

namespace LiveMetrics

namespace World

variable {κ σ : Type}

namespace Handled

variable (r : Handled κ)

/-- Whether it took a connection into use. -/
def opens : Bool :=
  match r.letter.message with
  | .opened generation _ => generation == r.before.generation && r.before.state == .connecting
  | _ => false

/-- The frame of the open connection that it took. -/
def takes? : Option Frame :=
  match r.letter.message with
  | .inbound generation frame =>
    if generation == r.before.generation && r.before.state == .connected then some frame else none
  | _ => none

/-- Whether it was a tick of the heartbeat of the open connection. -/
def beats : Bool :=
  match r.letter.message with
  | .tick generation => generation == r.before.generation && r.before.state == .connected
  | _ => false

/-- The states that were published. -/
def published : List ConnectionState := r.effects.filterMap Effect.published?

/-- Who was told about which states. -/
def told : List (Observer × ConnectionState) := r.effects.filterMap Effect.told?

/-- What has become of data frames. -/
def outcomes : List Outcome := r.effects.filterMap Effect.outcome?

/-- The frames that were written, with their connections. -/
def written : List (Nat × Frame) := r.effects.filterMap Effect.wrote?

variable {r}

theorem opens_iff : r.opens = true ↔
    ∃ link, r.letter.message = .opened r.before.generation link ∧ r.before.state = .connecting := by
  unfold opens
  split <;> rename_i hm
  · rw [hm]
    simp
  · refine ⟨nofun, ?_⟩
    rintro ⟨link, asked, -⟩
    exact absurd asked (hm _ _)

theorem takes?_eq_some {frame : Frame} : r.takes? = some frame ↔
    r.letter.message = .inbound r.before.generation frame ∧ r.before.state = .connected := by
  unfold takes?
  split <;> rename_i hm
  · rw [hm]
    split <;> rename_i hc
    · simp only [Bool.and_eq_true, beq_iff_eq] at hc
      simp [hc]
    · simp only [Bool.and_eq_true, beq_iff_eq] at hc
      refine ⟨nofun, ?_⟩
      rintro ⟨asked, state⟩
      cases asked
      exact absurd ⟨rfl, state⟩ hc
  · refine ⟨nofun, ?_⟩
    rintro ⟨asked, -⟩
    exact absurd asked (hm _ _)

theorem beats_iff : r.beats = true ↔
    r.letter.message = .tick r.before.generation ∧ r.before.state = .connected := by
  unfold beats
  split <;> rename_i hm
  · rw [hm]
    simp
  · refine ⟨nofun, ?_⟩
    rintro ⟨asked, -⟩
    exact absurd asked (hm _)

end Handled

variable [Callback κ σ] {w : World κ σ} {letter : Letter κ} {outcomes : Nat → Nat → WriteOutcome}

theorem Began.is_handled {past : List (Handled κ)} {r : Handled κ} (began : Began w past r) :
    ∃ letter outcomes, r = w.handled letter outcomes := by
  obtain ⟨rest, outcomes, -, entry⟩ := began.entry
  exact ⟨r.letter, outcomes, entry⟩

def beginning (w : World κ σ) (outcomes : Nat → Nat → WriteOutcome) : Turn κ σ :=
  ⟨w.manager, w.shared, w.now, outcomes, 0, []⟩

/-- What a turn tells, beside what its message brings. -/
theorem handling_tells :
    ((w.beginning outcomes).heeding letter.message).Tells (w.handling letter outcomes) :=
  Turn.handle_tells _ letter.message

/-- The heartbeat begins anew with a connection, and notes frames and pings. -/
theorem heartbeat_handled : (w.handled letter outcomes).after.heartbeat =
    if (w.handled letter outcomes).opens then w.manager.heartbeat.reset w.now
    else match (w.handled letter outcomes).takes? with
      | some frame => (w.manager.heartbeat.inbound w.now frame).1
      | none =>
        if (w.handled letter outcomes).beats && (w.manager.heartbeat.overdue? w.now).isNone then
          w.manager.heartbeat.ping w.now
        else w.manager.heartbeat := by
  obtain ⟨sender, message⟩ := letter
  let t := w.beginning outcomes
  rw [show (w.handled ⟨sender, message⟩ outcomes).after.heartbeat = _ from handling_tells.heartbeat]
  show (t.heeding message).manager.heartbeat = _
  cases message with
  | connect endpoint observer =>
    unfold Turn.heeding
    dsimp only
    split <;> rfl
  | opened generation link =>
    unfold Turn.heeding
    show _ = if t.current generation .connecting then t.manager.heartbeat.reset t.now
      else t.manager.heartbeat
    by_cases hc : t.current generation .connecting = true
    · rw [if_pos hc]
      dsimp only
      rw [if_pos hc]
      rfl
    · rw [if_neg hc]
      dsimp only
      rw [if_neg hc]
  | inbound generation frame =>
    unfold Turn.heeding
    show _ = match (if t.current generation .connected then some frame else none) with
      | some frame => (t.manager.heartbeat.inbound t.now frame).1
      | none => t.manager.heartbeat
    by_cases hc : t.current generation .connected = true
    · rw [if_pos hc]
      dsimp only
      rw [if_pos hc]
      split <;> rfl
    · rw [if_neg hc]
      dsimp only
      rw [if_neg hc]
  | tick generation =>
    unfold Turn.heeding
    show _ = if t.current generation .connected && (t.manager.heartbeat.overdue? t.now).isNone then
      t.manager.heartbeat.ping t.now else t.manager.heartbeat
    dsimp only
    split <;> rfl
  | _ => rfl

/-- Only a data frame that is taken is dispatched. -/
theorem outcomes_handled : (w.handled letter outcomes).outcomes =
    (((w.handled letter outcomes).takes?.bind Frame.payload?).map
      (w.beginning outcomes).outcome).toList := by
  obtain ⟨sender, message⟩ := letter
  let t := w.beginning outcomes
  rw [show (w.handled ⟨sender, message⟩ outcomes).outcomes = _ from handling_tells.outcomes]
  show (t.heeding message).effects.filterMap Effect.outcome? = _
  cases message with
  | connect endpoint observer =>
    unfold Turn.heeding
    dsimp only
    split <;> rfl
  | opened generation link =>
    unfold Turn.heeding
    dsimp only
    split <;> rfl
  | inbound generation frame =>
    unfold Turn.heeding
    show _ = (((if t.current generation .connected then some frame else none).bind
      Frame.payload?).map t.outcome).toList
    by_cases hc : t.current generation .connected = true
    · rw [if_pos hc]
      dsimp only
      rw [if_pos hc, Option.bind_some]
      cases frame.payload? <;> rfl
    · rw [if_neg hc]
      dsimp only
      rw [if_neg hc]
      rfl
  | tick generation =>
    unfold Turn.heeding
    dsimp only
    split <;> rfl
  | _ => rfl

end World

end LiveMetrics
