import LiveMetrics.Proofs.Connection.Counting
import LiveMetrics.Proofs.Connection.Liveness
import LiveMetrics.Proofs.Heartbeat

/-!
# Round trips that are counted

When a frame is taken that the heartbeat finds to be the pong of a ping, the round trip goes into the
statistics (`Handled.roundTrip?`), and at no other time (`roundTrips_handled`). The histogram there has
a range of 2 ^ 26 microseconds, and passes over what is beyond it. So the statistics count exactly the
round trips within this range (`roundTripCount_of_run`). Settings that pass validation allow longer
ones, and these are not counted (`unlimited_refuted`).
-/

set_option autoImplicit false

namespace LiveMetrics

namespace Histogram

/-- A number within the range makes one more, another one changes nothing. -/
theorem size_record (h : Histogram) (n : Nat) :
    (h.record n).size = h.size + if n < limit then 1 else 0 := by
  unfold record
  split
  · exact sum_bump _ _
  · rfl

end Histogram

/-- A round trip goes into the histogram, if there is one. -/
def Health.roundTrip? (h : Health) : Option Span → Health
  | some trip => h.roundTrip trip
  | none => h

/-- A frame that is noted brings the round trip that the heartbeat reports. -/
theorem Turn.roundTrips_noting {κ σ : Type} [Callback κ σ] (t : Turn κ σ) (frame : Frame) :
    (t.noting frame).roundTrips = (t.manager.health.roundTrip?
      (t.manager.heartbeat.inbound t.now frame).2.report?.join).roundTrips := by
  unfold noting
  cases frame with
  | text payload | binary payload =>
    show (countOutcome _ (t.outcome payload)).roundTrips = _
    cases t.outcome payload <;> rfl
  | close why => rfl
  | ping payload | pong payload =>
    dsimp only [Frame.payload?]
    generalize (t.manager.heartbeat.inbound t.now _).2 = pulse
    rcases pulse with _ | (_ | _) | _ <;> rfl

namespace World

variable {κ σ : Type}

/-- The round trip that the heartbeat reported of the frame that was taken. -/
def Handled.roundTrip? (r : Handled κ) : Option Span :=
  (r.takes?.bind fun frame => (r.before.heartbeat.inbound r.now frame).2.report?).join

/-- The round trips that the heartbeat has reported, in order. -/
def roundTrips (history : List (Handled κ)) : List Span := history.filterMap Handled.roundTrip?

/-- Whether a round trip is within the range of the histogram, 67.108864 seconds. -/
def countable (trip : Span) : Bool := trip.micros < 2 ^ 26

variable [Callback κ σ] {config : Config} {policy : Nat → Verdict} {autoPong : Bool} {shared : σ}
  {w : World κ σ} {letter : Letter κ} {outcomes : Nat → Nat → WriteOutcome}

/-- **A turn records the round trip that the heartbeat reports**, and no other. -/
theorem roundTrips_handled : (w.handled letter outcomes).after.health.roundTrips =
    (w.manager.health.roundTrip? (w.handled letter outcomes).roundTrip?).roundTrips := by
  rw [(health_handled w letter outcomes).roundTrips]
  unfold Handled.roundTrip?
  cases (w.handled letter outcomes).takes? with
  | none => rfl
  | some frame => exact (w.beginning outcomes).roundTrips_noting frame

theorem size_roundTrip? (h : Health) (trip : Option Span) : (h.roundTrip? trip).roundTrips.size =
    h.roundTrips.size + (trip.toList.filter countable).length := by
  cases trip with
  | none => rfl
  | some trip =>
    have range : max 1 trip.micros < Histogram.limit ↔ countable trip = true := by
      have limit : Histogram.limit = 2 ^ 26 := rfl
      unfold countable
      rw [limit, decide_eq_true_iff]
      omega
    show (h.roundTrips.record (max 1 trip.micros)).size = _
    rw [Histogram.size_record, if_congr range rfl rfl]
    cases within : countable trip <;> simp [within]

/-- **The statistics count every round trip within the range of the histogram** that the heartbeat has
reported, and none beyond it. -/
theorem roundTripCount_of_run (run : Run config policy autoPong shared w) (now : Nat) :
    (w.manager.stats now).roundTripCount = ((roundTrips w.history).filter countable).length := by
  show w.manager.health.roundTrips.size = _
  induction run with
  | start => rfl
  | step before step ih =>
    rcases step.turn_or_apart with ⟨letter, rest, outcomes, runs, next, rfl⟩ | ⟨letters, apart⟩
    · rename_i w
      have one : roundTrips [w.handled letter outcomes] =
          (w.handled letter outcomes).roundTrip?.toList := by
        unfold roundTrips
        cases he : (w.handled letter outcomes).roundTrip? <;> simp [he]
      have more : roundTrips (w.history ++ [w.handled letter outcomes]) =
          roundTrips w.history ++ (w.handled letter outcomes).roundTrip?.toList := by
        rw [← one]
        exact List.filterMap_append
      rw [manager_turn, history_turn, more, List.filter_append, List.length_append, ← ih,
        ← size_roundTrip?, ← roundTrips_handled]
      rfl
    · rw [apart.manager, apart.history]
      exact ih

/-- The case of a ping whose pong comes at once: less than a microsecond is counted as one. -/
theorem roundTripCount_secondPing : Run .default (fun _ => .giveUp) true (.empty 20) secondPing ∧
    roundTrips secondPing.history = [.zero] ∧ (secondPing.manager.stats 0).roundTripCount = 1 := by
  have trips : roundTrips secondPing.history = [.zero] := by rfl
  refine ⟨run_secondPing, trips, ?_⟩
  rw [roundTripCount_of_run run_secondPing 0, trips]
  rfl

/-! ## A round trip that takes too long -/

/-- The default settings, with a hundred seconds between two pings. -/
def slowHeartbeat : Config := { Config.default with heartbeatInterval := .ofSeconds 100 }

def slowHeartbeatOpen : World Listener Notebook :=
  connectionOpen slowHeartbeat (fun _ => .giveUp) true (.empty 20) none

/-- A ping has been written. -/
def slowPing : World Listener Notebook :=
  (slowHeartbeatOpen.atTick slowHeartbeat.heartbeatInterval).turn ⟨some 2, .tick 1⟩ [] fun _ _ =>
    .done

/-- Seventy seconds later the pong has come. -/
def latePong : World Listener Notebook :=
  ({ slowPing with now := slowPing.now + (Span.ofSeconds 70).nanos }).arrived (.pong .empty)

def latePongTaken : World Listener Notebook :=
  latePong.turn ⟨some 1, .inbound 1 (.pong .empty)⟩ [] fun _ _ => .done

theorem run_latePongTaken : Run slowHeartbeat (fun _ => .giveUp) true (.empty 20) latePongTaken := by
  have opens : Run slowHeartbeat (fun _ => .giveUp) true (.empty 20) slowHeartbeatOpen :=
    Run.start.plains (plains_connectionOpen ..)
  have pings : Run slowHeartbeat (fun _ => .giveUp) true (.empty 20) slowPing :=
    .step (opens.plains (plains_atTick rfl ⟨_, rfl, rfl, rfl⟩ ⟨_, rfl, rfl⟩)) (.turns rfl rfl _)
  have comes : Run slowHeartbeat (fun _ => .giveUp) true (.empty 20) latePong :=
    (Run.step pings (.waits _)).plains (plains_arrived rfl ⟨_, rfl, rfl, rfl⟩ rfl rfl rfl _)
  exact .step comes (.turns rfl rfl _)

/-- **Not every round trip is counted**, whatever the settings that pass validation: with a hundred
seconds between two pings, a pong may come after seventy, and its round trip is left out. -/
theorem unlimited_refuted : ¬ ∀ (config : Config) (policy : Nat → Verdict) (autoPong : Bool)
    (shared : Notebook) (w : World Listener Notebook) (now : Nat), config.validate = .ok () →
      Run config policy autoPong shared w →
      (w.manager.stats now).roundTripCount = (roundTrips w.history).length := by
  intro claim
  have counts := claim slowHeartbeat _ true _ latePongTaken 0 rfl run_latePongTaken
  have trips : roundTrips latePongTaken.history = [.ofSeconds 70] := by rfl
  have none_ : (latePongTaken.manager.stats 0).roundTripCount = 0 := by rfl
  rw [trips, none_] at counts
  exact nomatch counts

end World

end LiveMetrics
