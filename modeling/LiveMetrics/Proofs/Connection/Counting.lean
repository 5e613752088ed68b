import Mathlib.Data.List.Dedup
import Mathlib.Data.List.Perm.Basic
import Mathlib.Logic.Relation
import LiveMetrics.Proofs.Connection.Clones

/-!
# What the statistics count

Each counter is what the entries of the history add up to (`count_of_run`), up to its greatest value,
and no counter falls (`lasting_of_steps`). The subscriptions that the registry knows are those of the
history as well (`index_of_run`).

`accounted_of_run` puts this together: every data frame is in one class, and the statistics tell how
many there are in each.
-/

set_option autoImplicit false

namespace LiveMetrics

namespace Histogram

theorem sum_bump (level : Nat) (counts : List (Nat × Nat)) :
    ((bump level counts).map (·.2)).foldr (· + ·) 0 = (counts.map (·.2)).foldr (· + ·) 0 + 1 := by
  induction counts with
  | nil => rfl
  | cons entry rest ih =>
    obtain ⟨other, count⟩ := entry
    unfold bump
    split
    · simp only [List.map_cons, List.foldr_cons]
      omega
    split
    · simp only [List.map_cons, List.foldr_cons]
      omega
    · simp only [List.map_cons, List.foldr_cons, ih]
      omega

theorem size_le_record (h : Histogram) (n : Nat) : h.size ≤ (h.record n).size := by
  unfold record
  split
  · exact Nat.le_of_lt (Nat.lt_of_lt_of_eq (Nat.lt_succ_self _) (sum_bump _ _).symm)
  · exact Nat.le_refl _

end Histogram

/-! ## Subscriptions -/

/-- What a message makes of the subscriptions that are known: a handle that is known stays as it is. -/
def Message.enters {κ : Type} (known : List (Handle × Topic)) : Message κ → List (Handle × Topic)
  | .subscribe handle topic _ =>
    if (known.lookup handle).isSome then known else known ++ [(handle, topic)]
  | .unsubscribe handle => Keyed.erase handle known
  | _ => known

/-- A subscription that is known stays so until it is given up. -/
theorem Message.lookup_enters {κ : Type} {known : List (Handle × Topic)} {handle : Handle} {topic : Topic}
    (there : known.lookup handle = some topic) {message : Message κ}
    (stays : message ≠ .unsubscribe handle) : (message.enters known).lookup handle = some topic := by
  cases message with
  | subscribe other t callback =>
    unfold enters
    dsimp only
    split
    · exact there
    · rw [List.lookup_append, there]
      rfl
  | unsubscribe other =>
    have other_ : handle ≠ other := fun same => stays (congrArg Message.unsubscribe same.symm)
    exact (Keyed.lookup_erase_of_ne other_).trans there
  | _ => exact there

namespace Registry

variable {κ : Type} {r : Registry κ}

theorem index_insert (handle : Handle) (topic : Topic) (callback : κ) :
    (r.insert handle topic callback).1.index = (Message.subscribe handle topic callback).enters r.index := by
  show _ = if r.contains handle then r.index else r.index ++ [(handle, topic)]
  unfold insert
  split <;> rfl

end Registry

theorem Turn.index_script {κ σ : Type} [Callback κ σ] (t : Turn κ σ) (message : Message κ) :
    (t.script message).registry.index = message.enters t.manager.registry.index := by
  cases t.script_revises message with
  | edits registry =>
    rw [registry]
    cases message with
    | subscribe handle topic callback => exact Registry.index_insert handle topic callback
    | unsubscribe handle => exact Registry.index_remove_eq handle
    | _ => rfl
  | dispatches asked current brings registry =>
    rw [registry, asked]
    exact (Registry.same_dispatch _ _ _ _).index

namespace World

variable {κ σ : Type}

/-! ## What a history adds up to -/

namespace Handled

/-- The data frame that it took from the open connection. -/
def payload? (r : Handled κ) : Option ByteArray := r.takes?.bind Frame.payload?

end Handled

/-- What a history adds to a counter: the frames that were taken, the samples that went to their
subscribers, those that had none, the frames without a sample, and the calls that failed or panicked. -/
def total (history : List (Handled κ)) : Health.Counter → Nat
  | .frames => (history.filterMap Handled.takes?).length
  | .samples => (history.flatMap Handled.outcomes).countP Outcome.isDelivered
  | .unrouted => (history.flatMap Handled.outcomes).countP Outcome.isUnrouted
  | .drops => (history.flatMap Handled.outcomes).countP Outcome.isDropped
  | .failures => (history.flatMap Handled.calls).countP fun call => !call.result.isDone

theorem total_append (first rest : List (Handled κ)) (c : Health.Counter) :
    total (first ++ rest) c = total first c + total rest c := by
  cases c <;> simp [total]

/-- The subscriptions that are known after a history, in the order in which they were handled. -/
def subscriptions (history : List (Handled κ)) : List (Handle × Topic) :=
  history.foldl (fun known r => r.letter.message.enters known) []

theorem subscriptions_append (past : List (Handled κ)) (r : Handled κ) :
    subscriptions (past ++ [r]) = r.letter.message.enters (subscriptions past) := by
  unfold subscriptions
  rw [List.foldl_append]
  rfl

/-- If no handle comes twice, what is known is what is alive. -/
theorem subscriptions_eq_live {history : List (Handled κ)}
    (distinct : (enrolled (history.map Handled.letter)).Nodup) :
    subscriptions history = (live history).map fun s => (s.handle, s.topic) := by
  induction history using List.reverseRecOn with
  | nil => rfl
  | append_singleton past r ih =>
    rw [List.map_append, enrolled_append] at distinct
    rw [subscriptions_append, live_append, ih distinct.of_append_left]
    generalize hm : r.letter.message = message
    cases message with
    | subscribe handle topic callback =>
      have unknown : ((live past).map fun s => (s.handle, s.topic)).lookup handle = none := by
        refine Keyed.lookup_eq_none_iff.mpr fun there => ?_
        rw [List.map_map] at there
        refine List.disjoint_of_nodup_append distinct ((handles_live past).subset there) ?_
        have one : enrolled [r.letter] = [handle] := List.filterMap_cons_some (by rw [hm]; rfl)
        exact one ▸ List.mem_singleton_self _
      show (if _ then _ else _) = (live past ++ [_]).map _
      rw [unknown, List.map_append]
      rfl
    | unsubscribe handle =>
      show Keyed.erase handle _ = ((live past).filter _).map _
      unfold Keyed.erase
      rw [List.filter_map]
      rfl
    | _ => rfl

/-! ## Turns -/

section Handling

variable [Callback κ σ] {w : World κ σ} {letter : Letter κ} {outcomes : Nat → Nat → WriteOutcome}

theorem index_handling : (w.handling letter outcomes).manager.registry.index =
    letter.message.enters w.manager.registry.index := by
  obtain ⟨said, wrote⟩ := w.turn_wrote letter outcomes
  rw [wrote.registry]
  exact Turn.index_script (w.beginning outcomes) letter.message

/-- What an entry adds to a counter that has not come to its greatest value. -/
theorem count_handled (letter : Letter κ) (outcomes : Nat → Nat → WriteOutcome) (c : Health.Counter)
    (most : w.manager.health.count c ≤ Health.maxCount) :
    (w.handled letter outcomes).after.health.count c =
      Health.raise (w.manager.health.count c) (total [w.handled letter outcomes] c) := by
  have still : Health.raise (w.manager.health.count c) 0 = w.manager.health.count c :=
    Nat.min_eq_left most
  have told : (w.handled letter outcomes).outcomes = _ := outcomes_handled
  rw [(health_handled w letter outcomes).count c]
  cases takes : (w.handled letter outcomes).takes? with
  | none =>
    rw [takes] at told
    have nothing : total [w.handled letter outcomes] c = 0 := by
      cases c <;> simp [total, takes, told, Handled.calls]
    rw [nothing, still]
  | some frame =>
    rw [takes, Option.bind_some] at told
    dsimp only
    cases brings : frame.payload? with
    | none =>
      rw [brings] at told
      have adds : total [w.handled letter outcomes] c = if c = .frames then 1 else 0 := by
        cases c <;> simp [total, takes, told, Handled.calls]
      rw [adds, Turn.count_noting_of_other _ brings]
      cases c with
      | frames => rfl
      | _ => exact still.symm
    | some payload =>
      rw [brings] at told
      -- so that `told` and the goal name the outcome alike
      replace told : (w.handled letter outcomes).outcomes = [(w.beginning outcomes).outcome payload] :=
        told
      unfold Turn.noting
      rw [brings]
      dsimp only
      generalize (w.beginning outcomes).outcome payload = outcome at told ⊢
      have adds : total [w.handled letter outcomes] c = match c with
          | .frames => 1
          | .samples => if outcome.isDelivered then 1 else 0
          | .unrouted => if outcome.isUnrouted then 1 else 0
          | .drops => if outcome.isDropped then 1 else 0
          | .failures => outcome.calls.countP fun call => !call.result.isDone := by
        cases c <;> simp [total, takes, told, Handled.calls, List.countP_cons]
      rw [adds]
      cases c <;> cases outcome <;> first | rfl | exact still.symm

/-- A turn that takes no data frame counts none. -/
theorem count_of_no_data (c : Health.Counter) (other : c ≠ .frames)
    (none_ : (w.handled letter outcomes).payload? = none) : total [w.handled letter outcomes] c = 0 := by
  have told : (w.handled letter outcomes).outcomes = [] := by
    rw [outcomes_handled, show (w.handled letter outcomes).takes?.bind Frame.payload? = none from none_]
    rfl
  cases c with
  | frames => exact absurd rfl other
  | _ => simp [total, told, Handled.calls]

/-- No round trip is forgotten, and no attempt. -/
theorem lasting_handled (letter : Letter κ) (outcomes : Nat → Nat → WriteOutcome)
    (most : w.manager.health.reconnects ≤ Health.maxCount) :
    (w.manager.health.reconnects ≤ (w.handled letter outcomes).after.health.reconnects ∧
      (w.handled letter outcomes).after.health.reconnects ≤ Health.maxCount) ∧
      w.manager.health.roundTrips.size ≤ (w.handled letter outcomes).after.health.roundTrips.size := by
  have counts := health_handled w letter outcomes
  have noted : ∀ frame, ((w.beginning outcomes).noting frame).reconnects = w.manager.health.reconnects ∧
      w.manager.health.roundTrips.size ≤ ((w.beginning outcomes).noting frame).roundTrips.size := by
    intro frame
    unfold Turn.noting
    dsimp only
    split
    · generalize (w.beginning outcomes).outcome _ = outcome
      cases outcome <;> exact ⟨rfl, Nat.le_refl _⟩
    · split
      · exact ⟨rfl, Histogram.size_le_record _ _⟩
      · exact ⟨rfl, Nat.le_refl _⟩
  cases takes : (w.handled letter outcomes).takes? with
  | none =>
    rw [takes] at counts
    exact ⟨counts.reconnects most, Nat.le_of_eq (congrArg Histogram.size counts.roundTrips.symm)⟩
  | some frame =>
    rw [takes] at counts
    obtain ⟨same, trips⟩ := noted frame
    have attempts := counts.reconnects (same.symm ▸ most)
    rw [same] at attempts
    exact ⟨attempts, counts.roundTrips.symm ▸ trips⟩

end Handling

/-! ## Runs -/

section Runs

variable [Callback κ σ] {config : Config} {policy : Nat → Verdict} {autoPong : Bool} {shared : σ}
  {w w' : World κ σ}

/-- **Each counter is what the history adds up to**, or stands at its greatest value. -/
theorem count_of_run (run : Run config policy autoPong shared w) (c : Health.Counter) :
    w.manager.health.count c = min (total w.history c) Health.maxCount := by
  induction run with
  | start => cases c <;> rfl
  | step before step ih =>
    rcases step.turn_or_apart with ⟨letter, rest, outcomes, runs, next, rfl⟩ | ⟨letters, apart⟩
    · rename_i w
      have counts := count_handled letter outcomes c
        (ih ▸ Nat.min_le_right _ _)
      rw [manager_turn, history_turn, total_append]
      refine counts.trans ?_
      rw [ih]
      unfold Health.raise
      omega
    · rw [apart.manager, apart.history]
      exact ih

theorem reconnects_of_run (run : Run config policy autoPong shared w) :
    w.manager.health.reconnects ≤ Health.maxCount := by
  induction run with
  | start => exact Nat.zero_le _
  | step before step ih =>
    rcases step.turn_or_apart with ⟨letter, rest, outcomes, runs, next, rfl⟩ | ⟨letters, apart⟩
    · rw [manager_turn]
      exact (lasting_handled letter outcomes ih).1.2
    · rw [apart.manager]
      exact ih

/-- **The registry knows the subscriptions of the history.** -/
theorem index_of_run (run : Run config policy autoPong shared w) :
    w.manager.registry.index = subscriptions w.history := by
  induction run with
  | start => rfl
  | step before step ih =>
    rcases step.turn_or_apart with ⟨letter, rest, outcomes, runs, next, rfl⟩ | ⟨letters, apart⟩
    · rw [manager_turn, index_handling, history_turn, subscriptions_append, ← ih]
      rfl
    · rw [apart.manager, apart.history]
      exact ih

/-- Every data frame that is taken is in one class. -/
theorem classes_of_run (run : Run config policy autoPong shared w) :
    ((w.history.filterMap Handled.takes?).filterMap Frame.payload?).length =
      total w.history .samples + total w.history .unrouted + total w.history .drops := by
  have classes : ∀ outcomes : List Outcome, outcomes.length = outcomes.countP Outcome.isDelivered +
      outcomes.countP Outcome.isUnrouted + outcomes.countP Outcome.isDropped := by
    intro outcomes
    induction outcomes with
    | nil => rfl
    | cons outcome rest ih =>
      cases outcome <;>
        simp only [List.length_cons, List.countP_cons, Outcome.isDelivered, Outcome.isUnrouted,
          Outcome.isDropped, if_true, Bool.false_eq_true, if_false] <;> omega
  refine Eq.trans ?_ (classes _)
  induction run with
  | start => rfl
  | step before step ih =>
    rcases step.turn_or_apart with ⟨letter, rest, outcomes, runs, next, rfl⟩ | ⟨letters, apart⟩
    · rename_i w
      have one : (([w.handled letter outcomes].filterMap Handled.takes?).filterMap
          Frame.payload?).length = ([w.handled letter outcomes].flatMap Handled.outcomes).length := by
        rw [List.flatMap_singleton, outcomes_handled]
        cases takes : (w.handled letter outcomes).takes? with
        | none => simp [takes]
        | some frame => cases brings : frame.payload? <;> simp [takes, brings]
      rw [history_turn, List.filterMap_append, List.filterMap_append, List.flatMap_append,
        List.length_append, List.length_append, ih, one]
    · rw [apart.history]
      exact ih

/-- The statistics of a client account for its history. -/
structure Accounted (stats : Stats) (history : List (Handled κ)) : Prop where
  frames : stats.framesReceived = (history.filterMap Handled.takes?).length
  data : ((history.filterMap Handled.takes?).filterMap Frame.payload?).length =
    stats.samplesDispatched + stats.unroutedFrames + stats.decodeFailures
  delivered : stats.samplesDispatched = (history.flatMap Handled.outcomes).countP Outcome.isDelivered
  unrouted : stats.unroutedFrames = (history.flatMap Handled.outcomes).countP Outcome.isUnrouted
  dropped : stats.decodeFailures = (history.flatMap Handled.outcomes).countP Outcome.isDropped
  failures : stats.callbackFailures =
    (history.flatMap Handled.calls).countP fun call => !call.result.isDone

/-- No counter of the statistics has fallen. -/
structure Lasting (stats stats' : Stats) : Prop where
  frames : stats.framesReceived ≤ stats'.framesReceived
  samples : stats.samplesDispatched ≤ stats'.samplesDispatched
  unrouted : stats.unroutedFrames ≤ stats'.unroutedFrames
  drops : stats.decodeFailures ≤ stats'.decodeFailures
  failures : stats.callbackFailures ≤ stats'.callbackFailures
  reconnects : stats.reconnects ≤ stats'.reconnects
  roundTrips : stats.roundTripCount ≤ stats'.roundTripCount

/-- No counter ever falls. -/
theorem lasting_of_steps (run : Run config policy autoPong shared w)
    (steps : Relation.ReflTransGen Step w w') (now now' : Nat) :
    Lasting (w.manager.stats now) (w'.manager.stats now') := by
  have run' : Run config policy autoPong shared w' ∧
      (∀ c, total w.history c ≤ total w'.history c) ∧
      w.manager.health.reconnects ≤ w'.manager.health.reconnects ∧
      w.manager.health.roundTrips.size ≤ w'.manager.health.roundTrips.size := by
    induction steps with
    | refl => exact ⟨run, fun _ => Nat.le_refl _, Nat.le_refl _, Nat.le_refl _⟩
    | tail _ step ih =>
      obtain ⟨before, totals, attempts, trips⟩ := ih
      refine ⟨.step before step, ?_⟩
      rcases step.turn_or_apart with ⟨letter, rest, outcomes, runs, next, rfl⟩ | ⟨letters, apart⟩
      · obtain ⟨more, most⟩ := lasting_handled letter outcomes
          (reconnects_of_run before)
        rw [manager_turn, history_turn]
        refine ⟨fun c => ?_, Nat.le_trans attempts more.1, Nat.le_trans trips most⟩
        rw [total_append]
        exact Nat.le_trans (totals c) (Nat.le_add_right _ _)
      · rw [apart.manager, apart.history]
        exact ⟨totals, attempts, trips⟩
  obtain ⟨after, totals, attempts, trips⟩ := run'
  have counts : ∀ c, w.manager.health.count c ≤ w'.manager.health.count c := by
    intro c
    rw [count_of_run run c, count_of_run after c]
    have := totals c
    omega
  exact ⟨counts .frames, counts .samples, counts .unrouted, counts .drops, counts .failures, attempts,
    trips⟩

/-- **The statistics account for everything once**: as long as the counts stay in their range, every
frame that was taken is counted, every data frame in one class, and every call that has failed. Any
other frame changes no class. The topics and subscriptions are those that are known, and if no handle
comes twice those that are alive. No counter ever falls. -/
theorem accounted_of_run (run : Run config policy autoPong shared w) (now : Nat) :
    ((∀ c, total w.history c < 2 ^ 64) → Accounted (w.manager.stats now) w.history) ∧
    (∀ r ∈ w.history, r.takes?.bind Frame.payload? = none → ∀ c ≠ Health.Counter.frames,
      r.after.health.count c = r.before.health.count c) ∧
    ((w.manager.stats now).subscriptions = (subscriptions w.history).length ∧
      (w.manager.stats now).topics = ((subscriptions w.history).map Prod.snd).dedup.length ∧
      ((enrolled (w.history.map Handled.letter)).Nodup →
        subscriptions w.history = (live w.history).map fun s => (s.handle, s.topic))) ∧
    ∀ w' now', Relation.ReflTransGen Step w w' →
      Lasting (w.manager.stats now) (w'.manager.stats now') := by
  refine ⟨fun few => ?_, fun r hr none_ c other => ?_, ⟨?_, ?_, subscriptions_eq_live⟩,
    fun w' now' steps => lasting_of_steps run steps now now'⟩
  · have counts : ∀ c, w.manager.health.count c = total w.history c := by
      intro c
      rw [count_of_run run c]
      exact Nat.min_eq_left (Nat.le_pred_of_lt (few c))
    refine ⟨counts .frames, ?_, counts .samples, counts .unrouted, counts .drops, counts .failures⟩
    rw [classes_of_run run, ← counts .samples, ← counts .unrouted, ← counts .drops]
    rfl
  · obtain ⟨past, later, history⟩ := List.append_of_mem hr
    obtain ⟨w₀, run₀, began⟩ := run.began history
    obtain ⟨letter, outcomes, rfl⟩ := began.is_handled
    have most : w₀.manager.health.count c ≤ Health.maxCount :=
      count_of_run run₀ c ▸ Nat.min_le_right _ _
    rw [count_handled letter outcomes c most, count_of_no_data c other none_]
    exact Nat.min_eq_left most
  · rw [← index_of_run run]
    rfl
  · rw [← index_of_run run]
    exact (serves_of_run run).coherent.topicCount

end Runs

theorem total_afterDelivery (c : Health.Counter) : total Clients.afterDelivery.world.history c =
    if c = .unrouted ∨ c = .drops then 0 else 1 := by
  cases c <;> decide +kernel

/-- The case of two subscriptions to a topic, and a frame that one of the callbacks fails to take. -/
theorem accounted_afterDelivery : (Run .default (fun _ => .giveUp) true (.empty 20) Clients.afterDelivery.world ∧
    ∀ c, total Clients.afterDelivery.world.history c < 2 ^ 64) ∧
      Accounted (Clients.afterDelivery.world.manager.stats 0) Clients.afterDelivery.world.history ∧
      (Clients.afterDelivery.world.manager.stats 0).samplesDispatched = 1 ∧
      (Clients.afterDelivery.world.manager.stats 0).callbackFailures = 1 ∧
      (Clients.afterDelivery.world.manager.stats 0).subscriptions = 2 ∧
      (Clients.afterDelivery.world.manager.stats 0).topics = 1 := by
  have run := Clients.run_afterDelivery.world
  have few : ∀ c, total Clients.afterDelivery.world.history c < 2 ^ 64 := by
    intro c
    rw [total_afterDelivery]
    split <;> omega
  have known : (subscriptions Clients.afterDelivery.world.history).length = 2 ∧
      ((subscriptions Clients.afterDelivery.world.history).map Prod.snd).dedup.length = 1 := by
    decide +kernel
  obtain ⟨accounts, -, ⟨subscribed, topics, -⟩, -⟩ := accounted_of_run run 0
  have accounted := accounts few
  exact ⟨⟨run, few⟩, accounted, accounted.delivered.trans (total_afterDelivery .samples),
    accounted.failures.trans (total_afterDelivery .failures), subscribed.trans known.1, topics.trans known.2⟩

end World

end LiveMetrics
