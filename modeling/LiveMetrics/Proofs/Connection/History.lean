import Mathlib.Logic.Relation
import LiveMetrics.Proofs.Connection.Steady

/-!
# The history of a run

Every entry of the history is a turn that began in a world of the same run (`World.Began`), with the
manager that the entry before it has left (`World.standing`). So what one turn preserves holds since
(`Traced.kept`), and `Began.deal` tells how each entry went.

What an entry tells is read off its effects: the answers of the policy, the errors, and the tasks
that were started.
-/

set_option autoImplicit false

namespace LiveMetrics

/-! ## Tasks that are started -/

def Effect.started? : Effect → Option (Nat × Task)
  | .start task what => some (task, what)
  | _ => none

/-- The task that a mark is about, if it is its start. -/
def Mark.started? : Mark → Option (Nat × Task)
  | .start task what => some (task, what)
  | _ => none

theorem Effect.started?_eq (e : Effect) : e.started? = e.mark?.bind Mark.started? := by
  cases e with
  | log event => cases event <;> rfl
  | _ => rfl

/-- The attempts to connect among tasks. -/
def openings (tasks : List (Nat × Task)) : List Nat :=
  tasks.filterMap fun
    | (task, .opening _ _ _) => some task
    | _ => none

/-- The connections among tasks that are read. -/
def readings (tasks : List (Nat × Task)) : List Nat :=
  tasks.filterMap fun
    | (_, .reading _ link) => some link
    | _ => none

/-- The retries among tasks, with their delays. -/
def retryings (tasks : List (Nat × Task)) : List (Nat × Span) :=
  tasks.filterMap fun
    | (task, .retrying _ delay) => some (task, delay)
    | _ => none

namespace Holding

def started (c : Holding) : List (Nat × Task) := c.marks.filterMap Mark.started?

section Operations

variable (c : Holding)

@[simp] theorem started_abort? (task : Option Nat) : (c.abort? task).started = c.started := by
  unfold started abort?
  cases task <;> simp [Mark.started?]

@[simp] theorem started_start (what : Task) :
    (c.start what).started = c.started ++ [(c.tasks, what)] := by
  unfold started start
  simp [Mark.started?]

@[simp] theorem started_enter (next : ConnectionState) : (c.enter next).started = c.started := by
  unfold started enter
  split <;> simp [Mark.started?]

@[simp] theorem started_failure (attempt : Nat) (delay : Option Span) :
    (c.mark (.failure attempt delay)).started = c.started := by
  unfold started mark
  simp [Mark.started?]

@[simp] theorem started_teardown : c.teardown.started = c.started := by
  show (((c.abort? _).abort? _).abort? _).started = _
  simp

@[simp] theorem started_cancelRetry : c.cancelRetry.started = c.started := c.started_abort? _

@[simp] theorem started_halt : c.halt.started = c.started := by
  show c.cancelRetry.teardown.started = _
  simp

@[simp] theorem started_lose : c.lose.started = c.started := c.started_teardown

@[simp] theorem started_disconnect : c.disconnect.started = c.started := by
  unfold disconnect
  rw [started_enter]
  show c.cancelRetry.teardown.started = _
  simp

theorem started_retrying (delay : Span) :
    (c.retrying delay).started = c.started ++ [(c.tasks, .retrying c.generation delay)] := by
  show ((c.abort? c.retryTask).start _).started = _
  rw [started_start, started_abort?]
  rfl

theorem started_opening (endpoint : String) (limit : Span) : (c.opening endpoint limit).started =
    c.started ++ [(c.tasks, .opening (c.generation + 1) endpoint limit)] := by
  show (Holding.start (Holding.enter _ _) _).started = _
  rw [started_start, started_enter]
  exact congrArg (· ++ [(c.tasks, Task.opening (c.generation + 1) endpoint limit)])
    (c.started_abort? c.openTask)

theorem started_settle (link now : Nat) (interval : Span) :
    (c.settle link now interval).started =
      c.started ++ [(c.tasks, .reading c.generation link),
        (c.tasks + 1, .ticking c.generation interval)] := by
  unfold settle
  rw [started_enter, started_start]
  show ((c.settling link now).abort? c.heartbeatTask).started ++ _ = _
  rw [started_abort?]
  show (c.start _).started ++ _ = _
  rw [started_start, List.append_assoc]
  rfl

/-- The task that is started when an answer of the policy is obeyed. -/
def waiting : Verdict → List (Nat × Task)
  | .wait delay => [(c.tasks, .retrying c.generation delay)]
  | .giveUp | .broken _ => []

theorem started_obey (v : Verdict) : (c.obey v).started = c.started ++ c.waiting v := by
  cases v with
  | broken reason =>
    rw [show (c.obey _).started = c.halt.started from rfl, started_halt]
    exact (List.append_nil _).symm
  | giveUp =>
    show (Holding.enter _ _).started = _
    rw [started_enter, started_failure]
    exact (List.append_nil _).symm
  | wait delay =>
    show (Holding.retrying (Holding.enter _ _) _).started = _
    rw [started_retrying, started_enter, started_failure]
    rfl

theorem started_fail (policy : Nat → Verdict) :
    (c.fail policy).started = c.started ++ c.lose.waiting (policy c.lose.attempt) := by
  unfold fail
  rw [started_obey, started_lose]

end Operations

end Holding

/-- Nothing has been told yet, and so much is counted. -/
def Manager.ledger {κ : Type} (m : Manager κ) : Ledger :=
  ⟨[], [], [], m.health.recentErrors, m.health.reconnects⟩

namespace World

variable {κ σ : Type}

/-! ## What an entry tells -/

namespace Handled

variable (r : Handled κ)

/-- The answers of the policy. -/
def answers : List Verdict := r.effects.filterMap Effect.answer?

def records : List ErrorRecord := r.effects.filterMap Effect.record?

def started : List (Nat × Task) := r.effects.filterMap Effect.started?

/-- The attempts to connect that were begun. -/
def begun : List Nat := openings r.started

/-- The retries that were planned, with their delays. -/
def planned : List (Nat × Span) := retryings r.started

/-- What is held afterwards, with the marks of the turn. -/
def holding : Holding := { r.after.holding with marks := r.effects.filterMap Effect.mark? }

/-- What the turn has told of failures, and what is counted of them afterwards. -/
def ledger : Ledger where
  answers := r.answers
  records := r.records
  farewells := r.effects.filterMap Effect.farewell?
  errors := r.after.health.recentErrors
  reconnects := r.after.health.reconnects

theorem started_holding : r.holding.started = r.started := by
  unfold holding Holding.started started
  rw [List.filterMap_filterMap]
  congr 1
  funext e
  exact e.started?_eq.symm

end Handled

/-- What the entries of a history add up to. -/
def tally (count : Handled κ → Nat) (history : List (Handled κ)) : Nat :=
  history.foldl (fun n r => n + count r) 0

@[simp] theorem tally_nil (count : Handled κ → Nat) : tally count [] = 0 := rfl

@[simp] theorem tally_append (count : Handled κ → Nat) (past : List (Handled κ)) (r : Handled κ) :
    tally count (past ++ [r]) = tally count past + count r := by
  simp [tally]

/-- The manager that a history leaves, if it was `m₀` at first. -/
def standing (m₀ : Manager κ) (history : List (Handled κ)) : Manager κ :=
  (history.getLast?.map Handled.after).getD m₀

@[simp] theorem standing_append (m₀ : Manager κ) (past : List (Handled κ)) (r : Handled κ) :
    standing m₀ (past ++ [r]) = r.after := by
  unfold standing
  rw [List.getLast?_concat]
  rfl

/-! ## Where an entry began -/

section Began

variable [Callback κ σ]

/-- An entry of a history is the turn that a world begins. -/
structure Began (w₀ : World κ σ) (past : List (Handled κ)) (r : Handled κ) : Prop where
  history : w₀.history = past
  runs : w₀.manager.phase = .running
  entry : ∃ rest outcomes, w₀.mailbox = r.letter :: rest ∧ r = w₀.handled r.letter outcomes

/-- On the way to a world `w`, an entry of its history was the turn from `w₀` to `w₁`. -/
structure Turned (w₀ w₁ w : World κ σ) (past : List (Handled κ)) (r : Handled κ) : Prop where
  past : w₀.history = past
  turn : ∃ rest outcomes, w₀.manager.phase = .running ∧ w₀.mailbox = r.letter :: rest ∧
    r = w₀.handled r.letter outcomes ∧ w₁ = w₀.turn r.letter rest outcomes
  since : Relation.ReflTransGen Step w₁ w

theorem Turned.began {w₀ w₁ w : World κ σ} {past : List (Handled κ)} {r : Handled κ}
    (h : Turned w₀ w₁ w past r) : Began w₀ past r := by
  obtain ⟨rest, outcomes, runs, next, entry, -⟩ := h.turn
  exact ⟨h.past, runs, rest, outcomes, next, entry⟩

theorem Turned.step {w₀ w₁ w : World κ σ} {past : List (Handled κ)} {r : Handled κ}
    (h : Turned w₀ w₁ w past r) : Step w₀ w₁ := by
  obtain ⟨rest, outcomes, runs, next, -, rfl⟩ := h.turn
  exact .turns runs next outcomes

theorem Turned.tail {w₀ w₁ w w' : World κ σ} {past : List (Handled κ)} {r : Handled κ}
    (h : Turned w₀ w₁ w past r) (step : Step w w') : Turned w₀ w₁ w' past r :=
  ⟨h.past, h.turn, h.since.tail step⟩

/-- An entry of the history is older than a step, or is the turn that the step is. -/
theorem Step.turned {w w' : World κ σ} (step : Step w w') {past later : List (Handled κ)}
    {r : Handled κ} (he : w'.history = past ++ r :: later) :
    (∃ later', w.history = past ++ r :: later') ∨ Turned w w' w' past r := by
  rcases step.turn_or_apart with ⟨letter, rest, outcomes, runs, next, rfl⟩ | ⟨letters, apart⟩
  · rw [history_turn] at he
    rcases List.eq_nil_or_concat later with rfl | ⟨later', x, rfl⟩
    · obtain ⟨rfl, hr⟩ := List.append_inj' he rfl
      obtain rfl : w.handled letter outcomes = r := (List.cons.inj hr).1
      exact .inr ⟨rfl, ⟨rest, outcomes, runs, next, rfl, rfl⟩, .refl⟩
    · rw [List.concat_eq_append, ← List.cons_append, ← List.append_assoc] at he
      exact .inl ⟨later', (List.append_inj' he rfl).1⟩
  · exact .inl ⟨later, apart.history.symm.trans he⟩

variable {config : Config} {policy : Nat → Verdict} {autoPong : Bool} {shared : σ}

theorem Run.turned {w : World κ σ} (run : Run config policy autoPong shared w)
    {past later : List (Handled κ)} {r : Handled κ} (he : w.history = past ++ r :: later) :
    ∃ w₀ w₁, Run config policy autoPong shared w₀ ∧ Turned w₀ w₁ w past r := by
  induction run generalizing later with
  | start => exact absurd he.symm (List.append_ne_nil_of_right_ne_nil _ nofun)
  | step before step ih =>
    rcases step.turned he with ⟨later', he'⟩ | turned
    · obtain ⟨w₀, w₁, run₀, turned⟩ := ih he'
      exact ⟨w₀, w₁, run₀, turned.tail step⟩
    · exact ⟨_, _, before, turned⟩

theorem Reachable.turned {w : World κ σ} (reached : Reachable config policy autoPong shared w)
    {past later : List (Handled κ)} {r : Handled κ} (he : w.history = past ++ r :: later) :
    ∃ w₀ w₁, Reachable config policy autoPong shared w₀ ∧ Turned w₀ w₁ w past r := by
  induction reached generalizing later with
  | start => exact absurd he.symm (List.append_ne_nil_of_right_ne_nil _ nofun)
  | step before step fresh ih =>
    rcases step.turned he with ⟨later', he'⟩ | turned
    · obtain ⟨w₀, w₁, reached₀, turned⟩ := ih he'
      exact ⟨w₀, w₁, reached₀, turned.tail step⟩
    · exact ⟨_, _, before, turned⟩

theorem Run.began {w : World κ σ} (run : Run config policy autoPong shared w)
    {past later : List (Handled κ)} {r : Handled κ} (he : w.history = past ++ r :: later) :
    ∃ w₀, Run config policy autoPong shared w₀ ∧ Began w₀ past r := by
  obtain ⟨w₀, w₁, run₀, turned⟩ := run.turned he
  exact ⟨w₀, run₀, turned.began⟩

theorem Reachable.began {w : World κ σ} (reached : Reachable config policy autoPong shared w)
    {past later : List (Handled κ)} {r : Handled κ} (he : w.history = past ++ r :: later) :
    ∃ w₀, Reachable config policy autoPong shared w₀ ∧ Began w₀ past r := by
  obtain ⟨w₀, w₁, reached₀, turned⟩ := reached.turned he
  exact ⟨w₀, reached₀, turned.began⟩

/-- The manager is as the last entry of the history has left it. -/
theorem manager_of_run {w : World κ σ} (run : Run config policy autoPong shared w) :
    w.manager = standing (.new config policy autoPong) w.history := by
  induction run with
  | start => rfl
  | step before step ih =>
    rcases step.turn_or_apart with ⟨letter, rest, outcomes, runs, next, rfl⟩ | ⟨letters, apart⟩
    · rw [manager_turn, history_turn, standing_append]
      rfl
    · rw [apart.manager, apart.history]
      exact ih

/-! ## What holds since an entry -/

/-- Worlds whose histories can be traced back through worlds of the same kind. -/
structure Traced (P : World κ σ → Prop) (m₀ : Manager κ) : Prop where
  manager : ∀ {w}, P w → w.manager = standing m₀ w.history
  began : ∀ {w past r later}, P w → w.history = past ++ r :: later → ∃ w₀, P w₀ ∧ Began w₀ past r

theorem traced_run : Traced (Run (κ := κ) config policy autoPong shared)
    (.new config policy autoPong) :=
  ⟨manager_of_run, fun run he => run.began he⟩

theorem traced_reachable : Traced (Reachable (κ := κ) config policy autoPong shared)
    (.new config policy autoPong) :=
  ⟨fun reached => manager_of_run reached.run, fun reached he => reached.began he⟩

/-- **What an entry leads to holds since**, if every later entry preserves it. What holds may depend
on the entries since. -/
theorem Traced.kept {P : World κ σ → Prop} {m₀ : Manager κ} (traced : Traced P m₀)
    {I : List (Handled κ) → Manager κ → Prop} {past later : List (Handled κ)} {r : Handled κ}
    (first : I [] r.after)
    (keeps : ∀ w₀ before x after, later = before ++ x :: after → P w₀ →
      Began w₀ (past ++ r :: before) x → I before w₀.manager → I (before ++ [x]) x.after)
    {w : World κ σ} (reached : P w) (he : w.history = past ++ r :: later) :
    I later w.manager := by
  induction later using List.reverseRecOn generalizing w with
  | nil =>
    rw [traced.manager reached, he, standing_append]
    exact first
  | append_singleton before x ih =>
    have he' : w.history = (past ++ r :: before) ++ x :: [] := by rw [he]; simp
    obtain ⟨w₀, reached₀, began⟩ := traced.began reached he'
    have hI : I before w₀.manager := by
      refine ih (fun w₁ b y a hb => ?_) reached₀ began.history
      exact keeps w₁ b y (a ++ [x]) (by rw [hb]; simp)
    rw [traced.manager reached, he', standing_append]
    exact keeps w₀ before x [] rfl reached₀ began hI

/-! ## How an entry went -/

theorem Steady.deal {w : World κ σ} (h : Steady w) (hp : w.manager.phase ≠ .stopped)
    (letter : Letter κ) (outcomes : Nat → Nat → WriteOutcome) :
    Deal w.manager.config.connectTimeout w.manager.policy w.manager.holding w.manager.ledger
      letter.message (w.handling letter outcomes).holding (w.handling letter outcomes).ledger := by
  refine Turn.handle_deal (t := ⟨w.manager, w.shared, w.now, outcomes, 0, []⟩) hp (fun hs => ?_) _
  exact h.target (by rw [show w.manager.state = _ from hs]; nofun)

namespace Began

variable {w₀ : World κ σ} {past : List (Handled κ)} {r : Handled κ}

theorem going (h : Began w₀ past r) : w₀.manager.phase ≠ .stopped := by
  rw [h.runs]
  nofun

theorem before (h : Began w₀ past r) : r.before = w₀.manager := by
  obtain ⟨rest, outcomes, next, entry⟩ := h.entry
  rw [entry]
  rfl

theorem deal (h : Began w₀ past r) (steady : Steady w₀) :
    Deal r.before.config.connectTimeout r.before.policy r.before.holding r.before.ledger
      r.letter.message r.holding r.ledger := by
  obtain ⟨rest, outcomes, next, entry⟩ := h.entry
  rw [entry]
  exact steady.deal h.going r.letter outcomes

end Began

end Began

end World

end LiveMetrics
