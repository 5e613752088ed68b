import LiveMetrics.Proofs.Connection.Retrying
import LiveMetrics.Proofs.Window

/-!
# An attempt fails once

However many things go wrong with one attempt to connect, and with the connection that it leads to,
one of them takes effect, and is noted, counted and planned for once. The rest is not noted at all.
So the errors of lost connections and attempts are as many as the retries that were planned and the
times that the client gave up, and no more than the attempts that were begun
(`World.failed_once_of_varying`).

The policy need not be a function: it may answer the same number differently each time that it is
asked (`World.Varying`), as long as it answers.

1. An entry of the history is one failure (`Handled.FailsOnce`) or none (`Handled.Calm`).
2. A failure ends what went on, and what goes on afterwards has just begun (`Deal.busy`). So the
   failures since an attempt last began and the attempt that goes on are one at most
   (`World.lately`).
3. Along a run this adds up (`World.Tallied`).
-/

set_option autoImplicit false

namespace LiveMetrics

/-! ## Errors -/

/-- Whether an error tells of a connection or an attempt that was lost, and not of a frame that was
dropped. -/
def ErrorRecord.isFailure (e : ErrorRecord) : Bool := e.kind != "decode"

theorem DisconnectCause.isFailure_record (cause : DisconnectCause) :
    cause.record.isFailure = true := by
  cases cause <;> simp [ErrorRecord.isFailure, record, kind]

theorem DropReason.isFailure_record (reason : DropReason) : reason.record.isFailure = false := by
  simp [ErrorRecord.isFailure, DropReason.record]

namespace Ledger

variable (l : Ledger)

theorem records_fail (cause : DisconnectCause) {v : Verdict} (sane : ∀ reason, v ≠ .broken reason) :
    (l.fail cause v).records = l.records ++ [cause.record] := by
  cases v with
  | broken reason => exact absurd rfl (sane reason)
  | wait delay | giveUp => rfl

theorem records_drop? (reason : Option DropReason) :
    (l.drop? reason).records = l.records ++ (reason.map DropReason.record).toList := by
  cases reason <;> simp [drop?]

theorem errors_drop? (reason : Option DropReason) :
    (l.drop? reason).errors = l.errors.backfill (reason.map DropReason.record).toList := by
  cases reason <;> rfl

theorem reconnects_drop? (reason : Option DropReason) :
    (l.drop? reason).reconnects = l.reconnects := by
  cases reason <;> rfl

end Ledger

namespace World

variable {κ σ : Type}

/-! ## Entries -/

namespace Handled

variable (r : Handled κ)

/-- How many lost connections and attempts were noted. -/
def failures : Nat := r.records.countP ErrorRecord.isFailure

def givesUp : Bool := r.after.state == .failed && r.before.state != .failed

/-- What the answer of the policy leads to. -/
inductive Follows : Verdict → Prop where
  | waits {task : Nat} {delay : Span} (state : r.after.state = .reconnecting)
      (retries : r.planned = [(task, delay)])
      (count : r.after.health.reconnects = Health.raise r.before.health.reconnects 1) :
      Follows (.wait delay)
  | ends (state : r.after.state = .failed) (retries : r.planned = [])
      (count : r.after.health.reconnects = r.before.health.reconnects) : Follows .giveUp

/-- One failure of what went on: one error is noted, one failure counted, the policy asked once, and
one retry planned if it gives a delay. -/
structure FailsOnce : Prop where
  from_ : r.before.state.isBusy = true
  noted : ∃ cause : DisconnectCause, r.records = [cause.record]
  errors : r.after.health.recentErrors = r.before.health.recentErrors.backfill r.records
  counted : r.after.attempt =
    min ((if r.resets then 0 else r.before.attempt) + 1) Manager.maxAttempt
  asked : r.answers = [r.before.policy r.after.attempt]
  follows : r.Follows (r.before.policy r.after.attempt)

/-- No failure: nothing is noted but frames that were dropped, nothing counted, and the policy not
asked. -/
structure Calm : Prop where
  noted : ∀ e ∈ r.records, e.isFailure = false
  errors : r.after.health.recentErrors = r.before.health.recentErrors.backfill r.records
  counted : r.after.attempt = if r.resets then 0 else r.before.attempt
  silent : r.answers = []
  retries : r.planned = []
  count : r.after.health.reconnects = r.before.health.reconnects
  stays : r.after.state = .failed → r.before.state = .failed

variable {r}

theorem FailsOnce.failures_eq (h : r.FailsOnce) : r.failures = 1 := by
  obtain ⟨cause, noted⟩ := h.noted
  simp [failures, noted, cause.isFailure_record]

theorem Calm.failures_eq (h : r.Calm) : r.failures = 0 :=
  List.countP_eq_zero.mpr fun e he => by simp [h.noted e he]

/-- An entry asks the policy as often as it notes that something was lost. -/
theorem length_answers (h : r.FailsOnce ∨ r.Calm) : r.answers.length = r.failures := by
  rcases h with h | h
  · rw [h.asked, h.failures_eq]
    rfl
  · rw [h.silent, h.failures_eq]
    rfl

/-- Every failure is planned for, or it is the end. -/
theorem failures_eq (h : r.FailsOnce ∨ r.Calm) :
    r.failures = r.planned.length + r.givesUp.toNat := by
  unfold givesUp
  rcases h with h | h
  · rw [h.failures_eq]
    have follows := h.follows
    generalize r.before.policy r.after.attempt = v at follows
    cases follows with
    | waits state retries =>
      rw [retries, state]
      rfl
    | ends state retries =>
      have other : (r.before.state != .failed) = true :=
        bne_iff_ne.mpr fun hs => nomatch hs ▸ h.from_
      simp [retries, state, other]
  · rw [h.failures_eq, h.retries]
    cases hs : r.after.state == .failed with
    | false => rfl
    | true => simp [h.stays (by simpa using hs)]

theorem count_eq (h : r.FailsOnce ∨ r.Calm) {n : Nat}
    (before : r.before.health.reconnects = min n Health.maxCount) :
    r.after.health.reconnects = min (n + r.planned.length) Health.maxCount := by
  have same : r.after.health.reconnects = r.before.health.reconnects → r.planned = [] →
      r.after.health.reconnects = min (n + r.planned.length) Health.maxCount := by
    intro count retries
    simp [count, retries, before]
  rcases h with h | h
  · have follows := h.follows
    generalize r.before.policy r.after.attempt = v at follows
    cases follows with
    | waits state retries count =>
      rw [count, retries, before]
      unfold Health.raise
      simp only [List.length_singleton]
      omega
    | ends state retries count => exact same count retries
  · exact same h.count h.retries

/-- **An entry is one failure or none.** -/
theorem fails_or_calm {limit : Span}
    (deal : Deal limit r.before.policy r.before.holding r.before.ledger r.letter.message r.holding
      r.ledger)
    (running : r.before.holding.stopped = false)
    (bound : r.before.attempt ≤ Manager.maxAttempt)
    (sane : ∀ n reason, r.before.policy n ≠ .broken reason)
    (up : ∀ cause, r.letter.message = .closed r.before.generation cause →
      r.before.state = .connected) : r.FailsOnce ∨ r.Calm := by
  have counted : r.after.attempt =
      min ((if r.resets then 0 else r.before.attempt) + r.answers.length) Manager.maxAttempt := by
    have h := deal.attempt rfl rfl bound
    rw [started_holding] at h
    exact h
  rcases deal.calm_or_falls rfl running with ⟨starts, state, reason, told⟩ |
    ⟨d, cause, failing, told, falls⟩
  · rw [started_holding] at starts
    have records : r.records = (reason.map DropReason.record).toList :=
      (congrArg Ledger.records told).trans (Ledger.records_drop? ..)
    have silent : r.answers = [] := (congrArg Ledger.answers told).trans (Ledger.answers_drop? ..)
    refine .inr ⟨?_, ?_, ?_, silent, starts, ?_, state⟩
    · rw [records]
      cases reason with
      | none => simp
      | some reason => simp [reason.isFailure_record]
    · rw [records]
      exact (congrArg Ledger.errors told).trans (Ledger.errors_drop? ..)
    · rw [counted, silent, List.length_nil, Nat.add_zero]
      refine Nat.min_eq_left ?_
      split
      · exact Nat.zero_le _
      · exact bound
    · exact (congrArg Ledger.reconnects told).trans (Ledger.reconnects_drop? ..)
  · have records : r.records = [cause.record] :=
      (congrArg Ledger.records told).trans (Ledger.records_fail _ cause (sane _))
    have asked : r.answers = [r.before.policy r.after.attempt] :=
      (congrArg Ledger.answers told).trans (Ledger.answers_fail ..)
    refine .inl ⟨failing.busy up, ⟨cause, records⟩, ?_, ?_, asked, ?_⟩
    · rw [records]
      exact (congrArg Ledger.errors told).trans (Ledger.errors_fail ..)
    · rw [counted, asked]
      rfl
    · -- the policy has to be forgotten before its answer can be split
      have count : r.after.health.reconnects =
          (r.before.ledger.fail cause (r.before.policy r.after.attempt)).reconnects :=
        congrArg Ledger.reconnects told
      have answers := sane r.after.attempt
      change r.holding.Falls (r.before.policy r.after.attempt) at falls
      generalize r.before.policy r.after.attempt = v at falls count answers
      cases falls with
      | waits stopped state held starts =>
        rw [started_holding] at starts
        exact .waits state starts count
      | ends stopped state starts =>
        rw [started_holding] at starts
        exact .ends state starts count
      | breaks => exact absurd rfl (answers _)

/-- What goes on was begun, and nothing else was going on when it began. -/
theorem busy_add_begun {limit : Span}
    (deal : Deal limit r.before.policy r.before.holding r.before.ledger r.letter.message r.holding
      r.ledger) : r.before.state.isBusy.toNat + r.begun.length ≤ 1 := by
  have opens : r.begun.length = (r.letter.message.isConnect && !r.before.state.isBusy).toNat +
      (r.before.holding.resumes r.letter.message).toNat := by
    have h := deal.opens rfl
    rw [started_holding] at h
    exact h
  have resumes := r.before.holding.resumes_iff r.letter.message
  cases hr : r.before.holding.resumes r.letter.message with
  | true =>
    obtain ⟨message, state⟩ := resumes.mp hr
    have idle : r.before.state.isBusy = false := by
      rw [show r.before.state = .reconnecting from state]
      rfl
    rw [opens, hr, message, idle]
    exact Nat.le_refl 1
  | false =>
    rw [opens, hr]
    cases r.letter.message.isConnect <;> cases r.before.state.isBusy <;> decide

end Handled

/-! ## Histories -/

/-- The failures since an attempt last began. -/
def lately (history : List (Handled κ)) : Nat :=
  history.foldl (fun n r => (if r.begun = [] then n else 0) + r.failures) 0

theorem lately_append (past : List (Handled κ)) (r : Handled κ) :
    lately (past ++ [r]) = (if r.begun = [] then lately past else 0) + r.failures := by
  simp [lately]

/-- What a history adds up to, and the manager that it leads to. -/
structure Tallied (history : List (Handled κ)) (m : Manager κ) : Prop where
  bound : m.attempt ≤ Manager.maxAttempt
  entries : ∀ r ∈ history, r.FailsOnce ∨ r.Calm
  errors : m.health.recentErrors =
    (Window.empty Health.maxRecentErrors).backfill (history.flatMap Handled.records)
  count : m.health.reconnects =
    min (tally (·.planned.length) history) Health.maxCount
  recent : lately history + m.state.isBusy.toNat ≤ 1
  once : ∀ past, past <+: history → lately past ≤ 1
  total : tally Handled.failures history + m.state.isBusy.toNat ≤
    tally (·.begun.length) history

theorem tallied_new (config : Config) (policy : Nat → Verdict) (autoPong : Bool) :
    Tallied [] (.new config policy autoPong : Manager κ) where
  bound := Nat.zero_le _
  entries := List.forall_mem_nil _
  errors := rfl
  count := (Nat.zero_min _).symm
  recent := Nat.zero_le _
  once := fun past h => by simp [List.prefix_nil.mp h, lately]
  total := Nat.le_refl _

namespace Tallied

variable {past history : List (Handled κ)} {r : Handled κ} {m : Manager κ}

theorem entry {limit : Span} (h : Tallied past r.before)
    (deal : Deal limit r.before.policy r.before.holding r.before.ledger r.letter.message r.holding
      r.ledger)
    (running : r.before.holding.stopped = false)
    (sane : ∀ n reason, r.before.policy n ≠ .broken reason)
    (up : ∀ cause, r.letter.message = .closed r.before.generation cause →
      r.before.state = .connected) : Tallied (past ++ [r]) r.after := by
  have goes := Handled.fails_or_calm deal running h.bound sane up
  have begun := Handled.busy_add_begun deal
  have busy : r.failures + r.after.state.isBusy.toNat ≤
      r.before.state.isBusy.toNat + r.begun.length := by
    have h := deal.busy rfl rfl sane up
    rw [Handled.started_holding] at h
    rw [← Handled.length_answers goes]
    exact h
  have recent : lately (past ++ [r]) + r.after.state.isBusy.toNat ≤ 1 := by
    rw [lately_append]
    have before := h.recent
    split
    · rename_i none_
      rw [none_, List.length_nil] at busy
      omega
    · omega
  refine ⟨?_, ?_, ?_, ?_, recent, ?_, ?_⟩
  · rcases goes with fails | calm
    · rw [fails.counted]
      exact Nat.min_le_right _ _
    · rw [calm.counted]
      split
      · exact Nat.zero_le _
      · exact h.bound
  · simpa [or_imp, forall_and] using ⟨h.entries, goes⟩
  · have errors : r.after.health.recentErrors =
        r.before.health.recentErrors.backfill r.records := by
      rcases goes with fails | calm
      · exact fails.errors
      · exact calm.errors
    rw [errors, h.errors, ← Window.backfill_append]
    simp
  · rw [Handled.count_eq goes h.count, tally_append]
  · intro first le
    rcases List.prefix_concat_iff.mp le with rfl | le
    · exact Nat.le_trans (Nat.le_add_right _ _) recent
    · exact h.once first le
  · have before := h.total
    rw [tally_append, tally_append]
    omega

/-- Every failure was planned for, or it was the end. -/
theorem failures_eq (h : Tallied history m) : tally Handled.failures history =
    tally (·.planned.length) history + history.countP Handled.givesUp := by
  have each := h.entries
  clear h
  induction history using List.reverseRecOn with
  | nil => rfl
  | append_singleton past r ih =>
    have last := Handled.failures_eq (each r (by simp))
    have before := ih fun x hx => each x (by simp [hx])
    rw [tally_append, tally_append, List.countP_append, before, last, List.countP_singleton]
    cases r.givesUp <;> simp <;> omega

end Tallied

/-! ## Runs -/

/-- The policy is another one from now on. -/
def swayed (w : World κ σ) (policy : Nat → Verdict) : World κ σ :=
  { w with manager := { w.manager with policy } }

section Runs

variable [Callback κ σ]

/-- The worlds that a run leads to in which nothing in flight bears the number of a generation that
begins, and the policy answers each time that it is asked, but not always the same. -/
inductive Varying (config : Config) (autoPong : Bool) (shared : σ) : World κ σ → Prop where
  | start {policy : Nat → Verdict} (sane : ∀ n reason, policy n ≠ .broken reason) :
      Varying config autoPong shared (.start config policy autoPong shared)
  | step {w w' : World κ σ} (before : Varying config autoPong shared w) (step : Step w w')
      (fresh : w'.manager.generation ≠ w.manager.generation → w.Unborne w'.manager.generation) :
      Varying config autoPong shared w'
  | sways {w : World κ σ} (before : Varying config autoPong shared w) {policy : Nat → Verdict}
      (sane : ∀ n reason, policy n ≠ .broken reason) :
      Varying config autoPong shared (w.swayed policy)

variable {config : Config} {policy : Nat → Verdict} {autoPong : Bool} {shared : σ} {w : World κ σ}

/-- A policy that is a function does not vary. -/
theorem Reachable.varying (reached : Reachable config policy autoPong shared w)
    (sane : ∀ n reason, policy n ≠ .broken reason) : Varying config autoPong shared w := by
  induction reached with
  | start => exact .start sane
  | step before step fresh ih => exact .step ih step fresh

omit [Callback κ σ] in
theorem Sound.swayed (h : Sound w) (policy : Nat → Verdict) : Sound (w.swayed policy) :=
  ⟨⟨h.placed, h.target, h.letters, h.cancelled, h.armed, h.awaits⟩, h.owns, h.agrees, h.outdates,
    h.released, h.timely⟩

theorem Varying.sound (run : Varying config autoPong shared w) : Sound w := by
  induction run with
  | start => exact sound_start
  | step before step fresh ih =>
    rcases step.turn_or_apart with ⟨letter, rest, outcomes, runs, next, rfl⟩ | ⟨letters, apart⟩
    · rw [manager_turn] at fresh
      exact ih.turn (by rw [runs]; nofun) next fresh
    · exact ih.apart apart
  | sways before sane ih => exact ih.swayed _

theorem Varying.sane (run : Varying config autoPong shared w) :
    ∀ n reason, w.manager.policy n ≠ .broken reason := by
  induction run with
  | start sane => exact sane
  | step before step fresh ih =>
    rw [step.settings.2]
    exact ih
  | sways before sane ih => exact sane

theorem Varying.tallied (run : Varying config autoPong shared w) :
    Tallied w.history w.manager := by
  induction run with
  | start => exact tallied_new _ _ _
  | step before step fresh ih =>
    rename_i w w'
    rcases step.turn_or_apart with ⟨letter, rest, outcomes, runs, next, rfl⟩ | ⟨letters, apart⟩
    · have going : w.manager.phase ≠ .stopped := by
        rw [runs]
        nofun
      rw [history_turn, manager_turn]
      refine Tallied.entry (r := w.handled letter outcomes) ih
        (before.sound.toSteady.deal going letter outcomes) ?_ before.sane
        (before.sound.begins going next).up
      exact Bool.eq_false_iff.mpr fun hs => going ((stopped_iff _).mp hs)
    · rw [apart.manager, apart.history]
      exact ih
  | sways before sane ih => exact ⟨ih.1, ih.2, ih.3, ih.4, ih.5, ih.6, ih.7⟩

/-- **An attempt fails once.** Whatever is reported of an attempt and of the connection that it leads
to, at most one failure takes effect: it ends what went on, adds one error to the log and one to the
count of failures, and plans one retry exactly if the policy gives a delay. Everything else adds no
error but those of frames that were dropped. So the errors of lost connections and attempts are as
many as the retries that were planned and the times that the client gave up, and never more than the
attempts that were begun. -/
theorem failed_once_of_varying (run : Varying config autoPong shared w) :
    (∀ r ∈ w.history, r.FailsOnce ∨ r.Calm) ∧
    w.manager.health.recentErrors =
      (Window.empty Health.maxRecentErrors).backfill (w.history.flatMap Handled.records) ∧
    (∀ past, past <+: w.history → lately past ≤ 1) ∧
    (w.manager.health.reconnects < Health.maxCount → tally Handled.failures w.history =
      w.manager.health.reconnects + w.history.countP Handled.givesUp) ∧
    tally Handled.failures w.history ≤ tally (·.begun.length) w.history := by
  have tallied := run.tallied
  refine ⟨tallied.entries, tallied.errors, tallied.once, fun below => ?_, ?_⟩
  · have count := tallied.count
    rw [tallied.failures_eq]
    omega
  · exact Nat.le_trans (Nat.le_add_right _ _) tallied.total

end Runs

/-! ### A run with another policy -/

def secondRefused : World Listener Notebook :=
  (secondAttempt.swayed fun _ => .giveUp).deliver 2 (.openFailed 3 (.openFailed "refused"))

def gaveUp : World Listener Notebook :=
  secondRefused.turn ⟨some 2, .openFailed 3 (.openFailed "refused")⟩ [] fun _ _ => .done

theorem varying_gaveUp : Varying .default true (.empty 20) gaveUp := by
  have waits : Varying .default true (.empty 20) secondAttempt :=
    reachable_secondAttempt.varying fun _ _ => by simp [retryAfterSecond]
  have swayed : Varying .default true (.empty 20) (secondAttempt.swayed fun _ => .giveUp) :=
    .sways waits fun _ _ => nofun
  have fails : Varying .default true (.empty 20) secondRefused :=
    .step swayed (.refuses ⟨_, rfl, rfl, rfl⟩ _) fun h => absurd rfl h
  refine .step fails (.turns rfl rfl _) fun _ => ⟨fun j hj runs => ?_, fun letter hl => ?_⟩
  · have none_ : ∀ j ∈ secondRefused.jobs, j.fate ≠ .running := by decide
    exact absurd runs (none_ j hj)
  · obtain rfl := List.mem_singleton.mp hl
    decide

/-- The case of two attempts that fail, after one of which the policy gives up. -/
theorem failed_once_gaveUp : Varying .default true (.empty 20) gaveUp ∧
    gaveUp.manager.health.reconnects < Health.maxCount ∧
      tally Handled.failures gaveUp.history =
        gaveUp.manager.health.reconnects + gaveUp.history.countP Handled.givesUp ∧
      gaveUp.manager.health.reconnects = 1 ∧ gaveUp.history.countP Handled.givesUp = 1 := by
  have below : gaveUp.manager.health.reconnects < Health.maxCount := by decide
  exact ⟨varying_gaveUp, below, (failed_once_of_varying varying_gaveUp).2.2.2.1 below, rfl, rfl⟩

end World

end LiveMetrics
