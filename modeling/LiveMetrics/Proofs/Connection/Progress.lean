import LiveMetrics.Proofs.Connection.Opening

/-!
# A manager is never stuck

While a connection is awaited, tried or open, the report that ends this is on its way: the task
that will send it is still running under the present generation, or the report is in the mailbox;
and the manager acts on that report when it comes.
-/

set_option autoImplicit false

namespace LiveMetrics

/-- Whether a message that is handled next is acted on, whenever that is and however the writes go:
it does not leave the manager in its state and its generation. -/
def Manager.ActsOn {κ σ : Type} [Callback κ σ] (m : Manager κ) (message : Message κ) : Prop :=
  ∀ (shared : σ) (now : Nat) (outcomes : Nat → Nat → WriteOutcome),
    (m.handle shared now outcomes message).1.generation ≠ m.generation ∨
      (m.handle shared now outcomes message).1.state ≠ m.state

namespace World

variable {κ σ : Type} {w : World κ σ}

/-- A task that goes on and can still report. -/
def Job.Goes (j : Job) : Prop := j.fate = .running ∧ j.aborted = false

/-- What is to end the present state goes on, or its last report is in the mailbox. -/
theorem Steady.goes_or_reports (steady : Steady w) (runs : w.manager.phase ≠ .stopped) {s : Slot}
    (state : w.manager.state.slot? = some s) : ∃ n j, w.manager.holding.slot s = some n ∧
      w.jobs[n]? = some j ∧ j.what.slot = s ∧ j.what.generation = w.manager.generation ∧
      (j.Goes ∨ ∃ message, ⟨some n, message⟩ ∈ w.mailbox ∧ message.slot? = some s ∧
        message.generation? = some w.manager.generation ∧ message.isLast = true) := by
  obtain ⟨n, j, held, hj, hg, hd⟩ := steady.awaits runs s state
  obtain ⟨j', hj', hs, ha⟩ := steady.placed.held s n held
  obtain rfl : j = j' := Option.some.inj (hj.symm.trans hj')
  refine ⟨n, j, held, hj, hs, hg, ?_⟩
  cases hf : j.fate with
  | running => exact .inl ⟨hf, ha⟩
  | cancelled =>
    have hc := steady.cancelled j (List.mem_of_getElem? hj) hf
    exact Bool.noConfusion (ha.symm.trans hc)
  | delivered =>
    obtain ⟨letter, hl, hn, hlast⟩ := hd hf
    cases steady.letters letter hl with
    | request hr => cases hn
    | report there kind tag last =>
      rename_i message j'
      cases hn
      obtain rfl := Option.some.inj (hj.symm.trans there)
      exact .inr ⟨message, hl, kind.trans (congrArg some hs), tag.trans (congrArg some hg), hlast⟩

variable [Callback κ σ]

/-- The last report that ends the present state is acted on. -/
theorem Steady.actsOn (steady : Steady w) (runs : w.manager.phase ≠ .stopped) {s : Slot}
    (state : w.manager.state.slot? = some s) {message : Message κ} (kind : message.slot? = some s)
    (tag : message.generation? = some w.manager.generation) (last : message.isLast = true) :
    w.manager.ActsOn message := by
  intro shared now outcomes
  have target : w.manager.state = .reconnecting → w.manager.endpoint.isSome = true := by
    intro hs
    exact steady.target (by rw [hs]; nofun)
  have course := Turn.handle_course (t := ⟨w.manager, shared, now, outcomes, 0, []⟩) runs target message
  exact course.acts last (Steady.takes state kind tag last)

/-! ## What is on its way -/

/-- The attempt of the present generation goes on with its limit set, or its report is in the
mailbox. -/
def AttemptPending (w : World κ σ) (limit : Span) : Prop :=
  ∃ n j endpoint, w.manager.openTask = some n ∧ w.jobs[n]? = some j ∧
    j.what = .opening w.manager.generation endpoint limit ∧
    (j.Goes ∧ j.due = some (Loopback.deadline j.begun limit) ∨
      (∃ link, ⟨some n, .opened w.manager.generation link⟩ ∈ w.mailbox) ∨
      ∃ cause, ⟨some n, .openFailed w.manager.generation cause⟩ ∈ w.mailbox)

/-- The timer of the present generation for a retry is set, or the retry is in the mailbox. -/
def RetryPending (w : World κ σ) : Prop :=
  ∃ n j delay, w.manager.retryTask = some n ∧ w.jobs[n]? = some j ∧
    j.what = .retrying w.manager.generation delay ∧
    (j.Goes ∧ j.due = some (Loopback.deadline j.begun delay) ∨
      ⟨some n, .retry w.manager.generation⟩ ∈ w.mailbox)

/-- The reader of the present generation reads the connection that is written to, or the end of the
connection is in the mailbox. -/
def ReaderPending (w : World κ σ) : Prop :=
  ∃ n j link, w.manager.readerTask = some n ∧ w.manager.writer = some link ∧
    w.jobs[n]? = some j ∧ j.what = .reading w.manager.generation link ∧
    (j.Goes ∨ ∃ cause, ⟨some n, .closed w.manager.generation cause⟩ ∈ w.mailbox)

variable {config : Config} {policy : Nat → Verdict} {autoPong : Bool} {shared : σ}

theorem attempt_pending (run : Run config policy autoPong shared w)
    (runs : w.manager.phase ≠ .stopped) (hs : w.manager.state = .connecting) :
    w.AttemptPending config.connectTimeout := by
  have steady := steady_of_run run
  obtain ⟨n, j, hn, hj, hk, hg, hgo⟩ := steady.goes_or_reports runs (s := .opening) (by rw [hs]; rfl)
  have hm := List.mem_of_getElem? hj
  have hd := steady.armed j hm
  have hl := limit_of_run run j hm
  cases hw : j.what with
  | opening g endpoint limit =>
    rw [hw] at hg hd
    obtain rfl : g = w.manager.generation := hg
    obtain rfl := hl _ _ _ hw
    refine ⟨n, j, endpoint, hn, hj, hw, ?_⟩
    rcases hgo with hgo | ⟨message, hmail, hslot, htag, hlast⟩
    · exact .inl ⟨hgo, hd nofun⟩
    · cases message with
      | opened g link =>
        obtain rfl := Option.some.inj htag
        exact .inr (.inl ⟨link, hmail⟩)
      | openFailed g cause =>
        obtain rfl := Option.some.inj htag
        exact .inr (.inr ⟨cause, hmail⟩)
      | _ => cases hslot
  | _ => rw [hw] at hk; cases hk

theorem retry_pending (run : Run config policy autoPong shared w)
    (runs : w.manager.phase ≠ .stopped) (hs : w.manager.state = .reconnecting) :
    w.RetryPending := by
  have steady := steady_of_run run
  obtain ⟨n, j, hn, hj, hk, hg, hgo⟩ := steady.goes_or_reports runs (s := .retrying) (by rw [hs]; rfl)
  have hd := steady.armed j (List.mem_of_getElem? hj)
  cases hw : j.what with
  | retrying g delay =>
    rw [hw] at hg hd
    obtain rfl : g = w.manager.generation := hg
    refine ⟨n, j, delay, hn, hj, hw, ?_⟩
    rcases hgo with hgo | ⟨message, hmail, hslot, htag, hlast⟩
    · exact .inl ⟨hgo, hd nofun⟩
    · cases message with
      | retry g =>
        obtain rfl := Option.some.inj htag
        exact .inr hmail
      | _ => cases hslot
  | _ => rw [hw] at hk; cases hk

theorem reader_pending (run : Run config policy autoPong shared w)
    (runs : w.manager.phase ≠ .stopped) (hs : w.manager.state = .connected) :
    w.ReaderPending := by
  have steady := steady_of_run run
  obtain ⟨n, j, hn, hj, -, hg, hgo⟩ := steady.goes_or_reports runs (s := .reading) (by rw [hs]; rfl)
  obtain ⟨j', g, link, hj', hw, hwhat⟩ := steady.placed.linked n hn
  obtain rfl : j = j' := Option.some.inj (hj.symm.trans hj')
  rw [hwhat] at hg
  obtain rfl : g = w.manager.generation := hg
  refine ⟨n, j, link, hn, hw, hj, hwhat, ?_⟩
  rcases hgo with hgo | ⟨message, hmail, hslot, htag, hlast⟩
  · exact .inl hgo
  · cases message with
    | closed g cause =>
      obtain rfl := Option.some.inj htag
      exact .inr ⟨cause, hmail⟩
    | inbound g frame => cases hlast
    | _ => cases hslot

/-- **A manager is never stuck**: in each state in which something is to come, what ends the state
is on its way, and it is acted on when it is handled. -/
theorem progress_of_run (run : Run config policy autoPong shared w)
    (runs : w.manager.phase ≠ .stopped) :
    (w.manager.state = .connecting → w.AttemptPending config.connectTimeout ∧
      (∀ link, w.manager.ActsOn (.opened w.manager.generation link)) ∧
      ∀ cause, w.manager.ActsOn (.openFailed w.manager.generation cause)) ∧
    (w.manager.state = .reconnecting → w.RetryPending ∧
      w.manager.ActsOn (.retry w.manager.generation)) ∧
    (w.manager.state = .connected → w.ReaderPending ∧
      ∀ cause, w.manager.ActsOn (.closed w.manager.generation cause)) := by
  have steady := steady_of_run run
  refine ⟨fun hs => ⟨attempt_pending run runs hs, fun link => ?_, fun cause => ?_⟩,
    fun hs => ⟨retry_pending run runs hs, ?_⟩,
    fun hs => ⟨reader_pending run runs hs, fun cause => ?_⟩⟩
  · exact steady.actsOn runs (s := .opening) (by rw [hs]; rfl) rfl rfl rfl
  · exact steady.actsOn runs (s := .opening) (by rw [hs]; rfl) rfl rfl rfl
  · exact steady.actsOn runs (s := .retrying) (by rw [hs]; rfl) rfl rfl rfl
  · exact steady.actsOn runs (s := .reading) (by rw [hs]; rfl) rfl rfl rfl

/-- The case of an attempt that has just begun. -/
theorem progress_defaultPending : (Run .default (fun _ => .giveUp) true (.empty 20) defaultPending ∧
    defaultPending.manager.phase ≠ .stopped) ∧
      defaultPending.AttemptPending Config.default.connectTimeout ∧
      defaultPending.manager.ActsOn (.opened defaultPending.manager.generation 0) := by
  have runs : defaultPending.manager.phase ≠ .stopped := nofun
  obtain ⟨pending, acts, -⟩ := (progress_of_run run_defaultPending runs).1 rfl
  exact ⟨⟨run_defaultPending, runs⟩, pending, acts 0⟩

end World

end LiveMetrics
