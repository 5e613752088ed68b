import LiveMetrics.Proofs.Connection.Opening

/-!
# Superseded connections

A report is acted on only if it comes from what the manager deals with at present: the attempt that
was begun last, the connection that is open, or the retry that was planned last, and only if
nothing has interrupted it since. What that is can be read off the history of the run
(`World.Since`), without a look at what the manager keeps in mind. Every other report changes
nothing at all (`World.Ignores`).
-/

set_option autoImplicit false

namespace LiveMetrics

namespace World

variable {κ σ : Type}

/-! ## What a turn has done -/

namespace Handled

variable (r : Handled κ)

/-- An entry began an attempt to connect. -/
def Begins (task : Nat) : Prop :=
  ∃ g endpoint limit, Effect.start task (.opening g endpoint limit) ∈ r.effects

def Schedules (task : Nat) : Prop := ∃ g delay, Effect.start task (.retrying g delay) ∈ r.effects

/-- An entry gave the connection or the attempt up. -/
def Fails : Prop := ∃ plan, Effect.log (.plan plan) ∈ r.effects

/-- An entry took a connection into use, with a task that reads it and one that keeps it alive. -/
def Installs (link reader ticker : Nat) : Prop :=
  (∃ g interval, r.letter.message = .opened g link ∧
    Effect.start reader (.reading g link) ∈ r.effects ∧
    Effect.start ticker (.ticking g interval) ∈ r.effects) ∧ ¬ r.Fails

/-- An entry put an end to what was under way: it disconnected, began an attempt, or failed. -/
def Interrupts : Prop := r.letter.message = .disconnect ∨ (∃ task, r.Begins task) ∨ r.Fails

end Handled

/-- Something was done, and nothing has interrupted it since. -/
def Since (w : World κ σ) (p : Handled κ → Prop) : Prop :=
  ∃ before r after, w.history = before ++ r :: after ∧ p r ∧ ∀ x ∈ after, ¬ x.Interrupts

/-- A report from what the manager deals with at present. -/
inductive Current (w : World κ σ) : Letter κ → Prop where
  | attempt {task : Nat} {message : Message κ} (kind : message.slot? = some .opening)
      (state : w.manager.state = .connecting) (held : w.manager.openTask = some task)
      (since : w.Since (·.Begins task)) : Current w ⟨some task, message⟩
  | transport {link reader ticker task : Nat} {message : Message κ}
      (kind : message.slot? = some .reading ∧ task = reader ∨
        message.slot? = some .ticking ∧ task = ticker)
      (state : w.manager.state = .connected) (writer : w.manager.writer = some link)
      (since : w.Since (·.Installs link reader ticker)) : Current w ⟨some task, message⟩
  | retry {task : Nat} {message : Message κ} (kind : message.slot? = some .retrying)
      (state : w.manager.state = .reconnecting) (held : w.manager.retryTask = some task)
      (since : w.Since (·.Schedules task)) : Current w ⟨some task, message⟩

/-- What is held goes back to a turn that nothing has interrupted. -/
structure Lineage (w : World κ σ) : Prop where
  attempt : ∀ n, w.manager.openTask = some n → w.Since (·.Begins n)
  retry : ∀ n, w.manager.retryTask = some n → w.Since (·.Schedules n)
  transport : ∀ link reader ticker, w.manager.writer = some link →
    w.manager.readerTask = some reader → w.manager.heartbeatTask = some ticker →
      w.Since (·.Installs link reader ticker)

theorem Since.append {w w' : World κ σ} {p : Handled κ → Prop} (h : w.Since p) {r : Handled κ}
    (history : w'.history = w.history ++ [r]) (calm : ¬ r.Interrupts) : w'.Since p := by
  obtain ⟨before, r₀, after, he, hp, hc⟩ := h
  refine ⟨before, r₀, after ++ [r], ?_, hp, fun x hx => ?_⟩
  · rw [history, he]
    simp
  · rcases List.mem_append.mp hx with hx | hx
    · exact hc x hx
    · rw [List.mem_singleton.mp hx]; exact calm

theorem Since.now {w : World κ σ} {p : Handled κ → Prop} {past : List (Handled κ)} {r : Handled κ}
    (history : w.history = past ++ [r]) (hp : p r) : w.Since p :=
  ⟨past, r, [], history, hp, fun _ hx => absurd hx List.not_mem_nil⟩

/-! ## Marks and effects -/

theorem start_of_mark {effects : List Effect} {task : Nat} {what : Task}
    (h : Mark.start task what ∈ effects.filterMap Effect.mark?) :
    Effect.start task what ∈ effects := by
  obtain ⟨e, he, hm⟩ := List.mem_filterMap.mp h
  cases e with
  | start task' what' => cases hm; exact he
  | log event => cases event <;> cases hm
  | _ => cases hm

theorem mark_of_start {effects : List Effect} {task : Nat} {what : Task}
    (h : Effect.start task what ∈ effects) :
    Mark.start task what ∈ effects.filterMap Effect.mark? :=
  List.mem_filterMap.mpr ⟨_, h, rfl⟩

theorem mark_of_plan {effects : List Effect} {plan : ReconnectPlan}
    (h : Effect.log (.plan plan) ∈ effects) :
    Mark.failure plan.attempt plan.delay ∈ effects.filterMap Effect.mark? :=
  List.mem_filterMap.mpr ⟨_, h, rfl⟩

variable [Callback κ σ] {w : World κ σ} {letter : Letter κ} {outcomes : Nat → Nat → WriteOutcome}

/-- A turn that leaves no mark and does not disconnect interrupts nothing. -/
theorem not_interrupts (blank : (w.handling letter outcomes).holding.marks = [])
    (other : letter.message ≠ .disconnect) : ¬ (w.handled letter outcomes).Interrupts := by
  have none' : ∀ m, m ∉ (w.handling letter outcomes).effects.filterMap Effect.mark? := by
    intro m hm
    have he : (w.handling letter outcomes).effects.filterMap Effect.mark? = [] := blank
    rw [he] at hm
    cases hm
  rintro (hd | ⟨task, g, endpoint, limit, hs⟩ | ⟨plan, hp⟩)
  · exact other hd
  · exact none' _ (mark_of_start hs)
  · exact none' _ (mark_of_plan hp)

theorem installs_of_settle {link instant reader ticker : Nat} {interval : Span}
    (asked : letter.message = .opened w.manager.generation link)
    (settles : (w.handling letter outcomes).holding =
      w.manager.holding.settle link instant interval)
    (hr : (w.handling letter outcomes).manager.readerTask = some reader)
    (ht : (w.handling letter outcomes).manager.heartbeatTask = some ticker) :
    (w.handled letter outcomes).Installs link reader ticker := by
  let t := w.handling letter outcomes
  have marks : t.effects.filterMap Effect.mark? =
      (w.manager.holding.settle link instant interval).marks := congrArg Holding.marks settles
  have hr' : w.manager.tasks = reader := by
    have he : t.manager.readerTask = some w.manager.tasks := congrArg Holding.readerTask settles
    exact Option.some.inj (he.symm.trans hr)
  have ht' : w.manager.tasks + 1 = ticker := by
    have he : t.manager.heartbeatTask = some (w.manager.tasks + 1) :=
      congrArg Holding.heartbeatTask settles
    exact Option.some.inj (he.symm.trans ht)
  subst hr' ht'
  refine ⟨⟨w.manager.generation, interval, asked, start_of_mark ?_, start_of_mark ?_⟩, ?_⟩
  · rw [show (w.handled letter outcomes).effects = t.effects from rfl, marks,
      Holding.marks_settle]
    simp [Manager.holding]
  · rw [show (w.handled letter outcomes).effects = t.effects from rfl, marks,
      Holding.marks_settle]
    simp [Manager.holding]
  · rintro ⟨plan, hp⟩
    have hm : Mark.failure plan.attempt plan.delay ∈ t.effects.filterMap Effect.mark? :=
      mark_of_plan hp
    rw [marks, Holding.marks_settle] at hm
    simp only [List.mem_append, List.mem_map, List.mem_singleton, reduceCtorEq, and_false,
      exists_false, or_false] at hm
    rcases hm with hm | hm
    · cases hm
    · split at hm
      · cases hm
      · cases List.mem_singleton.mp hm

/-! ## Lineage in every run -/

variable {config : Config} {policy : Nat → Verdict} {autoPong : Bool} {shared : σ}

theorem begins_of_mark {task : Nat} {what : Task} {effects : List Effect}
    (hm : Mark.start task what ∈ effects.filterMap Effect.mark?) (hw : what.slot = .opening) :
    ∃ g endpoint limit, Effect.start task (.opening g endpoint limit) ∈ effects := by
  cases what with
  | opening g endpoint limit => exact ⟨g, endpoint, limit, start_of_mark hm⟩
  | _ => cases hw

theorem schedules_of_mark {task : Nat} {what : Task} {effects : List Effect}
    (hm : Mark.start task what ∈ effects.filterMap Effect.mark?) (hw : what.slot = .retrying) :
    ∃ g delay, Effect.start task (.retrying g delay) ∈ effects := by
  cases what with
  | retrying g delay => exact ⟨g, delay, start_of_mark hm⟩
  | _ => cases hw

section Turn

variable {rest : List (Letter κ)}

/-- Nothing has changed, and nothing was interrupted. -/
theorem Lineage.turn_of_same (lineage : Lineage w)
    (same : (w.handling letter outcomes).holding = w.manager.holding)
    (other : letter.message ≠ .disconnect) : Lineage (w.turn letter rest outcomes) := by
  let t := w.handling letter outcomes
  have history := history_turn w letter rest outcomes
  have calm : ¬ (w.handled letter outcomes).Interrupts :=
    not_interrupts (congrArg Holding.marks same) other
  refine ⟨fun n hn => ?_, fun n hn => ?_, fun link reader ticker hl hr ht => ?_⟩
  · rw [manager_turn] at hn
    have ho : t.manager.openTask = w.manager.openTask := congrArg Holding.openTask same
    exact (lineage.attempt n (ho.symm.trans hn)).append history calm
  · rw [manager_turn] at hn
    have hy : t.manager.retryTask = w.manager.retryTask := congrArg Holding.retryTask same
    exact (lineage.retry n (hy.symm.trans hn)).append history calm
  · rw [manager_turn] at hl hr ht
    have hw : t.manager.writer = w.manager.writer := congrArg Holding.writer same
    have hr' : t.manager.readerTask = w.manager.readerTask := congrArg Holding.readerTask same
    have ht' : t.manager.heartbeatTask = w.manager.heartbeatTask :=
      congrArg Holding.heartbeatTask same
    exact (lineage.transport link reader ticker (hw.symm.trans hl) (hr'.symm.trans hr)
      (ht'.symm.trans ht)).append history calm

/-- A connection whose tasks the turn has started was taken into use by it. -/
theorem installs_of_renewed (sound : Sound w) (hp : w.manager.phase ≠ .stopped)
    (next : w.mailbox = letter :: rest)
    (renewed : (w.handling letter outcomes).holding.Renewed w.manager.tasks)
    {link reader ticker : Nat} (hl : (w.handling letter outcomes).manager.writer = some link)
    (hr : (w.handling letter outcomes).manager.readerTask = some reader)
    (ht : (w.handling letter outcomes).manager.heartbeatTask = some ticker) :
    (w.handled letter outcomes).Installs link reader ticker := by
  let t := w.handling letter outcomes
  have course := sound.course hp letter outcomes
  -- a connection that is written to is open
  have up : t.holding.stopped = false ∧ t.holding.state = .connected := by
    cases course.settled (sound.begins hp next) with
    | stopped _ released => exact nomatch released.writer.symm.trans hl
    | agrees same agrees =>
      refine ⟨same.trans ?_, agrees.writing.mp ?_⟩
      · exact Bool.eq_false_iff.mpr fun hs => hp ((stopped_iff _).mp hs)
      · rw [show t.holding.writer = some link from hl]; rfl
  rcases course.connected up.1 up.2 with ⟨he, -⟩ | ⟨link', instant, interval, -, asked, settles⟩
  · obtain ⟨hk, -⟩ := renewed .ticking ticker ht
    have held : w.manager.holding.slot .ticking = some ticker :=
      (congrArg Holding.heartbeatTask he).symm.trans ht
    obtain ⟨j, hj, -⟩ := sound.placed.held .ticking ticker held
    have hlt := (List.getElem?_eq_some_iff.mp hj).1
    have htasks : w.manager.tasks = w.jobs.length := sound.placed.tasks
    change ticker < w.jobs.length at hlt
    omega
  · obtain rfl : link' = link := by
      have hw : t.manager.writer = some link' := congrArg Holding.writer settles
      exact Option.some.inj (hw.symm.trans hl)
    exact installs_of_settle asked settles hr ht

/-- What is held after a turn goes back to it, or to what it went back to before. -/
theorem Lineage.turn (lineage : Lineage w) (sound : Sound w) (hp : w.manager.phase ≠ .stopped)
    (next : w.mailbox = letter :: rest) : Lineage (w.turn letter rest outcomes) := by
  have history := history_turn w letter rest outcomes
  rcases (sound.course hp letter outcomes).renewed (sound.begins hp next) with
    ⟨same, other, -⟩ | renewed
  · exact lineage.turn_of_same same other
  · refine ⟨fun n hn => ?_, fun n hn => ?_, fun link reader ticker hl hr ht => ?_⟩
    · rw [manager_turn] at hn
      obtain ⟨-, what, hm, hw⟩ := renewed .opening n hn
      exact .now history (begins_of_mark hm hw)
    · rw [manager_turn] at hn
      obtain ⟨-, what, hm, hw⟩ := renewed .retrying n hn
      exact .now history (schedules_of_mark hm hw)
    · rw [manager_turn] at hl hr ht
      exact .now history (installs_of_renewed sound hp next renewed hl hr ht)

end Turn

theorem lineage_of_reachable (h : Reachable config policy autoPong shared w) : Lineage w := by
  induction h with
  | start => exact ⟨nofun, nofun, nofun⟩
  | step before step fresh ih =>
    rename_i w w'
    rcases step.turn_or_apart with ⟨letter, rest, outcomes, runs, next, rfl⟩ | ⟨letters, apart⟩
    · have hp : w.manager.phase ≠ .stopped := by rw [runs]; nofun
      exact ih.turn (sound_of_reachable before) hp next
    · have since : ∀ {p : Handled κ → Prop}, w.Since p → w'.Since p := by
        rintro p ⟨past, r, after, he, hrest⟩
        exact ⟨past, r, after, apart.history.trans he, hrest⟩
      refine ⟨fun n hn => ?_, fun n hn => ?_, fun link reader ticker hl hr ht => ?_⟩
      · rw [apart.manager] at hn; exact since (ih.attempt n hn)
      · rw [apart.manager] at hn; exact since (ih.retry n hn)
      · rw [apart.manager] at hl hr ht; exact since (ih.transport link reader ticker hl hr ht)

/-! ## Reports that change nothing -/

/-- Handling a letter changes nothing and does nothing, except that a connection that comes too late
is let go. -/
def Ignores (w : World κ σ) (letter : Letter κ) (outcomes : Nat → Nat → WriteOutcome) : Prop :=
  let (manager, shared, effects) := w.manager.handle w.shared w.now outcomes letter.message
  manager = w.manager ∧ shared = w.shared ∧ ∀ e ∈ effects, ∃ link, e = .discard link

theorem ignores_of_same
    (h : w.handling letter outcomes = ⟨w.manager, w.shared, w.now, outcomes, 0, []⟩) :
    w.Ignores letter outcomes := by
  show (w.handling letter outcomes).manager = w.manager ∧
    (w.handling letter outcomes).shared = w.shared ∧
      ∀ e ∈ (w.handling letter outcomes).effects, ∃ link, e = .discard link
  rw [h]
  exact ⟨rfl, rfl, fun e he => absurd he List.not_mem_nil⟩

theorem ignores_opened {g : UInt64} {link : Nat} {sender : Option Nat}
    (late : ¬ (g = w.manager.generation ∧ w.manager.state = .connecting)) :
    w.Ignores ⟨sender, .opened g link⟩ outcomes := by
  let t : Turn κ σ := ⟨w.manager, w.shared, w.now, outcomes, 0, []⟩
  have hc : ¬ t.current g .connecting = true := fun h => late ((Turn.current_iff _ _).mp h)
  have he : t.handle (.opened g link) = t.emit (.discard link) := if_neg hc
  show (t.handle (.opened g link)).manager = w.manager ∧
    (t.handle (.opened g link)).shared = w.shared ∧
      ∀ e ∈ (t.handle (.opened g link)).effects, ∃ link, e = .discard link
  rw [he]
  exact ⟨rfl, rfl, fun e hm => ⟨link, List.mem_singleton.mp hm⟩⟩

theorem ignores_of_generation {g : UInt64} (tag : letter.message.generation? = some g)
    (other : g ≠ w.manager.generation) : w.Ignores letter outcomes := by
  obtain ⟨sender, message⟩ := letter
  let t : Turn κ σ := ⟨w.manager, w.shared, w.now, outcomes, 0, []⟩
  have hc : ∀ state, ¬ t.current g state = true :=
    fun state h => other ((Turn.current_iff _ _).mp h).1
  cases message with
  | opened g' link =>
    cases tag
    exact ignores_opened fun h => other h.1
  | openFailed g' cause => cases tag; exact ignores_of_same (if_neg (hc _))
  | inbound g' frame => cases tag; exact ignores_of_same (if_neg (hc _))
  | closed g' cause =>
    cases tag
    exact ignores_of_same (if_neg fun h => other (beq_iff_eq.mp h))
  | retry g' => cases tag; exact ignores_of_same (if_neg (hc _))
  | tick g' => cases tag; exact ignores_of_same (if_neg (hc _))
  | _ => cases tag

theorem ignores_of_state (kind : letter.message.slot? = some .opening)
    (other : w.manager.state ≠ .connecting) : w.Ignores letter outcomes := by
  obtain ⟨sender, message⟩ := letter
  let t : Turn κ σ := ⟨w.manager, w.shared, w.now, outcomes, 0, []⟩
  have hc : ∀ g, ¬ t.current g .connecting = true :=
    fun g h => other ((Turn.current_iff _ _).mp h).2
  cases message with
  | opened g link => exact ignores_opened fun h => other h.2
  | openFailed g cause => exact ignores_of_same (if_neg (hc g))
  | _ => cases kind

/-- **Superseded connections have no effect**: in a run of fewer than 2 ^ 64 generations, every
report that is handled comes from the present attempt, connection or retry, or changes nothing. -/
theorem superseded_of_run (run : Run config policy autoPong shared w) (few : w.bumps < 2 ^ 64)
    (runs : w.manager.phase = .running) {rest : List (Letter κ)}
    (next : w.mailbox = letter :: rest) (report : letter.message.isRequest = false)
    (outcomes : Nat → Nat → WriteOutcome) : w.Current letter ∨ w.Ignores letter outcomes := by
  have reached := (run.reachable few).1
  have sound := sound_of_reachable reached
  have lineage := lineage_of_reachable reached
  have agrees := sound.agrees (by rw [runs]; nofun)
  cases sound.letters letter (next ▸ List.mem_cons_self) with
  | request hr => exact nomatch hr.symm.trans report
  | report there kind tag last =>
    rename_i task message j
    -- of the present generation, the sender is held, or it is the attempt that has led to the connection
    by_cases hg : j.what.generation = w.manager.generation
    · rcases sound.timely _ (next ▸ List.mem_cons_self) task j rfl there hg with held | ⟨ho, hc⟩
      · left
        cases hk : j.what.slot with
        | opening =>
          rw [hk] at kind held
          have hs : w.manager.state = .connecting :=
            agrees.opening.mp (by rw [show w.manager.holding.openTask = some task from held]; rfl)
          exact .attempt kind hs held (lineage.attempt task held)
        | retrying =>
          rw [hk] at kind held
          have hs : w.manager.state = .reconnecting :=
            agrees.retrying.mp (by rw [show w.manager.holding.retryTask = some task from held]; rfl)
          exact .retry kind hs held (lineage.retry task held)
        | reading =>
          rw [hk] at kind held
          have hs : w.manager.state = .connected :=
            agrees.reading.mp (by rw [show w.manager.holding.readerTask = some task from held]; rfl)
          obtain ⟨link, hl⟩ := Option.isSome_iff_exists.mp (agrees.writing.mpr hs)
          obtain ⟨ticker, ht⟩ := Option.isSome_iff_exists.mp (agrees.ticking.mpr hs)
          exact .transport (.inl ⟨kind, rfl⟩) hs hl (lineage.transport link task ticker hl held ht)
        | ticking =>
          rw [hk] at kind held
          have hs : w.manager.state = .connected :=
            agrees.ticking.mp (by rw [show w.manager.holding.heartbeatTask = some task from held]; rfl)
          obtain ⟨link, hl⟩ := Option.isSome_iff_exists.mp (agrees.writing.mpr hs)
          obtain ⟨reader, hr⟩ := Option.isSome_iff_exists.mp (agrees.reading.mpr hs)
          exact .transport (.inr ⟨kind, rfl⟩) hs hl (lineage.transport link reader task hl hr held)
      · right
        exact ignores_of_state (ho ▸ kind) (by rw [hc]; nofun)
    · exact .inr (ignores_of_generation tag hg)

/-- The case of an attempt that has led to a connection. -/
theorem superseded_defaultAnswered :
    (Run .default (fun _ => .giveUp) true (.empty 20) defaultAnswered ∧
      defaultAnswered.bumps < 2 ^ 64 ∧ defaultAnswered.manager.phase = .running ∧
      defaultAnswered.mailbox = [⟨some 0, .opened 1 0⟩]) ∧
    (defaultAnswered.Current ⟨some 0, .opened 1 0⟩ ∨
      defaultAnswered.Ignores ⟨some 0, .opened 1 0⟩ fun _ _ => .done) := by
  have few : defaultAnswered.bumps < 2 ^ 64 := by decide
  exact ⟨⟨run_defaultAnswered, few, rfl, rfl⟩, superseded_of_run run_defaultAnswered few rfl rfl rfl _⟩

end World

end LiveMetrics
