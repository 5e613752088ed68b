import LiveMetrics.Proofs.Connection.Turns

/-!
# What holds in every run

`World.Steady` holds between any two steps of a run, also when generations come round: what is held
are tasks that go on, every report in the mailbox can be traced to its task, and what is to end the
present state (`World.Awaited`) is held under the present generation or has its last report in the
mailbox. `steady_of_run` is the induction over a run:

1. a step other than a turn moves the tasks on, and traces the letters that it posts
   (`Steady.apart`);
2. a turn takes one of the courses of `Course`: it leaves things as they are, or what is to end the
   state after it has just been started (`Steady.turn`).
-/

set_option autoImplicit false

namespace LiveMetrics

namespace World

variable {κ σ : Type}

/-! ## The invariant -/

/-- A letter that can be traced: a request comes from nobody, and a report from a task of its kind
and generation, which has ended if that was its last report. -/
inductive Traceable (jobs : List Job) : Letter κ → Prop where
  | request {message : Message κ} (request : message.isRequest = true) :
      Traceable jobs ⟨none, message⟩
  | report {task : Nat} {message : Message κ} {j : Job} (there : jobs[task]? = some j)
      (kind : message.slot? = some j.what.slot)
      (tag : message.generation? = some j.what.generation)
      (last : message.isLast = true → j.fate = .delivered) : Traceable jobs ⟨some task, message⟩

/-- The task that is to end the present state is of the present generation, and if it has ended its
last report is in the mailbox. -/
def Awaited (w : World κ σ) : Prop :=
  ∀ s, w.manager.state.slot? = some s → ∃ n j, w.manager.holding.slot s = some n ∧
    w.jobs[n]? = some j ∧ j.what.generation = w.manager.generation ∧
    (j.fate = .delivered → Reports w.mailbox n)

/-- What holds between any two steps of a run. -/
structure Steady (w : World κ σ) : Prop where
  placed : w.manager.holding.Placed w.now w.jobs
  target : w.manager.state ≠ .disconnected → w.manager.endpoint.isSome = true
  letters : ∀ letter ∈ w.mailbox, Traceable w.jobs letter
  cancelled : ∀ j ∈ w.jobs, j.fate = .cancelled → j.aborted = true
  armed : ∀ j ∈ w.jobs, j.what.slot ≠ .ticking → j.due = j.what.due? j.begun
  awaits : w.manager.phase ≠ .stopped → w.Awaited

theorem Reports.mono {letters letters' : List (Letter κ)} {task : Nat} (h : Reports letters task)
    (sub : letters ⊆ letters') : Reports letters' task := by
  obtain ⟨letter, hl, hrest⟩ := h
  exact ⟨letter, sub hl, hrest⟩

/-! ## Steps without the manager -/

theorem Traceable.ages {jobs jobs' : List Job} {letter : Letter κ} (h : Traceable jobs letter)
    (ages : Ages jobs jobs') : Traceable jobs' letter := by
  cases h with
  | request hr => exact .request hr
  | report there kind tag last =>
    obtain ⟨j', hj', hl⟩ := ages.later _ _ there
    refine .report hj' (hl.what ▸ kind) (hl.what ▸ tag) fun hm => ?_
    have hd := last hm
    exact (hl.fate (by rw [hd]; nofun)).trans hd

theorem Sent.traceable {jobs jobs' : List Job} {letter : Letter κ} (h : Sent jobs jobs' letter)
    (ages : Ages jobs jobs') : Traceable jobs' letter := by
  cases h with
  | request hr => exact .request hr
  | report there runs kind tag later last =>
    obtain ⟨j', hj', hl⟩ := ages.later _ _ there
    obtain rfl := Option.some.inj (later.symm.trans hj')
    exact .report hj' (hl.what ▸ kind) (hl.what ▸ tag) last

namespace Apart

variable {w w' : World κ σ} {letters : List (Letter κ)}

theorem mailbox_of_running (h : Apart w w' letters) (hp : w.manager.phase ≠ .stopped) :
    w'.mailbox = w.mailbox ++ letters := by
  rw [h.mailbox, if_neg hp]

theorem mem_mailbox (h : Apart w w' letters) {letter : Letter κ} (hl : letter ∈ w'.mailbox) :
    letter ∈ w.mailbox ∨ letter ∈ letters := by
  rw [h.mailbox] at hl
  split at hl
  · exact .inl hl
  · exact List.mem_append.mp hl

theorem earlier (h : Apart w w' letters) {j' : Job} (hj' : j' ∈ w'.jobs) :
    ∃ j ∈ w.jobs, j.Later j' := by
  obtain ⟨n, hn⟩ := List.getElem?_of_mem hj'
  obtain ⟨j, hj, hl⟩ := h.jobs.earlier hn
  exact ⟨j, List.mem_of_getElem? hj, hl⟩

theorem placed (h : Apart w w' letters) (placed : w.manager.holding.Placed w.now w.jobs) :
    w'.manager.holding.Placed w'.now w'.jobs := by
  rw [h.manager]
  refine ⟨?_, ?_, ?_⟩
  · exact placed.tasks.trans h.jobs.length.symm
  · intro s n hs
    obtain ⟨j, hj, hk, ha⟩ := placed.held s n hs
    obtain ⟨j', hj', hl⟩ := h.jobs.later n j hj
    exact ⟨j', hj', hl.what ▸ hk, hl.aborted.trans ha⟩
  · intro n hr
    obtain ⟨j, g, link, hj, hw, hk⟩ := placed.linked n hr
    obtain ⟨j', hj', hl⟩ := h.jobs.later n j hj
    exact ⟨j', g, link, hj', hw, hl.what.trans hk⟩

end Apart

namespace Steady

variable {w w' : World κ σ}

theorem apart (h : Steady w) {letters : List (Letter κ)} (apart : Apart w w' letters) :
    Steady w' := by
  refine ⟨apart.placed h.placed, ?_, ?_, ?_, ?_, ?_⟩
  · rw [apart.manager]; exact h.target
  · intro letter hl
    rcases apart.mem_mailbox hl with hl | hl
    · exact (h.letters letter hl).ages apart.jobs
    · exact (apart.sent letter hl).traceable apart.jobs
  · intro j' hj' hc
    obtain ⟨j, hj, hl⟩ := apart.earlier hj'
    rw [hl.aborted]
    exact (hl.cancelled hc).elim (h.cancelled j hj) id
  · intro j' hj' hs
    obtain ⟨j, hj, hl⟩ := apart.earlier hj'
    rw [hl.what] at hs
    rw [hl.what, hl.begun, hl.due hs]
    exact h.armed j hj hs
  · intro hp s hs
    rw [apart.manager] at hp hs
    obtain ⟨n, j, hn, hj, hg, hd⟩ := h.awaits hp s hs
    obtain ⟨j', hj', hl⟩ := apart.jobs.later n j hj
    refine ⟨n, j', ?_, hj', ?_, fun hd' => ?_⟩
    · rw [apart.manager]; exact hn
    · rw [apart.manager, hl.what]; exact hg
    · rw [apart.mailbox_of_running hp]
      rcases apart.reported n j j' hj hj' hd' with he | he
      · exact (hd he).mono (List.subset_append_left ..)
      · exact he.mono (List.subset_append_right ..)

/-! ## Turns -/

/-- The last report that ends the present state, if it is of the present generation, is taken. -/
theorem takes {m : Manager κ} {s : Slot} (state : m.state.slot? = some s) {message : Message κ}
    (kind : message.slot? = some s) (tag : message.generation? = some m.generation)
    (last : message.isLast = true) : m.holding.Takes message := by
  cases hm : m.state with
  | connecting =>
    rw [hm] at state
    cases state
    cases message with
    | opened g link => exact ⟨Option.some.inj tag, hm⟩
    | openFailed g cause => exact ⟨Option.some.inj tag, hm⟩
    | _ => cases kind
  | connected =>
    rw [hm] at state
    cases state
    cases message with
    | closed g cause => exact ⟨Option.some.inj tag, by rw [show m.holding.state = _ from hm]; rfl⟩
    | inbound g frame => cases last
    | _ => cases kind
  | reconnecting =>
    rw [hm] at state
    cases state
    cases message with
    | retry g => exact ⟨Option.some.inj tag, hm⟩
    | _ => cases kind
  | disconnected => rw [hm] at state; cases state
  | failed => rw [hm] at state; cases state

variable [Callback κ σ] {letter : Letter κ} {rest : List (Letter κ)}

theorem course (h : Steady w) (hp : w.manager.phase ≠ .stopped) (letter : Letter κ)
    (outcomes : Nat → Nat → WriteOutcome) :
    Course w.manager.config.connectTimeout w.manager.policy w.manager.holding letter.message
      (w.handling letter outcomes).holding := by
  refine Turn.handle_course (t := ⟨w.manager, w.shared, w.now, outcomes, 0, []⟩) hp (fun hs => ?_) _
  exact h.target (by rw [show w.manager.state = _ from hs]; nofun)

variable {outcomes : Nat → Nat → WriteOutcome}

/-- What ends the present state is not handled in a turn that leaves things as they are. -/
theorem awaited_of_same (h : Steady w) (hp : w.manager.phase ≠ .stopped)
    (next : w.mailbox = letter :: rest)
    (same : (w.handling letter outcomes).holding = w.manager.holding)
    (stale : letter.message.isLast = true → ¬ w.manager.holding.Takes letter.message) :
    (w.turn letter rest outcomes).Awaited := by
  let t := w.handling letter outcomes
  have runs : t.manager.phase ≠ .stopped := by
    intro hs
    have hb : w.manager.holding.stopped = true := same ▸ (stopped_iff t.manager).mpr hs
    exact hp ((stopped_iff _).mp hb)
  have state : t.manager.state = w.manager.state := congrArg Holding.state same
  have generation : t.manager.generation = w.manager.generation := congrArg Holding.generation same
  intro s hs
  rw [manager_turn, state] at hs
  obtain ⟨n, j, hn, hj, hg, hd⟩ := h.awaits hp s hs
  obtain ⟨a, ha, -⟩ := old_job w letter rest outcomes hj
  refine ⟨n, _, ?_, ha, ?_, fun hf => ?_⟩
  · rw [manager_turn, Turn.slot_holding, same]; exact hn
  · rw [manager_turn, generation]; exact hg
  · obtain ⟨l, hl, hsender, hlast⟩ := hd hf
    rw [mailbox_turn, if_neg runs]
    rw [next] at hl
    rcases List.mem_cons.mp hl with rfl | hl
    · -- the letter that was handled would have been taken
      refine absurd ?_ (stale hlast)
      cases h.letters l (next ▸ List.mem_cons_self) with
      | request hr => cases hsender
      | report there kind tag last =>
        cases hsender
        obtain rfl := Option.some.inj (hj.symm.trans there)
        obtain ⟨j', hj', hk, -⟩ := h.placed.held s n hn
        obtain rfl : j = j' := Option.some.inj (hj.symm.trans hj')
        exact takes hs (kind.trans (congrArg some hk)) (tag.trans (congrArg some hg)) hlast
    · exact ⟨l, hl, hsender, hlast⟩

theorem turn (h : Steady w) (hp : w.manager.phase ≠ .stopped) (next : w.mailbox = letter :: rest) :
    Steady (w.turn letter rest outcomes) := by
  let t := w.handling letter outcomes
  have course : Course _ _ _ _ t.holding := h.course hp letter outcomes
  refine ⟨?_, ?_, ?_, ?_, ?_, ?_⟩
  · rw [manager_turn, now_turn, jobs_turn]
    exact (course.placed h.placed).rebase w.now
  · rw [manager_turn]
    exact course.target h.target
  · intro l hl
    have hm : l ∈ w.mailbox := by
      rw [mailbox_turn] at hl
      split at hl
      · cases hl
      · exact next ▸ List.mem_cons_of_mem _ hl
    cases h.letters l hm with
    | request hr => exact .request hr
    | report there kind tag last =>
      obtain ⟨a, ha, -⟩ := old_job w letter rest outcomes there
      exact .report ha kind tag last
  · intro j' hj' hc
    obtain ⟨n, hn⟩ := List.getElem?_of_mem hj'
    rcases new_job w hn with ⟨j, a, hj, rfl, ha⟩ | ⟨-, what, a, rfl⟩
    · exact ha (h.cancelled j (List.mem_of_getElem? hj) hc)
    · cases hc
  · intro j' hj' hs
    obtain ⟨n, hn⟩ := List.getElem?_of_mem hj'
    rcases new_job w hn with ⟨j, a, hj, rfl, -⟩ | ⟨-, what, a, rfl⟩
    · exact h.armed j (List.mem_of_getElem? hj) hs
    · rfl
  · intro runs
    rw [manager_turn] at runs
    rcases course.awaits h.placed with ⟨same, stale⟩ | stopped | awaits
    · exact h.awaited_of_same hp next same stale
    · exact absurd ((stopped_iff t.manager).mp stopped) runs
    · intro s hs
      rw [manager_turn] at hs
      obtain ⟨n, what, hn, hj, hg⟩ := awaits s hs
      refine ⟨n, .new w.now what, ?_, ?_, ?_, nofun⟩
      · rw [manager_turn, Turn.slot_holding]; exact hn
      · rw [jobs_turn]; exact hj
      · rw [manager_turn]; exact hg

end Steady

/-! ## Runs -/

section Runs

variable {config : Config} {policy : Nat → Verdict} {autoPong : Bool} {shared : σ}

theorem steady_start : Steady (start config policy autoPong shared : World κ σ) := by
  refine ⟨⟨rfl, fun s n hs => ?_, nofun⟩, fun hs => absurd rfl hs, List.forall_mem_nil _,
    List.forall_mem_nil _, List.forall_mem_nil _, fun _ _ hs => nomatch hs⟩
  cases s <;> cases hs

variable [Callback κ σ] {w : World κ σ}

theorem Reachable.run (h : Reachable config policy autoPong shared w) :
    Run config policy autoPong shared w := by
  induction h with
  | start => exact .start
  | step before step fresh ih => exact .step ih step

/-- **The invariant of all runs.** -/
theorem steady_of_run (h : Run config policy autoPong shared w) : Steady w := by
  induction h with
  | start => exact steady_start
  | step before step ih =>
    rcases step.turn_or_apart with ⟨letter, rest, outcomes, runs, next, rfl⟩ | ⟨letters, apart⟩
    · exact ih.turn (by rw [runs]; nofun) next
    · exact ih.apart apart

end Runs

end World

end LiveMetrics
