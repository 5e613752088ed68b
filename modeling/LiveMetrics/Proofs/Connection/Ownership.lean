import Mathlib.Data.List.Induction
import LiveMetrics.Proofs.Connection.World

/-!
# Tasks and their owner

A manager holds at most one task of each kind, in a slot for that kind. Every operation of a turn is
a sequence of four small ones:

1. `drop` aborts what a slot holds and empties it;
2. `put _ none` empties a slot;
3. the generation changes;
4. `hire` starts a task into its slot.

They always keep `Holding.Placed`: a held task exists, is of the right kind, and has not been
aborted. They keep `Holding.Owns` as well if a slot is emptied without an abort only when its task
has sent its last report, if the generation changes only while all slots are empty, and if a task
is started only into an empty slot: then held tasks are of the present generation, and a task that
is not held was aborted or has sent its last report.
-/

set_option autoImplicit false

namespace LiveMetrics

open World (Job)

inductive Slot where
  | opening
  | reading
  | ticking
  | retrying
  deriving DecidableEq

def Task.slot : Task → Slot
  | .opening _ _ _ => .opening
  | .reading _ _ => .reading
  | .ticking _ _ => .ticking
  | .retrying _ _ => .retrying

/-- What a mark does to the tasks. -/
def Mark.onJobs (now : Nat) (jobs : List Job) : Mark → List Job
  | .start _ what => jobs ++ [.new now what]
  | .abort task => jobs.modify task fun j => { j with aborted := true }
  | .publish _ _ | .failure _ _ => jobs

namespace Holding

/-! ## Slots -/

def slot (c : Holding) : Slot → Option Nat
  | .opening => c.openTask
  | .reading => c.readerTask
  | .ticking => c.heartbeatTask
  | .retrying => c.retryTask

/-- Puts a task into a slot, or empties it. -/
def put (c : Holding) : Slot → Option Nat → Holding
  | .opening, task => { c with openTask := task }
  | .reading, task => { c with readerTask := task }
  | .ticking, task => { c with heartbeatTask := task }
  | .retrying, task => { c with retryTask := task }

/-- Aborts the task in a slot and empties the slot. -/
def drop (c : Holding) (s : Slot) : Holding := (c.abort? (c.slot s)).put s none

/-- Starts a task into its slot. -/
def hire (c : Holding) (what : Task) : Holding := (c.start what).put what.slot (some c.tasks)

/-- The tasks after the marks of a turn that began with `base`. -/
def jobs (c : Holding) (now : Nat) (base : List Job) : List Job :=
  c.marks.foldl (Mark.onJobs now) base

section Slots

variable (c : Holding) (s s' : Slot) (task : Option Nat)

theorem slot_put : (c.put s task).slot s' = if s' = s then task else c.slot s' := by
  cases s <;> cases s' <;> rfl

@[simp] theorem generation_put : (c.put s task).generation = c.generation := by cases s <;> rfl
@[simp] theorem tasks_put : (c.put s task).tasks = c.tasks := by cases s <;> rfl
@[simp] theorem marks_put : (c.put s task).marks = c.marks := by cases s <;> rfl
@[simp] theorem writer_put : (c.put s task).writer = c.writer := by cases s <;> rfl

@[simp] theorem slot_abort? : (c.abort? task).slot s = c.slot s := by cases s <;> rfl
@[simp] theorem slot_start (what : Task) : (c.start what).slot s = c.slot s := by cases s <;> rfl

@[simp] theorem slot_mark (m : Mark) : (c.mark m).slot s = c.slot s := by cases s <;> rfl

@[simp] theorem slot_enter (next : ConnectionState) : (c.enter next).slot s = c.slot s := by
  cases s <;> rfl

theorem slot_drop : (c.drop s).slot s' = if s' = s then none else c.slot s' := by
  unfold drop; rw [slot_put, slot_abort?]

@[simp] theorem generation_drop : (c.drop s).generation = c.generation := generation_put _ _ _
@[simp] theorem tasks_drop : (c.drop s).tasks = c.tasks := tasks_put _ _ _
@[simp] theorem writer_drop : (c.drop s).writer = c.writer := writer_put _ _ _

theorem slot_hire (what : Task) :
    (c.hire what).slot s = if s = what.slot then some c.tasks else c.slot s := by
  unfold hire; rw [slot_put, slot_start]

@[simp] theorem generation_hire (what : Task) : (c.hire what).generation = c.generation :=
  generation_put _ _ _

theorem slot_teardown : c.teardown.slot s = if s = .retrying then c.retryTask else none := by
  cases s with
  | retrying => simp only [slot, teardown, abort?, if_true]
  | opening => rfl
  | reading => rfl
  | ticking => rfl

@[simp] theorem stopped_teardown : c.teardown.stopped = c.stopped := by
  simp only [teardown, abort?]

@[simp] theorem tasks_lose : c.lose.tasks = c.tasks := by simp only [lose, teardown, abort?]

@[simp] theorem generation_settle (link now : Nat) (interval : Span) :
    (c.settle link now interval).generation = c.generation := by
  simp only [settle, settling, enter, start, abort?]

@[simp] theorem generation_disconnect : c.disconnect.generation = c.generation + 1 := by
  simp only [disconnect, teardown, cancelRetry, enter, abort?]

@[simp] theorem generation_halt : c.halt.generation = c.generation := by
  simp only [halt, teardown, cancelRetry, abort?]

@[simp] theorem generation_opening (endpoint : String) (limit : Span) :
    (c.opening endpoint limit).generation = c.generation + 1 := by
  simp only [opening, start, enter, abort?]

@[simp] theorem generation_cancelRetry : c.cancelRetry.generation = c.generation := by
  simp only [cancelRetry, abort?]

@[simp] theorem stopped_cancelRetry : c.cancelRetry.stopped = c.stopped := rfl

end Slots

/-! ## Operations as sequences of small ones -/

section Sequences

variable (c : Holding)

theorem opening_eq (endpoint : String) (limit : Span) : c.opening endpoint limit =
    ({ c.drop .opening with generation := c.generation + 1 }.enter .connecting).hire
      (.opening (c.generation + 1) endpoint limit) := rfl

theorem retrying_eq (delay : Span) :
    c.retrying delay = (c.drop .retrying).hire (.retrying c.generation delay) := rfl

theorem settle_eq (link now : Nat) (interval : Span) : c.settle link now interval =
    ((({ c.put .opening none with
        attempt := 0, writer := some link, connectedAt := some now }.hire
      (.reading c.generation link)).drop .ticking).hire (.ticking c.generation interval)).enter
      .connected := rfl

theorem marks_settle (link now : Nat) (interval : Span) : (c.settle link now interval).marks =
    c.marks ++ [.start c.tasks (.reading c.generation link)] ++ c.heartbeatTask.toList.map .abort ++
      [.start (c.tasks + 1) (.ticking c.generation interval)] ++
      if c.state = .connected then [] else [.publish c.state .connected] := rfl

end Sequences

/-! ## The tasks after a turn -/

section Jobs

variable (c : Holding) (now : Nat) (base : List Job)

theorem jobs_mark (m : Mark) : (c.mark m).jobs now base = m.onJobs now (c.jobs now base) := by
  unfold jobs mark; rw [List.foldl_append]; rfl

theorem jobs_abort? (n : Nat) : (c.abort? (some n)).jobs now base =
    (c.jobs now base).modify n fun j => { j with aborted := true } :=
  jobs_mark c now base (.abort n)

theorem jobs_start (what : Task) :
    (c.start what).jobs now base = c.jobs now base ++ [.new now what] :=
  jobs_mark c now base (.start c.tasks what)

theorem jobs_enter (next : ConnectionState) : (c.enter next).jobs now base = c.jobs now base := by
  by_cases h : c.state = next
  · unfold jobs enter; rw [if_pos h, List.append_nil]
  · have he : (c.enter next).marks = (c.mark (.publish c.state next)).marks := by
      unfold enter mark; rw [if_neg h]
    show List.foldl _ _ (c.enter next).marks = _
    rw [he]
    exact jobs_mark c now base (.publish c.state next)

theorem jobs_put (s : Slot) (task : Option Nat) : (c.put s task).jobs now base = c.jobs now base := by
  unfold jobs; rw [marks_put]

theorem getElem?_jobs_drop (s : Slot) (n : Nat) : ((c.drop s).jobs now base)[n]? =
    (c.jobs now base)[n]?.map fun j =>
      if c.slot s = some n then { j with aborted := true } else j := by
  unfold drop
  rw [jobs_put]
  cases hm : c.slot s with
  | none =>
    unfold abort?
    rw [Option.toList_none, List.map_nil, List.append_nil]
    simp only [reduceCtorEq, if_false, Option.map_id']
  | some m =>
    rw [jobs_abort?]
    by_cases h : m = n
    · subst h
      simp only [if_true]
      exact List.getElem?_modify_eq ..
    · rw [List.getElem?_modify_ne _ _ h]
      simp only [Option.some.injEq, h, if_false, Option.map_id']

theorem length_jobs_drop (s : Slot) :
    ((c.drop s).jobs now base).length = (c.jobs now base).length := by
  unfold drop
  rw [jobs_put]
  cases c.slot s with
  | none =>
    unfold abort?
    rw [Option.toList_none, List.map_nil, List.append_nil]
  | some m => rw [jobs_abort?, List.length_modify]

theorem jobs_hire (what : Task) :
    (c.hire what).jobs now base = c.jobs now base ++ [.new now what] := by
  unfold hire; rw [jobs_put, jobs_start]

/-- A turn may abort a task that was there before, and does nothing else to it. -/
theorem jobs_old {n : Nat} {j : Job} (h : base[n]? = some j) :
    ∃ a, (c.jobs now base)[n]? = some { j with aborted := a } ∧ (j.aborted = true → a = true) := by
  unfold jobs
  generalize c.marks = marks
  induction marks generalizing base j with
  | nil => exact ⟨j.aborted, h, id⟩
  | cons m rest ih =>
    rw [List.foldl_cons]
    cases m with
    | start task what =>
      apply ih
      show (base ++ _)[n]? = some j
      rw [List.getElem?_append_left (List.getElem?_eq_some_iff.mp h).1]
      exact h
    | abort task =>
      by_cases ht : task = n
      · subst ht
        have hm : (Mark.onJobs now base (.abort task))[task]? = some { j with aborted := true } := by
          unfold Mark.onJobs
          rw [List.getElem?_modify_eq, h]
          rfl
        obtain ⟨a, ha, haa⟩ := ih _ hm
        exact ⟨a, ha, fun _ => haa rfl⟩
      · apply ih
        unfold Mark.onJobs
        rw [List.getElem?_modify_ne _ _ ht]
        exact h
    | publish was is => exact ih _ h
    | failure attempt delay => exact ih _ h

/-- Any other task was started by the turn. -/
theorem jobs_new {n : Nat} {j : Job} (h : (c.jobs now base)[n]? = some j) (hn : base.length ≤ n) :
    ∃ task what a, Mark.start task what ∈ c.marks ∧ j = { Job.new now what with aborted := a } := by
  unfold jobs at h
  generalize c.marks = marks at h ⊢
  induction marks using List.reverseRecOn generalizing j with
  | nil =>
    have hlt := (List.getElem?_eq_some_iff.mp h).1
    exact absurd hlt (by show ¬ n < base.length; omega)
  | append_singleton rest m ih =>
    rw [List.foldl_append, List.foldl_cons, List.foldl_nil] at h
    generalize hjobs : rest.foldl (Mark.onJobs now) base = jobs at h ih
    have old : ∀ {j : Job}, jobs[n]? = some j → ∃ task what a,
        Mark.start task what ∈ rest ++ [m] ∧ j = { Job.new now what with aborted := a } := by
      intro j hj
      obtain ⟨task, what, a, hm, he⟩ := ih hj
      exact ⟨task, what, a, List.mem_append_left _ hm, he⟩
    cases m with
    | start task what =>
      change (jobs ++ [Job.new now what])[n]? = some j at h
      by_cases hl : n < jobs.length
      · rw [List.getElem?_append_left hl] at h
        exact old h
      · rw [List.getElem?_append_right (by omega)] at h
        obtain rfl := List.mem_singleton.mp (List.mem_of_getElem? h)
        exact ⟨task, what, false, List.mem_append_right _ (List.mem_singleton_self _), rfl⟩
    | abort task =>
      change (jobs.modify task _)[n]? = some j at h
      by_cases ht : task = n
      · subst ht
        rw [List.getElem?_modify_eq] at h
        obtain ⟨j₀, hj₀, rfl⟩ := Option.map_eq_some_iff.mp h
        obtain ⟨task', what, a, hm, rfl⟩ := old hj₀
        exact ⟨task', what, true, hm, rfl⟩
      · rw [List.getElem?_modify_ne _ _ ht] at h
        exact old h
    | publish was is => exact old h
    | failure attempt delay => exact old h

end Jobs

/-! ## Ownership -/

/-- What is held are tasks that go on. -/
structure Placed (now : Nat) (base : List Job) (c : Holding) : Prop where
  tasks : c.tasks = (c.jobs now base).length
  held : ∀ s n, c.slot s = some n →
    ∃ j, (c.jobs now base)[n]? = some j ∧ j.what.slot = s ∧ j.aborted = false
  linked : ∀ n, c.readerTask = some n → ∃ j g link, (c.jobs now base)[n]? = some j ∧
    c.writer = some link ∧ j.what = .reading g link

namespace Placed

variable {c : Holding} {now : Nat} {base : List Job}

/-- Once a turn is over, its marks are done. -/
theorem rebase (h : Placed now base c) (now' : Nat) :
    Placed now' (c.jobs now base) { c with marks := [] } :=
  ⟨h.tasks, h.held, h.linked⟩

theorem slot_inj (h : Placed now base c) {s s' : Slot} {n : Nat} (hs : c.slot s = some n)
    (hs' : c.slot s' = some n) : s = s' := by
  obtain ⟨j, hj, hk, -⟩ := h.held s n hs
  obtain ⟨j', hj', hk', -⟩ := h.held s' n hs'
  rw [hj] at hj'
  cases hj'
  exact hk.symm.trans hk'

theorem slot_of_drop (h : Placed now base c) {s s' : Slot} {n : Nat}
    (hs : (c.drop s).slot s' = some n) :
    c.slot s' = some n ∧ ((c.drop s).jobs now base)[n]? = (c.jobs now base)[n]? := by
  rw [slot_drop] at hs
  split at hs
  · cases hs
  · rename_i hne
    have hn : c.slot s ≠ some n := fun hn => hne (h.slot_inj hs hn)
    refine ⟨hs, ?_⟩
    rw [getElem?_jobs_drop]
    simp only [hn, if_false, Option.map_id']

theorem drop (h : Placed now base c) (s : Slot) : Placed now base (c.drop s) := by
  refine ⟨?_, ?_, ?_⟩
  · rw [length_jobs_drop, tasks_drop]; exact h.tasks
  · intro s' n hs'
    obtain ⟨hc, he⟩ := h.slot_of_drop hs'
    rw [he]
    exact h.held s' n hc
  · intro n hr
    have hr' : (c.drop s).slot .reading = some n := hr
    obtain ⟨hc, he⟩ := h.slot_of_drop hr'
    rw [he, writer_drop]
    exact h.linked n hc

theorem slot_of_take {s s' : Slot} {n : Nat} (hs : (c.put s none).slot s' = some n) :
    c.slot s' = some n := by
  rw [slot_put] at hs
  split at hs
  · cases hs
  · exact hs

theorem take (h : Placed now base c) (s : Slot) : Placed now base (c.put s none) := by
  refine ⟨?_, ?_, ?_⟩
  · rw [jobs_put, tasks_put]; exact h.tasks
  · intro s' n hs'
    rw [jobs_put]
    exact h.held s' n (slot_of_take hs')
  · intro n hr
    have hr' : (c.put s none).slot .reading = some n := hr
    rw [jobs_put, writer_put]
    exact h.linked n (slot_of_take hr')

theorem started (h : Placed now base c) (what : Task) :
    ((c.hire what).jobs now base)[c.tasks]? = some (.new now what) := by
  rw [jobs_hire, h.tasks, List.getElem?_concat_length]

theorem older (what : Task) {n : Nat} {j : Job} (hj : (c.jobs now base)[n]? = some j) :
    ((c.hire what).jobs now base)[n]? = some j := by
  rw [jobs_hire, List.getElem?_append_left (List.getElem?_eq_some_iff.mp hj).1]
  exact hj

theorem hire (h : Placed now base c) {what : Task}
    (reads : what.slot = .reading → ∃ g link, c.writer = some link ∧ what = .reading g link) :
    Placed now base (c.hire what) := by
  refine ⟨?_, ?_, ?_⟩
  · rw [jobs_hire, List.length_append]
    show (c.start what |>.put _ _).tasks = _
    rw [tasks_put, ← h.tasks]
    rfl
  · intro s n hs
    rw [slot_hire] at hs
    split at hs
    · rename_i hk
      cases hs
      exact ⟨_, h.started what, hk.symm, rfl⟩
    · obtain ⟨j, hj, hrest⟩ := h.held s n hs
      exact ⟨j, older what hj, hrest⟩
  · intro n hr
    have hw : (c.hire what).writer = c.writer := writer_put _ _ _
    have hr' : (c.hire what).slot .reading = some n := hr
    rw [hw]
    rw [slot_hire] at hr'
    split at hr'
    · rename_i hk
      cases hr'
      obtain ⟨g, link, hwl, hwhat⟩ := reads hk.symm
      exact ⟨_, g, link, h.started what, hwl, hwhat⟩
    · obtain ⟨j, g, link, hj, hrest⟩ := h.linked n hr'
      exact ⟨j, g, link, older what hj, hrest⟩

theorem enter (h : Placed now base c) (next : ConnectionState) : Placed now base (c.enter next) := by
  refine ⟨?_, ?_, ?_⟩
  · rw [jobs_enter]; exact h.tasks
  · rw [jobs_enter]; exact h.held
  · rw [jobs_enter]; exact h.linked

/-- A failure that is noted starts and aborts nothing. -/
theorem noted (h : Placed now base c) (attempt : Nat) (delay : Option Span) :
    Placed now base (c.mark (.failure attempt delay)) := by
  have hj : (c.mark (.failure attempt delay)).jobs now base = c.jobs now base := jobs_mark ..
  refine ⟨?_, ?_, ?_⟩
  · rw [hj]; exact h.tasks
  · rw [hj]; exact h.held
  · rw [hj]; exact h.linked

/-! ### The operations of a turn -/

theorem aim (h : Placed now base c) (endpoint : Option String) :
    Placed now base { c with endpoint, attempt := 0 } := ⟨h.tasks, h.held, h.linked⟩

theorem teardown (h : Placed now base c) : Placed now base c.teardown := by
  have h' := ((h.drop .opening).drop .reading).drop .ticking
  exact ⟨h'.tasks, h'.held, fun _ hr => (nomatch hr)⟩

theorem halt (h : Placed now base c) : Placed now base c.halt := by
  have h' := (h.drop .retrying).teardown
  exact ⟨h'.tasks, h'.held, fun _ hr => (nomatch hr)⟩

/-- An attempt that begins, up to its start. -/
theorem redial (h : Placed now base c) : Placed now base
    ({ c.drop .opening with generation := c.generation + 1 }.enter .connecting) := by
  have h' := h.drop .opening
  have hg : Placed now base { c.drop .opening with generation := c.generation + 1 } :=
    ⟨h'.tasks, h'.held, h'.linked⟩
  exact hg.enter .connecting

theorem opening (h : Placed now base c) (endpoint : String) (limit : Span) :
    Placed now base (c.opening endpoint limit) := by
  rw [opening_eq]
  exact h.redial.hire nofun

theorem retrying (h : Placed now base c) (delay : Span) : Placed now base (c.retrying delay) := by
  rw [retrying_eq]
  exact (h.drop .retrying).hire nofun

theorem lose (h : Placed now base c) : Placed now base c.lose :=
  ⟨h.teardown.tasks, h.teardown.held, h.teardown.linked⟩

theorem obey (h : Placed now base c) (v : Verdict) : Placed now base (c.obey v) := by
  cases v with
  | broken reason => exact h.halt
  | giveUp => exact (h.noted _ _).enter _
  | wait delay => exact ((h.noted _ _).enter _).retrying delay

theorem fail (h : Placed now base c) (policy : Nat → Verdict) : Placed now base (c.fail policy) :=
  h.lose.obey _

/-- A connection that is taken into use, with its reader. -/
theorem settling (h : Placed now base c) (link instant : Nat) : Placed now base
    ({ c.put .opening none with
      attempt := 0, writer := some link, connectedAt := some instant, readerTask := none }.hire
        (.reading c.generation link)) := by
  have h' := (h.take .opening).take .reading
  have hc : Placed now base { c.put .opening none with
      attempt := 0, writer := some link, connectedAt := some instant, readerTask := none } :=
    ⟨h'.tasks, h'.held, fun _ hr => (nomatch hr)⟩
  exact hc.hire fun _ => ⟨_, link, rfl, rfl⟩

theorem settle (h : Placed now base c) (link instant : Nat) (interval : Span) :
    Placed now base (c.settle link instant interval) := by
  rw [settle_eq]
  refine enter ?_ .connected
  refine hire ?_ nofun
  exact (h.settling link instant).drop .ticking

theorem disconnect (h : Placed now base c) : Placed now base c.disconnect := by
  have h' := (h.drop .retrying).teardown
  have h₀ : Placed now base
      { c.cancelRetry.teardown with generation := c.generation + 1, attempt := 0 } :=
    ⟨h'.tasks, h'.held, h'.linked⟩
  exact h₀.enter .disconnected

end Placed

/-! ### Ownership of all tasks -/

/-- What is held is of the present generation, and what is not held has come to its end. -/
structure Owns (now : Nat) (base : List Job) (c : Holding) : Prop where
  placed : c.Placed now base
  present : ∀ s n j, c.slot s = some n → (c.jobs now base)[n]? = some j →
    j.what.generation = c.generation
  loose : ∀ n j, (c.jobs now base)[n]? = some j → c.slot j.what.slot ≠ some n →
    j.aborted = true ∨ j.fate ≠ .running

namespace Owns

variable {c : Holding} {now : Nat} {base : List Job}

theorem rebase (h : Owns now base c) (now' : Nat) :
    Owns now' (c.jobs now base) { c with marks := [] } :=
  ⟨h.placed.rebase now', h.present, h.loose⟩

theorem of_same {d : Holding} (h : Owns now base c) (placed : d.Placed now base)
    (slots : ∀ s, d.slot s = c.slot s) (jobs : d.jobs now base = c.jobs now base)
    (generation : d.generation = c.generation) : Owns now base d := by
  refine ⟨placed, fun s n j hs hj => ?_, fun n j hj hl => ?_⟩
  · rw [generation]
    exact h.present s n j (slots s ▸ hs) (jobs ▸ hj)
  · exact h.loose n j (jobs ▸ hj) (slots _ ▸ hl)

theorem drop (h : Owns now base c) (s : Slot) : Owns now base (c.drop s) := by
  refine ⟨h.placed.drop s, ?_, ?_⟩
  · intro s' n j hs' hj
    obtain ⟨hc, he⟩ := h.placed.slot_of_drop hs'
    rw [generation_drop]
    exact h.present s' n j hc (he ▸ hj)
  · intro n j hj hl
    rw [getElem?_jobs_drop] at hj
    obtain ⟨j₀, hj₀, rfl⟩ := Option.map_eq_some_iff.mp hj
    by_cases hn : c.slot s = some n
    · rw [if_pos hn]; exact .inl rfl
    · rw [if_neg hn] at hl ⊢
      refine h.loose n j₀ hj₀ fun hc => hl ?_
      rw [slot_drop, if_neg, hc]
      rintro rfl
      exact hn hc

theorem take (h : Owns now base c) {s : Slot}
    (spent : ∀ n j, c.slot s = some n → (c.jobs now base)[n]? = some j → j.fate ≠ .running) :
    Owns now base (c.put s none) := by
  refine ⟨h.placed.take s, ?_, ?_⟩
  · intro s' n j hs' hj
    rw [jobs_put] at hj
    rw [generation_put]
    exact h.present s' n j (Placed.slot_of_take hs') hj
  · intro n j hj hl
    rw [jobs_put] at hj
    by_cases hc : c.slot j.what.slot = some n
    · rw [slot_put] at hl
      by_cases hk : j.what.slot = s
      · exact .inr (spent n j (hk ▸ hc) hj)
      · rw [if_neg hk] at hl
        exact absurd hc hl
    · exact h.loose n j hj hc

/-- The generation may change while nothing is held. -/
theorem bump (h : Owns now base c) (empty : ∀ s, c.slot s = none) (g : UInt64) :
    Owns now base { c with generation := g } := by
  refine ⟨⟨h.placed.tasks, h.placed.held, h.placed.linked⟩, fun s n j hs => ?_, fun n j hj _ => ?_⟩
  · exact nomatch (empty s).symm.trans hs
  · exact h.loose n j hj (by rw [empty]; exact nofun)

theorem hire (h : Owns now base c) {what : Task} (empty : c.slot what.slot = none)
    (present : what.generation = c.generation)
    (reads : what.slot = .reading → ∃ g link, c.writer = some link ∧ what = .reading g link) :
    Owns now base (c.hire what) := by
  have last := h.placed.started what
  refine ⟨h.placed.hire reads, ?_, ?_⟩
  · intro s n j hs hj
    rw [generation_hire]
    rw [slot_hire] at hs
    split at hs
    · cases hs
      obtain rfl := Option.some.inj (last.symm.trans hj)
      exact present
    · obtain ⟨j₀, hj₀, -⟩ := h.placed.held s n hs
      obtain rfl := Option.some.inj ((Placed.older what hj₀).symm.trans hj)
      exact h.present s n j₀ hs hj₀
  · intro n j hj hl
    rw [slot_hire] at hl
    by_cases hn : n < (c.jobs now base).length
    · rw [jobs_hire, List.getElem?_append_left hn] at hj
      refine h.loose n j hj fun hc => ?_
      by_cases hk : j.what.slot = what.slot
      · rw [hk, empty] at hc; cases hc
      · rw [if_neg hk] at hl; exact hl hc
    · have hlt := (List.getElem?_eq_some_iff.mp hj).1
      rw [jobs_hire, List.length_append, List.length_singleton] at hlt
      obtain rfl : n = c.tasks := by rw [h.placed.tasks]; omega
      rw [last] at hj
      cases hj
      exact absurd (if_pos rfl) hl

theorem enter (h : Owns now base c) (next : ConnectionState) : Owns now base (c.enter next) :=
  h.of_same (h.placed.enter next) (fun s => slot_enter c s next) (jobs_enter ..) rfl

theorem noted (h : Owns now base c) (attempt : Nat) (delay : Option Span) :
    Owns now base (c.mark (.failure attempt delay)) :=
  h.of_same (h.placed.noted ..) (fun s => slot_mark c s _) (jobs_mark ..) rfl

/-! ### The operations of a turn -/

theorem teardown (h : Owns now base c) : Owns now base c.teardown := by
  have h' := ((h.drop .opening).drop .reading).drop .ticking
  exact ⟨h.placed.teardown, h'.present, h'.loose⟩

theorem halt (h : Owns now base c) : Owns now base c.halt := by
  have h' := (h.drop .retrying).teardown
  exact ⟨h.placed.halt, h'.present, h'.loose⟩

/-- An attempt begins when nothing else is under way. -/
theorem opening (h : Owns now base c) (empty : ∀ s, s ≠ .opening → c.slot s = none)
    (endpoint : String) (limit : Span) : Owns now base (c.opening endpoint limit) := by
  have none' : ∀ s, (c.drop .opening).slot s = none := by
    intro s
    rw [slot_drop]
    split
    · rfl
    · rename_i hs; exact empty s hs
  rw [opening_eq]
  refine (((h.drop .opening).bump none' _).enter .connecting).hire ?_ rfl nofun
  exact none' .opening

theorem retrying (h : Owns now base c) (delay : Span) : Owns now base (c.retrying delay) := by
  rw [retrying_eq]
  exact (h.drop .retrying).hire rfl (generation_drop c .retrying).symm nofun

theorem lose (h : Owns now base c) (still : c.retryTask = none) : Owns now base c.lose := by
  have none' : ∀ s, c.teardown.slot s = none := by
    intro s
    cases s with
    | retrying => exact still
    | _ => rfl
  have h' := h.teardown.bump none' (c.generation + 1)
  exact ⟨h.placed.lose, h'.present, h'.loose⟩

theorem obey (h : Owns now base c) (v : Verdict) : Owns now base (c.obey v) := by
  cases v with
  | broken reason => exact h.halt
  | giveUp => exact (h.noted _ _).enter _
  | wait delay => exact ((h.noted _ _).enter _).retrying delay

theorem fail (h : Owns now base c) (still : c.retryTask = none) (policy : Nat → Verdict) :
    Owns now base (c.fail policy) := (h.lose still).obey _

/-- A connection is taken into use when its attempt has reported and no other is read. -/
theorem settle (h : Owns now base c) (still : c.readerTask = none)
    (spent : ∀ n j, c.openTask = some n → (c.jobs now base)[n]? = some j → j.fate ≠ .running)
    (link instant : Nat) (interval : Span) : Owns now base (c.settle link instant interval) := by
  let c₁ : Holding :=
    { c.put .opening none with attempt := 0, writer := some link, connectedAt := some instant }
  have h₁ : Owns now base c₁ := by
    have h' := h.take (s := .opening) spent
    refine h'.of_same ⟨h'.placed.tasks, h'.placed.held, fun _ hr => ?_⟩ (fun _ => rfl) rfl rfl
    exact nomatch still.symm.trans hr
  have h₂ : Owns now base (c₁.hire (.reading c.generation link)) :=
    h₁.hire still rfl fun _ => ⟨_, link, rfl, rfl⟩
  have h₃ : Owns now base (((c₁.hire (.reading c.generation link)).drop .ticking).hire
      (.ticking c.generation interval)) := (h₂.drop .ticking).hire rfl rfl nofun
  exact h₃.enter .connected

theorem disconnect (h : Owns now base c) : Owns now base c.disconnect := by
  have none' : ∀ s, (c.drop .retrying).teardown.slot s = none := by intro s; cases s <;> rfl
  have h' := (h.drop .retrying).teardown.bump none' (c.generation + 1)
  have h₀ : Owns now base
      { c.cancelRetry.teardown with generation := c.generation + 1, attempt := 0 } :=
    ⟨⟨h'.placed.tasks, h'.placed.held, h'.placed.linked⟩, h'.present, h'.loose⟩
  exact h₀.enter .disconnected

end Owns

end Holding

theorem Turn.slot_holding {κ σ : Type} (t : Turn κ σ) (s : Slot) :
    t.manager.holding.slot s = t.holding.slot s := by
  cases s <;> rfl

end LiveMetrics
