import LiveMetrics.Proofs.Connection.Agreement

/-!
# Turns among the other steps

A turn of the manager handles the first letter of the mailbox, and its marks change the tasks
(`World.jobs_turn`). In every other step the manager takes no part (`World.Apart`): tasks go on by
themselves, and what is put into the mailbox are requests and reports of running tasks; a task
that ends by itself reports it. `Step.turn_or_apart` is the case analysis on which the inductions
over runs rest.
-/

set_option autoImplicit false

namespace LiveMetrics

namespace World

variable {κ σ : Type}

/-! ## Projections of a turn -/

section Projections

variable (w : World κ σ)

@[simp] theorem manager_post (sender : Option Nat) (message : Message κ) :
    (w.post sender message).manager = w.manager := by
  unfold post; split <;> rfl

@[simp] theorem jobs_post (sender : Option Nat) (message : Message κ) :
    (w.post sender message).jobs = w.jobs := by
  unfold post; split <;> rfl

@[simp] theorem history_post (sender : Option Nat) (message : Message κ) :
    (w.post sender message).history = w.history := by
  unfold post; split <;> rfl

@[simp] theorem now_post (sender : Option Nat) (message : Message κ) :
    (w.post sender message).now = w.now := by
  unfold post; split <;> rfl

@[simp] theorem links_post (sender : Option Nat) (message : Message κ) :
    (w.post sender message).links = w.links := by
  unfold post; split <;> rfl

@[simp] theorem shared_post (sender : Option Nat) (message : Message κ) :
    (w.post sender message).shared = w.shared := by
  unfold post; split <;> rfl

theorem onJob_post (sender : Option Nat) (message : Message κ) (task : Nat) (f : Job → Job) :
    (w.post sender message).onJob task f = (w.onJob task f).post sender message := by
  unfold post onJob
  split <;> rfl

/-- A last report is put into the mailbox by a task that has ended. -/
theorem deliver_eq (task : Nat) (message : Message κ) : w.deliver task message =
    (w.onJob task fun j => { j with fate := .delivered }).post (some task) message :=
  onJob_post ..

theorem apply_frame (e : Effect) : (w.apply e).manager = w.manager ∧ (w.apply e).now = w.now ∧
    (w.apply e).mailbox = w.mailbox ∧ (w.apply e).history = w.history := by
  cases e <;> exact ⟨rfl, rfl, rfl, rfl⟩

theorem jobs_apply (e : Effect) :
    (w.apply e).jobs = (e.mark?.toList).foldl (Mark.onJobs w.now) w.jobs := by
  cases e with
  | log event => cases event <;> rfl
  | _ => rfl

theorem foldl_apply_frame (effects : List Effect) :
    (effects.foldl apply w).manager = w.manager ∧ (effects.foldl apply w).now = w.now ∧
      (effects.foldl apply w).mailbox = w.mailbox ∧
      (effects.foldl apply w).history = w.history := by
  induction effects generalizing w with
  | nil => exact ⟨rfl, rfl, rfl, rfl⟩
  | cons e rest ih =>
    obtain ⟨hm, hn, hb, hh⟩ := w.apply_frame e
    rw [List.foldl_cons, ← hm, ← hn, ← hb, ← hh]
    exact ih _

theorem filterMap_cons_toList {α β : Type} (f : α → Option β) (x : α) (rest : List α) :
    (x :: rest).filterMap f = (f x).toList ++ rest.filterMap f := by
  cases hx : f x <;> simp [hx]

theorem jobs_foldl_apply (effects : List Effect) : (effects.foldl apply w).jobs =
    (effects.filterMap Effect.mark?).foldl (Mark.onJobs w.now) w.jobs := by
  induction effects generalizing w with
  | nil => rfl
  | cons e rest ih =>
    rw [List.foldl_cons, ih, (w.apply_frame e).2.1, jobs_apply, filterMap_cons_toList,
      List.foldl_append]

theorem shared_foldl_apply (effects : List Effect) : (effects.foldl apply w).shared = w.shared := by
  induction effects generalizing w with
  | nil => rfl
  | cons e rest ih =>
    rw [List.foldl_cons, ih]
    cases e <;> rfl

@[simp] theorem manager_close : w.close.manager = w.manager := by unfold close; split <;> rfl
@[simp] theorem jobs_close : w.close.jobs = w.jobs := by unfold close; split <;> rfl
@[simp] theorem shared_close : w.close.shared = w.shared := by unfold close; split <;> rfl
@[simp] theorem now_close : w.close.now = w.now := by unfold close; split <;> rfl
@[simp] theorem history_close : w.close.history = w.history := by unfold close; split <;> rfl
@[simp] theorem links_close : w.close.links = w.links := by unfold close; split <;> rfl

variable [Callback κ σ] (letter : Letter κ) (rest : List (Letter κ))
  (outcomes : Nat → Nat → WriteOutcome)

def handling : Turn κ σ :=
  (Turn.mk w.manager w.shared w.now outcomes 0 []).handle letter.message

def handled : Handled κ :=
  ⟨w.now, letter, w.manager, (w.handling letter outcomes).manager,
    (w.handling letter outcomes).effects⟩

theorem turn_eq : w.turn letter rest outcomes =
    ((w.handling letter outcomes).effects.foldl apply
      { w with
        manager := (w.handling letter outcomes).manager
        shared := (w.handling letter outcomes).shared
        mailbox := rest
        history := w.history ++ [w.handled letter outcomes] }).close := rfl

@[simp] theorem manager_turn :
    (w.turn letter rest outcomes).manager = (w.handling letter outcomes).manager := by
  rw [turn_eq, manager_close, (foldl_apply_frame _ _).1]

@[simp] theorem now_turn : (w.turn letter rest outcomes).now = w.now := by
  rw [turn_eq, now_close, (foldl_apply_frame _ _).2.1]

theorem shared_turn :
    (w.turn letter rest outcomes).shared = (w.handling letter outcomes).shared := by
  rw [turn_eq, shared_close, shared_foldl_apply]

theorem history_turn :
    (w.turn letter rest outcomes).history = w.history ++ [w.handled letter outcomes] := by
  rw [turn_eq, history_close, (foldl_apply_frame _ _).2.2.2]

theorem jobs_turn : (w.turn letter rest outcomes).jobs =
    (w.handling letter outcomes).holding.jobs w.now w.jobs := by
  rw [turn_eq, jobs_close, jobs_foldl_apply]
  rfl

theorem mailbox_turn : (w.turn letter rest outcomes).mailbox =
    if (w.handling letter outcomes).manager.phase = .stopped then [] else rest := by
  obtain ⟨hm, -, hb, -⟩ := foldl_apply_frame
    { w with
      manager := (w.handling letter outcomes).manager
      shared := (w.handling letter outcomes).shared
      mailbox := rest
      history := w.history ++ [w.handled letter outcomes] } (w.handling letter outcomes).effects
  rw [turn_eq]
  unfold close
  rw [hm]
  split
  · rfl
  · exact hb

end Projections

/-! ## Tasks that go on by themselves -/

/-- What may become of a task by itself. -/
structure Job.Later (j j' : Job) : Prop where
  what : j'.what = j.what
  begun : j'.begun = j.begun
  aborted : j'.aborted = j.aborted
  fate : j.fate ≠ .running → j'.fate = j.fate
  cancelled : j'.fate = .cancelled → j.fate = .cancelled ∨ j.aborted = true
  due : j.what.slot ≠ .ticking → j'.due = j.due

theorem Job.Later.refl (j : Job) : j.Later j :=
  ⟨rfl, rfl, rfl, fun _ => rfl, .inl, fun _ => rfl⟩

theorem Job.Later.running {j j' : Job} (h : j.Later j') (hr : j'.fate = .running) :
    j.fate = .running := by
  by_cases hj : j.fate = .running
  · exact hj
  · exact (h.fate hj).symm.trans hr

/-- Tasks that go on by themselves. -/
structure Ages (jobs jobs' : List Job) : Prop where
  length : jobs'.length = jobs.length
  later : ∀ (n : Nat) (j : Job), jobs[n]? = some j → ∃ j' : Job, jobs'[n]? = some j' ∧ j.Later j'

namespace Ages

theorem refl (jobs : List Job) : Ages jobs jobs := ⟨rfl, fun _ j h => ⟨j, h, .refl j⟩⟩

theorem modify {jobs : List Job} {n : Nat} {j : Job} {f : Job → Job} (there : jobs[n]? = some j)
    (later : j.Later (f j)) : Ages jobs (jobs.modify n f) := by
  refine ⟨List.length_modify .., fun m i hi => ?_⟩
  by_cases hm : n = m
  · subst hm
    rw [there] at hi
    cases hi
    exact ⟨f j, by rw [List.getElem?_modify_eq, there]; rfl, later⟩
  · exact ⟨i, by rw [List.getElem?_modify_ne _ _ hm]; exact hi, .refl i⟩

theorem modify_cases {jobs : List Job} {n m : Nat} {j i i' : Job} {f : Job → Job}
    (there : jobs[n]? = some j) (hi : jobs[m]? = some i)
    (hi' : (jobs.modify n f)[m]? = some i') : n = m ∧ i' = f j ∨ i' = i := by
  by_cases hm : n = m
  · subst hm
    rw [List.getElem?_modify_eq, there] at hi'
    exact .inl ⟨rfl, (Option.some.inj hi').symm⟩
  · rw [List.getElem?_modify_ne _ _ hm, hi] at hi'
    exact .inr (Option.some.inj hi').symm

theorem earlier {jobs jobs' : List Job} (h : Ages jobs jobs') {n : Nat} {j' : Job}
    (hj : jobs'[n]? = some j') : ∃ j, jobs[n]? = some j ∧ j.Later j' := by
  have hn : n < jobs.length := h.length ▸ (List.getElem?_eq_some_iff.mp hj).1
  obtain ⟨j₁, hj₁, hl⟩ := h.later n jobs[n] (List.getElem?_eq_getElem hn)
  rw [hj] at hj₁
  cases hj₁
  exact ⟨_, List.getElem?_eq_getElem hn, hl⟩

end Ages

/-! ## Steps without the manager -/

/-- A letter that a step puts into the mailbox, with the tasks before and after it: a request, or
the report of a running task, which ends with its last report. -/
inductive Sent (jobs jobs' : List Job) : Letter κ → Prop where
  | request {message : Message κ} (request : message.isRequest = true) :
      Sent jobs jobs' ⟨none, message⟩
  | report {task : Nat} {message : Message κ} {j j' : Job} (there : jobs[task]? = some j)
      (runs : j.fate = .running) (kind : message.slot? = some j.what.slot)
      (tag : message.generation? = some j.what.generation) (later : jobs'[task]? = some j')
      (last : message.isLast = true → j'.fate = .delivered) : Sent jobs jobs' ⟨some task, message⟩

/-- Letters that contain the last report of a task. -/
def Reports (letters : List (Letter κ)) (task : Nat) : Prop :=
  ∃ letter ∈ letters, letter.sender = some task ∧ letter.message.isLast = true

/-- A step in which the manager takes no part: it puts one letter into the mailbox at most, and the
report of a retry only when it is due. -/
structure Apart (w w' : World κ σ) (letters : List (Letter κ)) : Prop where
  now : w.now ≤ w'.now
  manager : w'.manager = w.manager
  history : w'.history = w.history
  one : letters.length ≤ 1
  ripe : ∀ letter ∈ letters, letter.message.slot? = some .retrying →
    ∃ task instant, letter.sender = some task ∧ w.Due task instant
  mailbox : w'.mailbox = if w.manager.phase = .stopped then w.mailbox else w.mailbox ++ letters
  jobs : Ages w.jobs w'.jobs
  sent : ∀ letter ∈ letters, Sent w.jobs w'.jobs letter
  reported : ∀ (n : Nat) (j j' : Job), w.jobs[n]? = some j → w'.jobs[n]? = some j' →
    j'.fate = .delivered → j.fate = .delivered ∨ Reports letters n

namespace Apart

variable {w w₁ : World κ σ}

/-- A step in which nothing is put into the mailbox. -/
theorem calm {w' : World κ σ} (now : w.now ≤ w'.now) (manager : w'.manager = w.manager)
    (history : w'.history = w.history) (mailbox : w'.mailbox = w.mailbox)
    (jobs : Ages w.jobs w'.jobs)
    (ended : ∀ (n : Nat) (j j' : Job), w.jobs[n]? = some j → w'.jobs[n]? = some j' →
      j'.fate = .delivered → j.fate = .delivered) : Apart w w' [] := by
  refine ⟨now, manager, history, Nat.zero_le _, List.forall_mem_nil _, ?_, jobs,
    List.forall_mem_nil _, fun n j j' hj hj' hd => ?_⟩
  · rw [mailbox, List.append_nil, ite_self]
  · exact .inl (ended n j j' hj hj' hd)

theorem still {w' : World κ σ} (now : w.now ≤ w'.now) (manager : w'.manager = w.manager)
    (history : w'.history = w.history) (mailbox : w'.mailbox = w.mailbox)
    (jobs : w'.jobs = w.jobs) : Apart w w' [] := by
  refine calm now manager history mailbox (jobs ▸ .refl _) fun n j j' hj hj' hd => ?_
  rw [jobs, hj] at hj'
  cases hj'
  exact hd

theorem post {sender : Option Nat} {message : Message κ} (now : w₁.now = w.now)
    (manager : w₁.manager = w.manager) (history : w₁.history = w.history)
    (mailbox : w₁.mailbox = w.mailbox) (jobs : Ages w.jobs w₁.jobs)
    (ripe : message.slot? = some .retrying → ∃ task instant, sender = some task ∧ w.Due task instant)
    (sent : Sent w.jobs w₁.jobs ⟨sender, message⟩)
    (reported : ∀ (n : Nat) (j j' : Job), w.jobs[n]? = some j → w₁.jobs[n]? = some j' →
      j'.fate = .delivered → j.fate = .delivered ∨ sender = some n ∧ message.isLast = true) :
    Apart w (w₁.post sender message) [⟨sender, message⟩] := by
  refine ⟨?_, (manager_post ..).trans manager, (history_post ..).trans history, Nat.le_refl _,
    fun letter hl => ?_, ?_, ?_, ?_, ?_⟩
  · exact Nat.le_of_eq (now.symm.trans (now_post ..).symm)
  · rw [List.mem_singleton.mp hl]
    exact ripe
  · unfold World.post
    rw [manager]
    split <;> simp only [mailbox]
  · rw [jobs_post]; exact jobs
  · intro letter hl
    rw [List.mem_singleton.mp hl, jobs_post]
    exact sent
  · intro n j j' hj hj' hd
    rw [jobs_post] at hj'
    refine (reported n j j' hj hj' hd).imp_right fun hn => ?_
    exact ⟨_, List.mem_singleton_self _, hn⟩

theorem ask {message : Message κ} (request : message.isRequest = true) :
    Apart w (w.post none message) [⟨none, message⟩] := by
  refine .post rfl rfl rfl rfl (.refl _) (fun hr => ?_) (.request request)
    fun n j j' hj hj' hd => .inl ?_
  · exact nomatch (Message.slot?_of_request request).symm.trans hr
  obtain rfl := Option.some.inj (hj.symm.trans hj')
  exact hd

/-- A report of a task that goes on, after a change to it or to something else. -/
theorem report {task : Nat} {what : Task} {message : Message κ} {f : Job → Job}
    (runs : w.Running task what) (now : w₁.now = w.now) (manager : w₁.manager = w.manager)
    (history : w₁.history = w.history) (mailbox : w₁.mailbox = w.mailbox)
    (jobs : w₁.jobs = w.jobs.modify task f)
    (later : ∀ j, j.what = what → j.fate = .running → j.Later (f j) ∧ (f j).fate = .running)
    (kind : message.slot? = some what.slot) (tag : message.generation? = some what.generation)
    (last : message.isLast = false) (other : what.slot ≠ .retrying) :
    Apart w (w₁.post (some task) message) [⟨some task, message⟩] := by
  obtain ⟨j, hj, hw, hr⟩ := runs
  obtain ⟨hl, hf⟩ := later j hw hr
  have he : w₁.jobs[task]? = some (f j) := by rw [jobs, List.getElem?_modify_eq, hj]; rfl
  refine .post now manager history mailbox (jobs ▸ .modify hj hl)
    (fun hk => absurd (Option.some.inj (kind.symm.trans hk)) other) ?_
    fun n i i' hi hi' hd => .inl ?_
  · exact .report hj hr (hw ▸ kind) (hw ▸ tag) he fun h => nomatch last.symm.trans h
  · rcases Ages.modify_cases hj hi (jobs ▸ hi') with ⟨-, rfl⟩ | rfl
    · exact nomatch hf.symm.trans hd
    · exact hd

theorem deliver {task : Nat} {what : Task} {message : Message κ} (runs : w.Running task what)
    (now : w₁.now = w.now) (manager : w₁.manager = w.manager) (history : w₁.history = w.history)
    (mailbox : w₁.mailbox = w.mailbox) (jobs : w₁.jobs = w.jobs)
    (kind : message.slot? = some what.slot) (tag : message.generation? = some what.generation)
    (last : message.isLast = true)
    (ripe : what.slot = .retrying → ∃ instant, w.Due task instant) :
    Apart w (w₁.deliver task message) [⟨some task, message⟩] := by
  obtain ⟨j, hj, hw, hr⟩ := runs
  have hl : j.Later { j with fate := .delivered } :=
    ⟨rfl, rfl, rfl, fun hn => absurd hr hn, nofun, fun _ => rfl⟩
  let w₂ : World κ σ := w₁.onJob task fun j => { j with fate := .delivered }
  have hjobs : w₂.jobs = w.jobs.modify task fun j => { j with fate := .delivered } := by
    rw [← jobs]; rfl
  have he : w₂.jobs[task]? = some { j with fate := .delivered } := by
    rw [hjobs, List.getElem?_modify_eq, hj]; rfl
  rw [deliver_eq]
  have manager₂ : w₂.manager = w.manager := manager
  refine post (show w₂.now = w.now from now) manager₂ history mailbox (hjobs ▸ .modify hj hl)
    (fun hk => ?_) ?_ ?_
  · obtain ⟨instant, due⟩ := ripe (Option.some.inj (kind.symm.trans hk))
    exact ⟨task, instant, rfl, due⟩
  · exact .report hj hr (hw ▸ kind) (hw ▸ tag) he fun _ => rfl
  · intro n i i' hi hi' hd
    rcases Ages.modify_cases hj hi (hjobs ▸ hi') with ⟨rfl, -⟩ | rfl
    · exact .inr ⟨rfl, last⟩
    · exact .inl hd

end Apart

/-! ## Turns -/

section Turns

variable [Callback κ σ]

/-- **A step is a turn, or the manager takes no part in it.** -/
theorem Step.turn_or_apart {w w' : World κ σ} (h : Step w w') :
    (∃ letter rest outcomes, w.manager.phase = .running ∧ w.mailbox = letter :: rest ∧
      w' = w.turn letter rest outcomes) ∨ ∃ letters, Apart w w' letters := by
  cases h with
  | turns runs next outcomes => exact .inl ⟨_, _, outcomes, runs, next, rfl⟩
  | asks request => exact .inr ⟨_, .ask request⟩
  | waits span => exact .inr ⟨_, .still (Nat.le_add_right ..) rfl rfl rfl rfl⟩
  | stirs | sends | leaves | parts => exact .inr ⟨_, .still (Nat.le_refl _) rfl rfl rfl rfl⟩
  | opens runs => exact .inr ⟨_, .deliver runs rfl rfl rfl rfl rfl rfl rfl rfl nofun⟩
  | refuses runs | expires runs | breaks runs | ends runs =>
    exact .inr ⟨_, .deliver runs rfl rfl rfl rfl rfl rfl rfl rfl nofun⟩
  | retries runs due =>
    exact .inr ⟨_, .deliver runs rfl rfl rfl rfl rfl rfl rfl rfl fun _ => ⟨_, due⟩⟩
  | reads runs =>
    refine .inr ⟨_, .report (f := id) runs rfl rfl rfl rfl ?_ ?_ rfl rfl rfl nofun⟩
    · exact (List.modify_id ..).symm
    · exact fun j _ hr => ⟨.refl j, hr⟩
  | ticks runs due again =>
    rename_i task g interval instant from_
    rw [onJob_post]
    refine .inr ⟨_, .report runs rfl rfl rfl rfl rfl ?_ rfl rfl rfl nofun⟩
    intro j hw hr
    exact ⟨⟨rfl, rfl, rfl, fun _ => rfl, .inl, fun hk => absurd (by rw [hw]; rfl) hk⟩, hr⟩
  | cancels there aborted runs =>
    rename_i task j
    have hl : j.Later { j with fate := .cancelled } :=
      ⟨rfl, rfl, rfl, fun hn => absurd runs hn, fun _ => .inr aborted, fun _ => rfl⟩
    refine .inr ⟨_, .calm (Nat.le_refl _) rfl rfl rfl (.modify there hl) fun n i i' hi hi' hd => ?_⟩
    rcases Ages.modify_cases there hi hi' with ⟨-, rfl⟩ | rfl
    · cases hd
    · exact hd

/-- The tasks that were there before a turn. -/
theorem old_job (w : World κ σ) (letter : Letter κ) (rest : List (Letter κ))
    (outcomes : Nat → Nat → WriteOutcome) {n : Nat} {j : Job} (there : w.jobs[n]? = some j) :
    ∃ a, (w.turn letter rest outcomes).jobs[n]? = some { j with aborted := a } ∧
      (j.aborted = true → a = true) := by
  rw [jobs_turn]
  exact Holding.jobs_old _ _ _ there

/-- The tasks that are there after a turn. -/
theorem new_job (w : World κ σ) {letter : Letter κ} {rest : List (Letter κ)}
    {outcomes : Nat → Nat → WriteOutcome} {n : Nat} {j' : Job}
    (there : (w.turn letter rest outcomes).jobs[n]? = some j') :
    (∃ j a, w.jobs[n]? = some j ∧ j' = { j with aborted := a } ∧ (j.aborted = true → a = true)) ∨
      w.jobs.length ≤ n ∧ ∃ what a, j' = { Job.new w.now what with aborted := a } := by
  by_cases hn : n < w.jobs.length
  · have hj := List.getElem?_eq_getElem hn
    obtain ⟨a, ha, haa⟩ := old_job w letter rest outcomes hj
    exact .inl ⟨_, a, hj, Option.some.inj (there.symm.trans ha), haa⟩
  · rw [jobs_turn] at there
    obtain ⟨-, what, a, -, he⟩ := Holding.jobs_new _ _ _ there (by omega)
    exact .inr ⟨by omega, what, a, he⟩

theorem stopped_iff (m : Manager κ) : m.holding.stopped = true ↔ m.phase = .stopped := by
  show (m.phase == .stopped) = true ↔ _
  exact beq_iff_eq

end Turns

end World

end LiveMetrics
