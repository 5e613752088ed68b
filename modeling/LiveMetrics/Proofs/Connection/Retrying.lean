import LiveMetrics.Proofs.Connection.Attempts
import LiveMetrics.Proofs.Connection.Superseded

/-!
# Failures, the policy and retries

Every failure asks the policy once, and the number that it is asked about counts the failures since
the count last began anew (`World.streak`). A retry that is planned begins an attempt exactly if its
report is handled before anybody asks for a connection or for the end of it
(`World.resumes_iff_calm`), and then not before its time. So attempts begin with requests and with
retries that were not cancelled, and with nothing else (`retried_of_reachable`).

1. Reports of retries are sent once, and in time (`World.Paced`).
2. A planned retry is held until it is handled or cancelled (`World.held_since`), and not any more
   afterwards (`World.lost_since`).
-/

set_option autoImplicit false

namespace LiveMetrics

namespace World

variable {κ σ : Type}

namespace Handled

variable (r : Handled κ)

/-- Whether the count of failures began anew. -/
def resets : Bool := r.letter.message.resets r.started

/-- Whether it was a request that cancels a planned retry. -/
def cancels : Bool := r.letter.message.isConnect || r.letter.message.isDisconnect

/-- Whether it was a request to connect while no attempt went on and no connection was open. -/
def connects : Bool := r.letter.message.isConnect && !r.before.state.isBusy

variable {r} in
theorem mem_planned {g : UInt64} {task : Nat} {delay : Span}
    (h : Effect.start task (.retrying g delay) ∈ r.effects) : (task, delay) ∈ r.planned :=
  List.mem_filterMap.mpr ⟨(task, .retrying g delay), List.mem_filterMap.mpr ⟨_, h, rfl⟩, rfl⟩

/-- The policy was asked once, about a number, and the failure was noted and counted; or the policy was
not asked, and at most a frame that was dropped was noted. -/
def Consults (policy : Nat → Verdict) (k : Nat) : Prop :=
  (∃ cause : DisconnectCause, r.answers = [policy k] ∧ r.after.attempt = k ∧
    r.after.health.recentErrors = (r.before.health.recentErrors.push cause.record).1) ∨
  r.answers = [] ∧ (r.after.health.recentErrors = r.before.health.recentErrors ∨
    ∃ reason : DropReason,
      r.after.health.recentErrors = (r.before.health.recentErrors.push reason.record).1)

end Handled

/-- The failures since the count last began anew. -/
def streak (history : List (Handled κ)) : Nat :=
  history.foldl (fun k r => (if r.resets then 0 else k) + r.answers.length) 0

/-- The retries that were planned since the last request that cancels them. -/
def pending (history : List (Handled κ)) : List Nat :=
  history.foldl (fun tasks r => (if r.cancels then [] else tasks) ++ r.planned.map Prod.fst) []

/-- Whether an entry handles the report of a retry that was not cancelled. -/
def fires (past : List (Handled κ)) (r : Handled κ) : Bool :=
  (pending past).any fun task => r.letter.sender == some task

/-- How many retries have fired that were not cancelled. -/
def firings (history : List (Handled κ)) : Nat :=
  (List.range history.length).countP fun i => (history[i]?).any (fires (history.take i))

theorem streak_append (past : List (Handled κ)) (r : Handled κ) :
    streak (past ++ [r]) = (if r.resets then 0 else streak past) + r.answers.length := by
  unfold streak
  rw [List.foldl_append]
  rfl

theorem pending_append (past : List (Handled κ)) (r : Handled κ) : pending (past ++ [r]) =
    (if r.cancels then [] else pending past) ++ r.planned.map Prod.fst := by
  unfold pending
  rw [List.foldl_append]
  rfl

/-- A retry is pending if nothing has cancelled it since it was planned. -/
theorem mem_pending {history : List (Handled κ)} {task : Nat} : task ∈ pending history ↔
    ∃ past f later delay, history = past ++ f :: later ∧ (task, delay) ∈ f.planned ∧
      ∀ y ∈ later, y.cancels = false := by
  induction history using List.reverseRecOn with
  | nil => exact ⟨nofun, fun ⟨_, _, _, _, he, _⟩ => absurd he (by simp)⟩
  | append_singleton history r ih =>
    rw [pending_append, List.mem_append]
    constructor
    · rintro (h | h)
      · cases hc : r.cancels with
        | true =>
          rw [hc] at h
          cases h
        | false =>
          rw [hc] at h
          obtain ⟨past, f, later, delay, rfl, hp, hl⟩ := ih.mp h
          refine ⟨past, f, later ++ [r], delay, by simp, hp, fun y hy => ?_⟩
          rcases List.mem_append.mp hy with hy | hy
          · exact hl y hy
          · rw [List.mem_singleton.mp hy]
            exact hc
      · obtain ⟨⟨task', delay⟩, hp, rfl⟩ := List.mem_map.mp h
        exact ⟨history, r, [], delay, rfl, hp, fun y hy => nomatch hy⟩
    · rintro ⟨past, f, later, delay, he, hp, hl⟩
      rcases List.eq_nil_or_concat later with rfl | ⟨later', y, rfl⟩
      · right
        obtain ⟨-, hr⟩ := List.append_inj' he rfl
        rw [(List.cons.inj hr).1]
        exact List.mem_map_of_mem hp
      · left
        rw [List.concat_eq_append, ← List.cons_append, ← List.append_assoc] at he
        obtain ⟨hh, hr⟩ := List.append_inj' he rfl
        have hc : r.cancels = false := (List.cons.inj hr).1 ▸ hl y (by simp)
        rw [hc]
        exact ih.mpr ⟨past, f, later', delay, hh, hp, fun x hx => hl x (by simp [hx])⟩

theorem fires_iff {past : List (Handled κ)} {r : Handled κ} :
    fires past r = true ↔ ∃ task ∈ pending past, r.letter.sender = some task := by
  unfold fires
  simp

theorem firings_append (past : List (Handled κ)) (r : Handled κ) :
    firings (past ++ [r]) = firings past + (fires past r).toNat := by
  unfold firings
  rw [List.length_append, List.length_singleton, List.range_succ, List.countP_append]
  have old : ∀ i ∈ List.range past.length,
      (((past ++ [r])[i]?).any (fires ((past ++ [r]).take i)) = true ↔
        (past[i]?).any (fires (past.take i)) = true) := by
    intro i hi
    have hl : i < past.length := List.mem_range.mp hi
    rw [List.getElem?_append_left hl, List.take_append_of_le_length (Nat.le_of_lt hl)]
  rw [List.countP_congr old, List.countP_singleton, List.getElem?_concat_length, List.take_left,
    Option.any_some]
  cases fires past r <;> rfl

/-! ## Letters -/

/-- All letters so far, in their order. -/
def letters (w : World κ σ) : List (Letter κ) := w.history.map Handled.letter ++ w.mailbox

/-- How many letters come from a task. -/
def posts (letters : List (Letter κ)) (task : Nat) : Nat :=
  letters.countP fun letter => letter.sender == some task

/-- If a letter is the report of a retry, the retry is due. -/
def Ripe (jobs : List Job) (now : Nat) (letter : Letter κ) : Prop :=
  letter.message.slot? = some .retrying → ∃ task j instant, letter.sender = some task ∧
    jobs[task]? = some j ∧ j.what.slot = .retrying ∧ j.due = some instant ∧ instant ≤ now

/-- What holds of retries and their reports between any two steps of a run: the task of a retry that
was planned is there, all letters can be traced, and the report of a retry is sent once and in time. -/
structure Paced (w : World κ σ) : Prop where
  planned : ∀ f ∈ w.history, ∀ task delay, (task, delay) ∈ f.planned →
    ∃ j g, w.jobs[task]? = some j ∧ j.what = .retrying g delay ∧ j.begun = f.now
  traceable : ∀ letter ∈ w.letters, Traceable w.jobs letter
  waiting : ∀ letter ∈ w.mailbox, Ripe w.jobs w.now letter
  handled : ∀ x ∈ w.history, Ripe w.jobs x.now x.letter
  once : ∀ task j, w.jobs[task]? = some j → j.what.slot = .retrying →
    posts w.letters task ≤ if j.fate = .delivered then 1 else 0

theorem posts_append (first rest : List (Letter κ)) (task : Nat) :
    posts (first ++ rest) task = posts first task + posts rest task := List.countP_append

theorem posts_eq_zero {jobs : List Job} {letters : List (Letter κ)} {task : Nat}
    (traceable : ∀ letter ∈ letters, Traceable jobs letter) (new : jobs[task]? = none) :
    posts letters task = 0 := by
  refine List.countP_eq_zero.mpr fun letter hl hs => ?_
  cases traceable letter hl with
  | request => cases hs
  | report there =>
    rw [beq_iff_eq] at hs
    cases hs
    exact nomatch new.symm.trans there

theorem Ripe.ages {jobs jobs' : List Job} {now now' : Nat} {letter : Letter κ}
    (h : Ripe jobs now letter) (ages : Ages jobs jobs') (le : now ≤ now') :
    Ripe jobs' now' letter := by
  intro hs
  obtain ⟨task, j, instant, hsender, hj, hk, hd, hi⟩ := h hs
  obtain ⟨j', hj', hl⟩ := ages.later task j hj
  refine ⟨task, j', instant, hsender, hj', hl.what ▸ hk, ?_, Nat.le_trans hi le⟩
  exact (hl.due (by rw [hk]; nofun)).trans hd

namespace Paced

variable {w w' : World κ σ}

theorem letters_apart {letters : List (Letter κ)} (apart : Apart w w' letters) :
    w'.letters = w.letters ∨ w'.letters = w.letters ++ letters := by
  unfold World.letters
  rw [apart.history, apart.mailbox]
  split
  · exact .inl rfl
  · exact .inr (List.append_assoc ..).symm

theorem posts_apart (h : Paced w) {letters : List (Letter κ)} (apart : Apart w w' letters)
    {task : Nat} {j' : Job} (hj' : w'.jobs[task]? = some j') (hk : j'.what.slot = .retrying) :
    posts w'.letters task ≤ if j'.fate = .delivered then 1 else 0 := by
  obtain ⟨j, hj, hl⟩ := apart.jobs.earlier hj'
  have before := h.once task j hj (hl.what ▸ hk)
  have grows : (if j.fate = .delivered then 1 else 0) ≤ if j'.fate = .delivered then 1 else 0 := by
    by_cases hd : j.fate = .delivered
    · have hd' : j'.fate = .delivered := (hl.fate (by rw [hd]; nofun)).trans hd
      exact Nat.le_of_eq ((if_pos hd).trans (if_pos hd').symm)
    · exact Nat.le_trans (Nat.le_of_eq (if_neg hd)) (Nat.zero_le _)
  rcases letters_apart apart with he | he <;> rw [he]
  · exact Nat.le_trans before grows
  · rw [posts_append]
    by_cases hp : posts letters task = 0
    · rw [hp, Nat.add_zero]
      exact Nat.le_trans before grows
    · -- the task has sent its report just now, so it had not before
      obtain ⟨letter, hm, hs⟩ := List.countP_pos_iff.mp (Nat.pos_of_ne_zero hp)
      have one : posts letters task ≤ 1 := Nat.le_trans List.countP_le_length apart.one
      cases apart.sent letter hm with
      | request => cases hs
      | report there runs kind tag later last =>
        rename_i message i i'
        rw [beq_iff_eq] at hs
        cases hs
        obtain rfl := Option.some.inj (hj.symm.trans there)
        obtain rfl := Option.some.inj (hj'.symm.trans later)
        have final : message.isLast = true := by
          rw [← hl.what, hk] at kind
          cases message <;> first | rfl | cases kind
        rw [if_neg (by rw [runs]; nofun)] at before
        rw [if_pos (last final)]
        omega

theorem apart (h : Paced w) {letters : List (Letter κ)} (apart : Apart w w' letters) :
    Paced w' := by
  refine ⟨?_, fun letter hl => ?_, fun letter hl => ?_, ?_, fun task j' hj' hk => ?_⟩
  · rw [apart.history]
    intro f hf task delay hp
    obtain ⟨j, g, hj, hw, hb⟩ := h.planned f hf task delay hp
    obtain ⟨j', hj', hl⟩ := apart.jobs.later task j hj
    exact ⟨j', g, hj', hl.what.trans hw, hl.begun.trans hb⟩
  · have old : letter ∈ w.letters → Traceable w'.jobs letter :=
      fun hl => (h.traceable letter hl).ages apart.jobs
    rcases letters_apart apart with he | he <;> rw [he] at hl
    · exact old hl
    · rcases List.mem_append.mp hl with hl | hl
      · exact old hl
      · exact (apart.sent letter hl).traceable apart.jobs
  · rcases apart.mem_mailbox hl with hl | hl
    · exact (h.waiting letter hl).ages apart.jobs apart.now
    · intro hs
      obtain ⟨task, instant, hsender, ⟨j, hj, hd⟩, hi⟩ := apart.ripe letter hl hs
      have hk : j.what.slot = .retrying := by
        cases apart.sent letter hl with
        | request => cases hsender
        | report there runs kind =>
          cases hsender
          obtain rfl := Option.some.inj (hj.symm.trans there)
          exact Option.some.inj (kind.symm.trans hs)
      have ripe : Ripe w.jobs w.now letter := fun _ => ⟨task, j, instant, hsender, hj, hk, hd, hi⟩
      exact ripe.ages apart.jobs apart.now hs
  · rw [apart.history]
    exact fun x hx => (h.handled x hx).ages apart.jobs (Nat.le_refl _)
  · exact h.posts_apart apart hj' hk

section Turns

variable [Callback κ σ] {letter : Letter κ} {rest : List (Letter κ)}
  {outcomes : Nat → Nat → WriteOutcome}

theorem Ripe.turn {now : Nat} {l : Letter κ} (h : Ripe w.jobs now l) :
    Ripe (w.turn letter rest outcomes).jobs now l := by
  intro hs
  obtain ⟨task, j, instant, hsender, hj, hk, hd, hi⟩ := h hs
  obtain ⟨a, ha, -⟩ := old_job w letter rest outcomes hj
  exact ⟨task, _, instant, hsender, ha, hk, hd, hi⟩

theorem turn (h : Paced w) (steady : Steady w) (hp : w.manager.phase ≠ .stopped)
    (next : w.mailbox = letter :: rest) : Paced (w.turn letter rest outcomes) := by
  have history := history_turn w letter rest outcomes
  have mailbox : ∀ l ∈ (w.turn letter rest outcomes).mailbox, l ∈ w.mailbox := by
    intro l hl
    rw [mailbox_turn] at hl
    split at hl
    · cases hl
    · exact next ▸ List.mem_cons_of_mem _ hl
  have letters : (w.turn letter rest outcomes).letters.Sublist w.letters := by
    unfold World.letters
    rw [history, List.map_append, mailbox_turn, next, List.append_assoc]
    refine List.Sublist.append_left ?_ _
    split
    · exact (List.nil_sublist rest).cons_cons _
    · exact List.Sublist.refl _
  have traceable : ∀ l ∈ w.letters, Traceable (w.turn letter rest outcomes).jobs l := by
    intro l hl
    cases h.traceable l hl with
    | request hr => exact .request hr
    | report there kind tag last =>
      obtain ⟨a, ha, -⟩ := old_job w letter rest outcomes there
      exact .report ha kind tag last
  refine ⟨fun f hf task delay hm => ?_, fun l hl => traceable l (letters.subset hl),
    fun l hl => ?_, fun x hx => ?_, fun task j' hj' hk => ?_⟩
  · rw [history] at hf
    rcases List.mem_append.mp hf with hf | hf
    · obtain ⟨j, g, hj, hw, hb⟩ := h.planned f hf task delay hm
      obtain ⟨a, ha, -⟩ := old_job w letter rest outcomes hj
      exact ⟨_, g, ha, hw, hb⟩
    · obtain rfl := List.mem_singleton.mp hf
      have starts : (task, delay) ∈ retryings (w.handling letter outcomes).holding.started := by
        have he : (w.handled letter outcomes).holding.started =
            (w.handled letter outcomes).started := Handled.started_holding _
        exact he ▸ hm
      obtain ⟨g, hg⟩ := (steady.deal hp letter outcomes).planned rfl steady.placed starts
      rw [jobs_turn]
      exact ⟨_, g, hg, rfl, rfl⟩
  · rw [now_turn]
    exact Ripe.turn (h.waiting l (mailbox l hl))
  · rw [history] at hx
    rcases List.mem_append.mp hx with hx | hx
    · exact Ripe.turn (h.handled x hx)
    · obtain rfl := List.mem_singleton.mp hx
      exact Ripe.turn (h.waiting letter (next ▸ List.mem_cons_self))
  · -- a turn sends no letters, and a task that it starts has not sent one before
    have fewer : posts (w.turn letter rest outcomes).letters task ≤ posts w.letters task :=
      letters.countP_le
    rcases new_job w hj' with ⟨j, a, hj, rfl, -⟩ | ⟨hn, what, a, rfl⟩
    · exact Nat.le_trans fewer (h.once task j hj hk)
    · have new : w.jobs[task]? = none := List.getElem?_eq_none hn
      rw [posts_eq_zero h.traceable new] at fewer
      exact Nat.le_trans fewer (Nat.zero_le _)

end Turns

end Paced

/-! ## Runs -/

section Runs

variable {config : Config} {policy : Nat → Verdict} {autoPong : Bool} {shared : σ}

theorem paced_start : Paced (start config policy autoPong shared : World κ σ) :=
  ⟨List.forall_mem_nil _, List.forall_mem_nil _, List.forall_mem_nil _, List.forall_mem_nil _,
    fun _ _ hj => nomatch hj⟩

variable [Callback κ σ] {w w₀ : World κ σ}

theorem paced_of_run (run : Run config policy autoPong shared w) : Paced w := by
  induction run with
  | start => exact paced_start
  | step before step ih =>
    rcases step.turn_or_apart with ⟨letter, rest, outcomes, runs, next, rfl⟩ | ⟨letters, apart⟩
    · exact ih.turn (steady_of_run before) (by rw [runs]; nofun) next
    · exact ih.apart apart

theorem attempt_of_run (run : Run config policy autoPong shared w) :
    w.manager.attempt = min (streak w.history) Manager.maxAttempt := by
  induction run with
  | start => rfl
  | step before step ih =>
    rename_i w w'
    rcases step.turn_or_apart with ⟨letter, rest, outcomes, runs, next, rfl⟩ | ⟨letters, apart⟩
    · have steady := steady_of_run before
      have deal := steady.deal (by rw [runs]; nofun) letter outcomes
      have bound : w.manager.attempt ≤ Manager.maxAttempt := by
        rw [ih]
        exact Nat.min_le_right _ _
      have counted : (w.handling letter outcomes).manager.attempt =
          min ((if (w.handled letter outcomes).resets then 0 else w.manager.attempt) +
            (w.handled letter outcomes).answers.length) Manager.maxAttempt := by
        have he : (w.handled letter outcomes).holding.started =
            (w.handled letter outcomes).started := Handled.started_holding _
        unfold Handled.resets
        rw [← he]
        exact deal.attempt rfl rfl bound
      rw [manager_turn, history_turn, streak_append, counted, ih]
      split <;> omega
    · rw [apart.manager, apart.history]
      exact ih

/-! ### How an entry went -/

section Entry

variable {past later mid : List (Handled κ)} {f r x : Handled κ} {task : Nat} {delay : Span}

theorem Began.settings (began : Began w₀ past r) (run : Run config policy autoPong shared w₀) :
    r.before.policy = policy := by
  rw [began.before]
  exact (settings_of_run run).2

/-- The report of a retry that is taken comes from the retry that is held. -/
theorem Began.resumed (began : Began w₀ past x)
    (reached : Reachable config policy autoPong shared w₀)
    (resumes : w₀.manager.holding.resumes x.letter.message = true) :
    ∃ task, x.letter.sender = some task ∧ w₀.manager.retryTask = some task := by
  obtain ⟨rest, outcomes, next, -⟩ := began.entry
  have sound := sound_of_reachable reached
  have hl : x.letter ∈ w₀.mailbox := next ▸ List.mem_cons_self
  obtain ⟨hm, hs⟩ := (w₀.manager.holding.resumes_iff _).mp resumes
  cases hx : x.letter with
  | mk sender message =>
    rw [hx] at hl hm
    obtain rfl : message = .retry w₀.manager.generation := hm
    cases sound.letters _ hl with
    | request hr => cases hr
    | report there kind tag last =>
      rename_i task j
      have hk : Slot.retrying = j.what.slot := Option.some.inj kind
      refine ⟨task, rfl, ?_⟩
      rcases sound.timely _ hl task j rfl there (Option.some.inj tag).symm with held | ⟨ho, -⟩
      · rw [← hk] at held
        exact held
      · rw [← hk] at ho
        cases ho

/-- The report of the retry that is held is taken. -/
theorem Began.resumes_of_held (began : Began w₀ past x)
    (run : Run config policy autoPong shared w₀) (state : w₀.manager.state = .reconnecting)
    (held : w₀.manager.retryTask = some task) (hsender : x.letter.sender = some task) :
    w₀.manager.holding.resumes x.letter.message = true := by
  obtain ⟨rest, outcomes, next, -⟩ := began.entry
  have steady := steady_of_run run
  have hl : x.letter ∈ w₀.mailbox := next ▸ List.mem_cons_self
  have hs : w₀.manager.state.slot? = some .retrying := by rw [state]; rfl
  obtain ⟨n, j, hn, hj, hg, -⟩ := steady.awaits began.going .retrying hs
  obtain rfl : task = n := Option.some.inj (held.symm.trans hn)
  obtain ⟨j', hj', hk, -⟩ := steady.placed.held .retrying task hn
  obtain rfl : j = j' := Option.some.inj (hj.symm.trans hj')
  cases hx : x.letter with
  | mk sender message =>
    rw [hx] at hl hsender
    obtain rfl : sender = some task := hsender
    cases steady.letters _ hl with
    | report there kind tag last =>
      obtain rfl := Option.some.inj (hj.symm.trans there)
      refine (w₀.manager.holding.resumes_iff _).mpr ⟨?_, state⟩
      rw [hk] at kind
      rw [hg] at tag
      cases message with
      | retry g => exact congrArg Message.retry (Option.some.inj tag)
      | _ => cases kind

theorem Began.calm_or_falls (began : Began w₀ past r)
    (run : Run config policy autoPong shared w₀) :
    (r.planned = [] ∧ (r.after.state = .failed → r.before.state = .failed) ∧
      ∃ reason, { r.ledger with farewells := [] } = r.before.ledger.drop? reason) ∨
    ∃ d cause, r.before.holding.Fails r.letter.message d ∧
      r.ledger = r.before.ledger.fail cause (policy r.after.attempt) ∧
      r.holding.Falls (policy r.after.attempt) := by
  have runs : r.before.holding.stopped = false := by
    rw [began.before]
    exact Bool.eq_false_iff.mpr fun hs => began.going ((stopped_iff _).mp hs)
  have deal := (began.deal (steady_of_run run)).calm_or_falls rfl runs
  rw [Handled.started_holding, began.settings run] at deal
  exact deal

theorem Began.obeys (began : Began w₀ past f) (run : Run config policy autoPong shared w₀)
    {v : Verdict} (answer : f.answers = [v]) : f.holding.Falls v := by
  rcases began.calm_or_falls run with ⟨-, -, reason, told⟩ | ⟨d, cause, -, told, falls⟩
  · have silent : f.answers = [] :=
      (congrArg Ledger.answers told).trans (Ledger.answers_drop? ..)
    exact nomatch silent.symm.trans answer
  · have answers : f.answers = [policy f.after.attempt] :=
      (congrArg Ledger.answers told).trans (Ledger.answers_fail ..)
    obtain rfl : policy f.after.attempt = v := List.singleton_inj.mp (answers.symm.trans answer)
    exact falls

/-- What an entry leaves that plans a retry. -/
theorem Began.plans (began : Began w₀ past f) (run : Run config policy autoPong shared w₀)
    (plan : (task, delay) ∈ f.planned) :
    f.after.state = .reconnecting ∧ f.after.retryTask = some task := by
  rcases began.calm_or_falls run with ⟨none_, -⟩ | ⟨d, cause, -, -, falls⟩
  · rw [none_] at plan
    cases plan
  · unfold Handled.planned at plan
    rw [← Handled.started_holding] at plan
    generalize policy f.after.attempt = v at falls
    cases falls with
    | waits stopped state held starts =>
      rw [starts] at plan
      cases List.mem_singleton.mp plan
      exact ⟨state, held⟩
    | ends _ _ starts | breaks _ starts =>
      rw [starts] at plan
      cases plan

/-- **A planned retry stays planned** until its report is handled or a request cancels it. -/
theorem held_since (reached : Reachable config policy autoPong shared w)
    (he : w.history = past ++ f :: later) (plan : (task, delay) ∈ f.planned)
    (calm : ∀ y ∈ later, y.cancels = false) (silent : ∀ y ∈ later, y.letter.sender ≠ some task) :
    w.manager.phase = .stopped ∨
      w.manager.state = .reconnecting ∧ w.manager.retryTask = some task := by
  obtain ⟨w₀, reached₀, began₀⟩ := reached.began he
  refine traced_reachable.kept (I := fun _ m => m.phase = .stopped ∨
    m.state = .reconnecting ∧ m.retryTask = some task) (.inr (began₀.plans reached₀.run plan))
    ?_ reached he
  rintro w₁ before x after rfl reached₁ began (stopped | ⟨state, held⟩)
  · exact absurd stopped began.going
  · have hx : x ∈ before ++ x :: after := by simp
    obtain ⟨asks, stays⟩ := Bool.or_eq_false_iff.mp (calm x hx)
    have fresh : w₁.manager.holding.resumes x.letter.message = false := by
      refine Bool.eq_false_iff.mpr fun hr => ?_
      obtain ⟨n, hsender, hn⟩ := began.resumed reached₁ hr
      obtain rfl : task = n := Option.some.inj (held.symm.trans hn)
      exact silent x hx hsender
    have sound := sound_of_reachable reached₁
    obtain ⟨rest, outcomes, next, entry⟩ := began.entry
    have up := (sound.begins began.going next).up
    rw [entry]
    rcases (sound.toSteady.deal began.going x.letter outcomes).keeps state asks stays fresh up with
      stopped | ⟨state', held'⟩
    · exact .inl ((stopped_iff _).mp stopped)
    · exact .inr ⟨state', held'.trans held⟩

/-- **A retry that was cancelled is not planned any more.** -/
theorem lost_since (reached : Reachable config policy autoPong shared w)
    (he : w.history = past ++ f :: later) (plan : (task, delay) ∈ f.planned)
    (cancelled : ∃ y ∈ later, y.cancels = true) : w.manager.retryTask ≠ some task := by
  obtain ⟨y, hy, hc⟩ := cancelled
  obtain ⟨before, after, rfl⟩ := List.append_of_mem hy
  have he' : w.history = (past ++ f :: before) ++ y :: after := by rw [he]; simp
  obtain ⟨w₀, reached₀, began₀⟩ := reached.began he'
  refine traced_reachable.kept (I := fun _ m => m.retryTask ≠ some task) ?_ ?_ reached he'
  · have sound := sound_of_reachable reached₀
    obtain ⟨rest, outcomes, next, entry⟩ := began₀.entry
    have none_ := (sound.toSteady.deal began₀.going y.letter outcomes).cancels rfl
      (sound.agrees began₀.going) (Bool.or_eq_true_iff.mp hc)
    intro held
    rw [entry] at held
    exact nomatch none_.symm.trans held
  · rintro w₁ before₁ x after₁ - reached₁ began lost held
    have sound := sound_of_reachable reached₁
    obtain ⟨rest, outcomes, next, entry⟩ := began.entry
    rw [entry] at held
    rcases (sound.course began.going x.letter outcomes).renewed (sound.begins began.going next) with
      ⟨same, -⟩ | renewed
    · exact lost ((congrArg Holding.retryTask same).symm.trans held)
    · -- what is held was started just now, but the task was started before
      obtain ⟨hk, -⟩ := renewed .retrying task held
      have hf : f ∈ w₁.history := by rw [began.history]; simp
      obtain ⟨j, g, hj, -⟩ := (paced_of_run reached₁.run).planned f hf task delay plan
      have hlt := (List.getElem?_eq_some_iff.mp hj).1
      have htasks : w₁.manager.tasks = w₁.jobs.length := sound.placed.tasks
      change w₁.manager.tasks ≤ task at hk
      omega

theorem Began.sent_once (began : Began w₀ past x) (run : Run config policy autoPong shared w₀)
    (hf : f ∈ past) (plan : (task, delay) ∈ f.planned) (hsender : x.letter.sender = some task) :
    ∀ y ∈ past, y.letter.sender ≠ some task := by
  intro y hy hs
  have paced := paced_of_run run
  obtain ⟨rest, outcomes, next, -⟩ := began.entry
  obtain ⟨j, g, hj, hw, -⟩ := paced.planned f (began.history ▸ hf) task delay plan
  have once := paced.once task j hj (by rw [hw]; rfl)
  have earlier : 0 < posts (w₀.history.map Handled.letter) task :=
    List.countP_pos_iff.mpr ⟨y.letter, List.mem_map_of_mem (began.history ▸ hy), beq_iff_eq.mpr hs⟩
  have later : 0 < posts w₀.mailbox task :=
    List.countP_pos_iff.mpr ⟨x.letter, next ▸ List.mem_cons_self, beq_iff_eq.mpr hsender⟩
  unfold World.letters at once
  rw [posts_append] at once
  split at once <;> omega

/-- **The report of a retry is taken exactly if nothing has cancelled the retry.** -/
theorem resumes_iff_calm (began : Began w₀ (past ++ f :: mid) x)
    (reached : Reachable config policy autoPong shared w₀) (plan : (task, delay) ∈ f.planned)
    (hsender : x.letter.sender = some task) :
    w₀.manager.holding.resumes x.letter.message = true ↔ ∀ y ∈ mid, y.cancels = false := by
  constructor
  · intro resumes y hy
    obtain ⟨n, hs, held⟩ := began.resumed reached resumes
    obtain rfl : task = n := Option.some.inj (hsender.symm.trans hs)
    refine Bool.eq_false_iff.mpr fun hc => ?_
    exact lost_since reached began.history plan ⟨y, hy, hc⟩ held
  · intro calm
    have silent : ∀ y ∈ mid, y.letter.sender ≠ some task := fun y hy =>
      began.sent_once reached.run (f := f) (by simp) plan hsender y (by simp [hy])
    rcases held_since reached began.history plan calm silent with stopped | ⟨state, held⟩
    · exact absurd stopped began.going
    · exact began.resumes_of_held reached.run state held hsender

theorem resumes_eq_fires (began : Began w₀ past x)
    (reached : Reachable config policy autoPong shared w₀) :
    w₀.manager.holding.resumes x.letter.message = fires past x := by
  refine Bool.eq_iff_iff.mpr ⟨fun resumes => ?_, fun fired => ?_⟩
  · obtain ⟨task, hsender, held⟩ := began.resumed reached resumes
    obtain ⟨before, f, after, he, ⟨g, delay, starts⟩, -⟩ :=
      (lineage_of_reachable reached).retry task held
    rw [began.history] at he
    subst he
    have plan : (task, delay) ∈ f.planned := Handled.mem_planned starts
    refine fires_iff.mpr ⟨task, mem_pending.mpr ⟨before, f, after, delay, rfl, plan, ?_⟩, hsender⟩
    exact (resumes_iff_calm began reached plan hsender).mp resumes
  · obtain ⟨task, hp, hsender⟩ := fires_iff.mp fired
    obtain ⟨before, f, after, delay, rfl, plan, calm⟩ := mem_pending.mp hp
    exact (resumes_iff_calm began reached plan hsender).mpr calm

/-- Attempts begin with requests and with retries that were not cancelled. -/
theorem Began.length_begun (began : Began w₀ past x)
    (reached : Reachable config policy autoPong shared w₀) :
    x.begun.length = x.connects.toNat + (fires past x).toNat := by
  have opens := (began.deal (steady_of_run reached.run)).opens rfl
  rw [Handled.started_holding, began.before] at opens
  unfold Handled.connects
  rw [← resumes_eq_fires began reached, began.before]
  exact opens

theorem Began.consults (began : Began w₀ past r) (run : Run config policy autoPong shared w₀) :
    r.Consults policy (min (streak (past ++ [r])) Manager.maxAttempt) := by
  have counted : r.after.attempt = min (streak (past ++ [r])) Manager.maxAttempt := by
    obtain ⟨rest, outcomes, next, entry⟩ := began.entry
    have after := attempt_of_run (.step run (.turns began.runs next outcomes))
    rw [manager_turn, history_turn, ← entry, began.history] at after
    rw [← after, entry]
    rfl
  rcases began.calm_or_falls run with ⟨-, -, reason, told⟩ | ⟨d, cause, -, told, -⟩
  · have errors : r.after.health.recentErrors = (r.before.ledger.drop? reason).errors :=
      congrArg Ledger.errors told
    refine .inr ⟨(congrArg Ledger.answers told).trans (Ledger.answers_drop? ..), ?_⟩
    cases reason with
    | none => exact .inl errors
    | some reason => exact .inr ⟨reason, errors⟩
  · rw [counted] at told
    exact .inl ⟨cause, (congrArg Ledger.answers told).trans (Ledger.answers_fail ..), counted,
      (congrArg Ledger.errors told).trans (Ledger.errors_fail ..)⟩

/-- The report of a retry comes in time, from nobody else and only once. -/
theorem Began.punctual (began : Began w₀ (past ++ f :: mid) x)
    (run : Run config policy autoPong shared w₀) (plan : (task, delay) ∈ f.planned)
    (hsender : x.letter.sender = some task) :
    (∃ g, x.letter.message = .retry g) ∧ f.now + min delay.nanos Loopback.farAway ≤ x.now := by
  have paced := paced_of_run run
  obtain ⟨rest, outcomes, next, entry⟩ := began.entry
  obtain ⟨j, g, hj, hw, hb⟩ := paced.planned f (by rw [began.history]; simp) task delay plan
  have hl : x.letter ∈ w₀.mailbox := next ▸ List.mem_cons_self
  have kind : x.letter.message.slot? = some .retrying := by
    cases hx : x.letter with
    | mk sender message =>
      rw [hx] at hl hsender
      obtain rfl : sender = some task := hsender
      cases paced.traceable _ (List.mem_append_right _ hl) with
      | report there kind =>
        obtain rfl := Option.some.inj (hj.symm.trans there)
        rw [hw] at kind
        exact kind
  refine ⟨?_, ?_⟩
  · cases hm : x.letter.message with
    | retry g => exact ⟨g, rfl⟩
    | _ => rw [hm] at kind; cases kind
  · obtain ⟨task', j', instant, hs, hj', -, hd, hi⟩ := paced.waiting x.letter hl kind
    obtain rfl : task = task' := Option.some.inj (hsender.symm.trans hs)
    obtain rfl : j = j' := Option.some.inj (hj.symm.trans hj')
    have armed := (steady_of_run run).armed j (List.mem_of_getElem? hj) (by rw [hw]; nofun)
    rw [hw, hb] at armed
    have due : Loopback.deadline f.now delay = instant := Option.some.inj (armed.symm.trans hd)
    have now : x.now = w₀.now := by rw [entry]; rfl
    rw [now]
    refine Nat.le_trans ?_ (due ▸ hi)
    unfold Loopback.deadline
    split <;> omega

/-- The report of a retry begins an attempt exactly if nothing has cancelled the retry. -/
theorem Began.begins_iff_calm (began : Began w₀ (past ++ f :: mid) x)
    (reached : Reachable config policy autoPong shared w₀) (plan : (task, delay) ∈ f.planned)
    (hsender : x.letter.sender = some task) {g : UInt64} (report : x.letter.message = .retry g) :
    x.begun ≠ [] ↔ ∀ y ∈ mid, y.cancels = false := by
  have asks : x.connects = false := by
    unfold Handled.connects
    rw [report]
    rfl
  have count := began.length_begun reached
  rw [asks, ← resumes_eq_fires began reached] at count
  rw [← resumes_iff_calm began reached plan hsender]
  cases hr : w₀.manager.holding.resumes x.letter.message <;> rw [hr] at count
  · rw [List.eq_nil_of_length_eq_zero count]
    exact ⟨fun h => absurd rfl h, nofun⟩
  · refine ⟨fun _ => rfl, fun _ none_ => ?_⟩
    rw [none_] at count
    cases count

/-- No other letter, earlier or later, is the report of a retry that has reported. -/
theorem sent_by_no_other {rest : List (Handled κ)} (run : Run config policy autoPong shared w)
    (he : w.history = (past ++ f :: mid) ++ x :: rest) (plan : (task, delay) ∈ f.planned)
    (hsender : x.letter.sender = some task) :
    ∀ y ∈ mid ++ rest, y.letter.sender ≠ some task := by
  intro y hy hs
  rcases List.mem_append.mp hy with hy | hy
  · obtain ⟨w₁, run₁, began⟩ := run.began he
    exact began.sent_once run₁ (f := f) (by simp) plan hsender y (by simp [hy]) hs
  · obtain ⟨before, after, rfl⟩ := List.append_of_mem hy
    have hy' : w.history = (past ++ f :: mid ++ x :: before) ++ y :: after := by rw [he]; simp
    obtain ⟨w₂, run₂, began⟩ := run.began hy'
    exact began.sent_once run₂ (f := f) (by simp) plan hs x (by simp) hsender

/-- After the policy has given up no attempt begins until somebody asks for a connection. -/
theorem begun_of_idle (run : Run config policy autoPong shared w)
    (he : w.history = (past ++ f :: mid) ++ x :: later) (idle : f.after.state.isIdle = true)
    (calm : ∀ y ∈ mid ++ [x], y.letter.message.isConnect = false) : x.begun = [] := by
  obtain ⟨w₀, run₀, began⟩ := run.began he
  have idle₀ : w₀.manager.state.isIdle = true := by
    refine traced_run.kept (I := fun _ m => m.state.isIdle = true) idle ?_ run₀ began.history
    rintro w₁ before y after rfl run₁ began₁ idle₁
    obtain ⟨rest, outcomes, next, entry⟩ := began₁.entry
    rw [entry]
    exact ((steady_of_run run₁).deal began₁.going y.letter outcomes).idle idle₁ (calm y (by simp))
  have opens := (began.deal (steady_of_run run₀)).opens rfl
  have stale : w₀.manager.holding.resumes x.letter.message = false := by
    refine Bool.eq_false_iff.mpr fun hr => ?_
    have hs : w₀.manager.state = .reconnecting := ((w₀.manager.holding.resumes_iff _).mp hr).2
    rw [hs] at idle₀
    cases idle₀
  rw [Handled.started_holding, began.before, calm x (by simp), stale] at opens
  exact List.eq_nil_of_length_eq_zero opens

end Entry

theorem tally_begun {history : List (Handled κ)}
    (each : ∀ past r later, history = past ++ r :: later →
      r.begun.length = r.connects.toNat + (fires past r).toNat) :
    tally (·.begun.length) history = history.countP Handled.connects + firings history := by
  induction history using List.reverseRecOn with
  | nil => rfl
  | append_singleton past r ih =>
    have last := each past r [] rfl
    have before := ih fun past' r' later' he => each past' r' (later' ++ [r]) (by rw [he]; simp)
    rw [tally_append, List.countP_append, firings_append, before, last, List.countP_singleton]
    cases r.connects <;> simp <;> omega

/-- **Failures, the policy, and retries.** Every failure asks the policy once, about the number of
failures since the last connection that was taken into use, request that began an attempt, or
disconnect. A delay plans a retry: its report is handled at most once, not before the delay is over,
and begins an attempt exactly if nobody has asked for a connection or for the end of it in between.
When the policy gives up, no attempt begins until somebody asks for a connection. So the attempts are
those that were asked for while none went on, and the retries that were not cancelled. -/
theorem retried_of_reachable (reached : Reachable config policy autoPong shared w) :
    (∀ past r later, w.history = past ++ r :: later →
      r.Consults policy (min (streak (past ++ [r])) Manager.maxAttempt)) ∧
    (∀ past f later delay, w.history = past ++ f :: later → f.answers = [.wait delay] →
      f.after.state = .reconnecting ∧ ∃ task, f.planned = [(task, delay)] ∧
        ∀ mid x rest, later = mid ++ x :: rest → x.letter.sender = some task →
          (∃ g, x.letter.message = .retry g) ∧
          f.now + min delay.nanos Loopback.farAway ≤ x.now ∧
          (∀ y ∈ mid ++ rest, y.letter.sender ≠ some task) ∧
          (x.begun ≠ [] ↔ ∀ y ∈ mid, y.cancels = false)) ∧
    (∀ past f later, w.history = past ++ f :: later → f.answers = [.giveUp] →
      f.after.state = .failed ∧ ∀ mid x rest, later = mid ++ x :: rest → x.begun ≠ [] →
        ∃ y ∈ mid ++ [x], y.letter.message.isConnect = true) ∧
    (∀ past r later, w.history = past ++ r :: later →
      r.begun.length = r.connects.toNat + (fires past r).toNat) ∧
    tally (·.begun.length) w.history =
      w.history.countP Handled.connects + firings w.history := by
  have each : ∀ past r later, w.history = past ++ r :: later →
      r.begun.length = r.connects.toNat + (fires past r).toNat := by
    intro past r later he
    obtain ⟨w₀, reached₀, began⟩ := reached.began he
    exact began.length_begun reached₀
  refine ⟨?_, ?_, ?_, each, tally_begun each⟩
  · intro past r later he
    obtain ⟨w₀, reached₀, began⟩ := reached.began he
    exact began.consults reached₀.run
  · intro past f later delay he answer
    obtain ⟨w₀, reached₀, began₀⟩ := reached.began he
    cases began₀.obeys reached₀.run answer with
    | waits stopped state held starts =>
      rename_i task
      rw [Handled.started_holding] at starts
      have plan : (task, delay) ∈ f.planned := by
        rw [show f.planned = _ from starts]
        exact List.mem_singleton_self _
      refine ⟨state, task, starts, ?_⟩
      rintro mid x rest rfl hsender
      have hx : w.history = (past ++ f :: mid) ++ x :: rest := by rw [he]; simp
      obtain ⟨w₁, reached₁, began⟩ := reached.began hx
      obtain ⟨⟨g, hm⟩, time⟩ := began.punctual reached₁.run plan hsender
      exact ⟨⟨g, hm⟩, time, sent_by_no_other reached.run hx plan hsender,
        began.begins_iff_calm reached₁ plan hsender hm⟩
  · intro past f later he answer
    obtain ⟨w₀, reached₀, began₀⟩ := reached.began he
    cases began₀.obeys reached₀.run answer with
    | ends _ state =>
      refine ⟨state, ?_⟩
      rintro mid x rest rfl begins
      have hx : w.history = (past ++ f :: mid) ++ x :: rest := by rw [he]; simp
      have idle : f.after.state.isIdle = true := by
        rw [show f.after.state = _ from state]
        rfl
      by_contra calm
      refine begins (begun_of_idle reached.run hx idle fun y hy => ?_)
      exact Bool.eq_false_iff.mpr fun hc => calm ⟨y, hy, hc⟩

end Runs

/-! ### A run with a retry -/

/-- A policy that always waits for a second. -/
def retryAfterSecond : Nat → Verdict := fun _ => .wait (.ofSeconds 1)

def firstAttempt : World Listener Notebook :=
  connectPending .default retryAfterSecond true (.empty 20) none

def attemptRefused : World Listener Notebook :=
  firstAttempt.deliver 0 (.openFailed 1 (.openFailed "refused"))

def retryPlanned : World Listener Notebook :=
  attemptRefused.turn ⟨some 0, .openFailed 1 (.openFailed "refused")⟩ [] fun _ _ => .done

/-- A second later the retry is due. -/
def retryDue : World Listener Notebook :=
  ({ retryPlanned with now := retryPlanned.now + nanosPerSecond }).deliver 1 (.retry 2)

def secondAttempt : World Listener Notebook :=
  retryDue.turn ⟨some 1, .retry 2⟩ [] fun _ _ => .done

theorem reachable_secondAttempt :
    Reachable .default retryAfterSecond true (.empty 20) secondAttempt := by
  have pending : Run .default retryAfterSecond true (.empty 20) firstAttempt :=
    Run.start.plains (plains_connectPending ..)
  have planned : Run .default retryAfterSecond true (.empty 20) retryPlanned :=
    .step (.step pending (.refuses ⟨_, rfl, rfl, rfl⟩ _)) (.turns rfl rfl _)
  have due : Run .default retryAfterSecond true (.empty 20) retryDue :=
    .step (.step planned (.waits nanosPerSecond))
      (.retries ⟨_, rfl, rfl, rfl⟩ ⟨⟨_, rfl, rfl⟩, by decide⟩)
  have run : Run .default retryAfterSecond true (.empty 20) secondAttempt :=
    .step due (.turns rfl rfl _)
  exact (run.reachable (by decide)).1

/-- The case of an attempt that fails, and of one retry. -/
theorem retried_secondAttempt : Reachable .default retryAfterSecond true (.empty 20) secondAttempt ∧
    secondAttempt.history.countP Handled.connects = 1 ∧
      tally (·.begun.length) secondAttempt.history = 1 + firings secondAttempt.history := by
  have asked : secondAttempt.history.countP Handled.connects = 1 := rfl
  refine ⟨reachable_secondAttempt, asked, ?_⟩
  rw [(retried_of_reachable reachable_secondAttempt).2.2.2.2, asked]

end World

end LiveMetrics
