import LiveMetrics.Proofs.Connection.Steady

/-!
# The invariant of runs in which generations do not come round

`World.Sound` adds to `World.Steady` what rests on the numbers of the generations: the state of the
manager agrees with what it holds, what is held is of the present generation, aborted tasks stay
behind, and a report of the present generation comes from a held task, or from the attempt that has
led to the connection. `sound_of_reachable` is the induction over a run, again with one part for the
steps without the manager (`Sound.apart`) and one for the turns (`Sound.turn`).
-/

set_option autoImplicit false

namespace LiveMetrics

namespace World

variable {κ σ : Type}

/-! ## The invariant -/

/-- If a letter is of the present generation, its sender is held, or is the attempt that has led to
the connection. -/
def Timely (w : World κ σ) (letter : Letter κ) : Prop :=
  ∀ task j, letter.sender = some task → w.jobs[task]? = some j →
    j.what.generation = w.manager.generation →
      w.manager.holding.slot j.what.slot = some task ∨
        j.what.slot = .opening ∧ w.manager.state = .connected

/-- What holds between any two steps of a run in which generations do not come round. -/
structure Sound (w : World κ σ) : Prop extends Steady w where
  owns : w.manager.holding.Owns w.now w.jobs
  agrees : w.manager.phase ≠ .stopped → w.manager.holding.Agrees
  outdates : w.manager.phase ≠ .stopped → w.manager.holding.Outdates w.now w.jobs
  released : w.manager.phase = .stopped → w.manager.holding.Released
  timely : ∀ letter ∈ w.mailbox, w.Timely letter

namespace Sound

variable {w w' : World κ σ}

/-! ## Steps without the manager -/

theorem held_of_running (h : Sound w) {task : Nat} {j : Job} (there : w.jobs[task]? = some j)
    (runs : j.fate = .running) (hp : w.manager.phase ≠ .stopped)
    (hg : j.what.generation = w.manager.generation) :
    w.manager.holding.slot j.what.slot = some task := by
  by_contra hs
  rcases h.owns.loose task j there hs with ha | hf
  · exact h.outdates hp j (List.mem_of_getElem? there) ha runs hg
  · exact hf runs

/-- Only held tasks put reports of the present generation into the mailbox. -/
theorem timely_apart (h : Sound w) {letters : List (Letter κ)} (apart : Apart w w' letters)
    {letter : Letter κ} (hl : letter ∈ w'.mailbox) : w'.Timely letter := by
  intro task j' hsender hj' hg
  obtain ⟨j, hj, later⟩ := apart.jobs.earlier hj'
  rw [apart.manager, later.what] at *
  by_cases hp : w.manager.phase = .stopped
  · rw [apart.mailbox, if_pos hp] at hl
    exact h.timely letter hl task j hsender hj hg
  · rw [apart.mailbox_of_running hp] at hl
    rcases List.mem_append.mp hl with hl | hl
    · exact h.timely letter hl task j hsender hj hg
    · left
      cases apart.sent letter hl with
      | request hr => cases hsender
      | report there runs kind tag later last =>
        cases hsender
        obtain rfl := Option.some.inj (hj.symm.trans there)
        exact h.held_of_running hj runs hp hg

theorem apart (h : Sound w) {letters : List (Letter κ)} (apart : Apart w w' letters) : Sound w' := by
  have placed := apart.placed h.placed
  refine ⟨h.toSteady.apart apart, ⟨placed, ?_, ?_⟩, ?_, ?_, ?_, fun _ hl => h.timely_apart apart hl⟩
  · intro s n j' hs hj'
    obtain ⟨j, hj, hl⟩ := apart.jobs.earlier hj'
    rw [apart.manager] at hs ⊢
    rw [hl.what]
    exact h.owns.present s n j hs hj
  · intro n j' hj' hs
    obtain ⟨j, hj, hl⟩ := apart.jobs.earlier hj'
    rw [apart.manager, hl.what] at hs
    rcases h.owns.loose n j hj hs with ha | hf
    · exact .inl (hl.aborted.trans ha)
    · exact .inr fun hr => hf (hl.running hr)
  · rw [apart.manager]; exact h.agrees
  · rw [apart.manager]
    intro hp j' hj' ha hr
    obtain ⟨j, hj, hl⟩ := apart.earlier hj'
    rw [hl.what]
    exact h.outdates hp j hj (hl.aborted.symm.trans ha) (hl.running hr)
  · rw [apart.manager]; exact h.released

/-! ## Turns -/

section Turns

variable {letter : Letter κ} {rest : List (Letter κ)}

theorem begins (h : Sound w) (hp : w.manager.phase ≠ .stopped)
    (next : w.mailbox = letter :: rest) :
    Course.Begins w.now w.jobs w.manager.holding letter.message := by
  have ha := h.agrees hp
  have hl : letter ∈ w.mailbox := next ▸ List.mem_cons_self
  refine ⟨ha, h.owns, ?_, ?_⟩
  · intro hlast hk s n j hs hn hj
    cases h.letters letter hl with
    | request hr => exact nomatch hlast.symm.trans (Message.isLast_of_request hr)
    | report there kind tag last =>
      rename_i task message j₀
      obtain rfl : j₀.what.slot = s := Option.some.inj (kind.symm.trans hs)
      -- the report is of the present generation, so its sender is held
      have hg : j₀.what.generation = w.manager.generation :=
        Option.some.inj (tag.symm.trans (hk.generation hlast))
      have hm : w.manager.holding.slot j₀.what.slot = some task := by
        rcases h.timely _ hl task j₀ rfl there hg with hp | ⟨ho, hc⟩
        · exact hp
        · exact nomatch (hk.connecting (ho ▸ kind)).symm.trans hc
      obtain rfl : task = n := Option.some.inj (hm.symm.trans hn)
      obtain rfl : j₀ = j := Option.some.inj (there.symm.trans hj)
      rw [last hlast]
      nofun
  · intro cause hc
    cases h.letters letter hl with
    | request hr =>
      exact nomatch (congrArg Message.slot? hc).symm.trans (Message.slot?_of_request hr)
    | report there kind tag last =>
      rename_i task message j
      obtain rfl : message = .closed w.manager.generation cause := hc
      have hk : Slot.reading = j.what.slot := Option.some.inj kind
      rcases h.timely _ hl task j rfl there (Option.some.inj tag).symm with hp | ⟨ho, -⟩
      · rw [← hk] at hp
        exact ha.reading.mp (by rw [show w.manager.holding.readerTask = some task from hp]; rfl)
      · rw [← hk] at ho; cases ho

variable [Callback κ σ] {outcomes : Nat → Nat → WriteOutcome}

/-- A letter that stays in the mailbox is still of a held task, or of an old generation. -/
theorem timely_turn (h : Sound w) (hp : w.manager.phase ≠ .stopped)
    (fresh : (w.handling letter outcomes).manager.generation ≠ w.manager.generation →
      w.Unborne (w.handling letter outcomes).manager.generation)
    (runs : (w.handling letter outcomes).manager.phase ≠ .stopped) {l : Letter κ}
    (hl : l ∈ w.mailbox) : (w.turn letter rest outcomes).Timely l := by
  let t := w.handling letter outcomes
  cases h.letters l hl with
  | request hr => exact fun _ _ hsender => nomatch hsender
  | report there kind tag last =>
    rename_i task message j
    obtain ⟨a, ha, -⟩ := old_job w letter rest outcomes there
    intro task' j' hsender hj' hg
    cases hsender
    obtain rfl := Option.some.inj (ha.symm.trans hj')
    rw [manager_turn] at hg ⊢
    by_cases hsame : t.manager.generation = w.manager.generation
    · have before := h.timely _ hl task j rfl there (hg.trans hsame)
      rw [Turn.slot_holding]
      rcases (h.course hp letter outcomes).present hsame with he | he | ⟨hc, hc'⟩
      · have hs : t.manager.state = w.manager.state := congrArg Holding.state he
        rw [he, hs]
        exact before
      · exact absurd ((stopped_iff t.manager).mp he) runs
      · refine .inr ⟨?_, hc'⟩
        rcases before with hh | ⟨ho, -⟩
        · exact (h.agrees hp).slot_of_connecting hc hh
        · exact ho
    · -- a generation has begun that no letter bears
      exact absurd (tag.trans (congrArg some hg)) ((fresh hsame).2 _ hl)

theorem turn (h : Sound w) (hp : w.manager.phase ≠ .stopped) (next : w.mailbox = letter :: rest)
    (fresh : (w.handling letter outcomes).manager.generation ≠ w.manager.generation →
      w.Unborne (w.handling letter outcomes).manager.generation) :
    Sound (w.turn letter rest outcomes) := by
  let t := w.handling letter outcomes
  have course : Course _ _ _ _ t.holding := h.course hp letter outcomes
  have begins := h.begins hp next
  have still : w.manager.holding.stopped = false :=
    Bool.eq_false_iff.mpr fun hs => hp ((stopped_iff _).mp hs)
  refine ⟨h.toSteady.turn hp next, ?_, ?_, ?_, ?_, ?_⟩
  · rw [manager_turn, now_turn, jobs_turn]
    exact (course.owns begins).rebase w.now
  · rw [manager_turn]
    intro hs
    cases course.settled begins with
    | stopped hs' _ => exact absurd ((stopped_iff t.manager).mp hs') hs
    | agrees _ ha => exact ⟨ha.1, ha.2, ha.3, ha.4, ha.5, ha.6, ha.7, ha.8, ha.9⟩
  · rw [manager_turn, now_turn, jobs_turn]
    intro hs
    rcases course.outdates begins (h.outdates hp) (fun hg => (fresh hg).1) with hs' | ho
    · exact absurd ((stopped_iff t.manager).mp hs') hs
    · exact ho
  · rw [manager_turn]
    intro hs
    cases course.settled begins with
    | stopped _ hr => exact ⟨hr.tasks, hr.writer, hr.connectedAt⟩
    | agrees hs' _ =>
      have ht : t.holding.stopped = true := (stopped_iff t.manager).mpr hs
      exact nomatch ht.symm.trans (hs'.trans still)
  · intro l hl
    rw [mailbox_turn] at hl
    split at hl
    · cases hl
    · rename_i hs
      exact h.timely_turn hp fresh hs (next ▸ List.mem_cons_of_mem _ hl)

end Turns

end Sound

/-! ## Runs -/

section Runs

variable {config : Config} {policy : Nat → Verdict} {autoPong : Bool} {shared : σ}

theorem sound_start : Sound (start config policy autoPong shared : World κ σ) := by
  refine ⟨steady_start, ⟨steady_start.placed, ?_, fun n j hj => nomatch hj⟩, fun _ => ?_,
    fun _ => List.forall_mem_nil _, nofun, List.forall_mem_nil _⟩
  · intro s n j hs
    cases s <;> cases hs
  · exact ⟨⟨nofun, nofun⟩, ⟨nofun, nofun⟩, ⟨nofun, nofun⟩, ⟨nofun, nofun⟩, ⟨nofun, nofun⟩,
      ⟨nofun, nofun⟩, fun h => absurd rfl h, fun _ => rfl, by rintro (h | h) <;> cases h⟩

variable [Callback κ σ]

/-- **The invariant holds in every run in which generations do not come round.** -/
theorem sound_of_reachable {w : World κ σ} (h : Reachable config policy autoPong shared w) :
    Sound w := by
  induction h with
  | start => exact sound_start
  | step before step fresh ih =>
    rcases step.turn_or_apart with ⟨letter, rest, outcomes, runs, next, rfl⟩ | ⟨letters, apart⟩
    · rw [manager_turn] at fresh
      exact ih.turn (by rw [runs]; nofun) next fresh
    · exact ih.apart apart

end Runs

end World

end LiveMetrics
