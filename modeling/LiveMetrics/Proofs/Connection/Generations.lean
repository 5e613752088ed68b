import Mathlib.Algebra.Group.Nat.Defs
import LiveMetrics.Proofs.Connection.Invariant
import LiveMetrics.Proofs.Connection.Writing

/-!
# Generations

The generation counter has 64 bits. In a run that has begun fewer than 2 ^ 64 generations it has
not come round: the `k`-th generation has the number `k`, and whatever is in flight bears one of
the numbers so far. So a generation that begins is new to all of it, and the run is one of those of
`World.Reachable` (`Run.reachable`).
-/

set_option autoImplicit false

namespace LiveMetrics

open World (Job)

/-! ## Started tasks -/

namespace Holding

/-- Every task that the turn has started is as `p` says. -/
def Starts (p : Task → Prop) (c : Holding) : Prop :=
  ∀ task what, Mark.start task what ∈ c.marks → p what

namespace Starts

variable {p : Task → Prop} {c : Holding}

theorem of_marks_eq {d : Holding} (h : Starts p c) (he : d.marks = c.marks) : Starts p d :=
  fun task what hm => h task what (he ▸ hm)

theorem of_blank (h : c.marks = []) : Starts p c := by
  intro task what hm
  rw [h] at hm
  cases hm

theorem abort? (h : Starts p c) (task : Option Nat) : Starts p (c.abort? task) := by
  intro n what hm
  rcases List.mem_append.mp hm with hm | hm
  · exact h n what hm
  · obtain ⟨_, _, he⟩ := List.mem_map.mp hm
    cases he

theorem drop (h : Starts p c) (s : Slot) : Starts p (c.drop s) :=
  (h.abort? (c.slot s)).of_marks_eq (marks_put _ _ _)

theorem mark (h : Starts p c) {m : Mark} (other : ∀ task what, m ≠ .start task what) :
    Starts p (c.mark m) := by
  intro n what hm
  rcases List.mem_append.mp hm with hm | hm
  · exact h n what hm
  · exact absurd (List.mem_singleton.mp hm).symm (other n what)

theorem enter (h : Starts p c) (next : ConnectionState) : Starts p (c.enter next) := by
  intro n what hm
  rcases List.mem_append.mp hm with hm | hm
  · exact h n what hm
  · split at hm
    · cases hm
    · cases List.mem_singleton.mp hm

theorem hire (h : Starts p c) {what : Task} (hp : p what) : Starts p (c.hire what) := by
  intro n what' hm
  rw [show (c.hire what).marks = c.marks ++ [.start c.tasks what] from marks_put _ _ _] at hm
  rcases List.mem_append.mp hm with hm | hm
  · exact h n what' hm
  · cases List.mem_singleton.mp hm
    exact hp

theorem teardown (h : Starts p c) : Starts p c.teardown :=
  ((h.drop .opening).drop .reading).drop .ticking

theorem opening (h : Starts p c) {endpoint : String} {limit : Span}
    (hp : p (.opening (c.generation + 1) endpoint limit)) : Starts p (c.opening endpoint limit) := by
  let d : Holding := { c.drop .opening with generation := c.generation + 1 }
  have hd : Starts p d := h.drop .opening
  exact (hd.enter .connecting).hire hp

theorem settle (h : Starts p c) {link instant : Nat} {interval : Span}
    (hr : p (.reading c.generation link)) (ht : p (.ticking c.generation interval)) :
    Starts p (c.settle link instant interval) := by
  let c₁ : Holding :=
    { c.put .opening none with attempt := 0, writer := some link, connectedAt := some instant }
  have h₁ : Starts p c₁ := h
  have h₂ : Starts p (c₁.hire (.reading c.generation link)) := h₁.hire hr
  have h₃ := (h₂.drop .ticking).hire ht
  exact h₃.enter .connected

theorem fail (h : Starts p c) (policy : Nat → Verdict)
    (hp : ∀ delay, p (.retrying (c.generation + 1) delay)) : Starts p (c.fail policy) := by
  have hl : Starts p c.lose := h.teardown
  unfold Holding.fail
  cases policy c.lose.attempt with
  | broken reason => exact (hl.drop .retrying).teardown
  | giveUp => exact (hl.mark (m := .failure c.lose.attempt none) nofun).enter .failed
  | wait delay =>
    have hm := (hl.mark (m := .failure c.lose.attempt (some delay)) nofun).enter .reconnecting
    exact (hm.drop .retrying).hire (hp delay)

theorem disconnect (h : Starts p c) : Starts p c.disconnect := by
  let d : Holding := { c.cancelRetry.teardown with generation := c.generation + 1, attempt := 0 }
  have hd : Starts p d := (h.drop .retrying).teardown
  exact hd.enter .disconnected

end Starts

end Holding

namespace Course

open Holding

variable {κ : Type} {limit : Span} {policy : Nat → Verdict} {c c' : Holding} {message : Message κ}

/-- What a turn starts bears the generation before it or after it, and an attempt has the limit of
the configuration. -/
theorem starts (h : Course limit policy c message c') (blank : c.marks = []) :
    c'.Starts fun what => (what.generation = c.generation ∨ what.generation = c'.generation) ∧
      ∀ g endpoint span, what = .opening g endpoint span → span = limit := by
  have hb : ∀ p, c.Starts p := fun p => .of_blank blank
  have opens : ∀ {g : UInt64} (endpoint : String), g = c'.generation →
      (Task.opening g endpoint limit).generation = c'.generation ∧
        ∀ g' endpoint' span, Task.opening g endpoint limit = .opening g' endpoint' span →
          span = limit := by
    intro g endpoint hg
    refine ⟨hg, fun _ _ _ he => ?_⟩
    cases he
    rfl
  cases h with
  | steady => exact hb _
  | fails => exact (hb _).fail policy fun _ => ⟨.inr (generation_fail c policy).symm, nofun⟩
  | refused =>
    let d : Holding := { c with openTask := none }
    have hd : ∀ p, d.Starts p := hb
    exact (hd _).fail policy fun _ => ⟨.inr (generation_fail d policy).symm, nofun⟩
  | connects =>
    rename_i endpoint _ _
    let d : Holding := { c with endpoint := some endpoint, attempt := 0 }
    have hd : ∀ p, d.Starts p := hb
    obtain ⟨hg, hl⟩ := opens endpoint (generation_opening d endpoint limit).symm
    exact (hd _).opening ⟨.inr hg, hl⟩
  | reconnects =>
    rename_i endpoint _ _
    let d : Holding := { c.cancelRetry with endpoint := some endpoint, attempt := 0 }
    have hd : ∀ p, d.Starts p := fun p => (hb p).drop .retrying
    obtain ⟨hg, hl⟩ := opens endpoint (generation_opening d endpoint limit).symm
    exact (hd _).opening ⟨.inr hg, hl⟩
  | retries =>
    rename_i endpoint _ _
    let d : Holding := { c with retryTask := none }
    have hd : ∀ p, d.Starts p := hb
    obtain ⟨hg, hl⟩ := opens endpoint (generation_opening d endpoint limit).symm
    exact (hd _).opening ⟨.inr hg, hl⟩
  | installs => exact (hb _).settle ⟨.inl rfl, nofun⟩ ⟨.inl rfl, nofun⟩
  | installsFails =>
    rename_i link instant interval _
    let d := c.settle link instant interval
    have hd : d.Starts fun what => (what.generation = c.generation ∨
        what.generation = (d.fail policy).generation) ∧
        ∀ g endpoint span, what = .opening g endpoint span → span = limit :=
      (hb _).settle ⟨.inl rfl, nofun⟩ ⟨.inl rfl, nofun⟩
    exact hd.fail policy fun _ => ⟨.inr (generation_fail d policy).symm, nofun⟩
  | disconnects => exact (hb _).disconnect
  | stops => exact ((hb _).drop .retrying).teardown

end Course

/-! ## Counting generations -/

namespace World

variable {κ σ : Type}

/-- How many generations have begun. -/
def bumps (w : World κ σ) : Nat :=
  w.history.countP fun r => r.after.generation ≠ r.before.generation

/-- Generations are numbered in their order, and nothing bears the number of a later one. -/
structure Numbered (w : World κ σ) : Prop where
  generation : w.manager.generation = UInt64.ofNat w.bumps
  jobs : ∀ j ∈ w.jobs, ∃ k ≤ w.bumps, j.what.generation = UInt64.ofNat k

theorem ofNat_inj {k n : Nat} (hk : k < 2 ^ 64) (hn : n < 2 ^ 64)
    (h : UInt64.ofNat k = UInt64.ofNat n) : k = n := by
  have ht := congrArg UInt64.toNat h
  rw [UInt64.toNat_ofNat', UInt64.toNat_ofNat'] at ht
  omega

theorem Numbered.unborne {w : World κ σ} (h : Numbered w) (steady : Steady w)
    (few : w.bumps + 1 < 2 ^ 64) : w.Unborne (UInt64.ofNat (w.bumps + 1)) := by
  have new : ∀ j ∈ w.jobs, j.what.generation ≠ UInt64.ofNat (w.bumps + 1) := by
    intro j hj he
    obtain ⟨k, hk, hg⟩ := h.jobs j hj
    have hkn := ofNat_inj (by omega) few (hg.symm.trans he)
    omega
  refine ⟨fun j hj _ => new j hj, fun letter hl he => ?_⟩
  cases steady.letters letter hl with
  | request hr => exact nomatch he.symm.trans (Message.generation?_of_request hr)
  | report there kind tag last =>
    rename_i task message j
    exact new j (List.mem_of_getElem? there) (Option.some.inj (tag.symm.trans he))

variable [Callback κ σ] {config : Config} {policy : Nat → Verdict} {autoPong : Bool} {shared : σ}

theorem bumps_turn (w : World κ σ) (letter : Letter κ) (rest : List (Letter κ))
    (outcomes : Nat → Nat → WriteOutcome) : (w.turn letter rest outcomes).bumps =
      w.bumps + if (w.handling letter outcomes).manager.generation ≠ w.manager.generation
        then 1 else 0 := by
  unfold bumps
  rw [history_turn, List.countP_append, List.countP_singleton]
  by_cases hg : (w.handling letter outcomes).manager.generation ≠ w.manager.generation
  · have hd : decide ((w.handled letter outcomes).after.generation ≠
        (w.handled letter outcomes).before.generation) = true := decide_eq_true hg
    rw [if_pos hg, if_pos hd]
  · have hd : ¬ decide ((w.handled letter outcomes).after.generation ≠
        (w.handled letter outcomes).before.generation) = true := fun h => hg (of_decide_eq_true h)
    rw [if_neg hg, if_neg hd]

theorem Numbered.turn {w : World κ σ} (h : Numbered w) (steady : Steady w)
    (hp : w.manager.phase ≠ .stopped) (letter : Letter κ) (rest : List (Letter κ))
    (outcomes : Nat → Nat → WriteOutcome) : Numbered (w.turn letter rest outcomes) := by
  let t := w.handling letter outcomes
  have course := steady.course hp letter outcomes
  have hb := bumps_turn w letter rest outcomes
  have hg : t.manager.generation = UInt64.ofNat (w.turn letter rest outcomes).bumps := by
    rw [hb]
    rcases course.generation with he | he
    · have hs : t.manager.generation = w.manager.generation := he
      rw [if_neg (not_not_intro hs), Nat.add_zero, hs]
      exact h.generation
    · have hs : t.manager.generation = w.manager.generation + 1 := he
      rw [if_pos (by rw [hs]; exact generation_succ_ne _), hs, h.generation, UInt64.ofNat_add]
      rfl
  refine ⟨by rw [manager_turn]; exact hg, fun j' hj' => ?_⟩
  rw [jobs_turn] at hj'
  obtain ⟨n, hn⟩ := List.getElem?_of_mem hj'
  by_cases hlt : n < w.jobs.length
  · obtain ⟨a, ha, -⟩ := Holding.jobs_old t.holding w.now w.jobs (List.getElem?_eq_getElem hlt)
    obtain rfl := Option.some.inj (ha.symm.trans hn)
    obtain ⟨k, hk, he⟩ := h.jobs _ (List.getElem_mem hlt)
    exact ⟨k, by rw [hb]; omega, he⟩
  · obtain ⟨task, what, a, hm, rfl⟩ := Holding.jobs_new t.holding w.now w.jobs hn (by omega)
    rcases (course.starts rfl task what hm).1 with he | he
    · exact ⟨w.bumps, by rw [hb]; omega, he.trans h.generation⟩
    · exact ⟨_, Nat.le_refl _, he.trans hg⟩

/-- **Runs of fewer than 2 ^ 64 generations are reachable without coming round.** -/
theorem Run.reachable {w : World κ σ} (h : Run config policy autoPong shared w)
    (few : w.bumps < 2 ^ 64) : Reachable config policy autoPong shared w ∧ Numbered w := by
  induction h with
  | start => exact ⟨.start, rfl, List.forall_mem_nil _⟩
  | step before step ih =>
    rename_i w w'
    rcases step.turn_or_apart with ⟨letter, rest, outcomes, runs, next, rfl⟩ | ⟨letters, apart⟩
    · have hb := bumps_turn w letter rest outcomes
      obtain ⟨reached, numbered⟩ := ih (by omega)
      have steady := steady_of_run before
      have hp : w.manager.phase ≠ .stopped := by rw [runs]; nofun
      have numbered' := numbered.turn steady hp letter rest outcomes
      refine ⟨.step reached step fun changed => ?_, numbered'⟩
      rw [manager_turn] at changed
      rw [if_pos changed] at hb
      rw [numbered'.generation, hb]
      exact numbered.unborne steady (by omega)
    · have hb : w'.bumps = w.bumps := by unfold bumps; rw [apart.history]
      obtain ⟨reached, numbered⟩ := ih (by omega)
      refine ⟨.step reached step fun changed => absurd (by rw [apart.manager]) changed, ?_, ?_⟩
      · rw [hb, apart.manager]; exact numbered.generation
      · intro j' hj'
        obtain ⟨n, hn⟩ := List.getElem?_of_mem hj'
        obtain ⟨j, hj, hl⟩ := apart.jobs.earlier hn
        rw [hb, hl.what]
        exact numbered.jobs j (List.mem_of_getElem? hj)

theorem limit_of_run {w : World κ σ} (h : Run config policy autoPong shared w) :
    ∀ j ∈ w.jobs, ∀ g endpoint limit, j.what = .opening g endpoint limit →
      limit = config.connectTimeout := by
  induction h with
  | start => exact List.forall_mem_nil _
  | step before step ih =>
    rename_i w w'
    rcases step.turn_or_apart with ⟨letter, rest, outcomes, runs, next, rfl⟩ | ⟨letters, apart⟩
    · have hp : w.manager.phase ≠ .stopped := by rw [runs]; nofun
      have course := (steady_of_run before).course hp letter outcomes
      intro j' hj' g endpoint limit hw
      rw [jobs_turn] at hj'
      obtain ⟨n, hn⟩ := List.getElem?_of_mem hj'
      by_cases hlt : n < w.jobs.length
      · have hj := List.getElem?_eq_getElem hlt
        obtain ⟨a, ha, -⟩ := Holding.jobs_old (w.handling letter outcomes).holding w.now w.jobs hj
        obtain rfl := Option.some.inj (ha.symm.trans hn)
        exact ih _ (List.getElem_mem hlt) g endpoint limit hw
      · obtain ⟨task, what, a, hm, rfl⟩ :=
          Holding.jobs_new (w.handling letter outcomes).holding w.now w.jobs hn (by omega)
        have hl := (course.starts rfl task what hm).2 g endpoint limit hw
        rw [hl, (settings_of_run before).1]
    · intro j' hj' g endpoint limit hw
      obtain ⟨n, hn⟩ := List.getElem?_of_mem hj'
      obtain ⟨j, hj, hl⟩ := apart.jobs.earlier hn
      exact ih j (List.mem_of_getElem? hj) g endpoint limit (hl.what.symm.trans hw)

end World

end LiveMetrics
