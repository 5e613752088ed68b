import LiveMetrics.Proofs.Connection.Opening

/-!
# Resources of a manager

What a manager holds between two messages follows from the state of its connection, and no task
is forgotten: one that is not held was aborted or has sent its last report. This holds as long as
no generation comes round while something of it is in flight (`World.Reachable`), so in every run of
fewer than 2 ^ 64 generations (`Run.reachable`).
-/

set_option autoImplicit false

namespace LiveMetrics

namespace World

/-- A task that has not been aborted and has not sent its last report. -/
def Job.Live (j : Job) : Prop := j.aborted = false ∧ j.fate ≠ .delivered

variable {κ σ : Type} {w : World κ σ}

theorem Sound.held_of_live (h : Sound w) {n : Nat} {j : Job} (there : w.jobs[n]? = some j)
    (live : j.Live) : w.manager.holding.slot j.what.slot = some n := by
  obtain ⟨ha, hd⟩ := live
  by_contra hs
  rcases h.owns.loose n j there hs with ha' | hf
  · exact Bool.noConfusion (ha.symm.trans ha')
  · cases hj : j.fate with
    | running => exact hf hj
    | delivered => exact hd hj
    | cancelled => exact Bool.noConfusion (ha.symm.trans (h.cancelled j (List.mem_of_getElem? there) hj))

/-- A task that is not held was aborted or has sent its last report. -/
theorem Sound.loose_cases (h : Sound w) {n : Nat} {j : Job} (there : w.jobs[n]? = some j)
    (loose : w.manager.holding.slot j.what.slot ≠ some n) :
    j.fate = .delivered ∨ j.aborted = true := by
  by_contra hn
  rw [not_or] at hn
  exact loose (h.held_of_live there ⟨Bool.eq_false_iff.mpr hn.2, hn.1⟩)

theorem uptime_of_released (m : Manager κ) (h : m.health.connectedAt = none) (now : Nat) :
    (m.stats now).uptime = .zero := by
  show Health.age m.health.connectedAt now = .zero
  rw [h]
  rfl

variable [Callback κ σ] {config : Config} {policy : Nat → Verdict} {autoPong : Bool} {shared : σ}

/-- **State and resources agree**: in a running manager the resources are those of the state, without
a connection there is no uptime, and without a connection or a plan for one nothing is held; a
manager that has stopped holds nothing. A task that is not held was aborted or has sent its last
report, so no two tasks of a kind are live. -/
theorem resources_of_reachable (reached : Reachable config policy autoPong shared w) :
    (w.manager.phase ≠ .stopped → w.manager.holding.Agrees ∧
      (w.manager.state ≠ .connected → ∀ now, (w.manager.stats now).uptime = .zero) ∧
      (w.manager.state = .disconnected ∨ w.manager.state = .failed → w.manager.holding.Released)) ∧
    (w.manager.phase = .stopped → w.manager.holding.Released) ∧
    (∀ n j, w.jobs[n]? = some j → w.manager.holding.slot j.what.slot ≠ some n →
      j.fate = .delivered ∨ j.aborted = true) ∧
    ∀ (n m : Nat) (i j : Job), w.jobs[n]? = some i → w.jobs[m]? = some j →
      i.what.slot = j.what.slot → i.Live → j.Live → n = m := by
  have sound := sound_of_reachable reached
  refine ⟨fun runs => ?_, sound.released, fun n j there loose => sound.loose_cases there loose, ?_⟩
  · have agrees := sound.agrees runs
    refine ⟨agrees, fun hs now => ?_, agrees.released⟩
    have hc : w.manager.health.connectedAt = none := Holding.Agrees.none_of agrees.counted hs
    exact uptime_of_released w.manager hc now
  · intro n m i j hi hj hk li lj
    have hn := sound.held_of_live hi li
    have hm := sound.held_of_live hj lj
    rw [hk] at hn
    exact Option.some.inj (hn.symm.trans hm)

/-- The case of a connection that has just been opened. -/
theorem resources_defaultOpen : Reachable .default (fun _ => .giveUp) true (.empty 20) defaultOpen ∧
    defaultOpen.manager.holding.Agrees ∧ defaultOpen.manager.writer = some 0 := by
  have reached := (run_defaultOpen.reachable (by decide)).1
  exact ⟨reached, ((resources_of_reachable reached).1 nofun).1, rfl⟩

end World

end LiveMetrics
