import Mathlib.Data.List.Chain
import LiveMetrics.Proofs.Connection.Blaming
import LiveMetrics.Proofs.Connection.Entries
import LiveMetrics.Proofs.Connection.Opening

/-!
# Signs of life

A connection is given up for its silence only at a tick of its own timer (`Began.silent`), and while
a connection is open the heartbeat remembers the last sign of life: the opening, or the last frame
that was taken (`vital_of_run`).

So a peer that answers every ping before the next tick is not given up as long as no tick comes later
after the one before, or after the opening, than the peer may be silent (`alive_of_run`). Answering
pings is not enough: the timeout may be set shorter than the time between two ticks, and then a
connection is silent for too long before it has been sent a single ping (`answering_refuted`).
-/

set_option autoImplicit false

namespace LiveMetrics

/-! ## The state connected -/

/-- A turn that ends in the state connected began there, or has taken a connection into use. -/
theorem Course.connected_before {κ : Type} {limit : Span} {policy : Nat → Verdict} {c d : Holding}
    {message : Message κ} (h : Course limit policy c message d) (up : d.state = .connected) :
    c.state = .connected ∨
      ∃ link, message = .opened c.generation link ∧ c.state = .connecting := by
  have fails : ∀ {e : Holding}, (e.fail policy).state = .connected → e.state = .connected := by
    intro e he
    unfold Holding.fail at he
    cases hv : policy e.lose.attempt with
    | broken reason =>
      rw [hv] at he
      exact (state_halt e.lose).symm.trans he
    | giveUp => rw [hv] at he; cases he
    | wait delay => rw [hv] at he; cases he
  cases h with
  | steady => exact .inl up
  | fails => exact .inl (fails up)
  | refused => exact .inl (show c.state = .connected from fails (e := { c with openTask := none }) up)
  | connects | reconnects | retries | disconnects => cases up
  | installs from_ | installsFails from_ => exact .inr ⟨_, rfl, from_⟩
  | stops => exact .inl ((state_halt c).symm.trans up)

/-! ## The kind of a cause -/

theorem DisconnectCause.eq_heartbeatTimeout {cause : DisconnectCause}
    (kind : cause.kind = "heartbeat_timeout") : ∃ silence, cause = .heartbeatTimeout silence := by
  cases cause with
  | heartbeatTimeout silence => exact ⟨silence, rfl⟩
  | _ => exact absurd kind (of_decide_eq_true rfl)

namespace World

variable {κ σ : Type}

/-! ## Entries that are signs of life -/

namespace Handled

variable (r : Handled κ)

/-- Whether it is a sign of life: the connection opened, or a frame came in. -/
def hears : Bool := r.opens || r.takes?.isSome

def hearsPong : Bool :=
  match r.takes? with
  | some (.pong _) => true
  | _ => false

variable {r}

theorem hears_of_pong (h : r.hearsPong = true) : r.hears = true := by
  unfold hearsPong at h
  unfold hears
  split at h
  · rename_i taken
    rw [taken]
    exact Bool.or_true _
  · cases h

end Handled

/-- When the last sign of life came. -/
def heardAt (history : List (Handled κ)) : Option Nat :=
  (history.filter Handled.hears).getLast?.map Handled.now

theorem heardAt_append (past : List (Handled κ)) (r : Handled κ) :
    heardAt (past ++ [r]) = if r.hears then some r.now else heardAt past := by
  unfold heardAt
  rw [List.filter_append]
  cases hr : r.hears with
  | true => simp [hr]
  | false => simp [hr]

section Handling

variable [Callback κ σ] {w : World κ σ} {letter : Letter κ} {outcomes : Nat → Nat → WriteOutcome}

/-- A sign of life is noted, and nothing else is. -/
theorem lastInbound_handled : (w.handled letter outcomes).after.heartbeat.lastInbound =
    if (w.handled letter outcomes).hears then w.now else w.manager.heartbeat.lastInbound := by
  rw [heartbeat_handled]
  unfold Handled.hears
  cases (w.handled letter outcomes).opens with
  | true => rfl
  | false =>
    cases (w.handled letter outcomes).takes? with
    | some frame => cases frame <;> rfl
    | none =>
      simp only [Bool.false_eq_true, if_false, Option.isSome_none, Bool.or_self]
      split <;> rfl

theorem liveness_handled : (w.handled letter outcomes).after.heartbeat.liveness =
    w.manager.heartbeat.liveness := by
  rw [heartbeat_handled]
  split
  · rfl
  · split
    · rename_i frame _
      cases frame <;> rfl
    · split <;> rfl

end Handling

/-! ## The invariant -/

/-- What holds between any two steps of a run: the entries of the history are in the order of time,
and the heartbeat of an open connection remembers the last sign of life. -/
structure Vital (w : World κ σ) : Prop where
  order : w.history.Pairwise fun a b => a.now ≤ b.now
  past : ∀ r ∈ w.history, r.now ≤ w.now
  heard : w.manager.state = .connected → heardAt w.history = some w.manager.heartbeat.lastInbound
  opened : w.manager.state = .connected → ∃ r ∈ w.history, r.opens = true

variable [Callback κ σ] {config : Config} {policy : Nat → Verdict} {autoPong : Bool} {shared : σ}

theorem Vital.turn {w : World κ σ} (h : Vital w) (steady : Steady w) {letter : Letter κ}
    {rest : List (Letter κ)} {outcomes : Nat → Nat → WriteOutcome}
    (running : w.manager.phase ≠ .stopped) : Vital (w.turn letter rest outcomes) := by
  let r := w.handled letter outcomes
  have history := history_turn w letter rest outcomes
  have before : r.after.state = .connected → w.manager.state = .connected ∨ r.opens = true := by
    intro up
    refine ((steady.course running letter outcomes).connected_before up).imp_right ?_
    rintro ⟨link, asked, state⟩
    exact Handled.opens_iff.mpr ⟨link, asked, state⟩
  refine ⟨?_, ?_, fun up => ?_, fun up => ?_⟩
  · rw [history, List.pairwise_append]
    refine ⟨h.order, List.pairwise_singleton _ _, fun a ha b hb => ?_⟩
    rw [List.mem_singleton.mp hb]
    exact h.past a ha
  · rw [history, now_turn]
    intro a ha
    rcases List.mem_append.mp ha with ha | ha
    · exact h.past a ha
    · rw [List.mem_singleton.mp ha]
      exact Nat.le_refl _
  · rw [manager_turn] at up ⊢
    rw [history, heardAt_append,
      show (w.handling letter outcomes).manager.heartbeat.lastInbound = _ from lastInbound_handled]
    cases hears : (w.handled letter outcomes).hears with
    | true => rfl
    | false =>
      -- an opening would be a sign of life
      refine h.heard ((before up).resolve_right fun opens => ?_)
      have heard : (w.handled letter outcomes).hears = true := by
        unfold Handled.hears
        rw [opens]
        rfl
      exact nomatch hears.symm.trans heard
  · rw [manager_turn] at up
    rw [history]
    rcases before up with open_ | opens
    · obtain ⟨a, ha, hopens⟩ := h.opened open_
      exact ⟨a, List.mem_append_left _ ha, hopens⟩
    · exact ⟨r, List.mem_append_right _ List.mem_cons_self, opens⟩

/-- **The heartbeat of an open connection remembers the last sign of life.** -/
theorem vital_of_run {w : World κ σ} (run : Run config policy autoPong shared w) : Vital w := by
  induction run with
  | start => exact ⟨.nil, List.forall_mem_nil _, nofun, nofun⟩
  | step before step ih =>
    rcases step.turn_or_apart with ⟨letter, rest, outcomes, runs, next, rfl⟩ | ⟨letters, apart⟩
    · exact ih.turn (steady_of_run before) (by rw [runs]; nofun)
    · refine ⟨?_, ?_, ?_, ?_⟩
      · rw [apart.history]; exact ih.order
      · rw [apart.history]; exact fun r hr => Nat.le_trans (ih.past r hr) apart.now
      · rw [apart.history, apart.manager]; exact ih.heard
      · rw [apart.history, apart.manager]; exact ih.opened

theorem liveness_of_run {w : World κ σ} (run : Run config policy autoPong shared w) :
    w.manager.heartbeat.liveness = config.liveness := by
  induction run with
  | start => rfl
  | step before step ih =>
    rcases step.turn_or_apart with ⟨letter, rest, outcomes, runs, next, rfl⟩ | ⟨letters, apart⟩
    · rw [manager_turn]
      exact liveness_handled.trans ih
    · rw [apart.manager]
      exact ih

/-! ## Silence -/

/-- **A connection is given up for its silence** only at a tick of its timer, and the error that is
noted is that of the silence which the heartbeat finds too long. -/
theorem Began.timedOut {w₀ : World κ σ} {past : List (Handled κ)} {r : Handled κ}
    (began : Began w₀ past r) (run : Run config policy autoPong shared w₀) {silence : Span}
    (gives : r.GivesUp (.heartbeatTimeout silence)) :
    r.beats = true ∧ ∃ silence', w₀.manager.heartbeat.overdue? r.now = some silence' ∧
      (DisconnectCause.heartbeatTimeout silence').record =
        (DisconnectCause.heartbeatTimeout silence).record := by
  obtain ⟨t, cause, manager, now, blames, record⟩ := began.blames run gives
  obtain ⟨silence', rfl⟩ := cause.eq_heartbeatTimeout (congrArg ErrorRecord.kind record)
  have honest : r.letter.message.Honest := by
    obtain ⟨rest, outcomes, next, -⟩ := began.entry
    exact honest_of_run run r.letter (next ▸ List.mem_cons_self)
  generalize hm : r.letter.message = message at blames honest
  generalize hc : DisconnectCause.heartbeatTimeout silence' = cause at blames record
  cases blames with
  | writing context error => cases hc
  | refused generation cause =>
    subst hc
    cases honest with
    | other refused closed => exact absurd rfl (refused _ _)
  | closed generation cause =>
    subst hc
    cases honest with
    | other refused closed => exact absurd rfl (closed _ _)
  | left current why => cases why <;> cases hc
  | silent current overdue =>
    cases hc
    rw [manager, now] at overdue
    obtain ⟨rfl, state⟩ := (Turn.current_iff _ _).mp current
    refine ⟨Handled.beats_iff.mpr ⟨?_, ?_⟩, silence', overdue, record⟩
    · rw [hm, began.before, manager]
    · rw [began.before, ← manager]
      exact state

/-- **A connection is given up for its silence** only at a tick of its timer, and only when it is
overdue. -/
theorem Began.silent {w₀ : World κ σ} {past : List (Handled κ)} {r : Handled κ}
    (began : Began w₀ past r) (run : Run config policy autoPong shared w₀) {silence : Span}
    (gives : r.GivesUp (.heartbeatTimeout silence)) :
    r.beats = true ∧ w₀.manager.heartbeat.overdue? r.now ≠ none := by
  obtain ⟨beats, silence', overdue, -⟩ := began.timedOut run gives
  exact ⟨beats, by rw [overdue]; nofun⟩

theorem overdue_of_silent {h : Heartbeat} {now : Nat} (overdue : h.overdue? now ≠ none) :
    h.lastInbound + h.liveness.nanos < now := by
  unfold Heartbeat.overdue? at overdue
  dsimp only at overdue
  split at overdue
  · rename_i late
    have short : (Span.between h.lastInbound now).nanos ≤ now - h.lastInbound := Nat.min_le_left _ _
    omega
  · exact absurd rfl overdue

/-! ## Runs in which every ping is answered -/

/-- Every tick of a connection comes at most so long after the tick before it, or after the opening. -/
def Punctual (gap : Nat) (history : List (Handled κ)) : Prop :=
  (history.filter fun r => r.opens || r.beats).IsChain fun a b =>
    b.beats = true → b.now ≤ a.now + gap

/-- Every ping is answered before the next tick of its connection: between two ticks there is an
opening or a pong. -/
def Answered (history : List (Handled κ)) : Prop :=
  (history.filter fun r => r.opens || r.beats || r.hearsPong).IsChain fun a b =>
    ¬ (a.beats = true ∧ b.beats = true)

section Chains

variable {history past later : List (Handled κ)} {r a : Handled κ} {p : Handled κ → Bool}

/-- An entry of a kind comes right after the last one of this kind. -/
theorem linked {R : Handled κ → Handled κ → Prop} (chain : (history.filter p).IsChain R)
    (he : history = past ++ r :: later) (hr : p r = true)
    (last : (past.filter p).getLast? = some a) : R a r := by
  rw [he, List.filter_append, List.filter_cons_of_pos hr, List.isChain_append] at chain
  exact chain.2.2 a last r rfl

theorem getLast?_of_mem (hm : r ∈ past) (hr : p r = true) :
    ∃ a, (past.filter p).getLast? = some a ∧ p a = true ∧ a ∈ past := by
  have hf : r ∈ past.filter p := List.mem_filter.mpr ⟨hm, hr⟩
  obtain ⟨a, ha⟩ := Option.isSome_iff_exists.mp (List.getLast?_isSome.mpr (List.ne_nil_of_mem hf))
  obtain ⟨hp, hpa⟩ := List.mem_filter.mp (List.mem_of_getLast? ha)
  exact ⟨a, ha, hpa, hp⟩

theorem now_le_last (order : past.Pairwise fun a b => a.now ≤ b.now)
    (last : (past.filter p).getLast? = some a) (hm : r ∈ past) (hr : p r = true) :
    r.now ≤ a.now := by
  obtain ⟨first, he⟩ := List.getLast?_eq_some_iff.mp last
  have sorted := order.filter p
  rw [he, List.pairwise_append] at sorted
  have hf : r ∈ first ++ [a] := he ▸ List.mem_filter.mpr ⟨hm, hr⟩
  rcases List.mem_append.mp hf with hf | hf
  · exact sorted.2.2 r hf a List.mem_cons_self
  · rw [List.mem_singleton.mp hf]

end Chains

/-- At a tick that comes in time, a peer that has answered has not been silent for longer. -/
theorem Vital.answered {w₀ : World κ σ} (vital : Vital w₀) {past later : List (Handled κ)}
    {r : Handled κ} (began : Began w₀ past r) {gap : Nat}
    (punctual : Punctual gap (past ++ r :: later)) (answered : Answered (past ++ r :: later))
    (beats : r.beats = true) : r.now ≤ w₀.manager.heartbeat.lastInbound + gap := by
  have up : w₀.manager.state = .connected := began.before ▸ (Handled.beats_iff.mp beats).2
  have order := vital.order
  obtain ⟨o, ho, opens⟩ := vital.opened up
  have heard := vital.heard up
  rw [began.history] at order ho heard
  -- the tick before, or the opening
  obtain ⟨a, ha, hpa, hma⟩ := getLast?_of_mem (p := fun r => r.opens || r.beats) ho (by simp [opens])
  have late := linked punctual rfl (by simp [beats]) ha beats
  -- the last of the openings, ticks and pongs is no tick, so it is a sign of life
  have hqa : (a.opens || a.beats || a.hearsPong) = true := by rw [hpa]; rfl
  obtain ⟨z, hz, hqz, hmz⟩ :=
    getLast?_of_mem (p := fun r => r.opens || r.beats || r.hearsPong) hma hqa
  have between := now_le_last order hz hma hqa
  have alive : z.hears = true := by
    have quiet : z.beats = false := by
      refine Bool.eq_false_iff.mpr fun hb => ?_
      exact linked answered rfl (by simp [beats]) hz ⟨hb, beats⟩
    rw [quiet, Bool.or_false, Bool.or_eq_true] at hqz
    rcases hqz with hz | hz
    · unfold Handled.hears
      rw [hz]
      rfl
    · exact Handled.hears_of_pong hz
  obtain ⟨y, hy, hn⟩ := Option.map_eq_some_iff.mp heard
  have recent := now_le_last order hy hmz alive
  omega

/-- **A peer that answers in time is not given up**: in a run in which every ping is answered before
the next tick, and in which no tick of a connection comes later after the tick before it, or after the
opening, than the peer may be silent, no connection is given up for its silence. -/
theorem alive_of_run {w : World κ σ} (run : Run config policy autoPong shared w)
    (punctual : Punctual config.liveness.nanos w.history) (answered : Answered w.history) :
    ∀ r ∈ w.history, ∀ silence, ¬ r.GivesUp (.heartbeatTimeout silence) := by
  intro r hr silence gives
  obtain ⟨past, later, history⟩ := List.append_of_mem hr
  obtain ⟨w₀, run₀, began⟩ := run.began history
  obtain ⟨beats, overdue⟩ := began.silent run₀ gives
  rw [history] at punctual answered
  have recent := (vital_of_run run₀).answered began punctual answered beats
  have late := overdue_of_silent overdue
  rw [liveness_of_run run₀] at late
  omega

/-! ## A conversation of pings and pongs -/

/-- The timer has fired for the first time, and a ping has been written. -/
def firstPing : World Listener Notebook :=
  (defaultOpen.atTick Config.default.heartbeatInterval).turn ⟨some 2, .tick 1⟩ [] fun _ _ => .done

def pongTaken : World Listener Notebook :=
  (firstPing.arrived (.pong .empty)).turn ⟨some 1, .inbound 1 (.pong .empty)⟩ [] fun _ _ => .done

/-- The timer has fired again, and a second ping has been written. -/
def secondPing : World Listener Notebook :=
  (pongTaken.atTick Config.default.heartbeatInterval).turn ⟨some 2, .tick 1⟩ [] fun _ _ => .done

theorem run_secondPing : Run .default (fun _ => .giveUp) true (.empty 20) secondPing := by
  have pings : Run .default (fun _ => .giveUp) true (.empty 20) firstPing :=
    .step (run_defaultOpen.plains (plains_atTick rfl ⟨_, rfl, rfl, rfl⟩ ⟨_, rfl, rfl⟩))
      (.turns rfl rfl _)
  have takes : Run .default (fun _ => .giveUp) true (.empty 20) pongTaken :=
    .step (pings.plains (plains_arrived rfl ⟨_, rfl, rfl, rfl⟩ rfl rfl rfl _)) (.turns rfl rfl _)
  exact .step (takes.plains (plains_atTick rfl ⟨_, rfl, rfl, rfl⟩ ⟨_, rfl, rfl⟩)) (.turns rfl rfl _)

/-- The case of two pings, the first of which has been answered. -/
theorem alive_secondPing : (Punctual Config.default.liveness.nanos secondPing.history ∧
    Answered secondPing.history) ∧
      ∀ r ∈ secondPing.history, ∀ silence, ¬ r.GivesUp (.heartbeatTimeout silence) := by
  have punctual : Punctual Config.default.liveness.nanos secondPing.history := by
    refine .cons_cons (fun _ => ?_) (.cons_cons (fun _ => ?_) (.singleton _)) <;> decide
  have answers : Answered secondPing.history := by
    refine .cons_cons (fun h => ?_) (.cons_cons (fun h => ?_) (.cons_cons (fun h => ?_) (.singleton _)))
    · exact nomatch h.1
    · exact nomatch h.2
    · exact nomatch h.1
  exact ⟨⟨punctual, answers⟩, alive_of_run run_secondPing punctual answers⟩

/-! ## A peer that is given up before the first ping -/

/-- The default settings, with a timeout of three seconds: less than the four between two ticks. -/
def shortTimeout : Config := { Config.default with livenessTimeout := some (.ofSeconds 3) }

def shortTimeoutOpen : World Listener Notebook :=
  connectionOpen shortTimeout (fun _ => .giveUp) true (.empty 20) none

def tickAfterTimeout : World Listener Notebook :=
  shortTimeoutOpen.atTick shortTimeout.heartbeatInterval

def timeoutEntry : Handled Listener := tickAfterTimeout.handled ⟨some 2, .tick 1⟩ fun _ _ => .done

def timedOut : World Listener Notebook := tickAfterTimeout.turn ⟨some 2, .tick 1⟩ [] fun _ _ => .done

theorem run_timedOut : Run shortTimeout (fun _ => .giveUp) true (.empty 20) timedOut := by
  have opens : Run shortTimeout (fun _ => .giveUp) true (.empty 20) shortTimeoutOpen :=
    Run.start.plains (plains_connectionOpen ..)
  exact .step (opens.plains (plains_atTick rfl ⟨_, rfl, rfl, rfl⟩ ⟨_, rfl, rfl⟩)) (.turns rfl rfl _)

/-- **Answering every ping is not enough** to be kept, whatever the settings that pass validation:
with a timeout shorter than the time between two ticks, the first tick finds the peer silent for too
long, and no ping has been sent. -/
theorem answering_refuted : ¬ ∀ (config : Config) (policy : Nat → Verdict) (autoPong : Bool)
    (shared : Notebook) (w : World Listener Notebook), config.validate = .ok () →
      Run config policy autoPong shared w → Answered w.history →
      ∀ r ∈ w.history, ∀ silence, ¬ r.GivesUp (.heartbeatTimeout silence) := by
  intro claim
  have answers : Answered timedOut.history := .cons_cons (fun h => nomatch h.1) (.singleton _)
  have last : timeoutEntry ∈ timedOut.history := List.mem_of_getLast? (by rfl)
  exact claim shortTimeout _ true _ timedOut rfl run_timedOut answers timeoutEntry last (.ofSeconds 4)
    ⟨nofun, rfl⟩

end World

end LiveMetrics
