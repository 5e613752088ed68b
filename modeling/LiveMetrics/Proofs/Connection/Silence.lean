import Mathlib.Order.Bounds.Defs
import LiveMetrics.Proofs.Connection.Liveness
import LiveMetrics.Proofs.Connection.Serving
import LiveMetrics.Proofs.Connection.Taking
import LiveMetrics.Proofs.Span

/-!
# The silence of a connection

How long a connection has been silent is read off the history (`World.LastSign`): its last sign of
life is its opening, or the last frame of whatever kind that was taken since. The heartbeat knows it
as long as the connection is open (`lastSign_of_run`).

So a tick has two ends only. If the silence is longer than the limit, the connection is given up, and
the error tells how long it was; if it is not, one ping is written (`watched_of_run`).
-/

set_option autoImplicit false

namespace LiveMetrics

/-! ## Writes that end -/

/-- A write goes well and leaves the manager alone, or it hangs, or it has failed and the connection
is given up for that. -/
theorem Turn.writeOrFail_end {κ σ : Type} (t : Turn κ σ) (context : String) (frame : Frame) :
    (t.writeOrFail context frame).1.manager = t.manager ∨
      (t.writeOrFail context frame).1.manager.phase = .suspended ∨
      ∃ (u : Turn κ σ) (error : String), u.manager = t.manager ∧ u.ledger = t.ledger ∧
        (t.writeOrFail context frame).1 = u.fail (.writeFailure context error) := by
  have told := t.ledger_write frame
  have ends : match t.write frame with
      | (u, .stalled) => u.manager.phase = .suspended
      | (u, _) => u.manager = t.manager := by
    unfold write
    cases t.manager.writer with
    | none => rfl
    | some link => cases h : t.outcomes link t.writes <;> simp [h, update, emit]
  unfold writeOrFail
  split <;> rename_i u _ he <;> rw [he] at told ends
  · exact .inl ends
  · exact .inr (.inr ⟨u, _, ends, told, rfl⟩)
  · exact .inr (.inl ends)

namespace World

variable {κ σ : Type}

namespace Handled

variable (r : Handled κ)

/-- Whether the writes have ended well: none hangs, and none has failed. -/
def Completes : Prop :=
  r.after.phase ≠ .suspended ∧ ∀ context error, ¬ r.GivesUp (.writeFailure context error)

end Handled

/-! ## The last sign of life -/

/-- The history ends with the time of an open connection: after the entry that has opened it, every
entry has found it open. The last sign of life is the opening or the last frame that was taken since,
whichever is later. -/
inductive LastSign (link heard : Nat) : List (Handled κ) → Prop where
  | since {first later : List (Handled κ)} {o : Handled κ} (opens : o.opens = true)
      (opened : o.letter.message.offer? = some link)
      (stays : ∀ x ∈ later, x.before.state = .connected ∧ x.before.writer = some link)
      (latest : IsGreatest {t | t = o.now ∨ ∃ x ∈ later, x.takes?.isSome = true ∧ x.now = t} heard) :
      LastSign link heard (first ++ o :: later)

namespace LastSign

variable {link heard : Nat} {past : List (Handled κ)} {r : Handled κ}

theorem opening (opens : r.opens = true) (opened : r.letter.message.offer? = some link) :
    LastSign link r.now (past ++ [r]) := by
  refine .since opens opened (List.forall_mem_nil _) ⟨.inl rfl, ?_⟩
  rintro t (rfl | ⟨x, hx, -⟩)
  · exact Nat.le_refl _
  · cases hx

/-- An entry that finds the connection open is a sign of life if it takes a frame. -/
theorem next (h : LastSign link heard past) (up : r.before.state = .connected)
    (writer : r.before.writer = some link) (order : ∀ x ∈ past, x.now ≤ r.now) :
    LastSign link (if r.takes?.isSome then r.now else heard) (past ++ [r]) := by
  obtain ⟨opens, opened, stays, latest⟩ := h
  rename_i first later o
  rw [List.append_assoc, List.cons_append]
  have earlier : ∀ x ∈ o :: later, x.now ≤ r.now := fun x hx =>
    order x (List.mem_append_right _ hx)
  refine .since opens opened (fun x hx => ?_) ?_
  · rcases List.mem_append.mp hx with hx | hx
    · exact stays x hx
    · rw [List.mem_singleton.mp hx]
      exact ⟨up, writer⟩
  cases takes : r.takes?.isSome with
  | true =>
    refine ⟨.inr ⟨r, List.mem_append_right _ List.mem_cons_self, takes, rfl⟩, ?_⟩
    rintro t (rfl | ⟨x, hx, -, rfl⟩)
    · exact earlier o List.mem_cons_self
    · rcases List.mem_append.mp hx with hx | hx
      · exact earlier x (List.mem_cons_of_mem _ hx)
      · rw [List.mem_singleton.mp hx]
        exact Nat.le_refl _
  | false =>
    refine ⟨latest.1.imp_right ?_, ?_⟩
    · rintro ⟨x, hx, sign⟩
      exact ⟨x, List.mem_append_left _ hx, sign⟩
    · rintro t (rfl | ⟨x, hx, sign, rfl⟩)
      · exact latest.2 (.inl rfl)
      · rcases List.mem_append.mp hx with hx | hx
        · exact latest.2 (.inr ⟨x, hx, sign, rfl⟩)
        · rw [List.mem_singleton.mp hx, takes] at sign
          cases sign

theorem not_opens (up : r.before.state = .connected) : r.opens = false := by
  refine Bool.eq_false_iff.mpr fun opens => ?_
  obtain ⟨-, -, state⟩ := Handled.opens_iff.mp opens
  exact nomatch up.symm.trans state

theorem unique {link' heard' : Nat} (h : LastSign link heard past)
    (h' : LastSign link' heard' past) : heard = heard' := by
  generalize he : past = past' at h'
  obtain ⟨opens, -, stays, latest⟩ := h
  obtain ⟨opens', -, stays', latest'⟩ := h'
  rename_i first later o first' later' o'
  have tails : o = o' ∧ later = later' := by
    rcases List.append_eq_append_iff.mp he with ⟨mid, -, tail⟩ | ⟨mid, -, tail⟩
    · cases mid with
      | nil => exact List.cons.inj tail
      | cons x rest =>
        have mem : o' ∈ later := (List.cons.inj tail).2 ▸ List.mem_append_right _ List.mem_cons_self
        exact nomatch opens'.symm.trans (not_opens (stays o' mem).1)
    · cases mid with
      | nil => exact ⟨(List.cons.inj tail).1.symm, (List.cons.inj tail).2.symm⟩
      | cons x rest =>
        have mem : o ∈ later' := (List.cons.inj tail).2 ▸ List.mem_append_right _ List.mem_cons_self
        exact nomatch opens.symm.trans (not_opens (stays' o mem).1)
  obtain ⟨rfl, rfl⟩ := tails
  exact Nat.le_antisymm (latest'.2 latest.1) (latest.2 latest'.1)

end LastSign

/-- The heartbeat finds a peer silent for too long exactly if its silence is longer than the limit. -/
theorem overdue?_eq_some {h : Heartbeat} {now : Nat} {silence : Span} :
    h.overdue? now = some silence ↔
      silence = .between h.lastInbound now ∧ h.liveness.nanos < silence.nanos := by
  unfold Heartbeat.overdue?
  dsimp only
  split <;> rename_i late
  · refine ⟨fun he => ?_, fun he => he.1 ▸ rfl⟩
    cases he
    exact ⟨rfl, late⟩
  · refine ⟨nofun, ?_⟩
    rintro ⟨rfl, long⟩
    exact absurd long late

/-! ## Ticks -/

section Handling

variable [Callback κ σ] {w : World κ σ} {letter : Letter κ} {outcomes : Nat → Nat → WriteOutcome}

theorem handling_beat (beats : (w.handled letter outcomes).beats = true) :
    w.handling letter outcomes = (w.beginning outcomes).beat := by
  obtain ⟨asked, state⟩ := Handled.beats_iff.mp beats
  have current : (w.beginning outcomes).current w.manager.generation .connected = true :=
    (Turn.current_iff _ _).mpr ⟨rfl, state⟩
  unfold handling
  rw [show letter.message = .tick w.manager.generation from asked]
  exact if_pos current

/-- A tick that finds the peer silent for too long gives the connection up. -/
theorem gives_of_overdue (room : 0 < w.manager.health.recentErrors.capacity)
    (beats : (w.handled letter outcomes).beats = true) {silence : Span}
    (overdue : w.manager.heartbeat.overdue? w.now = some silence) :
    (w.handled letter outcomes).GivesUp (.heartbeatTimeout silence) ∧
      ¬ (w.handled letter outcomes).after.Up := by
  have state : w.manager.state = .connected := (Handled.beats_iff.mp beats).2
  have ends : w.handling letter outcomes = (w.beginning outcomes).fail (.heartbeatTimeout silence) := by
    rw [handling_beat beats]
    unfold Turn.beat
    rw [show (w.beginning outcomes).manager.heartbeat.overdue? (w.beginning outcomes).now = _ from overdue]
  have busy : (w.beginning outcomes).manager.state.isIdle = false := by
    rw [show (w.beginning outcomes).manager.state = _ from state]
    rfl
  refine ⟨gives_of_fail room rfl busy ends, ?_⟩
  rw [show (w.handled letter outcomes).after = _ from congrArg Turn.manager ends]
  exact Turn.not_up_fail (t := w.beginning outcomes) state _

/-- Any other tick leaves the connection up if its writes end well. -/
theorem up_of_quiet (room : 0 < w.manager.health.recentErrors.capacity)
    (running : w.manager.phase = .running) (beats : (w.handled letter outcomes).beats = true)
    (quiet : w.manager.heartbeat.overdue? w.now = none)
    (completes : (w.handled letter outcomes).Completes) : (w.handled letter outcomes).after.Up := by
  have state : w.manager.state = .connected := (Handled.beats_iff.mp beats).2
  let u := (w.beginning outcomes).update fun m => { m with heartbeat := m.heartbeat.ping w.now }
  have ends : w.handling letter outcomes = (u.writeOrFail "ping" Heartbeat.pingFrame).1 := by
    rw [handling_beat beats]
    unfold Turn.beat
    rw [show (w.beginning outcomes).manager.heartbeat.overdue? (w.beginning outcomes).now = _ from quiet]
    rfl
  have after : (w.handled letter outcomes).after =
    (u.writeOrFail "ping" Heartbeat.pingFrame).1.manager := congrArg Turn.manager ends
  rcases u.writeOrFail_end "ping" Heartbeat.pingFrame with same | hangs | ⟨v, error, same, told, fails⟩
  · rw [after, same]
    exact ⟨running, state⟩
  · exact absurd (after ▸ hangs) completes.1
  · have busy : v.manager.state.isIdle = false := by
      rw [same, show u.manager.state = _ from state]
      rfl
    exact absurd (gives_of_fail room told busy (ends.trans fails)) (completes.2 _ _)

/-- What a tick that leaves the connection up has written. -/
theorem written_of_quiet (beats : (w.handled letter outcomes).beats = true)
    (quiet : w.manager.heartbeat.overdue? w.now = none) {link : Nat}
    (writer : w.manager.writer = some link) (up : (w.handled letter outcomes).after.Up) :
    (w.handled letter outcomes).written = [(link, Heartbeat.pingFrame)] := by
  obtain ⟨asked, state⟩ := Handled.beats_iff.mp beats
  obtain ⟨said, wrote⟩ := w.turn_wrote letter outcomes
  have current : (w.beginning outcomes).current w.manager.generation .connected = true :=
    (Turn.current_iff _ _).mpr ⟨rfl, state⟩
  have script : w.script letter outcomes = (w.beginning outcomes).writing [Heartbeat.pingFrame] := by
    show (w.beginning outcomes).script letter.message = _
    rw [show letter.message = .tick w.manager.generation from asked]
    show (w.beginning outcomes).writing (if (w.beginning outcomes).current _ _ &&
      (w.manager.heartbeat.overdue? w.now).isNone then _ else _) = _
    rw [current, quiet]
    rfl
  have frames := wrote.all up
  rw [script] at frames
  obtain ⟨p, rfl, frame⟩ := List.map_eq_singleton_iff.mp frames
  have target := wrote.link p List.mem_cons_self
  rw [script] at target
  rw [show (w.handled letter outcomes).written = _ from wrote.effects]
  obtain ⟨link', frame'⟩ := p
  obtain rfl : link = link' := Option.some.inj (writer.symm.trans target)
  exact congrArg (fun f => [(link, f)]) frame

end Handling

/-! ## Runs -/

section Runs

variable [Callback κ σ] {config : Config} {policy : Nat → Verdict} {autoPong : Bool} {shared : σ}
  {w : World κ σ}

/-- **The heartbeat of an open connection knows its last sign of life.** -/
theorem lastSign_of_run (run : Run config policy autoPong shared w)
    (going : w.manager.phase ≠ .stopped) (up : w.manager.state = .connected) :
    ∃ link, w.manager.writer = some link ∧
      LastSign link w.manager.heartbeat.lastInbound w.history := by
  induction run with
  | start => cases up
  | step before step ih =>
    rcases step.turn_or_apart with ⟨letter, rest, outcomes, runs, next, rfl⟩ | ⟨letters, apart⟩
    · rename_i w
      have running : w.manager.phase ≠ .stopped := by rw [runs]; nofun
      rw [manager_turn] at going up ⊢
      have lives : (w.handling letter outcomes).holding.stopped = false := beq_false_of_ne going
      have inbound : (w.handling letter outcomes).manager.heartbeat.lastInbound = _ := lastInbound_handled
      rw [history_turn, inbound]
      unfold Handled.hears
      rcases ((steady_of_run before).course running letter outcomes).connected lives up with
        ⟨same, -⟩ | ⟨link, instant, interval, state, asked, settles⟩
      · have state : w.manager.state = .connected := (congrArg Holding.state same).symm.trans up
        obtain ⟨link, writer, sign⟩ := ih running state
        have keeps : (w.handling letter outcomes).manager.writer = w.manager.writer :=
          congrArg Holding.writer same
        refine ⟨link, keeps.trans writer, ?_⟩
        rw [LastSign.not_opens state, Bool.false_or]
        exact sign.next state writer (vital_of_run before).past
      · have opens : (w.handled letter outcomes).opens = true :=
          Handled.opens_iff.mpr ⟨link, asked, state⟩
        have writes : (w.handling letter outcomes).manager.writer = some link :=
          congrArg Holding.writer settles
        refine ⟨link, writes, ?_⟩
        rw [opens, Bool.true_or, if_pos rfl]
        exact .opening opens (congrArg Message.offer? asked)
    · rw [apart.manager] at going up ⊢
      rw [apart.history]
      exact ih going up

/-- What an entry makes of the silence of the connection. -/
structure Watched (limit : Span) (past : List (Handled κ)) (r : Handled κ) : Prop where
  /-- The connection is given up at a tick that finds it silent for too long, and only there. -/
  timesOut : ∀ silence, r.GivesUp (.heartbeatTimeout silence) ↔
    r.beats = true ∧ ∃ link heard, r.before.writer = some link ∧ LastSign link heard past ∧
      silence = .between heard r.now ∧ limit.nanos < silence.nanos
  /-- A connection that is given up is not open any more. -/
  ends : ∀ silence, r.GivesUp (.heartbeatTimeout silence) → ¬ r.after.Up
  /-- Any other tick writes one ping, and the connection stays open. -/
  pings : r.beats = true → (∀ silence, ¬ r.GivesUp (.heartbeatTimeout silence)) → r.Completes →
    r.after.Up ∧ ∃ link, r.before.writer = some link ∧ r.written = [(link, Heartbeat.pingFrame)]

theorem Began.watched {w₀ : World κ σ} {past : List (Handled κ)} {r : Handled κ}
    (began : Began w₀ past r) (run : Run config policy autoPong shared w₀) :
    Watched config.liveness past r := by
  obtain ⟨letter, outcomes, rfl⟩ := began.is_handled
  have history := began.history
  have room : 0 < w₀.manager.health.recentErrors.capacity := by rw [room_of_run run]; decide
  have knows : (w₀.handled letter outcomes).beats = true →
      ∃ link, w₀.manager.writer = some link ∧ LastSign link w₀.manager.heartbeat.lastInbound past := by
    intro beats
    rw [← history]
    exact lastSign_of_run run began.going (Handled.beats_iff.mp beats).2
  -- the error tells the silence, so that no other cause leaves the same error
  have timesOut : ∀ silence, (w₀.handled letter outcomes).GivesUp (.heartbeatTimeout silence) ↔
      (w₀.handled letter outcomes).beats = true ∧
        w₀.manager.heartbeat.overdue? w₀.now = some silence := by
    refine fun silence => ⟨fun gives => ?_, fun h => (gives_of_overdue room h.1 h.2).1⟩
    obtain ⟨beats, silence', overdue, record⟩ := began.timedOut run gives
    rw [DisconnectCause.silence_of_record record] at overdue
    exact ⟨beats, overdue⟩
  refine ⟨fun silence => ?_, fun silence gives => ?_, fun beats kept completes => ?_⟩
  · rw [timesOut]
    refine and_congr_right fun beats => ?_
    obtain ⟨link, writer, sign⟩ := knows beats
    rw [overdue?_eq_some, liveness_of_run run]
    constructor
    · rintro ⟨long, late⟩
      exact ⟨link, _, writer, sign, long, late⟩
    · rintro ⟨link', heard, -, sign', long, late⟩
      rw [sign.unique sign']
      exact ⟨long, late⟩
  · obtain ⟨beats, overdue⟩ := (timesOut silence).mp gives
    exact (gives_of_overdue room beats overdue).2
  · obtain ⟨link, writer, sign⟩ := knows beats
    have quiet : w₀.manager.heartbeat.overdue? w₀.now = none :=
      Option.eq_none_iff_forall_ne_some.mpr fun silence overdue =>
        kept silence ((timesOut silence).mpr ⟨beats, overdue⟩)
    have up := up_of_quiet room began.runs beats quiet completes
    exact ⟨up, link, writer, written_of_quiet beats quiet writer up⟩

/-- **A connection is given up for its silence** exactly at the ticks that find it silent for longer
than the limit, counted from its opening or from the last frame that was taken since; the error tells
how long, and the connection is not open any more. Every other tick writes one ping. Unless generations
come round, the ticks come from the connection's own timer, and the frames that are taken are its own. -/
theorem watched_of_run (run : Run config policy autoPong shared w) :
    (∀ past r later, w.history = past ++ r :: later → Watched config.liveness past r) ∧
      (Reachable config policy autoPong shared w → ∀ r ∈ w.history,
        (r.beats = true → ∃ task, r.letter.sender = some task ∧ r.before.heartbeatTask = some task) ∧
        (r.takes?.isSome = true → ∃ link, r.before.writer = some link ∧
          w.source? r.letter = some link)) := by
  refine ⟨fun past r later history => ?_, fun reached r hr => ⟨fun beats => ?_, fun takes => ?_⟩⟩
  · obtain ⟨w₀, run₀, began⟩ := run.began history
    exact began.watched run₀
  · obtain ⟨past, later, history⟩ := List.append_of_mem hr
    obtain ⟨w₀, reached₀, began⟩ := reached.began history
    obtain ⟨rest, outcomes, next, -⟩ := began.entry
    obtain ⟨asked, -⟩ := Handled.beats_iff.mp beats
    rw [began.before] at asked ⊢
    exact (sound_of_reachable reached₀).held_of_current (s := .ticking) (next ▸ List.mem_cons_self)
      (by rw [asked]; rfl) nofun (by rw [asked]; rfl)
  · obtain ⟨frame, takes⟩ := Option.isSome_iff_exists.mp takes
    exact ((takes_iff_current reached hr).mp takes).2.2

end Runs

/-- The case of a connection that is given up at its first tick, four seconds after its opening. -/
theorem watched_timedOut : (Run shortTimeout (fun _ => .giveUp) true (.empty 20) timedOut ∧
    Reachable shortTimeout (fun _ => .giveUp) true (.empty 20) timedOut) ∧
      timeoutEntry.GivesUp (.heartbeatTimeout (.ofSeconds 4)) ∧ ¬ timeoutEntry.after.Up ∧
      (∃ link heard, LastSign link heard tickAfterTimeout.history ∧
        Span.ofSeconds 4 = .between heard timeoutEntry.now) ∧
      ∃ task, timeoutEntry.letter.sender = some task ∧
        timeoutEntry.before.heartbeatTask = some task := by
  have reached := (run_timedOut.reachable (by decide)).1
  have history : timedOut.history = tickAfterTimeout.history ++ timeoutEntry :: [] := history_turn ..
  have last : timeoutEntry ∈ timedOut.history := history ▸ List.mem_append_right _ List.mem_cons_self
  obtain ⟨watched, own⟩ := watched_of_run run_timedOut
  have tick := watched _ _ _ history
  have gives : timeoutEntry.GivesUp (.heartbeatTimeout (.ofSeconds 4)) := ⟨nofun, rfl⟩
  obtain ⟨beats, link, heard, -, sign, long, -⟩ := (tick.timesOut _).mp gives
  exact ⟨⟨run_timedOut, reached⟩, gives, tick.ends _ gives, ⟨link, heard, sign, long⟩,
    (own reached _ last).1 beats⟩

end World

end LiveMetrics
