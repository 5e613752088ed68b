import LiveMetrics.Proofs.Connection.History
import LiveMetrics.Proofs.Connection.Serving

/-!
# Parting

After a disconnect nothing happens until somebody asks for a connection again
(`parted_of_run`), whatever was in flight at the time:

1. a disconnect lets go of everything (`Holding.Idle`), and does no work (`Turn.Withdraws`);
2. an idle manager stays idle and does no work (`Turn.handle_rests`), as long as nobody asks for a
   connection;
3. a connection that was left to a close handshake is written to by nobody else any more
   (`World.Partings`).
-/

set_option autoImplicit false

namespace LiveMetrics

/-- Whether an effect is work for a connection: a task that starts, a data frame that goes to the
callbacks, or a frame that is written. -/
def Effect.isWork : Effect → Bool
  | .start _ _ | .dispatched _ | .wrote _ _ => true
  | _ => false

theorem Health.disconnected_of_none {h : Health} (closed : h.connectedAt = none) :
    h.disconnected = h := by
  unfold disconnected
  rw [← closed]

/-! ## Idleness -/

namespace Holding

theorem released_disconnect (c : Holding) : c.disconnect.Released := by
  cases c.settled_disconnect with
  | stopped _ released => exact released
  | agrees _ agrees => exact agrees.released (.inl rfl)

/-- Nobody has asked for a connection, and nothing is held. -/
structure Idle (c : Holding) : Prop where
  state : c.state = .disconnected
  released : c.Released

end Holding

/-- An idle manager stays idle, unless it is asked for a connection. -/
theorem Course.idle {κ : Type} {limit : Span} {policy : Nat → Verdict} {c d : Holding}
    {message : Message κ} (h : Course limit policy c message d) (idle : c.Idle)
    (calm : message.isConnect = false) : d.Idle := by
  have other : ∀ state, state ≠ .disconnected → c.state ≠ state :=
    fun state hs h => hs (h.symm.trans idle.state)
  cases h with
  | steady => exact idle
  | fails from_ =>
    rcases from_ with up | ⟨cause, -, busy⟩
    · exact absurd up (other _ nofun)
    · rw [idle.state] at busy
      cases busy
  | refused from_ | installs from_ | installsFails from_ => exact absurd from_ (other _ nofun)
  | retries from_ => exact absurd from_ (other _ nofun)
  | connects | reconnects => cases calm
  | disconnects => exact ⟨rfl, c.released_disconnect⟩
  | stops => exact ⟨(state_halt c).trans idle.state, c.released_halt⟩

namespace Turn

variable {κ σ : Type}

/-! ## Letting go -/

/-- Nothing has been done for a connection, and nothing was counted. -/
structure Withdraws (t u : Turn κ σ) : Prop where
  effects : ∃ added, u.effects = t.effects ++ added ∧ ∀ e ∈ added, e.isWork = false
  health : u.manager.health.disconnected = t.manager.health.disconnected

namespace Withdraws

theorem refl (t : Turn κ σ) : Withdraws t t := ⟨⟨[], (List.append_nil _).symm, nofun⟩, rfl⟩

theorem trans {t u v : Turn κ σ} (h : Withdraws t u) (h' : Withdraws u v) : Withdraws t v := by
  obtain ⟨added, he, hw⟩ := h.effects
  obtain ⟨added', he', hw'⟩ := h'.effects
  refine ⟨⟨added ++ added', ?_, ?_⟩, h'.health.trans h.health⟩
  · rw [he', he, List.append_assoc]
  · rw [List.forall_mem_append]
    exact ⟨hw, hw'⟩

end Withdraws

section Operations

variable (t : Turn κ σ)

theorem withdraws_emit {e : Effect} (h : e.isWork = false) : Withdraws t (t.emit e) :=
  ⟨⟨[e], rfl, by simpa using h⟩, rfl⟩

theorem withdraws_update {f : Manager κ → Manager κ}
    (h : (f t.manager).health.disconnected = t.manager.health.disconnected) :
    Withdraws t (t.update f) :=
  ⟨⟨[], (List.append_nil _).symm, nofun⟩, h⟩

theorem withdraws_abort? (task : Option Nat) : Withdraws t (t.abort? task) := by
  cases task with
  | none => exact .refl t
  | some n => exact t.withdraws_emit rfl

theorem withdraws_release? (link : Option Nat) : Withdraws t (t.release? link) := by
  cases link with
  | none => exact .refl t
  | some n => exact t.withdraws_emit rfl

theorem withdraws_enter (next : ConnectionState) : Withdraws t (t.enter next) := by
  let u := (t.emit (.publish t.manager.state next)).update fun m => { m with state := next }
  have hu : Withdraws t u := (t.withdraws_emit rfl).trans (withdraws_update _ rfl)
  have ho : Withdraws u (u.observe next) := by
    unfold observe
    split
    · exact u.withdraws_emit rfl
    · exact .refl u
  unfold enter
  split
  · exact .refl t
  · exact hu.trans ho

theorem withdraws_teardown : Withdraws t t.teardown := by
  let u := (((t.abort? t.manager.openTask).abort? t.manager.readerTask).abort?
    t.manager.heartbeatTask).release? t.manager.writer
  have hu : Withdraws t u :=
    (((t.withdraws_abort? _).trans (withdraws_abort? _ _)).trans (withdraws_abort? _ _)).trans
      (withdraws_release? _ _)
  have hh : t.teardown.manager.health.disconnected = u.manager.health.disconnected := by
    show u.manager.health.disconnected.disconnected = _
    rfl
  exact hu.trans ⟨⟨[], (List.append_nil _).symm, nofun⟩, hh⟩

theorem withdraws_cancelRetry : Withdraws t t.cancelRetry :=
  (t.withdraws_abort? _).trans (withdraws_update _ rfl)

theorem withdraws_halt : Withdraws t t.halt :=
  (t.withdraws_cancelRetry.trans (withdraws_teardown _)).trans (withdraws_update _ rfl)

theorem withdraws_disconnect : Withdraws t t.disconnect := by
  have hc : Withdraws t t.cancelReconnect := by
    unfold cancelReconnect
    split
    · exact t.withdraws_cancelRetry.trans (withdraws_emit _ rfl)
    · exact .refl t
  have hs : Withdraws t.cancelReconnect t.cancelReconnect.sayGoodbye := by
    unfold sayGoodbye
    split
    · exact (withdraws_emit _ rfl).trans (withdraws_update _ rfl)
    · exact .refl _
  let u := (t.cancelReconnect.sayGoodbye.teardown.nextGeneration.update fun m =>
    { m with attempt := 0 }).enter .disconnected
  have hu : Withdraws t u :=
    ((((hc.trans hs).trans (withdraws_teardown _)).trans (withdraws_update _ rfl)).trans
      (withdraws_update _ rfl)).trans (withdraws_enter _ _)
  show Withdraws t (if t.manager.state = .disconnected then u else u.log _)
  split
  · exact hu
  · exact hu.trans (u.withdraws_emit rfl)

end Operations

/-! ## Messages to an idle manager -/

section Idle

variable {t : Turn κ σ}

theorem withdraws_subscribe (closed : t.manager.state = .disconnected) (handle : Handle)
    (topic : Topic) (callback : κ) : Withdraws t (t.subscribe handle topic callback) := by
  let m := t.manager
  let u := if m.registry.contains handle then t.log (.duplicateHandle handle topic) else t
  let v := (u.update fun m' => { m' with registry := (m.registry.insert handle topic callback).1 }).log
    (.registered handle topic (m.registry.insert handle topic callback).2 m.state)
  have hu : Withdraws t u := by
    show Withdraws t (if _ then _ else _)
    split
    · exact t.withdraws_emit rfl
    · exact .refl t
  have hv : Withdraws t v := (hu.trans (withdraws_update _ rfl)).trans (withdraws_emit _ rfl)
  show Withdraws t (if _ && t.manager.state == .connected then _ else v)
  rw [closed, if_neg (by simp)]
  exact hv

theorem withdraws_unsubscribe (closed : t.manager.state = .disconnected) (handle : Handle) :
    Withdraws t (t.unsubscribe handle) := by
  unfold unsubscribe
  dsimp only
  split
  · exact t.withdraws_emit rfl
  · rw [closed, if_neg (by simp)]
    exact (withdraws_update _ rfl).trans (withdraws_emit _ rfl)

variable [Callback κ σ]

/-- An idle manager does no work, unless it is asked for a connection. -/
theorem handle_withdraws (closed : t.manager.state = .disconnected) {message : Message κ}
    (calm : message.isConnect = false) : Withdraws t (t.handle message) := by
  have late : ∀ g state, state ≠ .disconnected → ¬ t.current g state = true :=
    fun g state hs h => hs (((current_iff g state).mp h).2.symm.trans closed)
  cases message with
  | connect endpoint observer => cases calm
  | disconnect => exact t.withdraws_disconnect
  | subscribe handle topic callback => exact withdraws_subscribe closed handle topic callback
  | unsubscribe handle => exact withdraws_unsubscribe closed handle
  | tellState => exact t.withdraws_emit rfl
  | tellStats => exact t.withdraws_emit rfl
  | stop => exact t.withdraws_halt
  | opened g link =>
    rw [show t.handle (.opened g link) = t.emit (.discard link) from
      if_neg (late g .connecting nofun)]
    exact t.withdraws_emit rfl
  | openFailed g cause =>
    rw [show t.handle (.openFailed g cause) = t from if_neg (late g .connecting nofun)]
    exact .refl t
  | inbound g frame =>
    rw [show t.handle (.inbound g frame) = t from if_neg (late g .connected nofun)]
    exact .refl t
  | closed g cause =>
    have hi : t.fail cause = t := fail_of_idle (by rw [closed]; rfl)
    have he : t.handle (.closed g cause) = t := by
      unfold handle
      dsimp only
      rw [hi, ite_self]
    rw [he]
    exact .refl t
  | retry g =>
    rw [show t.handle (.retry g) = t from if_neg (late g .reconnecting nofun)]
    exact .refl t
  | tick g =>
    rw [show t.handle (.tick g) = t from if_neg (late g .connected nofun)]
    exact .refl t

/-- While there is no connection, a script is about the subscriptions only. -/
theorem script_of_disconnected (closed : t.manager.state = .disconnected) (message : Message κ) :
    (t.script message).registry = message.register t.manager.registry ∧
      (t.script message).shared = t.shared := by
  cases t.script_revises message with
  | edits registry shared => exact ⟨registry, shared⟩
  | dispatches asked current => exact nomatch closed.symm.trans ((current_iff _ _).mp current).2

/-- **An idle manager stays idle**, unless it is asked for a connection: it does no work, and only
requests change the subscriptions. -/
theorem handle_rests (idle : t.holding.Idle) (running : t.manager.phase ≠ .stopped)
    {message : Message κ} (calm : message.isConnect = false) :
    (t.handle message).holding.Idle ∧ Withdraws t (t.handle message) ∧
      (t.handle message).manager.registry = message.register t.manager.registry ∧
      (t.handle message).shared = t.shared := by
  have closed : t.manager.state = .disconnected := idle.state
  have course := handle_course (t := t) running (fun h => nomatch closed.symm.trans h) message
  obtain ⟨said, -, rest, -⟩ := handle_follows (t := t) message
  obtain ⟨registry, shared⟩ := script_of_disconnected closed message
  exact ⟨course.idle idle calm, handle_withdraws closed calm,
    (congrArg Rest.registry rest).trans registry, (congrArg Rest.shared rest).trans shared⟩

end Idle

end Turn

/-! ## What is written to a connection that was left -/

/-- The connections that a turn leaves to a close handshake. -/
theorem Deal.farewells {κ : Type} {limit : Span} {policy : Nat → Verdict} {c d : Holding}
    {l l' : Ledger} {message : Message κ} (h : Deal limit policy c l message d l') :
    l'.farewells = l.farewells ∨
      message = .disconnect ∧ l'.farewells = l.farewells ++ c.writer.toList := by
  cases h with
  | stays => exact .inl (l.farewells_drop? _)
  | fails => exact .inl (l.farewells_fail _ _)
  | disconnects => exact .inr ⟨rfl, rfl⟩
  | connects | reconnects | retries | installs | stops => exact .inl rfl

/-- A script is for the connection that is open, or for the one that it takes into use. -/
theorem Turn.script_link {κ σ : Type} [Callback κ σ] (t : Turn κ σ) (message : Message κ) :
    (t.script message).link = t.manager.writer ∨ (t.script message).link = message.offer? := by
  cases message with
  | unsubscribe handle =>
    unfold script
    dsimp only
    split <;> exact .inl rfl
  | opened g link =>
    unfold script
    dsimp only
    split
    · exact .inr rfl
    · exact .inl rfl
  | inbound g frame =>
    unfold script
    dsimp only
    split
    · split <;> exact .inl rfl
    · exact .inl rfl
  | _ => exact .inl rfl

namespace World

variable {κ σ : Type}

/-- What the turns of a history have written, with the connections. -/
def writings (history : List (Handled κ)) : List (Nat × Frame) :=
  history.flatMap fun r => r.effects.filterMap Effect.wrote?

/-- A disconnect has found a connection open. -/
def Dismissed (history : List (Handled κ)) (link : Nat) : Prop :=
  ∃ x ∈ history, x.letter.message = .disconnect ∧ x.before.writer = some link

/-- What holds of the connections between any two steps of a run: a close handshake adds at most its
frame to what the turns have written, and nobody writes to a connection that was dismissed. -/
structure Partings (w : World κ σ) : Prop where
  known : ∀ p ∈ writings w.history, w.page p.1 ≠ none
  pages : ∀ n page, w.page n = some page → ∃ bye, page = addressed n (writings w.history) ++ bye ∧
    (bye = [] ∨ bye = [.clientClose] ∧ Dismissed w.history n ∧ n ∉ w.farewells)
  leaving : ∀ n ∈ w.farewells, Dismissed w.history n
  once : w.farewells.Nodup
  gone : ∀ n, Dismissed w.history n →
    w.page n ≠ none ∧ w.manager.writer ≠ some n ∧ n ∉ w.offers

theorem writings_append (past : List (Handled κ)) (r : Handled κ) :
    writings (past ++ [r]) = writings past ++ r.effects.filterMap Effect.wrote? := by
  unfold writings
  rw [List.flatMap_append, List.flatMap_singleton]

theorem Dismissed.mono {history history' : List (Handled κ)} {link : Nat}
    (h : Dismissed history link) (sub : history ⊆ history') : Dismissed history' link := by
  obtain ⟨x, hx, hrest⟩ := h
  exact ⟨x, sub hx, hrest⟩

namespace Partings

variable {w w' : World κ σ}

/-! ### Steps without the manager -/

/-- A step in which the manager takes no part and nothing is written or offered. -/
theorem calm (h : Partings w) (manager : w'.manager = w.manager)
    (history : w'.history = w.history) (page : w'.page = w.page)
    (farewells : w'.farewells = w.farewells) (offers : w'.offers = w.offers) : Partings w' := by
  refine ⟨?_, ?_, ?_, ?_, ?_⟩
  · rw [history, page]; exact h.known
  · rw [history, page, farewells]; exact h.pages
  · rw [history, farewells]; exact h.leaving
  · rw [farewells]; exact h.once
  · rw [history, manager, page, offers]; exact h.gone

theorem farewells_post (w : World κ σ) (sender : Option Nat) (message : Message κ) :
    (w.post sender message).farewells = w.farewells := by
  unfold post
  split <;> rfl

theorem post (h : Partings w) {sender : Option Nat} {message : Message κ}
    (none_ : message.offer? = none) : Partings (w.post sender message) :=
  h.calm (manager_post ..) (history_post ..) (page_post ..) (farewells_post ..)
    (Serves.offers_post none_)

theorem deliver (h : Partings w) {task : Nat} {message : Message κ}
    (none_ : message.offer? = none) : Partings (w.deliver task message) :=
  (h.post none_).calm rfl rfl rfl rfl rfl

theorem rewire (h : Partings w) {f : Link → Link} (same : ∀ l, (f l).written = l.written)
    (link : Nat) : Partings (w.onLink link f) :=
  h.calm rfl rfl (w.page_onLink_of_same same link) rfl rfl

theorem joined (h : Partings w) : Partings w.joined := by
  have new : w.page w.links.length = none := by
    unfold page
    rw [List.getElem?_eq_none (Nat.le_refl _)]
    rfl
  have old : ∀ n, w.page n ≠ none → w.joined.page n ≠ none := by
    intro n hn
    rw [page_joined]
    split
    · nofun
    · exact hn
  refine ⟨fun p hp => old _ (h.known p hp), fun n page hn => ?_, h.leaving, h.once, fun n hd => ?_⟩
  · rw [page_joined] at hn
    split at hn
    · rename_i he
      cases hn
      refine ⟨[], ?_, .inl rfl⟩
      rw [List.append_nil]
      refine (addressed_of_ne fun p hp hl => h.known p hp ?_).symm
      rw [hl, he]
      exact new
    · exact h.pages n page hn
  · obtain ⟨hp, hw, ho⟩ := h.gone n hd
    exact ⟨old n hp, hw, ho⟩

/-- A connection that was not dismissed is offered. -/
theorem offer (h : Partings w) {link : Nat} (fresh : ¬ Dismissed w.history link) (task : Nat)
    (g : UInt64) : Partings (w.deliver task (.opened g link)) := by
  let w' := w.deliver task (.opened g link)
  have manager : w'.manager = w.manager := manager_post ..
  have history : w'.history = w.history := history_post ..
  have page : w'.page = w.page := page_post ..
  have farewells : w'.farewells = w.farewells := farewells_post ..
  have offers : ∀ n ∈ w'.offers, n ∈ w.offers ∨ n = link := by
    intro n hn
    change n ∈ (World.post w _ _).offers at hn
    unfold World.post at hn
    split at hn
    · exact .inl hn
    · unfold World.offers at hn
      rw [List.filterMap_append] at hn
      exact (List.mem_append.mp hn).imp_right List.mem_singleton.mp
  refine ⟨?_, ?_, ?_, ?_, fun n hd => ?_⟩
  · rw [history, page]; exact h.known
  · rw [history, page, farewells]; exact h.pages
  · rw [history, farewells]; exact h.leaving
  · rw [farewells]; exact h.once
  · rw [history] at hd
    obtain ⟨hp, hw, ho⟩ := h.gone n hd
    rw [page, manager]
    refine ⟨hp, hw, fun hn => ?_⟩
    rcases offers n hn with hn | rfl
    · exact ho hn
    · exact fresh hd

/-- A close handshake ends, with or without its frame. -/
theorem parted (h : Partings w) {link : Nat} (left : link ∈ w.farewells) {frames : List Frame}
    (what : frames = [] ∨ frames = [.clientClose]) :
    Partings ((w.onLink link fun l => { l with written := l.written ++ frames }).parted link) := by
  let w' := (w.onLink link fun l => { l with written := l.written ++ frames }).parted link
  have page : ∀ n, w'.page n = (w.page n).map fun page =>
      if link = n then page ++ frames else page := by
    intro n
    rw [show w'.page n = (w.onLink link _).page n from rfl, page_onLink]
    unfold World.page
    rw [Option.map_map]
    congr 1
    funext l
    show (if link = n then _ else l).written = if link = n then l.written ++ frames else l.written
    split <;> rfl
  have there : ∀ n, w.page n ≠ none → w'.page n ≠ none := by
    intro n hn
    rw [page]
    simpa using hn
  refine ⟨fun p hp => there _ (h.known p hp), fun n x hn => ?_, fun n hn => ?_, ?_, fun n hd => ?_⟩
  · rw [page] at hn
    obtain ⟨x₀, hx, rfl⟩ := Option.map_eq_some_iff.mp hn
    obtain ⟨bye, rfl, hb⟩ := h.pages n x₀ hx
    split <;> rename_i hl
    · subst hl
      rcases hb with rfl | ⟨-, -, out⟩
      · refine ⟨frames, by rw [List.append_nil]; rfl, what.imp_right fun hf => ?_⟩
        exact ⟨hf, h.leaving link left, h.once.not_mem_erase⟩
      · exact absurd left out
    · refine ⟨bye, rfl, hb.imp_right fun ⟨hb, hd, out⟩ => ⟨hb, hd, fun hm => ?_⟩⟩
      exact out (List.mem_of_mem_erase hm)
  · exact h.leaving n (List.mem_of_mem_erase hn)
  · exact h.once.erase link
  · obtain ⟨hp, hrest⟩ := h.gone n hd
    exact ⟨there n hp, hrest⟩

/-! ### Turns -/

section Turns

theorem farewells_apply (w : World κ σ) (e : Effect) :
    (w.apply e).farewells = w.farewells ++ e.farewell?.toList := by
  cases e with
  | farewell link => rfl
  | _ => exact (List.append_nil _).symm

theorem farewells_foldl_apply (w : World κ σ) (effects : List Effect) :
    (effects.foldl apply w).farewells = w.farewells ++ effects.filterMap Effect.farewell? := by
  induction effects generalizing w with
  | nil => exact (List.append_nil _).symm
  | cons e rest ih =>
    rw [List.foldl_cons, ih, farewells_apply, filterMap_cons_toList, List.append_assoc]

variable {letter : Letter κ} {rest : List (Letter κ)} [Callback κ σ]
  {outcomes : Nat → Nat → WriteOutcome}

theorem farewells_turn (w : World κ σ) (letter : Letter κ) (rest : List (Letter κ))
    (outcomes : Nat → Nat → WriteOutcome) : (w.turn letter rest outcomes).farewells =
      w.farewells ++ (w.handling letter outcomes).ledger.farewells := by
  rw [turn_eq]
  unfold close
  split <;> exact farewells_foldl_apply _ _

/-- A turn writes to the connection that is open, or to the one that is offered. -/
theorem writes_to (next : w.mailbox = letter :: rest) :
    ∀ p ∈ (w.handling letter outcomes).effects.filterMap Effect.wrote?,
      w.manager.writer = some p.1 ∨ p.1 ∈ w.offers := by
  obtain ⟨said, wrote⟩ := w.turn_wrote letter outcomes
  rw [wrote.effects]
  intro p hp
  have hl := wrote.link p hp
  rcases (Turn.mk w.manager w.shared w.now outcomes 0 []).script_link letter.message with he | he
  · exact .inl (he.symm.trans hl)
  · right
    rw [Serves.offers_next next, show letter.offer? = some p.1 from he.symm.trans hl]
    exact List.mem_cons_self

theorem writer_disconnect (asked : letter.message = .disconnect) :
    (w.handling letter outcomes).manager.writer = none := by
  unfold handling
  rw [asked]
  exact congrArg Holding.writer (Turn.holding_disconnect _)

theorem page_turn_ne_none {n : Nat} (there : w.page n ≠ none) :
    (w.turn letter rest outcomes).page n ≠ none := by
  rw [page_turn]
  simpa using there

omit [Callback κ σ] in
theorem known_of_serves (serves : Serves w) {n : Nat}
    (known : w.manager.writer = some n ∨ n ∈ w.offers) : w.page n ≠ none := by
  have heard : w.heard n ≠ none → w.page n ≠ none := by
    intro hn he
    rw [heard_eq, he] at hn
    exact hn rfl
  rcases known with hn | hn
  · exact heard (serves.known n hn)
  · refine heard ?_
    rw [(serves.fresh n hn).1]
    nofun

theorem dismissed_turn {n : Nat} (hd : Dismissed w.history n) :
    Dismissed (w.turn letter rest outcomes).history n := by
  rw [history_turn]
  exact hd.mono (List.subset_append_left ..)

/-- What a turn leaves to a close handshake is the connection that a disconnect finds open. -/
theorem left_by_turn (steady : Steady w) (running : w.manager.phase ≠ .stopped)
    (letter : Letter κ) (outcomes : Nat → Nat → WriteOutcome) :
    (w.handling letter outcomes).ledger.farewells = [] ∨ letter.message = .disconnect ∧
      (w.handling letter outcomes).ledger.farewells = w.manager.writer.toList :=
  (steady.deal running letter outcomes).farewells.imp_right fun ⟨asked, he⟩ => ⟨asked, he⟩

theorem mem_left_by_turn (steady : Steady w) (running : w.manager.phase ≠ .stopped) {n : Nat}
    (hn : n ∈ (w.handling letter outcomes).ledger.farewells) :
    letter.message = .disconnect ∧ w.manager.writer = some n := by
  rcases left_by_turn steady running letter outcomes with he | ⟨asked, he⟩
  · rw [he] at hn
    cases hn
  · rw [he] at hn
    exact ⟨asked, Option.mem_toList.mp hn⟩

/-- Nothing is written to a connection that was dismissed. -/
theorem silent_turn (h : Partings w) (next : w.mailbox = letter :: rest) {n : Nat}
    (hd : Dismissed w.history n) (outcomes : Nat → Nat → WriteOutcome) :
    addressed n ((w.handled letter outcomes).effects.filterMap Effect.wrote?) = [] := by
  obtain ⟨-, hw, ho⟩ := h.gone n hd
  refine addressed_of_ne fun p hm he => ?_
  rcases writes_to next p hm with hl | hl
  · exact hw (he ▸ hl)
  · exact ho (he ▸ hl)

theorem pages_turn (h : Partings w) (steady : Steady w) (running : w.manager.phase ≠ .stopped)
    (next : w.mailbox = letter :: rest) {n : Nat} {x : List Frame}
    (hx : (w.turn letter rest outcomes).page n = some x) :
    ∃ bye, x = addressed n (writings (w.turn letter rest outcomes).history) ++ bye ∧
      (bye = [] ∨ bye = [.clientClose] ∧ Dismissed (w.turn letter rest outcomes).history n ∧
        n ∉ (w.turn letter rest outcomes).farewells) := by
  rw [page_turn] at hx
  obtain ⟨x₀, hx₀, rfl⟩ := Option.map_eq_some_iff.mp hx
  obtain ⟨bye, rfl, hb⟩ := h.pages n x₀ hx₀
  rcases hb with rfl | ⟨rfl, hd, out⟩
  · refine ⟨[], ?_, .inl rfl⟩
    rw [history_turn, writings_append, addressed_append, List.append_nil, List.append_nil]
    rfl
  · -- the close handshake is over, so the turn adds nothing
    have silent := h.silent_turn next hd outcomes
    refine ⟨[.clientClose], ?_, .inr ⟨rfl, dismissed_turn hd, fun hm => ?_⟩⟩
    · rw [history_turn, writings_append, addressed_append, silent, List.append_nil]
      exact (congrArg _ silent).trans (List.append_nil _)
    · rw [farewells_turn] at hm
      rcases List.mem_append.mp hm with hm | hm
      · exact out hm
      · exact (h.gone n hd).2.1 (mem_left_by_turn steady running hm).2

theorem nodup_turn (h : Partings w) (steady : Steady w) (running : w.manager.phase ≠ .stopped) :
    (w.turn letter rest outcomes).farewells.Nodup := by
  rw [farewells_turn]
  refine List.nodup_append.mpr ⟨h.once, ?_, fun a ha b hb he => ?_⟩
  · rcases left_by_turn steady running letter outcomes with he | ⟨-, he⟩
    · rw [he]
      exact List.nodup_nil
    · rw [he]
      cases w.manager.writer with
      | none => exact List.nodup_nil
      | some n => exact List.nodup_singleton n
  · exact (h.gone a (h.leaving a ha)).2.1 (he ▸ (mem_left_by_turn steady running hb).2)

/-- A connection that was dismissed is neither open nor offered after a turn. -/
theorem gone_turn (h : Partings w) (serves : Serves w) (steady : Steady w)
    (running : w.manager.phase ≠ .stopped) (next : w.mailbox = letter :: rest) {n : Nat}
    (hd : Dismissed (w.turn letter rest outcomes).history n) :
    w.page n ≠ none ∧ (w.turn letter rest outcomes).manager.writer ≠ some n ∧
      n ∉ (w.turn letter rest outcomes).offers := by
  rw [history_turn] at hd
  obtain ⟨x, hx, asked, hw⟩ := hd
  rcases List.mem_append.mp hx with hx | hx
  · obtain ⟨there, hw', ho⟩ := h.gone n ⟨x, hx, asked, hw⟩
    refine ⟨there, fun hl => ?_, fun hm => ho (serves.offered_before next hm).1⟩
    rcases Serves.writer_before steady running hl with he | he
    · exact hw' he
    · refine ho ?_
      rw [Serves.offers_next next, he]
      exact List.mem_cons_self
  · obtain rfl := List.mem_singleton.mp hx
    have hn : w.manager.writer = some n := hw
    refine ⟨known_of_serves serves (.inl hn), ?_, fun hm => ?_⟩
    · have none_ : (w.handling letter outcomes).manager.writer = none := writer_disconnect asked
      rw [manager_turn, none_]
      nofun
    · exact (serves.fresh n (serves.offered_before next hm).1).2 hn

theorem turn (h : Partings w) (serves : Serves w) (steady : Steady w)
    (running : w.manager.phase ≠ .stopped) (next : w.mailbox = letter :: rest) :
    Partings (w.turn letter rest outcomes) := by
  refine ⟨fun p hm => page_turn_ne_none ?_, fun n x hx => h.pages_turn steady running next hx,
    fun n hn => ?_, h.nodup_turn steady running, fun n hd => ?_⟩
  · rw [history_turn, writings_append] at hm
    rcases List.mem_append.mp hm with hm | hm
    · exact h.known p hm
    · exact known_of_serves serves (writes_to next p hm)
  · rw [farewells_turn] at hn
    rcases List.mem_append.mp hn with hn | hn
    · exact dismissed_turn (h.leaving n hn)
    · rw [history_turn]
      exact ⟨_, List.mem_append_right _ (List.mem_singleton_self _),
        mem_left_by_turn steady running hn⟩
  · obtain ⟨there, rest_⟩ := h.gone_turn serves steady running next hd
    exact ⟨page_turn_ne_none there, rest_⟩

end Turns

end Partings

/-! ## Runs -/

section Runs

variable {config : Config} {policy : Nat → Verdict} {autoPong : Bool} {shared : σ}

theorem partings_start : Partings (start config policy autoPong shared : World κ σ) := by
  refine ⟨nofun, nofun, nofun, List.nodup_nil, ?_⟩
  rintro n ⟨x, hx, -⟩
  cases hx

variable [Callback κ σ] {w : World κ σ}

theorem partings_of_run (run : Run config policy autoPong shared w) : Partings w := by
  induction run with
  | start => exact partings_start
  | step before step ih =>
    rename_i w w'
    cases step with
    | turns runs next outcomes =>
      exact ih.turn (serves_of_run before) (steady_of_run before) (by rw [runs]; nofun) next
    | asks request => exact ih.post (offer?_of_request request)
    | opens runs =>
      refine ih.joined.offer (fun hd => (ih.gone _ hd).1 ?_) _ _
      unfold page
      rw [List.getElem?_eq_none (Nat.le_refl _)]
      rfl
    | refuses runs error => exact ih.deliver rfl
    | expires runs due => exact ih.deliver rfl
    | breaks runs there next => exact ih.deliver rfl
    | ends runs there closed last => exact ih.deliver rfl
    | retries runs due => exact ih.deliver rfl
    | waits | stirs | cancels => exact ih.calm rfl rfl rfl rfl rfl
    | sends there open_ item => exact ih.rewire (fun _ => by rfl) _
    | leaves link => exact ih.rewire (fun _ => by rfl) link
    | reads runs there next =>
      rename_i task link g l frame
      have hr : Partings (w.onLink link fun l => { l with read := l.read + 1 }) :=
        ih.rewire (fun _ => by rfl) link
      exact hr.post rfl
    | ticks runs due again =>
      rename_i task g interval instant from_
      have hp : Partings (w.post (some task) (.tick g)) := ih.post rfl
      exact hp.calm rfl rfl rfl rfl rfl
    | parts left frames what => exact ih.parted left what

/-! ### Since a disconnect -/

section Since

variable {past later : List (Handled κ)} {r x : Handled κ} {w₀ : World κ σ}

/-- What an entry leaves that disconnects. -/
theorem Began.disconnects (began : Began w₀ past r) (asked : r.letter.message = .disconnect) :
    r.after.holding.Idle ∧ (∀ e ∈ r.effects, e.isWork = false) ∧
      r.after.health = r.before.health.disconnected ∧
      r.after.registry = r.before.registry := by
  obtain ⟨rest, outcomes, next, entry⟩ := began.entry
  let t : Turn κ σ := ⟨w₀.manager, w₀.shared, w₀.now, outcomes, 0, []⟩
  have hr : r = ⟨w₀.now, r.letter, w₀.manager, t.disconnect.manager, t.disconnect.effects⟩ := by
    have hh : w₀.handling r.letter outcomes = t.disconnect := by
      unfold handling
      rw [asked]
      rfl
    rw [entry, handled, hh]
  have held : t.disconnect.holding = t.holding.disconnect := Turn.holding_disconnect t
  obtain ⟨⟨added, he, hw⟩, health⟩ := t.withdraws_disconnect
  have released := t.holding.released_disconnect
  have connectedAt : t.disconnect.manager.health.connectedAt = none :=
    (congrArg Holding.connectedAt held).trans released.connectedAt
  rw [hr]
  refine ⟨⟨congrArg Holding.state held, ?_⟩, ?_, ?_, congrArg Turn.Rest.registry t.rest_disconnect⟩
  · rw [← held] at released
    exact ⟨released.tasks, released.writer, released.connectedAt⟩
  · show ∀ e ∈ t.disconnect.effects, _
    rw [he]
    exact hw
  · show t.disconnect.manager.health = t.manager.health.disconnected
    exact (Health.disconnected_of_none connectedAt).symm.trans health

/-- What an entry leaves that finds the manager idle, and does not ask for a connection. -/
theorem Began.rests (began : Began w₀ past x) (idle : w₀.manager.holding.Idle)
    (calm : x.letter.message.isConnect = false) :
    x.after.holding.Idle ∧ (∀ e ∈ x.effects, e.isWork = false) ∧
      x.after.health = w₀.manager.health ∧
      x.after.registry = x.letter.message.register w₀.manager.registry := by
  obtain ⟨rest, outcomes, next, entry⟩ := began.entry
  let t : Turn κ σ := ⟨w₀.manager, w₀.shared, w₀.now, outcomes, 0, []⟩
  have ht : t.holding.Idle := idle
  obtain ⟨⟨state, released⟩, ⟨⟨added, he, hw⟩, health⟩, registry, -⟩ :=
    Turn.handle_rests ht began.going calm
  have before : w₀.manager.health.connectedAt = none := idle.released.connectedAt
  have after : (t.handle x.letter.message).manager.health.connectedAt = none :=
    released.connectedAt
  have hx : x = ⟨w₀.now, x.letter, w₀.manager, (t.handle x.letter.message).manager,
      (t.handle x.letter.message).effects⟩ := entry
  rw [hx]
  refine ⟨⟨state, released.tasks, released.writer, released.connectedAt⟩, ?_, ?_, registry⟩
  · show ∀ e ∈ (t.handle x.letter.message).effects, _
    rw [he]
    exact hw
  · exact (Health.disconnected_of_none after).symm.trans
      (health.trans (Health.disconnected_of_none before))

theorem idle_since (run : Run config policy autoPong shared w)
    (he : w.history = past ++ r :: later) (asked : r.letter.message = .disconnect)
    (calm : ∀ x ∈ later, x.letter.message.isConnect = false) :
    w.manager.holding.Idle ∧ w.manager.health = r.before.health.disconnected ∧
      w.manager.registry = later.foldl (fun registry x => x.letter.message.register registry)
        r.before.registry := by
  obtain ⟨w₀, -, began⟩ := run.began he
  obtain ⟨idle, -, health, registry⟩ := began.disconnects asked
  refine traced_run.kept (I := fun since m => m.holding.Idle ∧
    m.health = r.before.health.disconnected ∧
      m.registry = since.foldl (fun registry x => x.letter.message.register registry)
        r.before.registry) ⟨idle, health, registry⟩ ?_ run he
  rintro w₁ before x after rfl - began₁ ⟨idle₁, health₁, registry₁⟩
  obtain ⟨idle₂, -, health₂, registry₂⟩ := began₁.rests idle₁ (calm x (by simp))
  refine ⟨idle₂, health₂.trans health₁, ?_⟩
  rw [registry₂, registry₁, List.foldl_append]
  rfl

/-- **After a disconnect nothing happens until somebody asks for a connection again**, whatever was in
flight: the state stays disconnected, no attempt begins, no callback is called, nothing is counted,
and only requests change the subscriptions. A connection that a disconnect has found open may still
get the frame that ends it, after all others and at most once; nothing else is written. -/
theorem parted_of_run (run : Run config policy autoPong shared w)
    (he : w.history = past ++ r :: later) (asked : r.letter.message = .disconnect)
    (calm : ∀ x ∈ later, x.letter.message.isConnect = false) :
    (∀ x ∈ r :: later, x.after.state = .disconnected ∧
      x.after.health = { r.before.health with connectedAt := none } ∧
      ∀ e ∈ x.effects, e.isWork = false) ∧
    w.manager.state = .disconnected ∧
    w.manager.registry = later.foldl (fun registry x => x.letter.message.register registry)
      r.before.registry ∧
    (∀ letter outcomes, w.manager.phase = .running → letter.message.isConnect = false →
      (w.handling letter outcomes).shared = w.shared) ∧
    ∀ (n : Nat) (l : Link), w.links[n]? = some l → ∃ bye, l.written = addressed n (writings past) ++ bye ∧
      (bye = [] ∨ bye = [.clientClose] ∧ Dismissed (past ++ [r]) n) := by
  obtain ⟨w₀, -, began⟩ := run.began he
  obtain ⟨idle₀, work₀, health₀, registry₀⟩ := began.disconnects asked
  obtain ⟨idle, -, registry⟩ := idle_since run he asked calm
  -- every later entry began in a world of which the same holds
  have since : ∀ x ∈ later, x.before.writer = none ∧ x.after.state = .disconnected ∧
      x.after.health = { r.before.health with connectedAt := none } ∧
      ∀ e ∈ x.effects, e.isWork = false := by
    intro x hx
    obtain ⟨before, after, rfl⟩ := List.append_of_mem hx
    have he' : w.history = (past ++ r :: before) ++ x :: after := by rw [he]; simp
    obtain ⟨w₁, run₁, began₁⟩ := run.began he'
    obtain ⟨idle₁, health₁, -⟩ := idle_since run₁ began₁.history asked
      fun y hy => calm y (List.mem_append_left _ hy)
    obtain ⟨idle₂, work, health, -⟩ := began₁.rests idle₁ (calm x hx)
    refine ⟨?_, idle₂.state, health.trans health₁, work⟩
    rw [began₁.before]
    exact idle₁.released.writer
  have entries : ∀ x ∈ r :: later, x.after.state = .disconnected ∧
      x.after.health = { r.before.health with connectedAt := none } ∧
      ∀ e ∈ x.effects, e.isWork = false := by
    intro x hx
    rcases List.mem_cons.mp hx with rfl | hx
    · exact ⟨idle₀.state, health₀, work₀⟩
    · exact (since x hx).2
  refine ⟨entries, idle.state, registry, fun letter outcomes runs calm' => ?_, fun n l hl => ?_⟩
  · have hp : w.manager.phase ≠ .stopped := by rw [runs]; nofun
    let t : Turn κ σ := ⟨w.manager, w.shared, w.now, outcomes, 0, []⟩
    have ht : t.holding.Idle := idle
    exact (Turn.handle_rests ht hp calm').2.2.2
  · have hn : w.page n = some l.written := by unfold page; rw [hl]; rfl
    obtain ⟨bye, hb, hd⟩ := (partings_of_run run).pages n _ hn
    have silent : writings w.history = writings past := by
      have hw : ∀ x ∈ r :: later, x.effects.filterMap Effect.wrote? = [] := by
        intro x hx
        refine List.filterMap_eq_nil_iff.mpr fun e hm => ?_
        have hk := (entries x hx).2.2 e hm
        cases e <;> first | rfl | cases hk
      unfold writings
      rw [he, List.flatMap_append, List.flatMap_eq_nil_iff.mpr hw, List.append_nil]
    refine ⟨bye, silent ▸ hb, hd.imp_right fun ⟨hf, ⟨x, hx, dismissed⟩, _⟩ =>
      ⟨hf, x, ?_, dismissed⟩⟩
    rw [he] at hx
    rcases List.mem_append.mp hx with hx | hx
    · exact List.mem_append_left _ hx
    · rcases List.mem_cons.mp hx with rfl | hx
      · exact List.mem_append_right _ (List.mem_singleton_self _)
      · exact nomatch (since x hx).1.symm.trans dismissed.2

end Since

def disconnectRequested : World Listener Notebook := defaultOpen.post none .disconnect

/-- The connection is left to a close handshake, which has written its frame. -/
def closeWritten : World Listener Notebook :=
  ((disconnectRequested.turn ⟨none, .disconnect⟩ [] fun _ _ => .done).onLink 0 fun l =>
    { l with written := l.written ++ [.clientClose] }).parted 0

/-- A client has asked for a topic after that. -/
def laterSubscribe : World Listener Notebook :=
  closeWritten.post none (.subscribe ⟨0⟩ .alerts (.recording "alerts"))

/-- The subscription has been noted, and nothing else. -/
def subscribedOffline : World Listener Notebook :=
  laterSubscribe.turn ⟨none, .subscribe ⟨0⟩ .alerts (.recording "alerts")⟩ [] fun _ _ => .done

/-- The case of a connection that is left, and of a subscription later. -/
theorem parted_subscribedOffline :
    (Run .default (fun _ => .giveUp) true (.empty 20) subscribedOffline ∧
      subscribedOffline.history = defaultOpen.history ++
        disconnectRequested.handled ⟨none, .disconnect⟩ (fun _ _ => .done) ::
          [laterSubscribe.handled ⟨none, .subscribe ⟨0⟩ .alerts (.recording "alerts")⟩ fun _ _ =>
            .done]) ∧
    subscribedOffline.manager.state = .disconnected ∧
    subscribedOffline.manager.registry.topics = [.alerts] ∧
    ∀ l, subscribedOffline.links[0]? = some l →
      ∃ bye, l.written = bye ∧ (bye = [] ∨ bye = [.clientClose]) := by
  have parting : (0 : Nat) ∈
      (disconnectRequested.turn ⟨none, .disconnect⟩ [] fun _ _ => .done).farewells :=
    List.mem_singleton_self _
  have parted : Run .default (fun _ => .giveUp) true (.empty 20) closeWritten :=
    .step (.step (.step run_defaultOpen (.asks rfl)) (.turns rfl rfl fun _ _ => .done))
      (.parts parting _ (.inr rfl))
  have run : Run .default (fun _ => .giveUp) true (.empty 20) subscribedOffline :=
    .step (.step parted (.asks rfl)) (.turns rfl rfl fun _ _ => .done)
  have history : subscribedOffline.history = defaultOpen.history ++
      disconnectRequested.handled ⟨none, .disconnect⟩ (fun _ _ => .done) ::
        [laterSubscribe.handled ⟨none, .subscribe ⟨0⟩ .alerts (.recording "alerts")⟩ fun _ _ =>
          .done] := rfl
  obtain ⟨-, state, registry, -, links⟩ := parted_of_run run history rfl (by simp [handled, Message.isConnect])
  refine ⟨⟨run, history⟩, state, by rw [registry]; rfl, fun l hl => ?_⟩
  obtain ⟨bye, hb, what⟩ := links 0 l hl
  exact ⟨bye, hb, what.imp_right And.left⟩

end Runs

end World

end LiveMetrics
