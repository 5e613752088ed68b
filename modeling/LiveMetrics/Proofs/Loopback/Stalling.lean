import LiveMetrics.Loopback.Schedule
import LiveMetrics.Proofs.Connection.Suspending
import LiveMetrics.Session.Run

/-!
# A peer that accepts nothing

A server may stop to accept what the client writes. Whether requests are still handled then depends
on what the manager has to write. `State.prompt_iff_of_run`: when nothing more can happen at an
instant, the manager has handled everything exactly if no message of the run had it write to a
connection whose peer accepts nothing. The frame of a close handshake is not written by the manager,
so a request to disconnect is always handled, if the manager comes to it
(`State.prompt_closePending`). The other frames are: after a request for a topic no request is handled
any more (`State.held_up_by_topic`).

1. Beside the manager nothing changes it, and the mailbox grows (`State.Beside`).
2. A turn takes the first message, and suspends the manager exactly if the message sticks
   (`State.Sticks`).
3. A run is both, in any order (`State.Run`); the order in which a session lets things happen is one
   of them (`State.Run.settleWithin`).
-/

set_option autoImplicit false

namespace LiveMetrics.Loopback

/-- What a server does with a connection. -/
inductive Socket.Moves (k : Socket) : Socket → Prop where
  | sends {item : Incoming} {k' : Socket} (goes : k.send item = .ok k') : Moves k k'
  | finishes : Moves k k.finish
  | deserts : Moves k k.desert
  | takes (n : Nat) : Moves k { k with written := k.written.drop n }
  | stalls : Moves k { k with stalled := true }

namespace State

variable {κ σ : Type}

/-! ## Beside the manager -/

/-- The manager has taken no part in what has happened: it is as it was, and the mailbox has grown,
if it was open. -/
structure Beside (s s' : State κ σ) : Prop where
  manager : s'.manager = s.manager
  mailbox : s.mailbox <+: s'.mailbox
  closed : s.isStopped = true → s'.mailbox = s.mailbox

section Operations

variable (s : State κ σ)

theorem beside_of_same {s' : State κ σ} (manager : s'.manager = s.manager)
    (mailbox : s'.mailbox = s.mailbox) : Beside s s' :=
  ⟨manager, mailbox ▸ List.prefix_rfl, fun _ => mailbox⟩

theorem Beside.trans {s s' s'' : State κ σ} (h : Beside s s') (h' : Beside s' s'') :
    Beside s s'' := by
  have stopped : s'.isStopped = s.isStopped := by
    unfold isStopped
    rw [h.manager]
  refine ⟨h'.manager.trans h.manager, h.mailbox.trans h'.mailbox, fun hs => ?_⟩
  rw [h'.closed (stopped.trans hs), h.closed hs]

theorem beside_onSocket (link : Nat) (f : Socket → Socket) : Beside s (s.onSocket link f) :=
  beside_of_same s rfl rfl

theorem beside_log (events : List LogEvent) : Beside s (s.log events) := beside_of_same s rfl rfl

theorem beside_post (message : Message κ) : Beside s (s.post message) := by
  unfold post
  split <;> rename_i hs
  · exact beside_of_same s rfl rfl
  · exact ⟨rfl, List.prefix_append _ _, fun h => absurd h hs⟩

theorem beside_endJob (task : Nat) : Beside s (s.endJob task) := by
  unfold endJob
  dsimp only
  split <;> exact beside_of_same s rfl rfl

theorem beside_putJob (task : Nat) (job : Job) : Beside s (s.putJob task job) :=
  beside_of_same s rfl rfl

theorem beside_reach (task : Nat) (generation : UInt64) (endpoint : String) (limit : Span)
    (deadline : Nat) (reception : Reception) :
    Beside s (s.reach task generation endpoint limit deadline reception) := by
  have fails : ∀ (s : State κ σ) (message : Message κ), Beside s ((s.post message).endJob task) :=
    fun s message => (beside_post s message).trans (beside_endJob _ task)
  unfold reach
  dsimp only
  split
  · exact fails s _
  · let attempted := { s with attempts := s.attempts ++ [(s.now, endpoint)] }
    have first : Beside s attempted := beside_of_same s rfl rfl
    cases reception with
    | accept =>
      let joined := { attempted with sockets := s.sockets ++ [Socket.new] }
      have second : Beside s joined := beside_of_same s rfl rfl
      exact second.trans (fails joined _)
    | refuse reason => exact first.trans (fails attempted _)
    | hang => exact first.trans (beside_putJob attempted task _)

variable {s} {s' : State κ σ}

theorem beside_part {entry : Nat × Farewell} (goes : s.part? entry = some s') : Beside s s' := by
  obtain ⟨link, f⟩ := entry
  unfold part? at goes
  dsimp only at goes
  split at goes
  · cases goes
  · split at goes
    · cases goes
      exact beside_of_same s rfl rfl
    · cases goes
      exact beside_of_same s rfl rfl
    · split at goes <;> cases goes <;> exact beside_of_same s rfl rfl

theorem beside_fire {entry : Nat × Job} (goes : s.fire? entry = some s') : Beside s s' := by
  unfold fire? at goes
  split at goes
  · split at goes <;> cases goes
    exact (beside_post s _).trans (beside_putJob _ _ _)
  · split at goes <;> cases goes
    exact (beside_post s _).trans (beside_endJob _ _)
  · cases goes

theorem beside_run {entry : Nat × Job} (goes : s.run? entry = some s') : Beside s s' := by
  unfold run? at goes
  split at goes
  · have first : Beside s { s with script := s.script.tail } := beside_of_same s rfl rfl
    dsimp only at goes
    split at goes
    · cases goes
      exact first.trans (beside_reach _ _ _ _ _ _ _)
    · cases goes
      exact first.trans (beside_putJob _ _ _)
    · cases goes
      exact (first.trans (beside_log _ _)).trans ((beside_post _ _).trans (beside_endJob _ _))
  · split at goes
    · cases goes
    · split at goes
      · cases goes
        exact (beside_onSocket s _ _).trans (beside_post _ _)
      · cases goes
        exact (beside_post s _).trans (beside_endJob _ _)
      · split at goes <;> cases goes
        exact (beside_post s _).trans (beside_endJob _ _)
  · cases goes

theorem beside_expire {entry : Nat × Job} (goes : s.expire? entry = some s') : Beside s s' := by
  unfold expire? at goes
  split at goes
  · split at goes <;> cases goes
    exact (beside_post s _).trans (beside_endJob _ _)
  · cases goes

end Operations

/-- What can happen beside the manager: a client asks, time passes, a close handshake or a task goes
on, or the server does something. -/
inductive Aside : State κ σ → State κ σ → Prop where
  | asks {s : State κ σ} {message : Message κ} (request : message.isRequest = true) :
      Aside s (s.post message)
  | waits {s : State κ σ} (span : Nat) : Aside s { s with now := s.now + span }
  | parts {s s' : State κ σ} {entry : Nat × Farewell} (there : entry ∈ s.farewells)
      (goes : s.part? entry = some s') : Aside s s'
  | fires {s s' : State κ σ} {entry : Nat × Job} (there : entry ∈ s.jobs)
      (goes : s.fire? entry = some s') : Aside s s'
  | runs {s s' : State κ σ} {entry : Nat × Job} (there : entry ∈ s.jobs)
      (goes : s.run? entry = some s') : Aside s s'
  | expires {s s' : State κ σ} {entry : Nat × Job} (there : entry ∈ s.jobs)
      (goes : s.expire? entry = some s') : Aside s s'
  /-- A gated attempt is let go on. -/
  | releases {s : State κ σ} {task : Nat} {generation : UInt64} {endpoint : String} {limit : Span}
      {deadline : Nat} {reception : Reception}
      (there : (task, .opening generation endpoint limit deadline (.gated reception)) ∈ s.jobs) :
      Aside s (s.reach task generation endpoint limit deadline reception)
  | scripts {s : State κ σ} (entries : List Scripted) :
      Aside s { s with script := s.script ++ entries }
  | goes {s : State κ σ} : Aside s { s with serverGone := true }
  | breaks {s : State κ σ} (on : Bool) : Aside s { s with writesFail := on }
  | moves {s : State κ σ} {link : Nat} {k k' : Socket} (there : s.sockets[link]? = some k)
      (moves : k.Moves k') : Aside s (s.onSocket link fun _ => k')
  /-- What the callbacks share changes, and what was logged and answered is taken. -/
  | reports {s : State κ σ} (shared : σ) : Aside s { s with shared, logged := [], answers := [] }

theorem Aside.beside {s s' : State κ σ} (h : Aside s s') : Beside s s' := by
  cases h with
  | asks => exact beside_post s _
  | parts there goes => exact beside_part goes
  | fires there goes => exact beside_fire goes
  | runs there goes => exact beside_run goes
  | expires there goes => exact beside_expire goes
  | releases => exact beside_reach s _ _ _ _ _ _
  | waits | scripts | goes | breaks | moves | reports => exact beside_of_same s rfl rfl

/-! ## Turns -/

section Turns

variable [Callback κ σ]

def beginning (s : State κ σ) : Turn κ σ :=
  ⟨s.manager, s.shared, s.now, fun link _ => s.writeOutcome link, 0, []⟩

/-- Whether the handling of a message has a frame to write to a connection whose peer accepts
nothing. -/
def Sticks (s : State κ σ) (message : Message κ) : Prop :=
  (s.beginning.script message).Sticks s.beginning.outcomes

variable [Watched σ] {s s' : State κ σ}

omit [Callback κ σ] in
theorem apply_frame (s : State κ σ) (e : Effect) :
    (s.apply e).manager = s.manager ∧ (s.apply e).mailbox = s.mailbox := by
  unfold apply
  cases e with
  | abort task =>
    dsimp only
    unfold endJob
    split <;> exact ⟨rfl, rfl⟩
  | _ => exact ⟨rfl, rfl⟩

omit [Callback κ σ] [Watched σ] in
theorem foldl_frame {α : Type} {f : State κ σ → α → State κ σ}
    (h : ∀ s x, (f s x).manager = s.manager ∧ (f s x).mailbox = s.mailbox) (xs : List α)
    (s : State κ σ) : (xs.foldl f s).manager = s.manager ∧ (xs.foldl f s).mailbox = s.mailbox := by
  induction xs generalizing s with
  | nil => exact ⟨rfl, rfl⟩
  | cons x rest ih =>
    rw [List.foldl_cons, (ih _).1, (ih _).2]
    exact h s x

omit [Callback κ σ] [Watched σ] in
theorem closeMailbox_frame (s : State κ σ) :
    s.closeMailbox.manager = s.manager ∧ s.closeMailbox.mailbox = [] := by
  unfold closeMailbox
  exact foldl_frame (fun u message => by cases message <;> exact ⟨rfl, rfl⟩) s.mailbox _

theorem take?_spec {message : Message κ} {rest : List (Message κ)}
    (next : s.mailbox = message :: rest) (goes : s.take? = some s') :
    s.manager.phase = .running ∧ s'.manager = (s.beginning.handle message).manager ∧
      s'.mailbox = if s'.isStopped then [] else rest := by
  unfold take? at goes
  split at goes <;> rename_i hp hm
  · cases next.symm.trans hm
    let t := s.beginning.handle message
    let u := t.effects.foldl apply
      { s with manager := t.manager, shared := t.shared, mailbox := rest }
    have hu : u.manager = t.manager ∧ u.mailbox = rest := foldl_frame apply_frame t.effects _
    have he : s' = if u.isStopped then u.closeMailbox else u := (Option.some.inj goes).symm
    cases hs : u.isStopped with
    | true =>
      obtain ⟨manager, mailbox⟩ := closeMailbox_frame u
      have stopped : u.closeMailbox.isStopped = true := by
        unfold isStopped
        rw [manager]
        exact hs
      rw [he, if_pos hs, if_pos stopped]
      exact ⟨hp, manager.trans hu.1, mailbox⟩
    | false =>
      have runs : ¬ u.isStopped = true := by simp [hs]
      rw [he, if_neg runs, if_neg runs]
      exact ⟨hp, hu⟩
  · cases goes

/-- **A turn suspends the manager exactly if the message sticks.** -/
theorem suspended_iff_sticks {message : Message κ} {rest : List (Message κ)}
    (next : s.mailbox = message :: rest) (goes : s.take? = some s') :
    s'.manager.phase = .suspended ↔ s.Sticks message := by
  obtain ⟨runs, manager, -⟩ := take?_spec next goes
  rw [manager]
  refine Turn.handle_waits (t := s.beginning) (fun h => ?_) (fun _ _ => rfl) message
  exact nomatch runs.symm.trans h

end Turns

/-! ## Runs -/

section Runs

variable [Callback κ σ] [Watched σ]

/-- The states that a run leads to, with the messages that were handled and the states in which they
were. -/
inductive Run (config : Config) (policy : Nat → Verdict) (autoPong : Bool) (shared : σ) :
    List (State κ σ × Message κ) → State κ σ → Prop where
  | start : Run config policy autoPong shared [] (.start config policy autoPong shared)
  | aside {past : List (State κ σ × Message κ)} {s s' : State κ σ}
      (before : Run config policy autoPong shared past s) (step : Aside s s') :
      Run config policy autoPong shared past s'
  | turn {past : List (State κ σ × Message κ)} {s s' : State κ σ} {message : Message κ}
      {rest : List (Message κ)} (before : Run config policy autoPong shared past s)
      (next : s.mailbox = message :: rest) (goes : s.take? = some s') :
      Run config policy autoPong shared (past ++ [(s, message)]) s'

variable {config : Config} {policy : Nat → Verdict} {autoPong : Bool} {shared : σ}
  {past : List (State κ σ × Message κ)} {s s' : State κ σ}

/-- The message that the manager takes next, if it takes one, and the state in which it does. -/
def turn? (s : State κ σ) : Option (State κ σ × Message κ) :=
  s.take?.bind fun _ => s.mailbox.head?.map fun message => (s, message)

/-- The messages that are handled when at most `fuel` things happen. -/
def turnsWithin : Nat → State κ σ → List (State κ σ × Message κ)
  | 0, _ => []
  | fuel + 1, s =>
    match s.step? with
    | some s' => s.turn?.toList ++ turnsWithin fuel s'
    | none => []

/-- What a session does next is a step of a run. -/
theorem Run.step (run : Run config policy autoPong shared past s) (goes : s.step? = some s') :
    Run config policy autoPong shared (past ++ s.turn?.toList) s' := by
  have beside (idle : s.take? = none) (step : Aside s s') :
      Run config policy autoPong shared (past ++ s.turn?.toList) s' := by
    unfold turn?
    rw [idle]
    exact (List.append_nil past).symm ▸ .aside run step
  unfold step? at goes
  simp only [Option.orElse_eq_orElse, Option.orElse_eq_or, Option.or_eq_some_iff] at goes
  rcases goes with taken | ⟨idle, goes⟩
  · cases hm : s.mailbox with
    | nil =>
      unfold take? at taken
      simp [hm] at taken
    | cons message rest =>
      unfold turn?
      rw [taken, hm]
      exact .turn run hm taken
  · rcases goes with parts | ⟨-, fires | ⟨-, runs | ⟨-, expires⟩⟩⟩
    · obtain ⟨entry, there, goes⟩ := List.exists_of_findSome?_eq_some parts
      exact beside idle (.parts there goes)
    · obtain ⟨entry, there, goes⟩ := List.exists_of_findSome?_eq_some fires
      exact beside idle (.fires there goes)
    · obtain ⟨entry, there, goes⟩ := List.exists_of_findSome?_eq_some runs
      exact beside idle (.runs there goes)
    · obtain ⟨entry, there, goes⟩ := List.exists_of_findSome?_eq_some expires
      exact beside idle (.expires there goes)

/-- **A session is a run**: whatever it lets happen at an instant goes on with the run. -/
theorem Run.settleWithin (run : Run config policy autoPong shared past s) (fuel : Nat) :
    Run config policy autoPong shared (past ++ turnsWithin fuel s) (settleWithin fuel s) := by
  induction fuel generalizing past s with
  | zero => exact (List.append_nil past).symm ▸ run
  | succ fuel ih =>
    unfold turnsWithin State.settleWithin
    cases goes : s.step? with
    | none => exact (List.append_nil past).symm ▸ run
    | some s' =>
      rw [← List.append_assoc]
      exact ih (run.step goes)

/-- The manager is suspended exactly if a message has stuck, and its mailbox is empty when it has
stopped. -/
theorem Run.suspended_iff (run : Run config policy autoPong shared past s) :
    (s.manager.phase = .suspended ↔ ∃ e ∈ past, e.1.Sticks e.2) ∧
      (s.manager.phase = .stopped → s.mailbox = []) := by
  induction run with
  | start => exact ⟨⟨nofun, fun ⟨_, h, _⟩ => nomatch h⟩, nofun⟩
  | aside before step ih =>
    have beside := step.beside
    rw [beside.manager]
    refine ⟨ih.1, fun hs => ?_⟩
    rw [beside.closed (by simp [isStopped, hs])]
    exact ih.2 hs
  | @turn past s s' message others before next goes ih =>
    obtain ⟨runs, manager, mailbox⟩ := take?_spec next goes
    have fresh : ∀ e ∈ past, ¬ e.1.Sticks e.2 := fun e he sticks =>
      nomatch runs.symm.trans (ih.1.mpr ⟨e, he, sticks⟩)
    refine ⟨?_, fun hs => ?_⟩
    · rw [suspended_iff_sticks next goes]
      constructor
      · intro sticks
        exact ⟨(s, message), by simp, sticks⟩
      · rintro ⟨e, he, sticks⟩
        rcases List.mem_append.mp he with he | he
        · exact absurd sticks (fresh e he)
        · obtain rfl := List.mem_singleton.mp he
          exact sticks
    · rw [mailbox, if_pos (by simp [isStopped, hs])]

/-- When nothing more can happen, a manager that runs has handled everything. -/
theorem mailbox_of_rest (rest : s.step? = none) (runs : s.manager.phase = .running) :
    s.mailbox = [] := by
  unfold step? at rest
  simp only [Option.orElse_eq_orElse, Option.orElse_eq_or, Option.or_eq_none_iff] at rest
  have idle := rest.1
  unfold take? at idle
  cases hm : s.mailbox with
  | nil => rfl
  | cons message others => simp [runs, hm] at idle

/-- **Whether everything is handled.** When nothing more can happen at an instant, the manager waits
for no write and its mailbox is empty, exactly if no message of the run has had it write to a
connection whose peer accepts nothing. -/
theorem prompt_iff_of_run (run : Run config policy autoPong shared past s) (rest : s.step? = none) :
    (s.manager.phase ≠ .suspended ∧ s.mailbox = []) ↔ ∀ e ∈ past, ¬ e.1.Sticks e.2 := by
  obtain ⟨suspended, stopped⟩ := run.suspended_iff
  constructor
  · rintro ⟨free, -⟩ e he sticks
    exact free (suspended.mpr ⟨e, he, sticks⟩)
  · intro none_
    have free : s.manager.phase ≠ .suspended := by
      intro hs
      obtain ⟨e, he, sticks⟩ := suspended.mp hs
      exact none_ e he sticks
    refine ⟨free, ?_⟩
    cases hp : s.manager.phase with
    | running => exact mailbox_of_rest rest hp
    | suspended => exact absurd hp free
    | stopped => exact stopped hp

end Runs

/-! ### A server that accepts nothing -/

def connectRequested : State Listener Notebook :=
  (start .default (fun _ => .giveUp) true (.empty 20)).post (.connect "ws://localhost" none)

/-- The attempt has led to a connection, which the manager does not know yet. -/
def connectAnswered : State Listener Notebook := connectRequested.settleWithin 2

/-- The connection is open, and the server accepts nothing any more. -/
def peerStalled : State Listener Notebook :=
  (connectRequested.settleWithin 3).onSocket 0 fun _ => { Socket.new with stalled := true }

/-- What has been handled until then. -/
def openingTurns : List (State Listener Notebook × Message Listener) :=
  [(connectRequested, .connect "ws://localhost" none), (connectAnswered, .opened 1 0)]

theorem run_peerStalled :
    Run .default (fun _ => .giveUp) true (.empty 20) openingTurns peerStalled := by
  have asked : Run .default (fun _ => .giveUp) true (.empty 20) [] connectRequested :=
    .aside .start (.asks rfl)
  have opens : Run .default (fun _ => .giveUp) true (.empty 20) openingTurns
      (connectRequested.settleWithin 3) := asked.settleWithin 3
  exact .aside opens (.moves rfl .stalls)

def disconnectRequested : State Listener Notebook := peerStalled.post .disconnect

/-- The connection has been given up, and the close handshake waits for the server. -/
def closePending : State Listener Notebook := disconnectRequested.settleWithin 2

/-- The case of a request to disconnect. -/
theorem prompt_closePending :
    Run .default (fun _ => .giveUp) true (.empty 20)
        (openingTurns ++ [(disconnectRequested, .disconnect)]) closePending ∧
      closePending.step? = none ∧ closePending.writeOutcome 0 = .stalled ∧
      closePending.manager.phase ≠ .suspended ∧ closePending.mailbox = [] := by
  have asked : Run .default (fun _ => .giveUp) true (.empty 20) openingTurns disconnectRequested :=
    .aside run_peerStalled (.asks rfl)
  have run : Run .default (fun _ => .giveUp) true (.empty 20)
      (openingTurns ++ [(disconnectRequested, .disconnect)]) closePending := asked.settleWithin 2
  have rest : closePending.step? = none := rfl
  refine ⟨run, rest, rfl, (prompt_iff_of_run run rest).mpr ?_⟩
  -- none of the three messages has a frame to write
  have connects : ¬ connectRequested.Sticks (.connect "ws://localhost" none) := fun h => h.1 rfl
  have opens : ¬ connectAnswered.Sticks (.opened 1 0) := fun h => h.1 rfl
  have leaves : ¬ disconnectRequested.Sticks .disconnect := fun h => h.1 rfl
  simp [openingTurns, connects, opens, leaves]

def topicRequested : State Listener Notebook :=
  peerStalled.post (.subscribe ⟨1⟩ .alerts (.recording "a"))

/-- The client has asked for the end of the connection after that. -/
def disconnectQueued : State Listener Notebook := (topicRequested.settleWithin 1).post .disconnect

/-- **A peer that accepts nothing holds up what is asked later.** After a request for a topic the
manager waits for a write that does not end: nothing more can happen, but the connection is not given
up, and the request to disconnect is not handled. -/
theorem held_up_by_topic :
    ∃ past, Run .default (fun _ => .giveUp) true (.empty 20) past disconnectQueued ∧
      disconnectQueued.step? = none ∧ disconnectQueued.manager.phase = .suspended ∧
      disconnectQueued.manager.state = .connected ∧ disconnectQueued.mailbox = [.disconnect] := by
  have asked : Run .default (fun _ => .giveUp) true (.empty 20) openingTurns topicRequested :=
    .aside run_peerStalled (.asks rfl)
  exact ⟨_, .aside (asked.settleWithin 1) (.asks rfl), rfl, rfl, rfl, rfl⟩

end State

end LiveMetrics.Loopback
