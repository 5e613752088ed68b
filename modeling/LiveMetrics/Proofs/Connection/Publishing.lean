import LiveMetrics.Proofs.Connection.Entries
import LiveMetrics.Proofs.Connection.Opening

/-!
# The states that are published

The states that a manager publishes lead from one to the next along a few edges
(`ConnectionState.successors`), and whoever observes them is told each of them once:

1. the states that a turn publishes lead from the state before it to the state after it
   (`Holding.Leads`, `Course.leads`). That some edges are missing rests on what a turn begins with: the
   end of a connection is reported in the state connected only;
2. so the states of all turns lead from disconnected to the present state (`path_of_reachable`);
3. a turn tells the observer that there is after it (`Began.told`), and only a request to connect for
   which an attempt is begun changes the observer (`Began.observer`).
-/

set_option autoImplicit false

namespace LiveMetrics

/-! ## Edges and paths -/

namespace ConnectionState

/-- The states that may follow a state. -/
def successors : ConnectionState → List ConnectionState
  | disconnected => [connecting]
  | connecting => [connected, reconnecting, failed, disconnected]
  | connected => [reconnecting, failed, disconnected]
  | reconnecting => [connecting, disconnected]
  | failed => [connecting, disconnected]

/-- No state follows itself. -/
theorem not_mem_successors (s : ConnectionState) : s ∉ s.successors := by
  cases s <;> decide

/-- States that lead from a first state to a last one. -/
inductive Path : ConnectionState → List ConnectionState → ConnectionState → Prop where
  | stay {s : ConnectionState} : Path s [] s
  | step {s s' last : ConnectionState} {states : List ConnectionState} (next : s' ∈ s.successors)
      (rest : Path s' states last) : Path s (s' :: states) last

namespace Path

variable {s s' s'' : ConnectionState} {states states' : List ConnectionState}

theorem single (next : s' ∈ s.successors) : Path s [s'] s' := .step next .stay

theorem trans (h : Path s states s') (h' : Path s' states' s'') : Path s (states ++ states') s'' := by
  induction h with
  | stay => exact h'
  | step next rest ih => exact .step next (ih h')

theorem chain (h : Path s states s') :
    (s :: states).IsChain fun a b => a ≠ b ∧ b ∈ a.successors := by
  induction h with
  | stay => exact .singleton _
  | step next rest ih =>
    refine .cons_cons ⟨?_, next⟩ ih
    rintro rfl
    exact not_mem_successors _ next

theorem getLast? (h : Path s states s') : (s :: states).getLast? = some s' := by
  induction h with
  | stay => rfl
  | step next rest ih => rw [List.getLast?_cons_cons, ih]

end Path

end ConnectionState

open ConnectionState (Path)

/-! ## The states that a turn publishes -/

/-- The state that a mark publishes. -/
def Mark.published? : Mark → Option ConnectionState
  | .publish _ is => some is
  | _ => none

theorem Effect.published?_eq (e : Effect) : e.published? = e.mark?.bind Mark.published? := by
  cases e with
  | log event => cases event <;> rfl
  | _ => rfl

namespace Holding

/-- The states that the turn has published so far. -/
def published (c : Holding) : List ConnectionState := c.marks.filterMap Mark.published?

/-- The states that the turn has published lead from a state to the present one. -/
def Leads (s : ConnectionState) (c : Holding) : Prop := Path s c.published c.state

section Operations

variable {s : ConnectionState} {c : Holding}

namespace Leads

theorem of_same {d : Holding} (h : c.Leads s) (hp : d.published = c.published)
    (hs : d.state = c.state) : d.Leads s := by
  unfold Leads
  rw [hp, hs]
  exact h

theorem abort? (h : c.Leads s) (task : Option Nat) : (c.abort? task).Leads s := by
  refine h.of_same ?_ rfl
  unfold published Holding.abort?
  cases task <;> simp [Mark.published?]

theorem start (h : c.Leads s) (what : Task) : (c.start what).Leads s :=
  h.of_same (by simp [published, Holding.start, Mark.published?]) rfl

theorem failure (h : c.Leads s) (attempt : Nat) (delay : Option Span) :
    (c.mark (.failure attempt delay)).Leads s :=
  h.of_same (by simp [published, Holding.mark, Mark.published?]) rfl

theorem enter (h : c.Leads s) {next : ConnectionState}
    (edge : c.state = next ∨ next ∈ c.state.successors) : (c.enter next).Leads s := by
  by_cases same : c.state = next
  · refine h.of_same ?_ same.symm
    unfold published Holding.enter
    rw [if_pos same, List.append_nil]
  · have hp : (c.enter next).published = c.published ++ [next] := by
      unfold published Holding.enter
      rw [if_neg same, List.filterMap_append]
      rfl
    unfold Leads
    rw [hp]
    exact h.trans (.single (edge.resolve_left same))

theorem teardown (h : c.Leads s) : c.teardown.Leads s :=
  (((h.abort? c.openTask).abort? c.readerTask).abort? c.heartbeatTask).of_same rfl rfl

theorem cancelRetry (h : c.Leads s) : c.cancelRetry.Leads s := (h.abort? _).of_same rfl rfl

theorem halt (h : c.Leads s) : c.halt.Leads s := h.cancelRetry.teardown.of_same rfl rfl

theorem lose (h : c.Leads s) : c.lose.Leads s := h.teardown.of_same rfl rfl

theorem fail (h : c.Leads s) (busy : c.state = .connecting ∨ c.state = .connected)
    (policy : Nat → Verdict) : (c.fail policy).Leads s := by
  have ends : .failed ∈ c.lose.state.successors ∧ .reconnecting ∈ c.lose.state.successors := by
    rcases busy with hs | hs <;> rw [show c.lose.state = _ from hs] <;> decide
  unfold Holding.fail
  cases policy c.lose.attempt with
  | broken reason => exact h.lose.halt
  | giveUp => exact (h.lose.failure _ _).enter (.inr ends.1)
  | wait delay =>
    have hr := (h.lose.failure c.lose.attempt (some delay)).enter (.inr ends.2)
    exact ((hr.abort? _).start _).of_same rfl rfl

theorem opening (h : c.Leads s) (edge : .connecting ∈ c.state.successors) (endpoint : String)
    (limit : Span) : (c.opening endpoint limit).Leads s := by
  let d : Holding := { c.abort? c.openTask with generation := c.generation + 1 }
  have hd : d.Leads s := (h.abort? c.openTask).of_same rfl rfl
  exact ((hd.enter (.inr edge)).start _).of_same rfl rfl

theorem settle (h : c.Leads s) (trying : c.state = .connecting) (link now : Nat)
    (interval : Span) : (c.settle link now interval).Leads s := by
  have hs : (c.settling link now).Leads s := (h.start _).of_same rfl rfl
  have edge : .connected ∈ c.state.successors := by rw [trying]; decide
  exact (((hs.abort? _).of_same rfl rfl).start _).enter (.inr edge)

theorem disconnect (h : c.Leads s) : c.disconnect.Leads s := by
  have edge : c.state = .disconnected ∨ .disconnected ∈ c.state.successors := by
    cases c.state <;> decide
  exact (h.cancelRetry.teardown.of_same rfl rfl).enter edge

end Leads

end Operations

end Holding

/-- An attempt that begins publishes one state. -/
theorem Holding.published_opening {c : Holding} (idle : c.state ≠ .connecting)
    (quiet : c.published = []) (endpoint : String) (limit : Span) :
    (c.opening endpoint limit).published = [.connecting] := by
  unfold published at quiet ⊢
  unfold opening start enter abort?
  dsimp only
  rw [if_neg idle]
  cases c.openTask <;> simp [quiet, Mark.published?, List.filterMap_cons]

/-- A request to connect for which an attempt is begun finds none, and publishes one state. -/
theorem Deal.dials {κ : Type} {limit : Span} {policy : Nat → Verdict} {c d : Holding}
    {l l' : Ledger} {message : Message κ} (h : Deal limit policy c l message d l')
    (blank : c.marks = []) (asks : message.isConnect = true) (begun : openings d.started ≠ []) :
    c.state.isBusy = false ∧ d.published = [.connecting] := by
  have bare : c.started = [] := by unfold Holding.started; rw [blank]; rfl
  have quiet : ∀ {d' : Holding}, d'.marks = c.marks → d'.published = [] := by
    intro d' hd
    unfold Holding.published
    rw [hd, blank]
    rfl
  cases h with
  | stays =>
    rw [bare] at begun
    exact absurd rfl begun
  | fails failing => exact nomatch (failing.found bare).asks.symm.trans asks
  | connects from_ =>
    have idle : c.state ≠ .connecting := by rcases from_ with hs | hs <;> rw [hs] <;> nofun
    refine ⟨by rcases from_ with hs | hs <;> rw [hs] <;> rfl, ?_⟩
    exact Holding.published_opening idle (quiet rfl) _ limit
  | reconnects from_ =>
    have idle : c.cancelRetry.state ≠ .connecting := by
      rw [show c.cancelRetry.state = .reconnecting from from_]
      nofun
    have hp : c.cancelRetry.published = [] := by
      unfold Holding.published Holding.cancelRetry Holding.abort?
      rw [blank]
      cases c.retryTask <;> rfl
    refine ⟨by rw [from_]; rfl, ?_⟩
    exact Holding.published_opening idle hp _ limit
  | retries | installs | disconnects | stops => cases asks

/-- **The states that a turn publishes lead on from the state before it.** -/
theorem Course.leads {κ : Type} {limit : Span} {policy : Nat → Verdict} {c d : Holding}
    {message : Message κ} {now : Nat} {base : List World.Job} {s : ConnectionState}
    (h : Course limit policy c message d) (begins : Begins now base c message) (leads : c.Leads s) :
    d.Leads s := by
  cases h with
  | steady => exact leads
  | fails from_ => exact leads.fail (.inr (begins.fails from_)) policy
  | refused from_ =>
    have attempt : Holding.Leads s { c with openTask := none } := leads.of_same rfl rfl
    exact attempt.fail (.inl from_) policy
  | connects from_ =>
    refine (leads.of_same rfl rfl).opening ?_ _ _
    show .connecting ∈ c.state.successors
    rcases from_ with hs | hs <;> rw [hs] <;> decide
  | reconnects from_ =>
    refine (leads.cancelRetry.of_same rfl rfl).opening ?_ _ _
    show .connecting ∈ c.state.successors
    rw [from_]
    decide
  | retries from_ =>
    refine (leads.of_same rfl rfl).opening ?_ _ _
    show .connecting ∈ c.state.successors
    rw [from_]
    decide
  | installs from_ => exact leads.settle from_ _ _ _
  | installsFails from_ => exact (leads.settle from_ _ _ _).fail (.inr rfl) policy
  | disconnects => exact leads.disconnect
  | stops => exact leads.halt

/-! ## The states that a run publishes -/

namespace World

variable {κ σ : Type}

namespace Handled

variable (r : Handled κ)

/-- An entry began an attempt for a request that brought an observer. -/
def Brings (o : Observer) : Prop :=
  (∃ endpoint, r.letter.message = .connect endpoint (some o)) ∧ r.begun ≠ []

theorem published_holding : r.holding.published = r.published := by
  unfold holding Holding.published published
  rw [List.filterMap_filterMap]
  congr 1
  funext e
  exact e.published?_eq.symm

end Handled

def published (history : List (Handled κ)) : List ConnectionState :=
  history.flatMap Handled.published

/-- Who was told about which states, in their order. -/
def told (history : List (Handled κ)) : List (Observer × ConnectionState) :=
  history.flatMap Handled.told

theorem published_append (past : List (Handled κ)) (r : Handled κ) :
    published (past ++ [r]) = published past ++ r.published := by
  unfold published
  simp

theorem told_append (past : List (Handled κ)) (r : Handled κ) :
    told (past ++ [r]) = told past ++ r.told := by
  unfold told
  simp

variable [Callback κ σ] {config : Config} {policy : Nat → Verdict} {autoPong : Bool} {shared : σ}

namespace Began

variable {w₀ : World κ σ} {past : List (Handled κ)} {r : Handled κ}

/-- The states of an entry lead from the state before it to the state after it. -/
theorem path (began : Began w₀ past r) (sound : Sound w₀) :
    Path r.before.state r.published r.after.state := by
  obtain ⟨rest, outcomes, next, entry⟩ := began.entry
  have course := sound.course began.going r.letter outcomes
  have leads := course.leads (sound.begins began.going next) (s := w₀.manager.state) .stay
  have holding : r.holding = (w₀.handling r.letter outcomes).holding := by rw [entry]; rfl
  rw [← holding] at leads
  rw [← r.published_holding, began.before]
  exact leads

/-- **The observer after an entry is told the states of that entry**, and nobody else is. -/
theorem told (began : Began w₀ past r) : r.told = tidings r.after.observer r.published := by
  obtain ⟨letter, outcomes, rfl⟩ := began.is_handled
  obtain ⟨observer, -, -, states, hp, ht⟩ :
    ((w₀.beginning outcomes).heeding letter.message).Tells (w₀.handling letter outcomes) :=
    handling_tells
  obtain ⟨hp₀, ht₀⟩ := (w₀.beginning outcomes).states_heeding letter.message
  rw [hp₀] at hp
  rw [ht₀] at ht
  have published : (w₀.handled letter outcomes).published = states := hp
  have after : (w₀.handled letter outcomes).after.observer = _ := observer
  rw [published, after]
  exact ht

/-- An observer is brought by a request to connect while there is no attempt and no connection. -/
theorem observer_of_connect (began : Began w₀ past r) {endpoint : String} {o : Option Observer}
    (asked : r.letter.message = .connect endpoint o) :
    r.after.observer = if r.before.state.isBusy then r.before.observer else o <|> r.before.observer := by
  obtain ⟨⟨sender, message⟩, outcomes, rfl⟩ := began.is_handled
  obtain rfl : message = .connect endpoint o := asked
  have observer : (w₀.handled ⟨sender, .connect endpoint o⟩ outcomes).after.observer = _ :=
    handling_tells.observer
  rw [observer]
  show ((w₀.beginning outcomes).heeding (.connect endpoint o)).manager.observer =
    if w₀.manager.state.isBusy then w₀.manager.observer else o <|> w₀.manager.observer
  unfold Turn.heeding beginning
  dsimp only
  cases w₀.manager.state <;> rfl

/-- An entry that begins an attempt for a request with an observer. -/
theorem brings (began : Began w₀ past r) (steady : Steady w₀) {o : Observer} (brings : r.Brings o) :
    r.after.observer = some o ∧ r.published = [.connecting] := by
  obtain ⟨⟨endpoint, asked⟩, begun⟩ := brings
  have deal := began.deal steady
  have asks : r.letter.message.isConnect = true := by rw [asked]; rfl
  have begun' : openings r.holding.started ≠ [] := by rw [r.started_holding]; exact begun
  obtain ⟨idle, published⟩ := deal.dials rfl asks begun'
  refine ⟨?_, r.published_holding.symm.trans published⟩
  rw [began.observer_of_connect asked, show r.before.state.isBusy = false from idle]
  rfl

/-- Any other entry leaves the observer as it is. -/
theorem keeps_observer (began : Began w₀ past r) (steady : Steady w₀)
    (calm : ∀ o, ¬ r.Brings o) : r.after.observer = r.before.observer := by
  cases asks : r.letter.message.isConnect with
  | false =>
    obtain ⟨letter, outcomes, rfl⟩ := began.is_handled
    exact handling_tells.observer.trans (Turn.observer_heeding _ asks)
  | true =>
    obtain ⟨endpoint, o, asked⟩ : ∃ endpoint o, r.letter.message = .connect endpoint o := by
      cases hm : r.letter.message with
      | connect endpoint o => exact ⟨endpoint, o, rfl⟩
      | _ => rw [hm] at asks; cases asks
    rw [began.observer_of_connect asked]
    cases busy : r.before.state.isBusy with
    | true => rfl
    | false =>
      cases o with
      | none => rfl
      | some o =>
        -- an attempt has been begun for the request
        have one := (began.deal steady).opens rfl
        rw [r.started_holding, asks, show r.before.holding.state.isBusy = false from busy] at one
        refine absurd ⟨⟨endpoint, asked⟩, fun none_ => ?_⟩ (calm o)
        rw [show openings r.started = [] from none_] at one
        simp only [List.length_nil, Bool.not_false, Bool.and_self, Bool.toNat_true] at one
        omega

end Began

theorem path_of_reachable {w : World κ σ} (reached : Reachable config policy autoPong shared w) :
    Path .disconnected (published w.history) w.manager.state := by
  induction reached with
  | start => exact .stay
  | step before step fresh ih =>
    rename_i w w'
    rcases step.turn_or_apart with ⟨letter, rest, outcomes, runs, next, rfl⟩ | ⟨letters, apart⟩
    · have began : Began w w.history (w.handled letter outcomes) :=
        ⟨rfl, runs, rest, outcomes, next, rfl⟩
      rw [history_turn, published_append, manager_turn]
      exact ih.trans (began.path (sound_of_reachable before))
    · rw [apart.manager, apart.history]
      exact ih

/-- **Who observes is told what is published.** -/
theorem told_of_run {w : World κ σ} (run : Run config policy autoPong shared w)
    {past since : List (Handled κ)} {r : Handled κ} {o : Observer}
    (history : w.history = past ++ r :: since) (brings : r.Brings o)
    (calm : ∀ x ∈ since, ∀ o', ¬ x.Brings o') :
    w.manager.observer = some o ∧ told (r :: since) = (published (r :: since)).map (o, ·) := by
  obtain ⟨w₀, run₀, began⟩ := run.began history
  obtain ⟨observer, -⟩ := began.brings (steady_of_run run₀) brings
  refine traced_run.kept (I := fun entries m => m.observer = some o ∧
    told (r :: entries) = (published (r :: entries)).map (o, ·)) ⟨observer, ?_⟩ ?_ run history
  · have told := began.told
    rw [observer, tidings_some] at told
    simpa [World.told, published] using told
  · rintro w₁ before x after rfl run₁ began₁ ⟨kept, same⟩
    have still := calm x (List.mem_append_right _ List.mem_cons_self)
    have after_ : x.after.observer = some o :=
      (began₁.keeps_observer (steady_of_run run₁) still).trans (began₁.before ▸ kept)
    have told := began₁.told
    rw [after_, tidings_some] at told
    refine ⟨after_, ?_⟩
    rw [← List.cons_append, told_append, published_append, same, told, List.map_append]

/-- Every first part of a history is the history of a world of the same run. -/
theorem Run.earlier {w : World κ σ} (run : Run config policy autoPong shared w)
    {past later : List (Handled κ)} (history : w.history = past ++ later) :
    ∃ w₀, Run config policy autoPong shared w₀ ∧ w₀.history = past := by
  cases later with
  | nil => exact ⟨w, run, history.trans (List.append_nil _)⟩
  | cons x later =>
    obtain ⟨w₀, run₀, began⟩ := run.began history
    exact ⟨w₀, run₀, began.history⟩

/-- **The states that are published follow each other**: none is published twice in a row, only states
that may follow are, and the last one is the present state. The observer that comes with a request
for which an attempt is begun is told the states that are published from the beginning of this
attempt on, in order and once each, and nobody else is told, until another one is brought; whether
it panics makes no difference. -/
theorem published_of_reachable {w : World κ σ}
    (reached : Reachable config policy autoPong shared w) :
    ((.disconnected :: published w.history).IsChain fun s s' => s ≠ s' ∧ s' ∈ s.successors) ∧
    (.disconnected :: published w.history).getLast? = some w.manager.state ∧
    ∀ past r since later o, w.history = past ++ r :: since ++ later → r.Brings o →
      (∀ x ∈ since, ∀ o', ¬ x.Brings o') →
      (published (r :: since)).head? = some .connecting ∧
      told (r :: since) = (published (r :: since)).map (o, ·) := by
  have path := path_of_reachable reached
  refine ⟨path.chain, path.getLast?, fun past r since later o history brings calm => ?_⟩
  obtain ⟨w₀, run₀, history₀⟩ := reached.run.earlier history
  obtain ⟨w₁, run₁, began⟩ := run₀.began history₀
  have first := (began.brings (steady_of_run run₁) brings).2
  refine ⟨?_, (told_of_run run₀ history₀ brings calm).2⟩
  unfold published
  rw [List.flatMap_cons, first]
  rfl

/-! ## A run that is observed -/

/-- An observer that panics whatever it is told. -/
def panicking : Observer := ⟨"panicking", fun _ => true⟩

def connectEntry : Handled Listener :=
  (connectRequested .default (fun _ => .giveUp) true (Notebook.empty 20) (some panicking)).handled
    ⟨none, .connect "ws://localhost" (some panicking)⟩ fun _ _ => .done

def openedEntry : Handled Listener :=
  (connectAnswered .default (fun _ => .giveUp) true (Notebook.empty 20) (some panicking)).handled
    ⟨some 0, .opened 1 0⟩ fun _ _ => .done

def observedOpen : World Listener Notebook :=
  connectionOpen .default (fun _ => .giveUp) true (.empty 20) (some panicking)

/-- The case of a connection that opens while an observer panics. -/
theorem published_observedOpen :
    (Reachable .default (fun _ => .giveUp) true (.empty 20) observedOpen ∧
      observedOpen.history = [] ++ connectEntry :: [openedEntry] ++ [] ∧
      connectEntry.Brings panicking ∧ ∀ x ∈ [openedEntry], ∀ o, ¬ x.Brings o) ∧
    told observedOpen.history = [(panicking, .connecting), (panicking, .connected)] := by
  have run : Run .default (fun _ => .giveUp) true (.empty 20) observedOpen :=
    Run.start.plains (plains_connectionOpen ..)
  have reached := (run.reachable (by decide)).1
  have history : observedOpen.history = [] ++ connectEntry :: [openedEntry] ++ [] := rfl
  have brings : connectEntry.Brings panicking := ⟨⟨_, rfl⟩, nofun⟩
  have calm : ∀ x ∈ [openedEntry], ∀ o, ¬ x.Brings o := by
    rintro x hx o ⟨⟨endpoint, asked⟩, -⟩
    rw [List.mem_singleton.mp hx] at asked
    cases asked
  refine ⟨⟨reached, history, brings, calm⟩, ?_⟩
  exact ((published_of_reachable reached).2.2 _ _ _ _ _ history brings calm).2

end World

end LiveMetrics
