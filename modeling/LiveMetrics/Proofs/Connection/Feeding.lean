import LiveMetrics.Proofs.Connection.Counting
import LiveMetrics.Proofs.Window

/-!
# A window that a subscription feeds

A callback may feed a set of windows among what the callbacks share (`Callback.Feeds`), and leave it
alone (`Callback.Spares`). If one subscription feeds it, all others leave it alone, and nobody else
changes it (`World.Secluded`), the window of the topic holds the last samples that were decoded on it
since the subscription, whatever has become of the connection in between (`fed_of_secluded`).
-/

set_option autoImplicit false

namespace LiveMetrics

variable {κ σ : Type} [Callback κ σ]

/-! ## Callbacks that feed windows -/

/-- A callback puts every sample that it takes into the window of its topic. -/
def Callback.Feeds (view : σ → WindowSet Sample) (callback : κ) : Prop :=
  ∀ later, Callback.Evolves callback later → ∀ sample shared,
    view (Callback.call later sample shared).2.1 = (view shared).feedSample sample

/-- A callback leaves the windows alone. -/
def Callback.Spares (view : σ → WindowSet Sample) (callback : κ) : Prop :=
  ∀ later, Callback.Evolves callback later → ∀ sample shared,
    view (Callback.call later sample shared).2.1 = view shared

/-- The callback of one handle feeds the windows, any other one leaves them alone. -/
structure Subscriber.Role (view : σ → WindowSet Sample) (handle : Handle) (s : Subscriber κ) : Prop where
  feeds : s.handle = handle → Callback.Feeds view s.callback
  spares : s.handle ≠ handle → Callback.Spares view s.callback

namespace Registry

variable {view : σ → WindowSet Sample} {r : Registry κ}

/-- What holds of every callback that is registered. -/
def All (P : Subscriber κ → Prop) (r : Registry κ) : Prop := ∀ topic, ∀ s ∈ r.callbacks topic, P s

/-- Calls do not make it false. -/
def Stays (P : Subscriber κ → Prop) : Prop := ∀ s s', Kept s s' → P s → P s'

theorem stays_spares : Stays fun s : Subscriber κ => Callback.Spares view s.callback :=
  fun _ _ kept spares later evolves => spares later (kept.2.trans evolves)

theorem stays_role (handle : Handle) : Stays (Subscriber.Role (κ := κ) view handle) := by
  intro s s' kept role
  exact ⟨fun same later evolves => role.feeds (kept.1.symm.trans same) later (kept.2.trans evolves),
    fun other later evolves =>
      role.spares (fun same => other (kept.1.trans same)) later (kept.2.trans evolves)⟩

namespace All

variable {P : Subscriber κ → Prop}

theorem insert (h : r.All P) {handle : Handle} {callback : κ}
    (new : r.contains handle = false → P ⟨handle, callback⟩) (topic : Topic) :
    (r.insert handle topic callback).1.All P := by
  cases known : r.contains handle with
  | true =>
    rw [insert_known known]
    exact h
  | false =>
    intro t s hs
    rw [callbacks_insert known] at hs
    split at hs
    · rcases List.mem_append.mp hs with hs | hs
      · exact h topic s hs
      · rw [List.mem_singleton.mp hs]
        exact new known
    · exact h t s hs

theorem remove (h : r.All P) (coherent : r.Coherent) (handle : Handle) : (r.remove handle).1.All P := by
  intro t s hs
  rw [coherent.callbacks_remove] at hs
  exact h t s (List.mem_of_mem_filter hs)

theorem kept (h : r.All P) (stays : Stays P) {r' : Registry κ}
    (same : ∀ topic, List.Forall₂ Kept (r.callbacks topic) (r'.callbacks topic)) : r'.All P := by
  intro t s' hs'
  obtain ⟨s, hs, kept⟩ := exists_of_forall₂ (same t) hs'
  exact stays s s' kept (h t s hs)

end All

/-! ## What a frame makes of the windows -/

theorem view_callAll_of_spared {subscribers : List (Subscriber κ)}
    (spared : ∀ s ∈ subscribers, Callback.Spares view s.callback) (sample : Sample) (shared : σ) :
    view (callAll sample subscribers shared).2.1 = view shared := by
  induction subscribers generalizing shared with
  | nil => rfl
  | cons s rest ih =>
    obtain ⟨first, others⟩ := List.forall_mem_cons.mp spared
    exact (ih others _).trans (first _ .refl sample shared)

theorem view_callAll_of_fed {subscribers : List (Subscriber κ)} {handle : Handle}
    (roles : ∀ s ∈ subscribers, s.Role view handle)
    (once : (subscribers.map Subscriber.handle).Nodup)
    (there : handle ∈ subscribers.map Subscriber.handle) (sample : Sample) (shared : σ) :
    view (callAll sample subscribers shared).2.1 = (view shared).feedSample sample := by
  induction subscribers generalizing shared with
  | nil => cases there
  | cons s rest ih =>
    obtain ⟨role, others⟩ := List.forall_mem_cons.mp roles
    obtain ⟨alone, once⟩ := List.nodup_cons.mp once
    by_cases same : s.handle = handle
    · have spared : ∀ s' ∈ rest, Callback.Spares view s'.callback := by
        intro s' hs'
        refine (others s' hs').spares fun he => alone ?_
        rw [same, ← he]
        exact List.mem_map_of_mem hs'
      exact (view_callAll_of_spared spared sample _).trans (role.feeds same _ .refl sample shared)
    · have rest_ := (List.mem_cons.mp there).resolve_left (Ne.symm same)
      exact (ih others once rest_ _).trans
        (congrArg (WindowSet.feedSample · sample) (role.spares same _ .refl sample shared))

/-- What the callbacks share after a frame: those of the topic of its sample have been called. -/
theorem shared_dispatch (r : Registry κ) (limit : Nat) (raw : ByteArray) (receivedAt : Int) (shared : σ) :
    (r.dispatch limit raw receivedAt shared).2.1 =
      match received? limit raw receivedAt with
      | some sample => (callAll sample (r.callbacks sample.topic) shared).2.1
      | none => shared := by
  unfold dispatch received?
  split
  · rfl
  · cases Envelope.decode raw receivedAt with
    | error fault => rfl
    | ok sample =>
      have delivers : (r.deliver sample shared).2.1 =
          (callAll sample (r.callbacks sample.topic) shared).2.1 := by
        unfold deliver callbacks
        cases r.subscribers.lookup sample.topic <;> rfl
      dsimp only [Except.toOption]
      generalize r.deliver sample shared = delivered at delivers ⊢
      obtain ⟨after, shared', delivery⟩ := delivered
      cases delivery <;> exact delivers

end Registry

/-- A script keeps what holds of every callback, if it holds of a new one. -/
theorem Turn.all_script {t : Turn κ σ} {P : Subscriber κ → Prop} (h : t.manager.registry.All P)
    (stays : Registry.Stays P) (coherent : t.manager.registry.Coherent) {message : Message κ}
    (new : ∀ handle topic callback, message = .subscribe handle topic callback →
      t.manager.registry.contains handle = false → P ⟨handle, callback⟩) :
    (t.script message).registry.All P := by
  cases t.script_revises message with
  | edits registry =>
    rw [registry]
    cases message with
    | subscribe handle topic callback => exact h.insert (new handle topic callback rfl) topic
    | unsubscribe handle => exact h.remove coherent handle
    | _ => exact h
  | dispatches asked current brings registry =>
    rw [registry]
    exact h.kept stays fun topic => Registry.kept_dispatch _ _ _ _ topic

namespace World

/-! ## Turns -/

section Handling

variable {w : World κ σ} {letter : Letter κ} {rest : List (Letter κ)}
  {outcomes : Nat → Nat → WriteOutcome}

/-- What the callbacks share after a turn: if it has received a sample, the callbacks of its topic have
been called. -/
theorem shared_handling : (w.handling letter outcomes).shared =
    match (w.handled letter outcomes).sample? w.manager.config.buffers.maxMessage with
    | some sample =>
      (Registry.callAll sample (w.manager.registry.callbacks sample.topic) w.shared).2.1
    | none => w.shared := by
  unfold Handled.sample?
  cases takes : (w.handled letter outcomes).takes? with
  | none => exact (silent_of_left takes).2
  | some frame =>
    rw [Option.bind_some]
    cases brings : frame.payload? with
    | none => exact (silent_of_takes takes brings).2.2
    | some payload =>
      obtain ⟨said, wrote⟩ := w.turn_wrote letter outcomes
      rw [wrote.shared, (script_of_data takes brings).2]
      exact Registry.shared_dispatch _ _ _ _ _

theorem all_handling {P : Subscriber κ → Prop} (h : w.manager.registry.All P) (stays : Registry.Stays P)
    (coherent : w.manager.registry.Coherent)
    (new : ∀ handle topic callback, letter.message = .subscribe handle topic callback →
      w.manager.registry.contains handle = false → P ⟨handle, callback⟩) :
    (w.handling letter outcomes).manager.registry.All P := by
  obtain ⟨said, wrote⟩ := w.turn_wrote letter outcomes
  rw [wrote.registry]
  exact Turn.all_script (t := w.beginning outcomes) h stays coherent new

theorem view_of_spared {view : σ → WindowSet Sample}
    (spared : w.manager.registry.All fun s => Callback.Spares view s.callback) :
    view (w.handling letter outcomes).shared = view w.shared := by
  rw [shared_handling]
  split
  · exact Registry.view_callAll_of_spared (spared _) _ _
  · rfl

theorem view_of_fed (letter : Letter κ) (outcomes : Nat → Nat → WriteOutcome)
    {view : σ → WindowSet Sample} {handle : Handle} {topic : Topic}
    (roles : w.manager.registry.All (Subscriber.Role view handle))
    (coherent : w.manager.registry.Coherent)
    (known : w.manager.registry.index.lookup handle = some topic) :
    view (w.handling letter outcomes).shared =
      match (w.handled letter outcomes).sample? w.manager.config.buffers.maxMessage with
      | some sample =>
        if sample.topic = topic then (view w.shared).feedSample sample else view w.shared
      | none => view w.shared := by
  rw [shared_handling]
  split
  · rename_i sample _
    split <;> rename_i same
    · have there := (coherent.indexed handle topic).mp known
      rw [← same] at there
      exact Registry.view_callAll_of_fed (roles _) (coherent.once _) there sample _
    · refine Registry.view_callAll_of_spared (fun s hs => (roles _ s hs).spares fun he => ?_) sample _
      exact coherent.elsewhere known same (he ▸ List.mem_map_of_mem hs)
  · rfl

end Handling

/-! ## Runs -/

/-- The runs in which nothing but the turns of the manager touches the windows. -/
inductive Secluded (config : Config) (policy : Nat → Verdict) (autoPong : Bool) (shared : σ)
    (view : σ → WindowSet Sample) : World κ σ → Prop where
  | start : Secluded config policy autoPong shared view (.start config policy autoPong shared)
  | step {w w' : World κ σ} (before : Secluded config policy autoPong shared view w) (step : Step w w')
      (apart : w'.history = w.history → view w'.shared = view w.shared) :
      Secluded config policy autoPong shared view w'

section Runs

variable {config : Config} {policy : Nat → Verdict} {autoPong : Bool} {shared : σ}
  {view : σ → WindowSet Sample} {w : World κ σ}

theorem Secluded.run (run : Secluded config policy autoPong shared view w) :
    Run config policy autoPong shared w := by
  induction run with
  | start => exact .start
  | step before step apart ih => exact .step ih step

/-- All subscriptions of a history leave the windows alone. -/
def Sparing (view : σ → WindowSet Sample) (history : List (Handled κ)) : Prop :=
  ∀ r ∈ history, ∀ handle topic callback, r.letter.message = .subscribe handle topic callback →
    Callback.Spares view callback

/-- As long as all callbacks leave the windows alone, they are as they were at first. -/
theorem untouched_of_secluded (run : Secluded config policy autoPong shared view w)
    (sparing : Sparing view w.history) :
    w.manager.registry.All (fun s => Callback.Spares view s.callback) ∧ view w.shared = view shared := by
  induction run with
  | start => exact ⟨fun _ _ hs => (nomatch hs), rfl⟩
  | step before step same ih =>
    rcases step.turn_or_apart with ⟨letter, rest, outcomes, runs, next, rfl⟩ | ⟨letters, apart⟩
    · rw [history_turn] at sparing
      obtain ⟨spared, untouched⟩ := ih fun r hr => sparing r (List.mem_append_left _ hr)
      rw [manager_turn, shared_turn, view_of_spared spared]
      refine ⟨all_handling spared Registry.stays_spares (serves_of_run before.run).coherent ?_, untouched⟩
      intro handle topic callback asked _
      exact sparing _ (List.mem_append_right _ List.mem_cons_self) handle topic callback asked
    · rw [apart.history] at sparing
      rw [apart.manager, same apart.history]
      exact ih sparing

/-- The samples that were decoded on a topic. -/
def samplesOn (limit : Nat) (topic : Topic) (history : List (Handled κ)) : List Sample :=
  (history.filterMap fun r => r.sample? limit).filter fun s => s.topic = topic

theorem samplesOn_append (limit : Nat) (topic : Topic) (past : List (Handled κ)) (r : Handled κ) :
    samplesOn limit topic (past ++ [r]) = samplesOn limit topic past ++
      ((r.sample? limit).filter fun s => s.topic = topic).toList := by
  unfold samplesOn
  rw [List.filterMap_append, List.filter_append]
  congr 1
  cases hr : r.sample? limit with
  | none => simp [hr]
  | some s => by_cases hs : s.topic = topic <;> simp [hr, hs, Option.filter]

/-- What holds of windows that a subscription has fed since it was handled. -/
structure Fed (limit capacity : Nat) (view : σ → WindowSet Sample) (handle : Handle) (topic : Topic)
    (later : List (Handled κ)) (w : World κ σ) : Prop where
  roles : w.manager.registry.All (Subscriber.Role view handle)
  known : w.manager.registry.index.lookup handle = some topic
  even : (view w.shared).Even capacity
  items : (view w.shared).snapshot (.whole topic) = (samplesOn limit topic later).rtake capacity

/-- A subscription feeds the windows from the turn on that handles it. -/
theorem Fed.begins {limit capacity : Nat} {letter : Letter κ} {rest : List (Letter κ)}
    {outcomes : Nat → Nat → WriteOutcome} {handle : Handle} {topic : Topic} {feeder : κ}
    (spared : w.manager.registry.All fun s => Callback.Spares view s.callback)
    (coherent : w.manager.registry.Coherent) (first : view w.shared = .empty capacity)
    (asked : letter.message = .subscribe handle topic feeder)
    (new : w.manager.registry.contains handle = false) (feeds : Callback.Feeds view feeder) :
    Fed limit capacity view handle topic [] (w.turn letter rest outcomes) := by
  have roles : w.manager.registry.All (Subscriber.Role view handle) := by
    refine fun t s hs => ⟨fun same => ?_, fun _ => spared t s hs⟩
    exact absurd (same ▸ List.mem_map_of_mem hs) (coherent.absent new t)
  have windows : view (w.turn letter rest outcomes).shared = .empty capacity := by
    rw [shared_turn, view_of_spared spared, first]
  refine ⟨?_, ?_, ?_, ?_⟩
  · rw [manager_turn]
    refine all_handling roles (Registry.stays_role handle) coherent fun handle' topic' callback he _ => ?_
    obtain ⟨rfl, rfl, rfl⟩ := Message.subscribe.inj (asked.symm.trans he)
    exact ⟨fun _ => feeds, fun other => absurd rfl other⟩
  · rw [manager_turn, index_handling, asked]
    show (if _ then _ else _ : List (Handle × Topic)).lookup handle = _
    rw [Registry.lookup_new new]
    show (_ ++ [(handle, topic)]).lookup handle = _
    rw [List.lookup_append, Registry.lookup_new new, Option.none_or, List.lookup_cons_self]
  · rw [windows]
    exact .empty capacity
  · rw [windows]
    exact (List.rtake_nil capacity).symm

/-- Every other turn adds the sample that it has received, if it is one on the topic. -/
theorem Fed.turn {limit capacity : Nat} {letter : Letter κ} {rest : List (Letter κ)}
    {outcomes : Nat → Nat → WriteOutcome} {handle : Handle} {topic : Topic} {later : List (Handled κ)}
    (fed : Fed limit capacity view handle topic later w) (coherent : w.manager.registry.Coherent)
    (settings : w.manager.config.buffers.maxMessage = limit)
    (spares : ∀ handle topic callback, letter.message = .subscribe handle topic callback →
      Callback.Spares view callback)
    (stays : letter.message ≠ .unsubscribe handle) :
    Fed limit capacity view handle topic (later ++ [w.handled letter outcomes])
      (w.turn letter rest outcomes) := by
  have windows := view_of_fed letter outcomes fed.roles coherent fed.known
  rw [settings] at windows
  refine ⟨?_, ?_, ?_, ?_⟩
  · rw [manager_turn]
    refine all_handling fed.roles (Registry.stays_role handle) coherent fun handle' t callback asked new =>
      ⟨fun same => ?_, fun _ => spares handle' t callback asked⟩
    have known := fed.known
    rw [← show handle' = handle from same, Registry.lookup_new new] at known
    cases known
  · rw [manager_turn, index_handling]
    exact Message.lookup_enters fed.known stays
  · rw [shared_turn, windows]
    split
    · split
      · exact fed.even.push _ _
      · exact fed.even
    · exact fed.even
  · rw [shared_turn, windows, samplesOn_append]
    cases (w.handled letter outcomes).sample? limit with
    | none => simp [fed.items]
    | some sample =>
      by_cases same : sample.topic = topic
      · simp [same, Option.filter, WindowSet.snapshot_feedSample fed.even, fed.items,
          Window.rtake_concat_rtake]
      · simp [same, Option.filter, fed.items]

/-- **A window that a subscription feeds holds the last samples on its topic**: if the subscription is
the only one that feeds the windows, and nothing else changes them, the window of the topic holds the
last samples, up to its capacity, that were decoded on the topic since the subscription was handled, in
the order in which their frames were processed. -/
theorem fed_of_secluded (run : Secluded config policy autoPong shared view w) {capacity : Nat}
    (first : view shared = .empty capacity) {past later : List (Handled κ)} {x : Handled κ}
    (history : w.history = past ++ x :: later) {handle : Handle} {topic : Topic} {feeder : κ}
    (asked : x.letter.message = .subscribe handle topic feeder)
    (new : x.before.registry.contains handle = false) (feeds : Callback.Feeds view feeder)
    (others : Sparing view (past ++ later))
    (stays : ∀ y ∈ later, y.letter.message ≠ .unsubscribe handle) :
    (view w.shared).snapshot (.whole topic) =
      (samplesOn config.buffers.maxMessage topic later).rtake capacity := by
  suffices fed : Fed config.buffers.maxMessage capacity view handle topic later w from fed.items
  induction run generalizing later with
  | start => exact absurd history.symm (List.append_ne_nil_of_right_ne_nil _ nofun)
  | step before step same ih =>
    rcases step.turn_or_apart with ⟨letter, rest, outcomes, runs, next, rfl⟩ | ⟨letters, apart⟩
    · rename_i w
      have coherent := (serves_of_run before.run).coherent
      rw [history_turn] at history
      -- the turn is the one that handles the subscription, or the last one since
      rcases List.eq_nil_or_concat later with rfl | ⟨later', y, rfl⟩
      · obtain ⟨sofar, entry⟩ := List.append_inj' history rfl
        obtain rfl := (List.cons.inj entry).1
        rw [List.append_nil, ← sofar] at others
        obtain ⟨spared, untouched⟩ := untouched_of_secluded before others
        exact Fed.begins spared coherent (untouched.trans first) asked new feeds
      · rw [List.concat_eq_append, ← List.cons_append, ← List.append_assoc] at history
        obtain ⟨sofar, entry⟩ := List.append_inj' history rfl
        obtain rfl := (List.cons.inj entry).1
        rw [List.concat_eq_append] at others stays ⊢
        have fed := ih sofar (fun r hr => others r (by
          rw [← List.append_assoc]
          exact List.mem_append_left _ hr)) fun y hy => stays y (List.mem_append_left _ hy)
        have last : w.handled letter outcomes ∈ later' ++ [w.handled letter outcomes] :=
          List.mem_append_right _ List.mem_cons_self
        exact fed.turn coherent (by rw [(settings_of_run before.run).1])
          (others _ (List.mem_append_right _ last)) (stays _ last)
    · rw [apart.history] at history
      have fed := ih history others stays
      have windows := same apart.history
      exact ⟨apart.manager ▸ fed.roles, apart.manager ▸ fed.known, windows ▸ fed.even,
        windows ▸ fed.items⟩

/-- In plain steps only turns change the windows. -/
theorem Secluded.plains (run : Secluded config policy autoPong shared view w) {w' : World κ σ}
    (steps : Relation.ReflTransGen Plain w w') : Secluded config policy autoPong shared view w' := by
  induction steps with
  | refl => exact run
  | tail steps plain ih => exact .step ih plain.step fun same => congrArg view (plain.still same)

end Runs

/-! ## A listener that keeps samples -/

/-- A listener that keeps samples feeds the windows of samples. -/
theorem feeds_keeping : Callback.Feeds Notebook.samples Listener.keeping := by
  intro later evolves sample shared
  have same : later = Listener.keeping := by
    induction evolves with
    | refl => rfl
    | call before sample shared ih => rw [ih]; rfl
  rw [same]
  rfl

/-- Any other listener leaves the windows of samples alone. -/
theorem spares_of_ne {listener : Listener} (other : listener ≠ .keeping) :
    Callback.Spares Notebook.samples listener := by
  intro later evolves sample shared
  have other_ : later ≠ .keeping := by
    induction evolves with
    | refl => exact other
    | @call before evolves sample shared ih =>
      intro he
      cases before with
      | keeping => exact ih rfl
      | _ => cases he
  show (later.react sample shared).1.samples = shared.samples
  have typed : ∀ {α : Type} [Payload α] (note : α → Note),
      (Listener.typed note sample shared).1.samples = shared.samples := by
    intro α _ note
    unfold Listener.typed
    split <;> rfl
  cases later with
  | keeping => exact absurd rfl other_
  | scenario tag | workers tag | alerts tag => exact typed _
  | _ => rfl

/-- A subscription that keeps the samples of alerts. -/
def keepingLetter : Letter Listener := ⟨none, .subscribe ⟨1⟩ .alerts .keeping⟩

/-- Another listener has subscribed to alerts, and this subscription has been asked for after that. -/
def keepingRequested : World Listener Notebook := subscribedOnline.post none keepingLetter.message

def keepingEntry : Handled Listener := keepingRequested.handled keepingLetter fun _ _ => .done

/-- The subscription has been handled, and an alert has come after that. -/
def alertToKeep : World Listener Notebook :=
  (keepingRequested.turn keepingLetter [] fun _ _ => .done).arrived alertFrame

def alertToKeepEntry : Handled Listener :=
  alertToKeep.handled ⟨some 1, .inbound 1 alertFrame⟩ fun _ _ => .done

def alertKept : World Listener Notebook :=
  alertToKeep.turn ⟨some 1, .inbound 1 alertFrame⟩ [] fun _ _ => .done

theorem secluded_alertKept :
    Secluded .default (fun _ => .giveUp) true (.empty 20) Notebook.samples alertKept := by
  have opens : Secluded .default (fun _ => .giveUp) true (.empty 20) Notebook.samples defaultOpen :=
    Secluded.start.plains (plains_connectionOpen ..)
  have subscribes :
      Secluded .default (fun _ => .giveUp) true (.empty 20) Notebook.samples subscribedOnline :=
    (opens.step (.asks rfl) fun _ => rfl).plains (.single (.turn rfl rfl _))
  have comes : Secluded .default (fun _ => .giveUp) true (.empty 20) Notebook.samples alertToKeep :=
    ((subscribes.step (.asks rfl) fun _ => rfl).plains (.single (.turn rfl rfl _))).plains
      (plains_arrived rfl ⟨_, rfl, rfl, rfl⟩ rfl rfl rfl _)
  exact comes.plains (.single (.turn rfl rfl _))

/-- A history in which the other listeners do not keep samples spares the windows. -/
theorem sparing_of_ne {history : List (Handled Listener)}
    (other : ∀ r ∈ history, ∀ handle topic, r.letter.message ≠ .subscribe handle topic .keeping) :
    Sparing Notebook.samples history := by
  intro r hr handle topic callback asked
  exact spares_of_ne fun keeping => other r hr handle topic (keeping ▸ asked)

/-- The case of a listener that keeps samples beside one that does not, and of one alert. -/
theorem fed_alertKept :
    (Secluded .default (fun _ => .giveUp) true (.empty 20) Notebook.samples alertKept ∧
      (Notebook.empty 20).samples = .empty 20 ∧
      alertKept.history = subscribedOnline.history ++ keepingEntry :: [alertToKeepEntry] ∧
      keepingEntry.letter.message = .subscribe ⟨1⟩ .alerts .keeping ∧
      keepingEntry.before.registry.contains ⟨1⟩ = false ∧
      Callback.Feeds Notebook.samples Listener.keeping ∧
      Sparing Notebook.samples (subscribedOnline.history ++ [alertToKeepEntry]) ∧
      ∀ y ∈ [alertToKeepEntry], y.letter.message ≠ .unsubscribe ⟨1⟩) ∧
    (alertKept.shared.samples.snapshot (.whole .alerts)).length = 1 := by
  have history : alertKept.history =
      subscribedOnline.history ++ keepingEntry :: [alertToKeepEntry] := by
    have came : alertToKeep.history = subscribedOnline.history ++ [keepingEntry] := rfl
    unfold alertKept
    rw [history_turn, came, List.append_assoc]
    rfl
  have others : Sparing Notebook.samples (subscribedOnline.history ++ [alertToKeepEntry]) := by
    refine sparing_of_ne fun r hr handle topic asked => ?_
    have messages : (subscribedOnline.history ++ [alertToKeepEntry]).map (fun r => r.letter.message) =
        [.connect "ws://localhost" none, .opened 1 0,
          .subscribe ⟨0⟩ .alerts (.recording "alerts"), .inbound 1 alertFrame] := rfl
    have there := List.mem_map_of_mem (f := fun r => r.letter.message) hr
    rw [messages, asked] at there
    simp at there
  have stays : ∀ y ∈ [alertToKeepEntry], y.letter.message ≠ .unsubscribe ⟨1⟩ := by
    intro y hy leaves
    rw [List.mem_singleton.mp hy] at leaves
    cases leaves
  have one : ((samplesOn Config.default.buffers.maxMessage .alerts [alertToKeepEntry]).rtake 20).length =
      1 := by decide +kernel
  refine ⟨⟨secluded_alertKept, rfl, history, rfl, rfl, feeds_keeping, others, stays⟩, ?_⟩
  rw [fed_of_secluded secluded_alertKept rfl history rfl rfl feeds_keeping others stays]
  exact one

end World

end LiveMetrics
