import LiveMetrics.Proofs.Connection.Taking
import LiveMetrics.Proofs.Subscription.Delivery

/-!
# Who is called for a frame

The subscriptions that are alive after a history (`live`) are those that have been handled and have
not been given up since (`mem_live`). If no handle comes twice the registry holds exactly these, each
topic in the order in which they were handled, and each with the callback that came with it, as its
calls have left it (`mirrors_of_run`).

So an entry that takes a data frame with a sample (`Handled.Receives`) calls the callbacks whose
subscriptions to the topic are alive, and no other entry calls any (`delivers`). Each call is one of the
callback as the registry has held it, with what the calls before it have left of what is shared
(`Turned.taken`).
-/

set_option autoImplicit false

namespace LiveMetrics

namespace Message

variable {κ : Type}

/-- The handle that a message registers. -/
def handle? : Message κ → Option Handle
  | .subscribe handle _ _ => some handle
  | _ => none

/-- What a message makes of the subscriptions that are alive. -/
def enrols (live : List (Registration κ)) : Message κ → List (Registration κ)
  | .subscribe handle topic callback => live ++ [⟨handle, topic, callback⟩]
  | .unsubscribe handle => live.filter fun s => s.handle ≠ handle
  | _ => live

/-- The handles that are alive come in the order in which they were registered. -/
theorem handles_enrols {live : List (Registration κ)} {handles : List Handle}
    (h : (live.map Registration.handle).Sublist handles) (message : Message κ) :
    ((message.enrols live).map Registration.handle).Sublist (handles ++ message.handle?.toList) := by
  cases message with
  | subscribe handle topic callback =>
    show ((live ++ [_]).map Registration.handle).Sublist _
    rw [List.map_append]
    exact h.append (List.Sublist.refl _)
  | unsubscribe handle =>
    show ((live.filter _).map Registration.handle).Sublist (handles ++ [])
    rw [List.append_nil]
    exact (List.filter_sublist.map _).trans h
  | _ => exact (List.append_nil handles).symm ▸ h

end Message

/-! ## What a turn makes of the subscriptions -/

/-- **A script keeps the mirror**, if the handle of a subscription is new. -/
theorem Turn.mirrors_script {κ σ : Type} [Callback κ σ] {t : Turn κ σ} {live : List (Registration κ)}
    (h : t.manager.registry.Mirrors live) (coherent : t.manager.registry.Coherent) {message : Message κ}
    (new : ∀ handle, message.handle? = some handle → t.manager.registry.contains handle = false) :
    (t.script message).registry.Mirrors (message.enrols live) := by
  cases t.script_revises message with
  | edits registry =>
    rw [registry]
    cases message with
    | subscribe handle topic callback => exact h.insert (new handle rfl) topic callback
    | unsubscribe handle => exact h.remove coherent handle
    | _ => exact h
  | dispatches asked current brings registry =>
    rw [registry, asked]
    exact h.kept fun topic => Registry.kept_dispatch _ _ _ _ topic

/-- A script leaves the subscriptions alone, unless it is one for a subscription or the end of one. -/
theorem Turn.same_script {κ σ : Type} [Callback κ σ] {t : Turn κ σ} {message : Message κ}
    (quiet : message.handle? = none) (leaves : ∀ handle, message ≠ .unsubscribe handle) :
    t.manager.registry.Same (t.script message).registry := by
  cases t.script_revises message with
  | edits registry =>
    rw [registry]
    cases message with
    | subscribe handle topic callback => cases quiet
    | unsubscribe handle => exact absurd rfl (leaves _)
    | _ => exact .refl _
  | dispatches asked current brings registry => exact registry ▸ Registry.same_dispatch _ _ _ _

namespace World

variable {κ σ : Type}

/-! ## Subscriptions that are alive -/

/-- The subscriptions that are alive after a history, in the order in which they were handled. -/
def live (history : List (Handled κ)) : List (Registration κ) :=
  history.foldl (fun live r => r.letter.message.enrols live) []

theorem live_append (past : List (Handled κ)) (r : Handled κ) :
    live (past ++ [r]) = r.letter.message.enrols (live past) := by
  unfold live
  rw [List.foldl_append]
  rfl

/-- A subscription has been handled and has not been given up since. -/
def Subscribed (history : List (Handled κ)) (s : Registration κ) : Prop :=
  ∃ past x later, history = past ++ x :: later ∧
    x.letter.message = .subscribe s.handle s.topic s.callback ∧
    ∀ y ∈ later, y.letter.message ≠ .unsubscribe s.handle

/-- An entry keeps a subscription unless it gives it up, and adds its own. -/
theorem subscribed_append {past : List (Handled κ)} {r : Handled κ} {s : Registration κ} :
    Subscribed (past ++ [r]) s ↔
      (Subscribed past s ∧ r.letter.message ≠ .unsubscribe s.handle) ∨
        r.letter.message = .subscribe s.handle s.topic s.callback := by
  constructor
  · rintro ⟨first, x, later, he, asked, kept⟩
    rcases List.eq_nil_or_concat later with rfl | ⟨later', y, rfl⟩
    · obtain ⟨-, hr⟩ := List.append_inj' he rfl
      exact .inr ((List.cons.inj hr).1 ▸ asked)
    · rw [List.concat_eq_append, ← List.cons_append, ← List.append_assoc] at he
      obtain ⟨hp, hr⟩ := List.append_inj' he rfl
      refine .inl ⟨⟨first, x, later', hp, asked, fun z hz => kept z (by simp [hz])⟩, ?_⟩
      exact (List.cons.inj hr).1 ▸ kept y (by simp)
  · rintro (⟨⟨first, x, later, rfl, asked, kept⟩, stays⟩ | asked)
    · refine ⟨first, x, later ++ [r], by simp, asked, fun y hy => ?_⟩
      rcases List.mem_append.mp hy with hy | hy
      · exact kept y hy
      · exact List.mem_singleton.mp hy ▸ stays
    · exact ⟨past, r, [], rfl, asked, List.forall_mem_nil _⟩

/-- **The subscriptions that are alive** are those that have been handled and not given up since. -/
theorem mem_live {history : List (Handled κ)} {s : Registration κ} :
    s ∈ live history ↔ Subscribed history s := by
  induction history using List.reverseRecOn with
  | nil => exact ⟨nofun, fun ⟨_, _, _, he, _⟩ => absurd he (by simp)⟩
  | append_singleton past r ih =>
    rw [live_append, subscribed_append, ← ih]
    generalize r.letter.message = message
    cases message with
    | subscribe handle topic callback =>
      show s ∈ live past ++ [⟨handle, topic, callback⟩] ↔ _
      rw [List.mem_append, List.mem_singleton]
      refine or_congr ⟨fun h => ⟨h, nofun⟩, And.left⟩ ⟨?_, fun he => ?_⟩
      · rintro rfl
        rfl
      · obtain ⟨rfl, rfl, rfl⟩ := Message.subscribe.inj he
        rfl
    | unsubscribe handle =>
      show s ∈ (live past).filter _ ↔ _
      rw [List.mem_filter, decide_eq_true_iff]
      constructor
      · exact fun ⟨h, stays⟩ => .inl ⟨h, fun he => stays (Message.unsubscribe.inj he).symm⟩
      · rintro (⟨h, stays⟩ | asked)
        · exact ⟨h, fun he => stays (congrArg Message.unsubscribe he.symm)⟩
        · cases asked
    | _ => exact ⟨fun h => .inl ⟨h, nofun⟩, fun h => h.elim And.left nofun⟩

/-- The handles of the subscriptions among letters. -/
def enrolled (letters : List (Letter κ)) : List Handle :=
  letters.filterMap fun letter => letter.message.handle?

theorem enrolled_append (first rest : List (Letter κ)) :
    enrolled (first ++ rest) = enrolled first ++ enrolled rest := List.filterMap_append

/-- What is alive stands in the order in which it was handled. -/
theorem handles_live (history : List (Handled κ)) :
    ((live history).map Registration.handle).Sublist (enrolled (history.map Handled.letter)) := by
  induction history using List.reverseRecOn with
  | nil => exact .slnil
  | append_singleton past r ih =>
    have one : enrolled ([r].map Handled.letter) = r.letter.message.handle?.toList := by
      show [r.letter].filterMap _ = _
      cases hm : r.letter.message.handle? <;> simp [hm]
    rw [live_append, List.map_append, enrolled_append, one]
    exact Message.handles_enrols ih _

namespace Handled

/-- The handles whose callbacks were called, in order. -/
def invoked (r : Handled κ) : List Handle := r.outcomes.flatMap Outcome.called

/-- An entry takes a data frame of at most `limit` bytes from the open connection, and the frame is
that sample. -/
def Receives (r : Handled κ) (limit : Nat) (sample : Sample) : Prop :=
  ∃ frame payload, r.takes? = some frame ∧ frame.payload? = some payload ∧ payload.size ≤ limit ∧
    Envelope.decode payload (r.now / nanosPerMilli) = .ok sample

/-- The sample in the data frame that it takes from the open connection. -/
def sample? (r : Handled κ) (limit : Nat) : Option Sample :=
  (r.takes?.bind Frame.payload?).bind fun payload => received? limit payload (r.now / nanosPerMilli)

theorem receives_iff {r : Handled κ} {limit : Nat} {sample : Sample} :
    r.Receives limit sample ↔ r.sample? limit = some sample := by
  unfold Receives sample?
  simp only [Option.bind_eq_some_iff, received?_eq_some]
  constructor
  · exact fun ⟨frame, payload, takes, brings, decodes⟩ => ⟨payload, ⟨frame, takes, brings⟩, decodes⟩
  · exact fun ⟨payload, ⟨frame, takes, brings⟩, decodes⟩ => ⟨frame, payload, takes, brings, decodes⟩

end Handled

theorem invoked_handled [Callback κ σ] (w : World κ σ) (letter : Letter κ)
    (outcomes : Nat → Nat → WriteOutcome) : (w.handled letter outcomes).invoked =
      (((w.handled letter outcomes).sample? w.manager.config.buffers.maxMessage).map fun sample =>
        w.manager.registry.handlesOn sample.topic).getD [] := by
  unfold Handled.invoked Handled.sample?
  rw [outcomes_handled]
  cases (w.handled letter outcomes).takes?.bind Frame.payload? with
  | none => rfl
  | some payload =>
    show [_].flatMap Outcome.called = _
    rw [List.flatMap_singleton]
    exact Registry.called_dispatch _ payload _ _

theorem Handled.invoked_eq (r : Handled κ) : r.invoked = r.calls.map Invocation.handle := by
  unfold invoked calls
  rw [List.map_flatMap]
  congr 1
  funext outcome
  cases outcome <;> rfl

/-- What subscribers can rely on at an entry that comes after `past`: who is called, in which order and
how often, what the calls do, and what becomes of the subscriptions. What the callbacks share is `shared`
before the entry and `shared'` after it. -/
structure Delivers [Callback κ σ] (limit : Nat) (past : List (Handled κ)) (r : Handled κ)
    (shared shared' : σ) : Prop where
  called : ∀ handle, handle ∈ r.invoked ↔
    ∃ sample callback, r.Receives limit sample ∧ Subscribed past ⟨handle, sample.topic, callback⟩
  once : r.invoked.Nodup
  order : r.invoked.Sublist (enrolled (past.map Handled.letter))
  /-- The callbacks that are held for the topic take the sample one after the other; each finds what is
  shared as the one before has left it, and is left as its own call has made it. -/
  taken : ∀ sample, r.Receives limit sample → ∃ calls,
    Registry.Taken sample (r.before.registry.callbacks sample.topic) shared calls
      (r.after.registry.callbacks sample.topic) shared' ∧
    r.calls = calls.map Registry.Call.invocation ∧ r.invoked = calls.map (·.subscriber.handle)
  /-- Without a sample nobody is called. -/
  silent : (∀ sample, ¬ r.Receives limit sample) → r.calls = [] ∧ shared' = shared
  /-- A callback that is held is the one that came with its handle. -/
  callbacks : ∀ topic, ∀ s ∈ r.before.registry.callbacks topic, ∃ callback,
    Subscribed past ⟨s.handle, topic, callback⟩ ∧ Callback.Evolves callback s.callback
  /-- A handle that is registered has not been there. -/
  new : ∀ handle, r.letter.message.handle? = some handle → r.before.registry.contains handle = false
  /-- Any other entry leaves the subscriptions alone. -/
  kept : r.letter.message.handle? = none → (∀ handle, r.letter.message ≠ .unsubscribe handle) →
    r.before.registry.Same r.after.registry

/-! ## The registry of a run -/

section Runs

variable [Callback κ σ] {config : Config} {policy : Nat → Verdict} {autoPong : Bool} {shared : σ}

/-- The callbacks of a topic are those that came with the subscriptions that are alive. -/
theorem held_of_mirrors {history : List (Handled κ)} {registry : Registry κ}
    (mirrors : registry.Mirrors (live history)) {topic : Topic} {held : Subscriber κ}
    (hs : held ∈ registry.callbacks topic) : ∃ callback,
      Subscribed history ⟨held.handle, topic, callback⟩ ∧ Callback.Evolves callback held.callback := by
  obtain ⟨s, hs, bears⟩ := exists_of_forall₂ (mirrors topic) hs
  obtain ⟨alive, ht⟩ := List.mem_filter.mp hs
  have same : s = ⟨held.handle, topic, s.callback⟩ := by
    rw [bears.1, ← of_decide_eq_true ht]
  exact ⟨s.callback, same ▸ mem_live.mp alive, bears.2⟩

theorem mem_handlesOn_of_mirrors {history : List (Handled κ)} {registry : Registry κ}
    (mirrors : registry.Mirrors (live history)) {topic : Topic} {handle : Handle} :
    handle ∈ registry.handlesOn topic ↔ ∃ callback, Subscribed history ⟨handle, topic, callback⟩ := by
  constructor
  · intro hm
    obtain ⟨held, hs, rfl⟩ := List.mem_map.mp hm
    obtain ⟨callback, subscribed, -⟩ := held_of_mirrors mirrors hs
    exact ⟨callback, subscribed⟩
  · rintro ⟨callback, subscribed⟩
    rw [mirrors.handlesOn]
    refine List.mem_map.mpr ⟨_, List.mem_filter.mpr ⟨mem_live.mpr subscribed, ?_⟩, rfl⟩
    exact decide_eq_true rfl

theorem unknown_of_new {history : List (Handled κ)} {registry : Registry κ}
    (mirrors : registry.Mirrors (live history)) (coherent : registry.Coherent) {handle : Handle}
    (new : handle ∉ enrolled (history.map Handled.letter)) : registry.contains handle = false := by
  refine Bool.eq_false_iff.mpr fun known => new ?_
  obtain ⟨topic, hl⟩ := Option.isSome_iff_exists.mp known
  have held := (coherent.indexed handle topic).mp hl
  rw [mirrors.handlesOn] at held
  exact (handles_live history).subset ((List.filter_sublist.map _).subset held)

/-- The handle of a subscription that is handled is unknown, if no handle comes twice. -/
theorem unknown_of_distinct {w : World κ σ} (mirrors : w.manager.registry.Mirrors (live w.history))
    (coherent : w.manager.registry.Coherent) {letter : Letter κ}
    (distinct : (enrolled (w.history.map Handled.letter ++ [letter])).Nodup) {handle : Handle}
    (registers : letter.message.handle? = some handle) :
    w.manager.registry.contains handle = false := by
  refine unknown_of_new mirrors coherent fun hm => ?_
  have one : enrolled [letter] = [handle] := List.filterMap_cons_some registers
  rw [enrolled_append, one] at distinct
  exact (List.disjoint_of_nodup_append distinct) hm (List.mem_singleton_self _)

/-- **The registry mirrors the history**, if no handle comes twice. -/
theorem mirrors_of_run {w : World κ σ} (run : Run config policy autoPong shared w)
    (distinct : (enrolled (w.history.map Handled.letter)).Nodup) :
    w.manager.registry.Mirrors (live w.history) := by
  induction run with
  | start => exact fun _ => .nil
  | step before step ih =>
    rename_i w w'
    rcases step.turn_or_apart with ⟨letter, rest, outcomes, runs, next, rfl⟩ | ⟨letters, apart⟩
    · rw [history_turn] at distinct ⊢
      rw [List.map_append] at distinct
      have coherent := (serves_of_run before).coherent
      have mirrors := ih (by
        rw [enrolled_append] at distinct
        exact distinct.of_append_left)
      obtain ⟨said, wrote⟩ := w.turn_wrote letter outcomes
      rw [manager_turn, wrote.registry, live_append]
      exact Turn.mirrors_script (t := w.beginning outcomes) mirrors coherent fun handle registers =>
        unknown_of_distinct mirrors coherent distinct registers
    · rw [apart.manager, apart.history]
      rw [apart.history] at distinct
      exact ih distinct

section Entry

variable {w w₀ w₁ : World κ σ} {past : List (Handled κ)} {r : Handled κ}

/-- A sample is taken by the callbacks that are held for its topic. -/
theorem Turned.taken (turned : Turned w₀ w₁ w past r) (run : Run config policy autoPong shared w₀)
    {sample : Sample} (receives : r.Receives config.buffers.maxMessage sample) : ∃ calls,
      Registry.Taken sample (r.before.registry.callbacks sample.topic) w₀.shared calls
        (r.after.registry.callbacks sample.topic) w₁.shared ∧
      r.calls = calls.map Registry.Call.invocation ∧ r.invoked = calls.map (·.subscriber.handle) := by
  obtain ⟨frame, payload, takes, brings, fits, decoded⟩ := receives
  obtain ⟨calls, outcome, outcomes, dispatches⟩ :=
    (turned.processes run takes).dispatched payload brings
  have settings : r.before.config = config :=
    (congrArg Manager.config turned.began.before).trans (settings_of_run run).1
  have noted : r.calls = calls.map Registry.Call.invocation := by
    unfold Handled.calls
    rw [outcomes, List.flatMap_singleton, dispatches.noted]
  refine ⟨calls, dispatches.taken sample (settings ▸ fits) decoded, noted, ?_⟩
  rw [Handled.invoked_eq, noted, List.map_map]
  rfl

theorem Turned.silent (turned : Turned w₀ w₁ w past r) (run : Run config policy autoPong shared w₀)
    (none_ : ∀ sample, ¬ r.Receives config.buffers.maxMessage sample) :
    r.calls = [] ∧ w₁.shared = w₀.shared := by
  have uncalled : r.outcomes = [] → r.calls = [] := fun none_ => by
    unfold Handled.calls
    rw [none_]
    rfl
  cases takes : r.takes? with
  | none => exact (turned.leaves takes).silent.imp_left uncalled
  | some frame =>
    have processes := turned.processes run takes
    cases brings : frame.payload? with
    | none => exact ⟨uncalled (processes.silent brings).1, (processes.silent brings).2.2⟩
    | some payload =>
      obtain ⟨calls, outcome, outcomes, dispatches⟩ := processes.dispatched payload brings
      have settings : r.before.config = config :=
        (congrArg Manager.config turned.began.before).trans (settings_of_run run).1
      obtain ⟨nobody, -, still⟩ := dispatches.silent fun topic delivery delivered => by
        obtain ⟨fits, sample, decoded, -⟩ := (dispatches.delivered topic).mp ⟨delivery, delivered⟩
        exact none_ sample ⟨frame, payload, takes, brings, settings ▸ fits, decoded⟩
      refine ⟨?_, still⟩
      unfold Handled.calls
      rw [outcomes, List.flatMap_singleton, dispatches.noted, nobody]
      rfl

end Entry

/-- **Who is called in a run**, if no handle comes twice. -/
theorem delivers {w : World κ σ} (run : Run config policy autoPong shared w)
    (distinct : (enrolled (w.history.map Handled.letter)).Nodup) {past later : List (Handled κ)}
    {r : Handled κ} (history : w.history = past ++ r :: later) :
    ∃ w₀ w₁, Run config policy autoPong shared w₀ ∧ Turned w₀ w₁ w past r ∧
      Delivers config.buffers.maxMessage past r w₀.shared w₁.shared := by
  obtain ⟨w₀, w₁, run₀, turned⟩ := run.turned history
  refine ⟨w₀, w₁, run₀, turned, ?_⟩
  have taken := fun sample (receives : r.Receives _ sample) => turned.taken run₀ receives
  have silent := turned.silent run₀
  obtain ⟨letter, outcomes, rfl⟩ := turned.began.is_handled
  obtain rfl := turned.past
  have coherent := (serves_of_run run₀).coherent
  have settings : w₀.manager.config = config := (settings_of_run run₀).1
  have sofar : (enrolled (w₀.history.map Handled.letter ++ [letter])).Nodup := by
    rw [history, List.map_append, List.map_cons, List.append_cons, enrolled_append] at distinct
    exact distinct.of_append_left
  have mirrors : w₀.manager.registry.Mirrors (live w₀.history) := by
    refine mirrors_of_run run₀ ?_
    rw [enrolled_append] at sofar
    exact sofar.of_append_left
  have invoked := invoked_handled w₀ letter outcomes
  rw [settings] at invoked
  -- nobody is called without a sample; with one, those that the registry holds for its topic
  refine ⟨fun handle => ?_, ?_, ?_, taken, silent, fun topic s hs => held_of_mirrors mirrors hs,
    fun handle registers => unknown_of_distinct mirrors coherent sofar registers, ?_⟩
  · rw [invoked]
    simp only [Handled.receives_iff]
    cases (w₀.handled letter outcomes).sample? config.buffers.maxMessage with
    | none => exact ⟨nofun, fun ⟨_, _, received, _⟩ => nomatch received⟩
    | some sample =>
      rw [Option.map_some, Option.getD_some, mem_handlesOn_of_mirrors mirrors]
      constructor
      · exact fun ⟨callback, subscribed⟩ => ⟨sample, callback, rfl, subscribed⟩
      · rintro ⟨_, callback, ⟨⟩, subscribed⟩
        exact ⟨callback, subscribed⟩
  · rw [invoked]
    cases (w₀.handled letter outcomes).sample? config.buffers.maxMessage with
    | none => exact .nil
    | some sample => exact coherent.once sample.topic
  · rw [invoked]
    cases (w₀.handled letter outcomes).sample? config.buffers.maxMessage with
    | none => exact List.nil_sublist _
    | some sample =>
      rw [Option.map_some, Option.getD_some, mirrors.handlesOn]
      exact (List.filter_sublist.map _).trans (handles_live w₀.history)
  · intro quiet leaves
    obtain ⟨said, wrote⟩ := w₀.turn_wrote letter outcomes
    show w₀.manager.registry.Same (w₀.handling letter outcomes).manager.registry
    rw [wrote.registry]
    exact Turn.same_script (t := w₀.beginning outcomes) quiet leaves

end Runs

end World

end LiveMetrics
