import LiveMetrics.Proofs.Connection.Ownership

/-!
# State and resources

What every turn keeps of the state of a connection and of what is held for it. Two things are kept
by every course, wherever it begins:

* `Holding.Placed`: what is held are tasks that go on (`Course.placed`);
* `Holding.Awaits`: unless things stay as they are, what is to end the state after the turn has just
  been started (`Course.awaits`).

Three more are kept by a course that begins well (`Course.Begins`), as long as generations do not
come round:

* `Holding.Agrees`: which resources are there in which state (`Course.settled`); a manager that
  stops lets go of everything (`Holding.Released`);
* `Holding.Owns`: every task that may still report is held or was aborted (`Course.owns`);
* `Holding.Outdates`: a task that was aborted and may still report bears an old generation
  (`Course.outdates`).
-/

set_option autoImplicit false

namespace LiveMetrics

open World (Job)

theorem generation_succ_ne (g : UInt64) : g + 1 ≠ g := by
  intro h
  have hn := congrArg UInt64.toNat h
  rw [UInt64.toNat_add] at hn
  have hg := g.toNat_lt
  have h1 : (1 : UInt64).toNat = 1 := rfl
  omega

namespace Holding

/-- Which resources are there in which state. -/
structure Agrees (c : Holding) : Prop where
  opening : c.openTask.isSome = true ↔ c.state = .connecting
  writing : c.writer.isSome = true ↔ c.state = .connected
  reading : c.readerTask.isSome = true ↔ c.state = .connected
  ticking : c.heartbeatTask.isSome = true ↔ c.state = .connected
  counted : c.connectedAt.isSome = true ↔ c.state = .connected
  retrying : c.retryTask.isSome = true ↔ c.state = .reconnecting
  target : c.state ≠ .disconnected → c.endpoint.isSome = true
  rested : c.state = .disconnected ∨ c.state = .connected → c.attempt = 0
  tried : c.state = .reconnecting ∨ c.state = .failed → 1 ≤ c.attempt

/-- Nothing is held. -/
structure Released (c : Holding) : Prop where
  tasks : ∀ s, c.slot s = none
  writer : c.writer = none
  connectedAt : c.connectedAt = none

/-- What a turn ends with: the manager has stopped and let go of everything, or it goes on in
agreement. -/
inductive Settled (c c' : Holding) : Prop where
  | stopped (stopped : c'.stopped = true) (released : c'.Released)
  | agrees (same : c'.stopped = c.stopped) (agrees : c'.Agrees)

section Agreement

variable {c : Holding}

theorem Settled.of_same {d c' : Holding} (h : Settled d c') (same : d.stopped = c.stopped) :
    Settled c c' := by
  cases h with
  | stopped hs hr => exact .stopped hs hr
  | agrees hs ha => exact .agrees (hs.trans same) ha

/-! ## Agreement -/

theorem Agrees.none_of {c : Holding} {task : Option Nat} {state : ConnectionState}
    (h : task.isSome = true ↔ c.state = state) (hs : c.state ≠ state) : task = none :=
  Option.not_isSome_iff_eq_none.mp fun ht => hs (h.mp ht)

/-- In a state without a connection and without an attempt at one, a retry at most is held. -/
theorem Agrees.apart (h : c.Agrees) (hs : c.state ≠ .connecting) (hs' : c.state ≠ .connected) :
    (∀ s, s ≠ .retrying → c.slot s = none) ∧ c.writer = none ∧ c.connectedAt = none := by
  refine ⟨fun s hr => ?_, Agrees.none_of h.writing hs', Agrees.none_of h.counted hs'⟩
  cases s with
  | opening => exact Agrees.none_of h.opening hs
  | reading => exact Agrees.none_of h.reading hs'
  | ticking => exact Agrees.none_of h.ticking hs'
  | retrying => exact absurd rfl hr

/-- In a state in which no retry is planned either, nothing is held. -/
theorem Agrees.released (h : c.Agrees) (hs : c.state = .disconnected ∨ c.state = .failed) :
    c.Released := by
  have ne : ∀ state, state ≠ .disconnected → state ≠ .failed → c.state ≠ state := by
    intro state hd hf he
    rcases hs with hs | hs
    · exact hd (he.symm.trans hs)
    · exact hf (he.symm.trans hs)
  obtain ⟨ht, hw, ha⟩ := h.apart (ne _ nofun nofun) (ne _ nofun nofun)
  refine ⟨fun s => ?_, hw, ha⟩
  by_cases hr : s = .retrying
  · rw [hr]; exact Agrees.none_of h.retrying (ne _ nofun nofun)
  · exact ht s hr

theorem Agrees.released_put (h : c.Agrees) (hs : c.state = .reconnecting) :
    { c with retryTask := none : Holding }.Released := by
  obtain ⟨ht, hw, ha⟩ := h.apart (by rw [hs]; nofun) (by rw [hs]; nofun)
  refine ⟨fun s => ?_, hw, ha⟩
  cases s with
  | retrying => rfl
  | opening => exact ht .opening nofun
  | reading => exact ht .reading nofun
  | ticking => exact ht .ticking nofun

theorem Agrees.slot_of_connecting (h : c.Agrees) (hs : c.state = .connecting) {s : Slot} {n : Nat}
    (held : c.slot s = some n) : s = .opening := by
  have hu : c.state ≠ .connected := by rw [hs]; nofun
  have hr : c.state ≠ .reconnecting := by rw [hs]; nofun
  cases s with
  | opening => rfl
  | reading => exact nomatch held.symm.trans (Agrees.none_of h.reading hu)
  | ticking => exact nomatch held.symm.trans (Agrees.none_of h.ticking hu)
  | retrying => exact nomatch held.symm.trans (Agrees.none_of h.retrying hr)

theorem released_halt (c : Holding) : c.halt.Released :=
  ⟨fun s => by cases s <;> rfl, rfl, rfl⟩

theorem settled_halt (c : Holding) : Settled c c.halt := .stopped rfl c.released_halt

theorem absent_iff {α : Type} {o : Option α} {p : Prop} (ho : o = none) (hp : ¬ p) :
    o.isSome = true ↔ p := by
  subst ho
  exact ⟨nofun, fun h => absurd h hp⟩

theorem released_teardown (still : c.retryTask = none) : c.teardown.Released := by
  refine ⟨fun s => ?_, rfl, rfl⟩
  rw [slot_teardown]
  split
  · exact still
  · rfl

theorem released_lose (still : c.retryTask = none) : c.lose.Released := by
  obtain ⟨ht, hw, ha⟩ := released_teardown still
  exact ⟨ht, hw, ha⟩

theorem one_le_attempt_lose (c : Holding) : 1 ≤ c.lose.attempt := by
  show 1 ≤ min (c.attempt + 1) Manager.maxAttempt
  have hm : 1 ≤ Manager.maxAttempt := by decide
  omega

theorem settled_obey (released : c.Released) (target : c.endpoint.isSome = true)
    (tried : 1 ≤ c.attempt) (v : Verdict) : Settled c (c.obey v) := by
  have ho := released.tasks .opening
  have hr := released.tasks .reading
  have ht := released.tasks .ticking
  have hy := released.tasks .retrying
  cases v with
  | broken reason => exact settled_halt c
  | giveUp =>
    refine .agrees rfl ⟨absent_iff ho nofun, absent_iff released.writer nofun, absent_iff hr nofun,
      absent_iff ht nofun, absent_iff released.connectedAt nofun, absent_iff hy nofun,
      fun _ => target, ?_, fun _ => tried⟩
    rintro (h | h) <;> cases h
  | wait delay =>
    refine .agrees rfl ⟨absent_iff ho nofun, absent_iff released.writer nofun, absent_iff hr nofun,
      absent_iff ht nofun, absent_iff released.connectedAt nofun, ⟨fun _ => rfl, fun _ => rfl⟩,
      fun _ => target, ?_, fun _ => tried⟩
    rintro (h | h) <;> cases h

theorem settled_fail (still : c.retryTask = none) (target : c.endpoint.isSome = true)
    (policy : Nat → Verdict) : Settled c (c.fail policy) := by
  have ht : c.lose.endpoint.isSome = true := by simpa only [lose, teardown, abort?] using target
  have hs : c.lose.stopped = c.stopped := stopped_teardown c
  exact (settled_obey (released_lose still) ht c.one_le_attempt_lose _).of_same hs

theorem settled_opening (released : c.Released) {endpoint : String}
    (target : c.endpoint = some endpoint) (limit : Span) :
    Settled c (c.opening endpoint limit) := by
  have hr := released.tasks .reading
  have ht := released.tasks .ticking
  have hy := released.tasks .retrying
  refine .agrees rfl ⟨⟨fun _ => rfl, fun _ => rfl⟩, absent_iff released.writer nofun,
    absent_iff hr nofun, absent_iff ht nofun, absent_iff released.connectedAt nofun,
    absent_iff hy nofun, fun _ => ?_, ?_, ?_⟩
  · show c.endpoint.isSome = true
    rw [target]; rfl
  · rintro (h | h) <;> cases h
  · rintro (h | h) <;> cases h

theorem agrees_settle (still : c.retryTask = none) (target : c.endpoint.isSome = true)
    (link now : Nat) (interval : Span) : (c.settle link now interval).Agrees := by
  refine ⟨⟨nofun, nofun⟩, ⟨fun _ => rfl, fun _ => rfl⟩, ⟨fun _ => rfl, fun _ => rfl⟩,
    ⟨fun _ => rfl, fun _ => rfl⟩, ⟨fun _ => rfl, fun _ => rfl⟩, ?_, fun _ => target, fun _ => rfl,
    ?_⟩
  · rw [show (c.settle link now interval).retryTask = none from still]
    exact ⟨nofun, nofun⟩
  · rintro (h | h) <;> cases h

theorem agrees_disconnected (released : c.Released) (rested : c.attempt = 0) :
    (c.enter .disconnected).Agrees := by
  refine ⟨absent_iff (released.tasks .opening) nofun, absent_iff released.writer nofun,
    absent_iff (released.tasks .reading) nofun, absent_iff (released.tasks .ticking) nofun,
    absent_iff released.connectedAt nofun, absent_iff (released.tasks .retrying) nofun,
    fun h => absurd rfl h, fun _ => rested, ?_⟩
  rintro (h | h) <;> cases h

theorem settled_disconnect (c : Holding) : Settled c c.disconnect := by
  obtain ⟨ht, hw, ha⟩ := released_teardown (c := c.cancelRetry) rfl
  have hs : c.disconnect.stopped = c.stopped :=
    (stopped_teardown c.cancelRetry).trans (stopped_cancelRetry c)
  exact .agrees hs (agrees_disconnected ⟨ht, hw, ha⟩ rfl)

end Agreement

/-! ## Aborted tasks -/

/-- No task that may still report bears a generation. -/
def Clear (now : Nat) (base : List Job) (c : Holding) (g : UInt64) : Prop :=
  ∀ j ∈ c.jobs now base, j.fate = .running → j.what.generation ≠ g

/-- An aborted task that may still report bears an old generation. -/
def Outdates (now : Nat) (base : List Job) (c : Holding) : Prop :=
  ∀ j ∈ c.jobs now base, j.aborted = true → j.fate = .running → j.what.generation ≠ c.generation

namespace Clear

variable {c : Holding} {now : Nat} {base : List Job} {g : UInt64}

theorem of_jobs_eq {d : Holding} (h : Clear now base c g) (he : d.jobs now base = c.jobs now base) :
    Clear now base d g := by
  unfold Clear; rw [he]; exact h

theorem drop (h : Clear now base c g) (s : Slot) : Clear now base (c.drop s) g := by
  intro j hj hr
  obtain ⟨n, hn⟩ := List.getElem?_of_mem hj
  rw [getElem?_jobs_drop] at hn
  obtain ⟨j₀, hj₀, rfl⟩ := Option.map_eq_some_iff.mp hn
  have hm := List.mem_of_getElem? hj₀
  split at hr <;> split <;> exact h j₀ hm hr

theorem hire (h : Clear now base c g) {what : Task} (other : what.generation ≠ g) :
    Clear now base (c.hire what) g := by
  intro j hj hr
  rw [jobs_hire] at hj
  rcases List.mem_append.mp hj with hj | hj
  · exact h j hj hr
  · obtain rfl := List.mem_singleton.mp hj
    exact other

theorem teardown (h : Clear now base c g) : Clear now base c.teardown g :=
  ((h.drop .opening).drop .reading).drop .ticking

theorem settle (h : Clear now base c g) (other : c.generation ≠ g) (link instant : Nat)
    (interval : Span) : Clear now base (c.settle link instant interval) g := by
  let c₁ : Holding :=
    { c.put .opening none with attempt := 0, writer := some link, connectedAt := some instant }
  have h₁ : Clear now base c₁ g := h
  have h₂ : Clear now base (c₁.hire (.reading c.generation link)) g := h₁.hire other
  have h₃ : Clear now base (((c₁.hire (.reading c.generation link)).drop .ticking).hire
      (.ticking c.generation interval)) g := (h₂.drop .ticking).hire other
  exact h₃.of_jobs_eq (jobs_enter _ now base .connected)

/-- A generation that nothing bears can begin. -/
theorem outdates (h : Clear now base c g) (hg : c.generation = g) : Outdates now base c := by
  intro j hj _ hr
  rw [hg]
  exact h j hj hr

end Clear

namespace Outdates

variable {c : Holding} {now : Nat} {base : List Job}

theorem of_jobs_eq {d : Holding} (h : Outdates now base c) (he : d.jobs now base = c.jobs now base)
    (hg : d.generation = c.generation) : Outdates now base d := by
  unfold Outdates; rw [he, hg]; exact h

theorem hire (h : Outdates now base c) (what : Task) : Outdates now base (c.hire what) := by
  intro j hj ha hr
  rw [generation_hire]
  rw [jobs_hire] at hj
  rcases List.mem_append.mp hj with hj | hj
  · exact h j hj ha hr
  · obtain rfl := List.mem_singleton.mp hj
    exact Bool.noConfusion ha

theorem drop (h : Outdates now base c) {s : Slot} (empty : c.slot s = none) :
    Outdates now base (c.drop s) := by
  intro j hj ha hr
  obtain ⟨n, hn⟩ := List.getElem?_of_mem hj
  rw [getElem?_jobs_drop, empty] at hn
  simp only [reduceCtorEq, if_false, Option.map_id'] at hn
  rw [generation_drop]
  exact h j (List.mem_of_getElem? hn) ha hr

theorem opening (h : Clear now base c (c.generation + 1)) (endpoint : String) (limit : Span) :
    Outdates now base (c.opening endpoint limit) := by
  let d : Holding := { c.drop .opening with generation := c.generation + 1 }
  have hd : Clear now base d (c.generation + 1) := h.drop .opening
  have he := hd.of_jobs_eq (jobs_enter d now base .connecting)
  exact (he.outdates rfl).hire (.opening (c.generation + 1) endpoint limit)

theorem settle (h : Outdates now base c) (still : c.heartbeatTask = none) (link instant : Nat)
    (interval : Span) : Outdates now base (c.settle link instant interval) := by
  let c₁ : Holding :=
    { c.put .opening none with attempt := 0, writer := some link, connectedAt := some instant }
  have h₁ : Outdates now base c₁ := h
  have h₂ : Outdates now base (c₁.hire (.reading c.generation link)) := h₁.hire _
  have h₃ := (h₂.drop (s := .ticking) still).hire (.ticking c.generation interval)
  exact h₃.of_jobs_eq (jobs_enter _ now base .connected) rfl

theorem fail (h : Clear now base c (c.generation + 1)) (policy : Nat → Verdict) :
    (c.fail policy).stopped = true ∨ Outdates now base (c.fail policy) := by
  have hl : Clear now base c.lose (c.generation + 1) := h.teardown
  unfold Holding.fail
  cases policy c.lose.attempt with
  | broken reason => exact .inl rfl
  | giveUp =>
    let d := c.lose.mark (.failure c.lose.attempt none)
    have hd : Clear now base d (c.generation + 1) := hl.of_jobs_eq (jobs_mark ..)
    exact .inr ((hd.of_jobs_eq (jobs_enter d now base .failed)).outdates rfl)
  | wait delay =>
    let d := c.lose.mark (.failure c.lose.attempt (some delay))
    have hd : Clear now base d (c.generation + 1) := hl.of_jobs_eq (jobs_mark ..)
    have he := hd.of_jobs_eq (jobs_enter d now base .reconnecting)
    have hr := (he.drop .retrying).outdates (generation_drop _ _)
    exact .inr (hr.hire (.retrying (c.generation + 1) delay))

theorem disconnect (h : Clear now base c (c.generation + 1)) : Outdates now base c.disconnect := by
  let d : Holding := { c.cancelRetry.teardown with generation := c.generation + 1, attempt := 0 }
  have hd : Clear now base d (c.generation + 1) := (h.drop .retrying).teardown
  exact (hd.of_jobs_eq (jobs_enter d now base .disconnected)).outdates rfl

end Outdates

/-! ## Tasks of the turn -/

/-- Whatever is held was started in this turn, which began with `k` tasks. -/
def Renewed (k : Nat) (c : Holding) : Prop :=
  ∀ s n, c.slot s = some n → k ≤ n ∧ ∃ what, Mark.start n what ∈ c.marks ∧ what.slot = s

namespace Renewed

variable {c : Holding} {k : Nat}

theorem of_empty (h : ∀ s, c.slot s = none) : Renewed k c :=
  fun s _ hs => nomatch (h s).symm.trans hs

theorem mono {d : Holding} (h : Renewed k c) (slots : ∀ s, d.slot s = c.slot s)
    (marks : ∀ m ∈ c.marks, m ∈ d.marks) : Renewed k d := by
  intro s n hs
  obtain ⟨hk, what, hm, hw⟩ := h s n ((slots s).symm.trans hs)
  exact ⟨hk, what, marks _ hm, hw⟩

theorem enter (h : Renewed k c) (next : ConnectionState) : Renewed k (c.enter next) :=
  h.mono (slot_enter c · next) fun _ hm => List.mem_append_left _ hm

theorem drop (h : Renewed k c) (s : Slot) : Renewed k (c.drop s) := by
  intro s' n hs
  rw [slot_drop] at hs
  split at hs
  · cases hs
  · obtain ⟨hk, what, hm, hw⟩ := h s' n hs
    refine ⟨hk, what, ?_, hw⟩
    unfold Holding.drop
    rw [marks_put]
    exact List.mem_append_left _ hm

theorem hire (h : Renewed k c) (hk : k ≤ c.tasks) (what : Task) : Renewed k (c.hire what) := by
  have hm : (c.hire what).marks = c.marks ++ [.start c.tasks what] := marks_put _ _ _
  intro s n hs
  rw [slot_hire] at hs
  rw [hm]
  split at hs
  · rename_i he
    cases hs
    exact ⟨hk, what, List.mem_append_right _ (List.mem_singleton_self _), he.symm⟩
  · obtain ⟨hk', what', hm', hw⟩ := h s n hs
    exact ⟨hk', what', List.mem_append_left _ hm', hw⟩

theorem opening (h : c.Released) (hk : k ≤ c.tasks) (endpoint : String) (limit : Span) :
    Renewed k (c.opening endpoint limit) := by
  let d : Holding := { c.drop .opening with generation := c.generation + 1 }
  have hd : Renewed k d := ((of_empty h.tasks).drop .opening).mono (fun _ => rfl) fun _ hm => hm
  exact (hd.enter .connecting).hire hk (.opening (c.generation + 1) endpoint limit)

theorem settle (hr : c.readerTask = none) (ht : c.heartbeatTask = none) (hy : c.retryTask = none)
    (hk : k ≤ c.tasks) (link instant : Nat) (interval : Span) :
    Renewed k (c.settle link instant interval) := by
  let c₁ : Holding :=
    { c.put .opening none with attempt := 0, writer := some link, connectedAt := some instant }
  have h₁ : Renewed k c₁ := of_empty fun s => by
    cases s with
    | opening => rfl
    | reading => exact hr
    | ticking => exact ht
    | retrying => exact hy
  have h₂ := h₁.hire hk (.reading c.generation link)
  have h₃ := (h₂.drop .ticking).hire (Nat.le_succ_of_le hk) (.ticking c.generation interval)
  exact h₃.enter .connected

theorem fail (still : c.retryTask = none) (hk : k ≤ c.tasks) (policy : Nat → Verdict) :
    Renewed k (c.fail policy) := by
  have hl : ∀ s, c.lose.slot s = none := (released_lose still).tasks
  unfold Holding.fail
  cases policy c.lose.attempt with
  | broken reason => exact of_empty (released_halt _).tasks
  | giveUp =>
    refine of_empty fun s => ?_
    show ((c.lose.mark _).enter .failed).slot s = none
    rw [slot_enter, slot_mark]
    exact hl s
  | wait delay =>
    let d := (c.lose.mark (.failure c.lose.attempt (some delay))).enter .reconnecting
    have hd : Renewed k d := of_empty fun s => by
      show Holding.slot (Holding.enter _ _) s = none
      rw [slot_enter, slot_mark]
      exact hl s
    have ht : k ≤ (d.drop .retrying).tasks := by
      rw [tasks_drop]
      show k ≤ c.lose.tasks
      rw [tasks_lose]
      exact hk
    show Renewed k (d.retrying delay)
    rw [retrying_eq]
    exact (hd.drop .retrying).hire ht _

end Renewed

end Holding

/-! ## Courses -/

/-- The slot of the task that sends a report. -/
def Message.slot? {κ : Type} : Message κ → Option Slot
  | .opened _ _ | .openFailed _ _ => some .opening
  | .inbound _ _ | .closed _ _ => some .reading
  | .tick _ => some .ticking
  | .retry _ => some .retrying
  | _ => none

/-! ### Reports -/

section Reports

variable {κ : Type} {message : Message κ} {c : Holding}

theorem Message.isLast_of_request (h : message.isRequest = true) : message.isLast = false := by
  cases message with
  | opened | openFailed | inbound | closed | retry | tick => cases h
  | _ => rfl

theorem Message.slot?_of_request (h : message.isRequest = true) : message.slot? = none := by
  cases message with
  | opened | openFailed | inbound | closed | retry | tick => cases h
  | _ => rfl

theorem Message.generation?_of_request (h : message.isRequest = true) :
    message.generation? = none := by
  cases message with
  | opened | openFailed | inbound | closed | retry | tick => cases h
  | _ => rfl

theorem Holding.Takes.generation (h : c.Takes message) (last : message.isLast = true) :
    message.generation? = some c.generation := by
  cases message with
  | opened g link => exact congrArg some h.1
  | openFailed g cause => exact congrArg some h.1
  | closed g cause => exact congrArg some h.1
  | retry g => exact congrArg some h.1
  | _ => cases last

theorem Holding.Takes.connecting (h : c.Takes message) (kind : message.slot? = some .opening) :
    c.state = .connecting := by
  cases message with
  | opened g link => exact h.2
  | openFailed g cause => exact h.2
  | _ => cases kind

end Reports

/-- The slot of the task whose last report ends a state. -/
def ConnectionState.slot? : ConnectionState → Option Slot
  | .connecting => some .opening
  | .connected => some .reading
  | .reconnecting => some .retrying
  | .disconnected | .failed => none

namespace Holding

/-- The task that is to end the present state has just been started. -/
def Awaits (now : Nat) (base : List Job) (c : Holding) : Prop :=
  ∀ s, c.state.slot? = some s → ∃ n what, c.slot s = some n ∧
    (c.jobs now base)[n]? = some (.new now what) ∧ what.generation = c.generation

namespace Awaits

variable {c : Holding} {now : Nat} {base : List Job}

theorem opening (h : c.Placed now base) (endpoint : String) (limit : Span) :
    Awaits now base (c.opening endpoint limit) := by
  intro s hs
  cases hs
  refine ⟨c.tasks, .opening (c.generation + 1) endpoint limit, rfl, ?_, (generation_opening ..).symm⟩
  rw [opening_eq]
  exact h.redial.started _

theorem retrying (h : c.Placed now base) (state : c.state = .reconnecting) (delay : Span) :
    Awaits now base (c.retrying delay) := by
  intro s hs
  rw [show (c.retrying delay).state = _ from state] at hs
  cases hs
  refine ⟨c.tasks, .retrying c.generation delay, rfl, ?_, rfl⟩
  rw [retrying_eq]
  exact (h.drop .retrying).started _

theorem settle (h : c.Placed now base) (link instant : Nat) (interval : Span) :
    Awaits now base (c.settle link instant interval) := by
  intro s hs
  cases hs
  -- the reader is there, and neither the drop of the old timer nor the new one touches it
  let d : Holding := { c.put .opening none with
    attempt := 0, writer := some link, connectedAt := some instant, readerTask := none }
  have hd : (d.hire (.reading c.generation link)).Placed now base := h.settling link instant
  have held : ((d.hire (.reading c.generation link)).drop .ticking).slot .reading = some c.tasks := rfl
  refine ⟨c.tasks, .reading c.generation link, rfl, ?_, (generation_settle ..).symm⟩
  rw [settle_eq, jobs_enter]
  apply Placed.older
  refine ((hd.slot_of_drop held).2).trans ?_
  have hs : d.Placed now base := by
    have h' := (h.take .opening).take .reading
    exact ⟨h'.tasks, h'.held, fun _ hr => (nomatch hr)⟩
  exact hs.started _

theorem fail (h : c.Placed now base) (policy : Nat → Verdict) :
    (c.fail policy).stopped = true ∨ Awaits now base (c.fail policy) := by
  unfold Holding.fail
  cases policy c.lose.attempt with
  | broken reason => exact .inl rfl
  | giveUp => exact .inr nofun
  | wait delay => exact .inr (retrying ((h.lose.noted _ _).enter _) rfl delay)

end Awaits

end Holding

namespace Course

open Holding

variable {κ : Type} {limit : Span} {policy : Nat → Verdict} {c c' : Holding} {message : Message κ}

/-! ### What every course keeps -/

theorem endpoint_fail (c : Holding) (policy : Nat → Verdict) :
    (c.fail policy).endpoint = c.endpoint := by
  unfold Holding.fail
  cases policy c.lose.attempt with
  | broken reason => simp only [obey, halt, cancelRetry, lose, teardown, abort?]
  | giveUp => simp only [obey, mark, enter, lose, teardown, abort?]
  | wait delay => simp only [obey, retrying, start, mark, enter, lose, teardown, abort?]

theorem endpoint_settle (c : Holding) (link instant : Nat) (interval : Span) :
    (c.settle link instant interval).endpoint = c.endpoint := by
  simp only [settle, settling, enter, start, abort?]

theorem endpoint_halt (c : Holding) : c.halt.endpoint = c.endpoint := by
  simp only [halt, cancelRetry, teardown, abort?]

theorem state_halt (c : Holding) : c.halt.state = c.state := by
  simp only [halt, cancelRetry, teardown, abort?]

section Always

variable {now : Nat} {base : List Job}

theorem target (h : Course limit policy c message c')
    (target : c.state ≠ .disconnected → c.endpoint.isSome = true) :
    c'.state ≠ .disconnected → c'.endpoint.isSome = true := by
  have up : c.state.isIdle = false → c.state ≠ .disconnected := by
    intro hi hs
    rw [hs] at hi
    cases hi
  intro hs
  cases h with
  | steady => exact target hs
  | fails from_ =>
    rw [endpoint_fail]
    refine target (up ?_)
    rcases from_ with he | ⟨-, -, hi⟩
    · rw [he]; rfl
    · exact hi
  | refused from_ =>
    rw [endpoint_fail]
    exact target (by rw [from_]; nofun)
  | connects | reconnects => rfl
  | retries from_ he => exact target (by rw [from_]; nofun)
  | installs from_ => exact target (by rw [from_]; nofun)
  | installsFails from_ =>
    rw [endpoint_fail, endpoint_settle]
    exact target (by rw [from_]; nofun)
  | disconnects => exact absurd rfl hs
  | stops =>
    rw [state_halt] at hs
    rw [endpoint_halt]
    exact target hs

/-- **What is held are tasks that go on, after every turn.** -/
theorem placed (h : Course limit policy c message c') (placed : c.Placed now base) :
    c'.Placed now base := by
  cases h with
  | steady => exact placed
  | fails => exact placed.fail policy
  | refused => exact (placed.take .opening).fail policy
  | connects => exact (placed.aim _).opening _ limit
  | reconnects => exact ((placed.drop .retrying).aim _).opening _ limit
  | retries => exact (placed.take .retrying).opening _ limit
  | installs => exact placed.settle _ _ _
  | installsFails => exact (placed.settle _ _ _).fail policy
  | disconnects => exact placed.disconnect
  | stops => exact placed.halt

/-- **A turn leaves things as they are, or what is to end the state after it has just been
started.** -/
theorem awaits (h : Course limit policy c message c') (placed : c.Placed now base) :
    (c' = c ∧ (message.isLast = true → ¬ c.Takes message)) ∨ c'.stopped = true ∨
      c'.Awaits now base := by
  cases h with
  | steady last => exact .inl ⟨rfl, last⟩
  | fails => exact .inr (Awaits.fail placed policy)
  | refused => exact .inr (Awaits.fail (placed.take .opening) policy)
  | connects => exact .inr (.inr (.opening (placed.aim _) _ limit))
  | reconnects => exact .inr (.inr (.opening ((placed.drop .retrying).aim _) _ limit))
  | retries => exact .inr (.inr (.opening (placed.take .retrying) _ limit))
  | installs => exact .inr (.inr (.settle placed _ _ _))
  | installsFails => exact .inr (Awaits.fail (placed.settle _ _ _) policy)
  | disconnects => exact .inr (.inr nofun)
  | stops => exact .inr (.inl rfl)

end Always

/-! ### What a course keeps that begins well -/

/-- What a course begins with: the state and the tasks agree with what is held, the last report of
a task comes from a task that has ended, and the end of a connection is reported while it is open. -/
structure Begins (now : Nat) (base : List Job) (c : Holding) (message : Message κ) : Prop where
  agrees : c.Agrees
  owns : c.Owns now base
  spent : message.isLast = true → c.Takes message → ∀ s n j, message.slot? = some s →
    c.slot s = some n → (c.jobs now base)[n]? = some j → j.fate ≠ .running
  up : ∀ cause, message = .closed c.generation cause → c.state = .connected

variable {now : Nat} {base : List Job}

namespace Begins

theorem still (h : Begins now base c message) (hs : c.state ≠ .reconnecting) : c.retryTask = none :=
  Agrees.none_of h.agrees.retrying hs

theorem fails (h : Begins now base c message)
    (from_ : c.state = .connected ∨
      ∃ cause, message = .closed c.generation cause ∧ c.state.isIdle = false) :
    c.state = .connected := by
  rcases from_ with hs | ⟨cause, rfl, -⟩
  · exact hs
  · exact h.up cause rfl

end Begins

/-- **State and resources agree after every turn.** -/
theorem settled (h : Course limit policy c message c') (begins : Begins now base c message) :
    Settled c c' := by
  have agrees := begins.agrees
  cases h with
  | steady => exact .agrees rfl agrees
  | fails from_ =>
    have hs := begins.fails from_
    refine settled_fail (begins.still ?_) (agrees.target ?_) policy <;> rw [hs] <;> nofun
  | refused from_ =>
    let d : Holding := { c with openTask := none }
    have hd : Settled d (d.fail policy) := by
      refine settled_fail (c := d) (begins.still ?_) (agrees.target ?_) policy <;> rw [from_] <;> nofun
    exact hd.of_same rfl
  | connects from_ =>
    rename_i endpoint _
    let d : Holding := { c with endpoint := some endpoint, attempt := 0 }
    have hr := agrees.released from_
    have hd : Settled d (d.opening endpoint limit) :=
      settled_opening (c := d) ⟨hr.tasks, hr.writer, hr.connectedAt⟩ rfl limit
    exact hd.of_same rfl
  | reconnects from_ =>
    rename_i endpoint _
    let d : Holding := { c.cancelRetry with endpoint := some endpoint, attempt := 0 }
    have hr := agrees.released_put from_
    have hd : Settled d (d.opening endpoint limit) :=
      settled_opening (c := d) ⟨hr.tasks, hr.writer, hr.connectedAt⟩ rfl limit
    exact hd.of_same rfl
  | retries from_ target => exact (settled_opening (agrees.released_put from_) target limit).of_same rfl
  | installs from_ =>
    refine .agrees rfl (agrees_settle (begins.still ?_) (agrees.target ?_) _ _ _) <;>
      rw [from_] <;> nofun
  | installsFails from_ =>
    rename_i link now interval
    let d := c.settle link now interval
    have hd : Settled d (d.fail policy) := by
      refine settled_fail (c := d) (begins.still ?_) (agrees.target ?_) policy <;> rw [from_] <;> nofun
    exact hd.of_same rfl
  | disconnects => exact settled_disconnect c
  | stops => exact settled_halt c

/-- **What is held agrees with the tasks after every turn.** -/
theorem owns (h : Course limit policy c message c') (begins : Begins now base c message) :
    c'.Owns now base := by
  have owns := begins.owns
  cases h with
  | steady => exact owns
  | fails from_ =>
    exact owns.fail (begins.still (by rw [begins.fails from_]; nofun)) policy
  | refused from_ =>
    have ht := owns.take (s := .opening) (begins.spent rfl ⟨rfl, from_⟩ .opening · · rfl)
    exact ht.fail (begins.still (by rw [from_]; nofun)) policy
  | connects from_ =>
    rename_i endpoint _
    let d : Holding := { c with endpoint := some endpoint, attempt := 0 }
    have hd : d.Owns now base := ⟨owns.placed.aim _, owns.present, owns.loose⟩
    have hr := begins.agrees.released from_
    exact hd.opening (fun s _ => hr.tasks s) endpoint limit
  | reconnects from_ =>
    rename_i endpoint _
    let d : Holding := { c.cancelRetry with endpoint := some endpoint, attempt := 0 }
    have ho := owns.drop .retrying
    have hd : d.Owns now base := ⟨ho.placed.aim _, ho.present, ho.loose⟩
    have hr := begins.agrees.released_put from_
    exact hd.opening (fun s _ => hr.tasks s) endpoint limit
  | retries from_ target =>
    rename_i endpoint
    have ht := owns.take (s := .retrying) (begins.spent rfl ⟨rfl, from_⟩ .retrying · · rfl)
    have hr := begins.agrees.released_put from_
    exact ht.opening (fun s _ => hr.tasks s) endpoint limit
  | installs from_ =>
    have hr := Agrees.none_of begins.agrees.reading (by rw [from_]; nofun)
    exact owns.settle hr (begins.spent rfl ⟨rfl, from_⟩ .opening · · rfl) _ _ _
  | installsFails from_ =>
    have hr := Agrees.none_of begins.agrees.reading (by rw [from_]; nofun)
    have hs := owns.settle hr (begins.spent rfl ⟨rfl, from_⟩ .opening · · rfl)
    exact (hs _ _ _).fail (begins.still (by rw [from_]; nofun)) policy
  | disconnects => exact owns.disconnect
  | stops => exact owns.halt

theorem generation_fail (c : Holding) (policy : Nat → Verdict) :
    (c.fail policy).generation = c.generation + 1 := by
  unfold Holding.fail
  cases policy c.lose.attempt <;> rfl

/-- **A turn begins one generation at most.** -/
theorem generation (h : Course limit policy c message c') :
    c'.generation = c.generation ∨ c'.generation = c.generation + 1 := by
  cases h with
  | steady => exact .inl rfl
  | fails => exact .inr (generation_fail c policy)
  | refused => exact .inr (generation_fail { c with openTask := none } policy)
  | connects => exact .inr (generation_opening ..)
  | reconnects => exact .inr ((generation_opening ..).trans (by rw [generation_cancelRetry]))
  | retries => exact .inr (generation_opening ..)
  | installs => exact .inl (generation_settle ..)
  | installsFails => exact .inr ((generation_fail ..).trans (by rw [generation_settle]))
  | disconnects => exact .inr (generation_disconnect c)
  | stops => exact .inl (generation_halt c)

/-- **Aborted tasks stay behind**, as long as a generation that begins is not borne by any task. -/
theorem outdates (h : Course limit policy c message c') (begins : Begins now base c message)
    (outdates : c.Outdates now base)
    (fresh : c'.generation ≠ c.generation → c.Clear now base c'.generation) :
    c'.stopped = true ∨ c'.Outdates now base := by
  have clear : c'.generation = c.generation + 1 → c.Clear now base (c.generation + 1) := by
    intro hg
    have hc := fresh (by rw [hg]; exact generation_succ_ne _)
    rwa [hg] at hc
  cases h with
  | steady => exact .inr outdates
  | fails => exact Outdates.fail (clear (generation_fail c policy)) policy
  | refused =>
    let d : Holding := { c with openTask := none }
    exact Outdates.fail (c := d) (clear (generation_fail d policy)) policy
  | connects | retries => exact .inr (Outdates.opening (clear rfl) _ limit)
  | reconnects => exact .inr (Outdates.opening ((clear rfl).drop .retrying) _ limit)
  | installs from_ =>
    have ht := Agrees.none_of begins.agrees.ticking (by rw [from_]; nofun)
    exact .inr (outdates.settle ht _ _ _)
  | installsFails =>
    rename_i link instant interval _
    have hc := clear (generation_fail (c.settle link instant interval) policy)
    have hs := hc.settle (generation_succ_ne c.generation).symm link instant interval
    exact Outdates.fail hs policy
  | disconnects => exact .inr (Outdates.disconnect (clear rfl))
  | stops => exact .inl rfl

/-- A turn that begins no generation does not change what is held, stops, or opens the connection. -/
theorem present (h : Course limit policy c message c') (same : c'.generation = c.generation) :
    c' = c ∨ c'.stopped = true ∨ c.state = .connecting ∧ c'.state = .connected := by
  have next : ∀ g : UInt64, c'.generation = g → g = c.generation + 1 → False := by
    intro g hg hs
    exact generation_succ_ne c.generation (hs.symm.trans (hg.symm.trans same))
  cases h with
  | steady => exact .inl rfl
  | fails => exact (next _ (generation_fail c policy) rfl).elim
  | refused => exact (next _ (generation_fail { c with openTask := none } policy) rfl).elim
  | connects => exact (next _ (generation_opening ..) rfl).elim
  | reconnects => exact (next _ (generation_opening ..) (by rw [generation_cancelRetry])).elim
  | retries => exact (next _ (generation_opening ..) rfl).elim
  | installs from_ => exact .inr (.inr ⟨from_, rfl⟩)
  | installsFails => exact (next _ (generation_fail ..) (by rw [generation_settle])).elim
  | disconnects => exact (next _ (generation_disconnect c) rfl).elim
  | stops => exact .inr (.inl rfl)

theorem settled_state_fail (c : Holding) (policy : Nat → Verdict) :
    (c.fail policy).stopped = true ∨ (c.fail policy).state ≠ .connected := by
  unfold Holding.fail
  cases policy c.lose.attempt with
  | broken reason => exact .inl rfl
  | giveUp => exact .inr nofun
  | wait delay => exact .inr nofun

/-- A connection is open after a turn because it was before, or because the turn has opened it. -/
theorem connected (h : Course limit policy c message c') (runs : c'.stopped = false)
    (up : c'.state = .connected) : (c' = c ∧ message ≠ .disconnect) ∨
      ∃ link instant interval, c.state = .connecting ∧ message = .opened c.generation link ∧
        c' = c.settle link instant interval := by
  have not_fail : ∀ d : Holding, (d.fail policy).stopped = false →
      (d.fail policy).state = .connected → False := by
    intro d hr hs
    rcases settled_state_fail d policy with ht | hn
    · exact Bool.noConfusion (hr.symm.trans ht)
    · exact hn hs
  cases h with
  | steady last other => exact .inl ⟨rfl, other⟩
  | fails => exact (not_fail c runs up).elim
  | refused => exact (not_fail { c with openTask := none } runs up).elim
  | installs from_ => exact .inr ⟨_, _, _, from_, rfl, rfl⟩
  | installsFails => exact (not_fail (c.settle ..) runs up).elim
  | connects | reconnects | retries | disconnects => cases up
  | stops => cases runs

/-- What is written to after a turn was written to before, or is the connection that was opened. -/
theorem writer (h : Course limit policy c message c') : c'.writer = c.writer ∨ c'.writer = none ∨
    ∃ link, message = .opened c.generation link ∧ c'.writer = some link := by
  have of_fail : ∀ d : Holding, (d.fail policy).writer = none := by
    intro d
    unfold Holding.fail
    cases policy d.lose.attempt <;> rfl
  cases h with
  | steady | connects | reconnects | retries => exact .inl rfl
  | fails => exact .inr (.inl (of_fail c))
  | refused => exact .inr (.inl (of_fail { c with openTask := none }))
  | installs => exact .inr (.inr ⟨_, rfl, rfl⟩)
  | installsFails => exact .inr (.inl (of_fail (c.settle ..)))
  | disconnects | stops => exact .inr (.inl rfl)

/-- A last report that is taken does not leave things as they are. -/
theorem acts (h : Course limit policy c message c') (last : message.isLast = true)
    (takes : c.Takes message) : c'.generation ≠ c.generation ∨ c'.state ≠ c.state := by
  have next : ∀ {g : UInt64}, g = c.generation + 1 → g ≠ c.generation := by
    intro g hg
    rw [hg]
    exact generation_succ_ne _
  cases h with
  | steady stale => exact absurd takes (stale last)
  | fails => exact .inl (next (generation_fail c policy))
  | refused => exact .inl (next (generation_fail { c with openTask := none } policy))
  | connects | reconnects | stops | disconnects => cases last
  | retries => exact .inl (next (generation_opening ..))
  | installs from_ =>
    refine .inr fun hs => ?_
    have hc : ConnectionState.connected = .connecting := Eq.trans hs from_
    cases hc
  | installsFails =>
    exact .inl (next ((generation_fail ..).trans (by rw [generation_settle])))

/-- **A turn keeps what is held, or holds only what it has started itself.** -/
theorem renewed (h : Course limit policy c message c') (begins : Begins now base c message) :
    (c' = c ∧ message ≠ .disconnect ∧ (message.isLast = true → ¬ c.Takes message)) ∨
      c'.Renewed c.tasks := by
  have agrees := begins.agrees
  cases h with
  | steady last other => exact .inl ⟨rfl, other, last⟩
  | fails from_ =>
    exact .inr (.fail (begins.still (by rw [begins.fails from_]; nofun)) (Nat.le_refl _) policy)
  | refused from_ =>
    have hy := begins.still (by rw [from_]; nofun)
    exact .inr (.fail (c := { c with openTask := none }) hy (Nat.le_refl _) policy)
  | connects from_ =>
    rename_i endpoint _
    have hr := agrees.released from_
    exact .inr (.opening (c := { c with endpoint := some endpoint, attempt := 0 })
      ⟨hr.tasks, hr.writer, hr.connectedAt⟩ (Nat.le_refl _) endpoint limit)
  | reconnects from_ =>
    rename_i endpoint _
    have hr := agrees.released_put from_
    exact .inr (.opening (c := { c.cancelRetry with endpoint := some endpoint, attempt := 0 })
      ⟨hr.tasks, hr.writer, hr.connectedAt⟩ (Nat.le_refl _) endpoint limit)
  | retries from_ =>
    exact .inr (.opening (agrees.released_put from_) (Nat.le_refl _) _ limit)
  | installs from_ =>
    have hr := Agrees.none_of agrees.reading (by rw [from_]; nofun)
    have ht := Agrees.none_of agrees.ticking (by rw [from_]; nofun)
    have hy := begins.still (by rw [from_]; nofun)
    exact .inr (.settle hr ht hy (Nat.le_refl _) _ _ _)
  | installsFails from_ =>
    rename_i link instant interval
    have hy := begins.still (by rw [from_]; nofun)
    exact .inr (.fail (c := c.settle link instant interval) hy (by exact Nat.le_add_right _ 2) policy)
  | disconnects => exact .inr (.of_empty fun s => by cases s <;> rfl)
  | stops => exact .inr (.of_empty c.released_halt.tasks)

end Course

end LiveMetrics
