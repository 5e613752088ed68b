import LiveMetrics.Proofs.Connection.History

/-!
# Attempts and failures

What each way in which a turn can go (`Deal`) makes of the attempts to connect: when one begins
(`Deal.opens`), when one fails and what the policy makes of it (`Deal.falls`), and how failures are
counted (`Deal.attempt`).
-/

set_option autoImplicit false

namespace LiveMetrics

/-! ## Tasks that a turn starts -/

theorem openings_append (first rest : List (Nat × Task)) :
    openings (first ++ rest) = openings first ++ openings rest := List.filterMap_append

theorem readings_append (first rest : List (Nat × Task)) :
    readings (first ++ rest) = readings first ++ readings rest := List.filterMap_append

theorem retryings_append (first rest : List (Nat × Task)) :
    retryings (first ++ rest) = retryings first ++ retryings rest := List.filterMap_append

namespace Holding

variable (c : Holding)

theorem started_opening_of_bare {c : Holding} (bare : c.started = []) (endpoint : String)
    (limit : Span) : (c.opening endpoint limit).started =
      [(c.tasks, .opening (c.generation + 1) endpoint limit)] := by
  rw [started_opening, bare]
  rfl

theorem openings_waiting (v : Verdict) : openings (c.waiting v) = [] := by cases v <;> rfl

theorem readings_waiting (v : Verdict) : readings (c.waiting v) = [] := by cases v <;> rfl

theorem attempt_halt : c.halt.attempt = c.attempt := by
  simp only [halt, cancelRetry, teardown, abort?]

theorem attempt_fail (policy : Nat → Verdict) :
    (c.fail policy).attempt = min (c.attempt + 1) Manager.maxAttempt := by
  unfold fail
  cases policy c.lose.attempt <;> rfl

end Holding

/-- Whether what is held counts as an attempt that goes on: one to connect, or an open connection. -/
def ConnectionState.isBusy : ConnectionState → Bool
  | .connecting | .connected => true
  | .disconnected | .reconnecting | .failed => false

/-- Whether the count of failures begins anew: a connection was taken into use, an attempt was begun
on request, or the connection was given up on request. -/
def Message.resets {κ : Type} (message : Message κ) (started : List (Nat × Task)) : Bool :=
  !(readings started).isEmpty || message.isConnect && !(openings started).isEmpty ||
    message.isDisconnect

theorem Message.resets_opening {κ : Type} (m : Message κ) {d : Holding} (bare : d.started = [])
    (endpoint : String) (limit : Span) :
    m.resets (d.opening endpoint limit).started = (m.isConnect || m.isDisconnect) := by
  unfold resets
  rw [Holding.started_opening_of_bare bare]
  simp [openings, readings]

/-- Whether a message is the report of the retry that is planned. -/
def Holding.resumes {κ : Type} (c : Holding) : Message κ → Bool
  | .retry generation => generation == c.generation && c.state == .reconnecting
  | _ => false

theorem Holding.resumes_iff {κ : Type} (c : Holding) (message : Message κ) :
    c.resumes message = true ↔ message = .retry c.generation ∧ c.state = .reconnecting := by
  cases message with
  | retry g => simp [resumes]
  | _ => exact ⟨nofun, fun h => nomatch h.1⟩

/-! ## How failures are entered -/

/-- What a failure leads to, for each answer of the policy. -/
inductive Holding.Falls (d : Holding) : Verdict → Prop where
  | waits {delay : Span} {task : Nat} (stopped : d.stopped = false) (state : d.state = .reconnecting)
      (held : d.retryTask = some task) (starts : retryings d.started = [(task, delay)]) :
      Falls d (.wait delay)
  | ends (stopped : d.stopped = false) (state : d.state = .failed)
      (starts : retryings d.started = []) : Falls d .giveUp
  | breaks {reason : String} (stopped : d.stopped = true) (starts : retryings d.started = []) :
      Falls d (.broken reason)

namespace Holding

variable {c : Holding}

theorem falls_obey (running : c.stopped = false) (bare : retryings c.started = []) (v : Verdict) :
    (c.obey v).Falls v := by
  have starts : retryings (c.obey v).started = retryings (c.waiting v) := by
    rw [started_obey, retryings_append, bare, List.nil_append]
  cases v with
  | wait delay => exact .waits running rfl rfl starts
  | giveUp => exact .ends running rfl starts
  | broken reason => exact .breaks rfl starts

theorem falls_fail (running : c.stopped = false) (bare : retryings c.started = [])
    (policy : Nat → Verdict) : (c.fail policy).Falls (policy (c.fail policy).attempt) := by
  rw [attempt_fail]
  have bare' : retryings c.lose.started = [] := (congrArg _ c.started_lose).trans bare
  exact falls_obey (c := c.lose) ((stopped_teardown c).trans running) bare' _

/-- What a failure finds. -/
structure Found {κ : Type} (c : Holding) (message : Message κ) (d : Holding) : Prop where
  stopped : d.stopped = c.stopped
  retryings : retryings d.started = []
  openings : openings d.started = []
  attempt : d.attempt = if message.resets d.started then 0 else c.attempt
  asks : message.isConnect = false
  stays : message.isDisconnect = false
  fresh : c.resumes message = false

/-- Nothing was planned and no attempt was begun in the turn so far, and the count of failures begins
anew if a connection has just been opened. -/
theorem Fails.found {κ : Type} {d : Holding} {message : Message κ} (h : c.Fails message d)
    (bare : c.started = []) : c.Found message d := by
  cases h with
  | writing up steady asks stays =>
    have fresh : c.resumes message = false := by
      refine Bool.eq_false_iff.mpr fun h => ?_
      exact nomatch up.symm.trans ((c.resumes_iff message).mp h).2
    refine ⟨rfl, by rw [bare]; rfl, by rw [bare]; rfl, ?_, asks, stays, fresh⟩
    unfold Message.resets
    rw [bare, asks, stays]
    rfl
  | closed busy =>
    refine ⟨rfl, by rw [bare]; rfl, by rw [bare]; rfl, ?_, rfl, rfl, rfl⟩
    unfold Message.resets
    rw [bare]
    rfl
  | refused trying =>
    have hs : ({ c with openTask := none } : Holding).started = [] := bare
    refine ⟨rfl, by rw [hs]; rfl, by rw [hs]; rfl, ?_, rfl, rfl, rfl⟩
    unfold Message.resets
    rw [hs]
    rfl
  | opened trying =>
    refine ⟨rfl, ?_, ?_, ?_, rfl, rfl, rfl⟩
    · rw [started_settle, bare]
      rfl
    · rw [started_settle, bare]
      rfl
    · unfold Message.resets
      rw [started_settle, bare]
      rfl

/-- A failure finds an attempt or an open connection, or the end of one is reported. -/
theorem Fails.busy {κ : Type} {d : Holding} {message : Message κ} (h : c.Fails message d)
    (up : ∀ cause, message = .closed c.generation cause → c.state = .connected) :
    c.state.isBusy = true := by
  cases h with
  | writing up =>
    rw [up]
    rfl
  | closed =>
    rw [up _ rfl]
    rfl
  | refused trying | opened trying =>
    rw [trying]
    rfl

theorem Fails.placed {κ : Type} {d : Holding} {message : Message κ} {now : Nat} {base : List World.Job}
    (h : c.Fails message d) (placed : c.Placed now base) : d.Placed now base := by
  cases h with
  | writing | closed => exact placed
  | refused => exact placed.take .opening
  | opened => exact placed.settle _ _ _

theorem Placed.planned {now : Nat} {base : List World.Job} (h : c.Placed now base)
    (bare : retryings c.started = []) {v : Verdict} {task : Nat} {delay : Span}
    (starts : (task, delay) ∈ retryings (c.obey v).started) :
    ∃ g, ((c.obey v).jobs now base)[task]? = some (.new now (.retrying g delay)) := by
  rw [started_obey, retryings_append, bare, List.nil_append] at starts
  cases v with
  | wait delay' =>
    cases List.mem_singleton.mp starts
    refine ⟨c.generation, ?_⟩
    show ((Holding.retrying _ _).jobs now base)[_]? = _
    rw [retrying_eq]
    exact (((h.noted _ _).enter _).drop .retrying).started _
  | giveUp | broken reason => cases starts

end Holding

/-! ## Deals -/

namespace Deal

variable {κ : Type} {limit : Span} {policy : Nat → Verdict} {c d : Holding} {l l' : Ledger}
  {message : Message κ}

/-- **A turn fails or is calm**: it asks the policy once and notes the error, and does what the policy
says; or it asks for nothing, plans nothing and gives nothing up, and notes at most the drop of a
frame. -/
theorem calm_or_fails (h : Deal limit policy c l message d l') (bare : c.started = []) :
    (retryings d.started = [] ∧ (d.state = .failed → c.state = .failed) ∧
      ∃ reason, { l' with farewells := l.farewells } = l.drop? reason) ∨
    ∃ d₀ cause, c.Fails message d₀ ∧ d = d₀.fail policy ∧ l' = l.fail cause (policy d.attempt) := by
  have quiet : ∀ {d' : Holding}, d'.started = [] → retryings d'.started = [] := by
    intro d' hd
    rw [hd]
    rfl
  have dials : ∀ {d' : Holding} {endpoint : String}, d'.started = [] →
      retryings (d'.opening endpoint limit).started = [] := by
    intro d' endpoint hd
    rw [Holding.started_opening_of_bare hd]
    rfl
  cases h with
  | stays _ _ _ reason =>
    refine .inl ⟨quiet bare, id, reason, ?_⟩
    rw [← l.farewells_drop? reason]
  | @fails _ d₀ failing cause =>
    refine .inr ⟨d₀, cause, failing, rfl, ?_⟩
    rw [Holding.attempt_fail]
    rfl
  | connects | retries => exact .inl ⟨dials bare, nofun, none, rfl⟩
  | reconnects => exact .inl ⟨dials (c.started_cancelRetry.trans bare), nofun, none, rfl⟩
  | installs =>
    refine .inl ⟨?_, nofun, none, rfl⟩
    rw [Holding.started_settle, bare]
    rfl
  | disconnects => exact .inl ⟨quiet (c.started_disconnect.trans bare), nofun, none, rfl⟩
  | stops =>
    refine .inl ⟨quiet (c.started_halt.trans bare), fun hs => ?_, none, rfl⟩
    rw [← hs, Course.state_halt]

/-- What is done after a failure follows from the answer of the policy. -/
theorem calm_or_falls (h : Deal limit policy c l message d l') (bare : c.started = [])
    (running : c.stopped = false) :
    (retryings d.started = [] ∧ (d.state = .failed → c.state = .failed) ∧
      ∃ reason, { l' with farewells := l.farewells } = l.drop? reason) ∨
    ∃ d₀ cause, c.Fails message d₀ ∧ l' = l.fail cause (policy d.attempt) ∧
      d.Falls (policy d.attempt) := by
  rcases h.calm_or_fails bare with calm | ⟨d₀, cause, failing, rfl, told⟩
  · exact .inl calm
  · have found := failing.found bare
    exact .inr ⟨d₀, cause, failing, told,
      Holding.falls_fail (found.stopped.trans running) found.retryings policy⟩

/-- **When an attempt begins**: with a request while none goes on, or with the retry. -/
theorem opens (h : Deal limit policy c l message d l') (bare : c.started = []) :
    (openings d.started).length =
      (message.isConnect && !c.state.isBusy).toNat + (c.resumes message).toNat := by
  have one : ∀ {d' : Holding} {endpoint : String}, d'.started = [] →
      (openings (d'.opening endpoint limit).started).length = 1 := by
    intro d' endpoint hd
    rw [Holding.started_opening_of_bare hd]
    rfl
  cases h with
  | stays last busy =>
    have asks : (message.isConnect && !c.state.isBusy) = false := by
      cases hm : message.isConnect with
      | false => rfl
      | true => rcases busy hm with hs | hs <;> rw [hs] <;> rfl
    have stale : c.resumes message = false := by
      refine Bool.eq_false_iff.mpr fun hr => ?_
      obtain ⟨rfl, hs⟩ := (c.resumes_iff message).mp hr
      exact last rfl ⟨rfl, hs⟩
    rw [bare, asks, stale]
    rfl
  | fails failing =>
    have found := failing.found bare
    rw [Holding.started_fail, openings_append, found.openings, Holding.openings_waiting, found.asks,
      found.fresh]
    rfl
  | connects from_ =>
    refine (one bare).trans ?_
    rcases from_ with hs | hs <;> rw [hs] <;> rfl
  | reconnects from_ =>
    refine (one (c.started_cancelRetry.trans bare)).trans ?_
    rw [from_]
    rfl
  | retries from_ =>
    refine (one bare).trans ?_
    rw [(c.resumes_iff _).mpr ⟨rfl, from_⟩]
    rfl
  | installs =>
    rw [Holding.started_settle, bare]
    rfl
  | disconnects =>
    rw [Holding.started_disconnect, bare]
    rfl
  | stops =>
    rw [Holding.started_halt, bare]
    rfl

/-- **How failures are counted.** -/
theorem attempt (h : Deal limit policy c l message d l') (bare : c.started = [])
    (silent : l.answers = []) (bound : c.attempt ≤ Manager.maxAttempt) :
    d.attempt = min ((if message.resets d.started then 0 else c.attempt) + l'.answers.length)
      Manager.maxAttempt := by
  cases h with
  | stays last busy other reason =>
    have same : message.resets c.started = false := by
      unfold Message.resets
      rw [bare, other]
      cases message.isConnect <;> rfl
    rw [same, l.answers_drop? reason, silent]
    exact (Nat.min_eq_left bound).symm
  | @fails _ d failing cause =>
    have found := failing.found bare
    have same : message.resets (d.fail policy).started = message.resets d.started := by
      unfold Message.resets
      rw [Holding.started_fail, readings_append, Holding.readings_waiting, List.append_nil, found.asks]
      rfl
    rw [Holding.attempt_fail, same, l.answers_fail, silent, found.attempt]
    rfl
  | @connects endpoint observer =>
    have renews := (Message.connect endpoint observer : Message κ).resets_opening
      (d := { c with endpoint := some endpoint, attempt := 0 }) bare endpoint limit
    rw [renews, silent]
    exact (Nat.zero_min _).symm
  | @reconnects endpoint observer =>
    have renews := (Message.connect endpoint observer : Message κ).resets_opening
      (d := { c.cancelRetry with endpoint := some endpoint, attempt := 0 })
      (c.started_cancelRetry.trans bare) endpoint limit
    rw [renews, silent]
    exact (Nat.zero_min _).symm
  | @retries endpoint =>
    have same := (Message.retry c.generation : Message κ).resets_opening
      (d := { c with retryTask := none }) bare endpoint limit
    rw [same, silent]
    exact (Nat.min_eq_left bound).symm
  | installs =>
    rw [Holding.started_settle, bare, silent]
    exact (Nat.zero_min _).symm
  | disconnects =>
    have renews : (Message.disconnect : Message κ).resets c.disconnect.started = true :=
      Bool.or_true _
    rw [renews]
    show 0 = min (0 + l.answers.length) _
    rw [silent]
    exact (Nat.zero_min _).symm
  | stops =>
    have same : (Message.stop : Message κ).resets c.halt.started = false := by
      rw [Holding.started_halt, bare]
      rfl
    rw [same, silent, c.attempt_halt]
    exact (Nat.min_eq_left bound).symm

theorem planned (h : Deal limit policy c l message d l') (bare : c.started = []) {now : Nat}
    {base : List World.Job} (placed : c.Placed now base) {task : Nat} {delay : Span}
    (starts : (task, delay) ∈ retryings d.started) :
    ∃ g, (d.jobs now base)[task]? = some (.new now (.retrying g delay)) := by
  rcases h.calm_or_fails bare with ⟨none_, -⟩ | ⟨d₀, cause, failing, rfl, -⟩
  · rw [none_] at starts
    cases starts
  · have found : retryings d₀.lose.started = [] :=
      (congrArg retryings d₀.started_lose).trans (failing.found bare).retryings
    exact (failing.placed placed).lose.planned found starts

/-- While no connection is wanted none is tried, unless one is asked for. -/
theorem idle (h : Deal limit policy c l message d l') (idle : c.state.isIdle = true)
    (asks : message.isConnect = false) : d.state.isIdle = true := by
  have other : ∀ state, state.isIdle = false → c.state ≠ state := by
    intro state hs he
    rw [he, hs] at idle
    cases idle
  cases h with
  | stays => exact idle
  | fails failing =>
    cases failing with
    | writing up => exact absurd up (other _ rfl)
    | closed busy => exact nomatch busy.symm.trans idle
    | refused trying | opened trying => exact absurd trying (other _ rfl)
  | connects | reconnects => cases asks
  | retries from_ | installs from_ => exact absurd from_ (other _ rfl)
  | disconnects => rfl
  | stops =>
    rw [Course.state_halt]
    exact idle

/-- A planned retry stays planned until its report is handled, or somebody asks for a connection or
for the end of it. -/
theorem keeps (h : Deal limit policy c l message d l') (state : c.state = .reconnecting)
    (asks : message.isConnect = false) (stays : message.isDisconnect = false)
    (fresh : c.resumes message = false)
    (up : ∀ cause, message = .closed c.generation cause → c.state = .connected) :
    d.stopped = true ∨ d.state = .reconnecting ∧ d.retryTask = c.retryTask := by
  have other : ∀ s, s ≠ .reconnecting → c.state ≠ s := fun s hs he => hs (he.symm.trans state)
  cases h with
  | stays => exact .inr ⟨state, rfl⟩
  | fails failing =>
    cases failing with
    | writing up => exact absurd up (other _ nofun)
    | closed => exact absurd (up _ rfl) (other _ nofun)
    | refused trying | opened trying => exact absurd trying (other _ nofun)
  | connects | reconnects => cases asks
  | retries from_ =>
    rw [(c.resumes_iff _).mpr ⟨rfl, from_⟩] at fresh
    cases fresh
  | installs from_ => exact absurd from_ (other _ nofun)
  | disconnects => cases stays
  | stops => exact .inl rfl

theorem cancels (h : Deal limit policy c l message d l') (bare : c.started = [])
    (agrees : c.Agrees) (asks : message.isConnect = true ∨ message.isDisconnect = true) :
    d.retryTask = none := by
  have still : c.state ≠ .reconnecting → c.retryTask = none := Holding.Agrees.none_of agrees.retrying
  cases h with
  | stays last busy other =>
    rcases asks with hm | hm
    · rcases busy hm with hs | hs <;> exact still (by rw [hs]; nofun)
    · exact nomatch other.symm.trans hm
  | fails failing =>
    have found := failing.found bare
    rcases asks with hm | hm
    · exact nomatch found.asks.symm.trans hm
    · exact nomatch found.stays.symm.trans hm
  | connects from_ => rcases from_ with hs | hs <;> exact still (by rw [hs]; nofun)
  | reconnects | disconnects | stops | retries => rfl
  | installs => rcases asks with hm | hm <;> cases hm

/-- **A failure ends an attempt**: what fails went on before, and what goes on afterwards has just
begun or went on before. -/
theorem busy (h : Deal limit policy c l message d l') (bare : c.started = [])
    (silent : l.answers = []) (sane : ∀ n reason, policy n ≠ .broken reason)
    (up : ∀ cause, message = .closed c.generation cause → c.state = .connected) :
    l'.answers.length + d.state.isBusy.toNat ≤ c.state.isBusy.toNat + (openings d.started).length := by
  have dials : ∀ {d' : Holding} {endpoint : String} (before : Nat), d'.started = [] →
      l.answers.length + (d'.opening endpoint limit).state.isBusy.toNat ≤
        before + (openings (d'.opening endpoint limit).started).length := by
    intro d' endpoint before hd
    rw [Holding.started_opening_of_bare hd, silent]
    exact Nat.le_add_left 1 before
  cases h with
  | stays last busy other reason =>
    rw [l.answers_drop? reason, silent]
    exact Nat.le_trans (Nat.le_of_eq (Nat.zero_add _)) (Nat.le_add_right _ _)
  | @fails _ d₀ failing cause =>
    have idle : (d₀.fail policy).state.isBusy = false := by
      unfold Holding.fail
      cases hv : policy d₀.lose.attempt with
      | wait delay => rfl
      | giveUp => rfl
      | broken reason => exact absurd hv (sane _ reason)
    rw [l.answers_fail, silent, idle, failing.busy up]
    exact Nat.le_add_right 1 _
  | connects | retries => exact dials _ bare
  | reconnects => exact dials _ (c.started_cancelRetry.trans bare)
  | installs from_ =>
    rw [from_, silent]
    exact Nat.le_add_right 1 _
  | disconnects =>
    show l.answers.length + 0 ≤ _
    rw [silent]
    exact Nat.zero_le _
  | stops =>
    rw [Course.state_halt, silent, List.length_nil, Nat.zero_add]
    exact Nat.le_add_right _ _

end Deal

end LiveMetrics
