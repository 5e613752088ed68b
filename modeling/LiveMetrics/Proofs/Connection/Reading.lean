import LiveMetrics.Proofs.Connection.Retrying
import LiveMetrics.Proofs.Connection.Serving

/-!
# What is read from the connections

A connection is read by one task at most, the one that is started when it is taken into use
(`World.Linked.apart`), and this task passes on what it reads: the letters that it has sent bring
the frames that it has read, in their order (`Passes.all`), its last letter comes after all others
(`Orderly`), and if that reports the end of the stream then the peer has closed the connection and
everything it had sent has been read (`Passes.ended`).

1. `Unread`: in most steps nothing is read. What the others pass on is listed in `Feeds`.
2. `linked_of_run`: tasks and connections belong together.
3. `passing_of_run`: what a task has passed on is what it has read.
-/

set_option autoImplicit false

namespace LiveMetrics

open Loopback (Incoming)

/-- The connection that a task reads. -/
def Task.link? : Task → Option Nat
  | .reading _ link => some link
  | _ => none

def Message.frame? {κ : Type} : Message κ → Option Frame
  | .inbound _ frame => some frame
  | _ => none

theorem readings_eq (tasks : List (Nat × Task)) :
    readings tasks = tasks.filterMap fun p => p.2.link? := by
  unfold readings
  congr 1
  funext p
  obtain ⟨task, what⟩ := p
  cases what <;> rfl

/-- **A connection begins to be read** only when it is offered. -/
theorem Deal.reads {κ : Type} {limit : Span} {policy : Nat → Verdict} {c d : Holding} {l l' : Ledger}
    {message : Message κ} (h : Deal limit policy c l message d l') (bare : c.started = []) :
    (readings d.started).Sublist message.offer?.toList := by
  have none_ : ∀ {d' : Holding}, d'.started = [] → readings d'.started = [] := by
    intro d' hd
    rw [hd]
    rfl
  have dials : ∀ {d' : Holding} {endpoint : String}, d'.started = [] →
      readings (d'.opening endpoint limit).started = [] := by
    intro d' endpoint hd
    rw [Holding.started_opening_of_bare hd]
    rfl
  have settles : ∀ {link now : Nat} {interval : Span},
      readings (c.settle link now interval).started = [link] := by
    intro link now interval
    rw [Holding.started_settle, bare]
    rfl
  cases h with
  | stays => exact none_ bare ▸ List.nil_sublist _
  | fails failing =>
    rw [Holding.started_fail, readings_append, Holding.readings_waiting, List.append_nil]
    cases failing with
    | writing | closed => exact none_ bare ▸ List.nil_sublist _
    | refused =>
      have still : ({ c with openTask := none } : Holding).started = [] := bare
      exact none_ still ▸ List.nil_sublist _
    | opened => exact settles ▸ List.Sublist.refl _
  | connects | retries => exact dials bare ▸ List.nil_sublist _
  | reconnects => exact dials (c.started_cancelRetry.trans bare) ▸ List.nil_sublist _
  | installs => exact settles ▸ List.Sublist.refl _
  | disconnects => exact none_ (c.started_disconnect.trans bare) ▸ List.nil_sublist _
  | stops => exact none_ (c.started_halt.trans bare) ▸ List.nil_sublist _

namespace World

variable {κ σ : Type}

/-! ## Connections and the tasks that read them -/

/-- The connections that are or have been read. -/
def watched (jobs : List Job) : List Nat := jobs.filterMap fun j => j.what.link?

def link? (jobs : List Job) (task : Nat) : Option Nat := (jobs[task]?).bind fun j => j.what.link?

section Watched

variable {jobs jobs' : List Job} {task task' link : Nat}

theorem watched_modify {f : Job → Job} (same : ∀ j, (f j).what = j.what) (jobs : List Job) (n : Nat) :
    watched (jobs.modify n f) = watched jobs := by
  induction jobs generalizing n with
  | nil => cases n <;> rfl
  | cons j rest ih =>
    cases n with
    | zero =>
      unfold watched
      rw [List.modify_zero_cons, List.filterMap_cons, List.filterMap_cons, same]
    | succ n =>
      unfold watched at ih ⊢
      rw [List.modify_succ_cons, List.filterMap_cons, List.filterMap_cons, ih]

/-- A turn begins to read the connections of the tasks that it starts. -/
theorem watched_jobs (c : Holding) (now : Nat) (base : List Job) :
    watched (c.jobs now base) = watched base ++ readings c.started := by
  unfold Holding.jobs Holding.started
  generalize c.marks = marks
  induction marks generalizing base with
  | nil => exact (List.append_nil _).symm
  | cons m rest ih =>
    rw [List.foldl_cons, ih, readings_eq, readings_eq]
    cases m with
    | start n what =>
      show watched (base ++ [Job.new now what]) ++ _ = _
      unfold watched
      rw [List.filterMap_append, List.append_assoc]
      congr 1
      cases what <;> rfl
    | abort n =>
      have same := watched_modify (f := fun j => { j with aborted := true }) (fun _ => rfl) base n
      exact congrArg (· ++ _) same
    | publish was is => rfl
    | failure attempt delay => rfl

theorem Ages.whats (h : Ages jobs jobs') : jobs'.map Job.what = jobs.map Job.what := by
  refine List.ext_getElem? fun n => ?_
  rw [List.getElem?_map, List.getElem?_map]
  cases hj : jobs[n]? with
  | none =>
    rw [List.getElem?_eq_none (h.length ▸ List.getElem?_eq_none_iff.mp hj)]
  | some j =>
    obtain ⟨j', hj', hl⟩ := h.later n j hj
    rw [hj']
    exact congrArg some hl.what

theorem Ages.watched (h : Ages jobs jobs') : World.watched jobs' = World.watched jobs := by
  have as_map : ∀ js : List Job, World.watched js = (js.map Job.what).filterMap Task.link? := by
    intro js
    rw [List.filterMap_map]
    rfl
  rw [as_map, as_map, h.whats]

theorem Ages.link? (h : Ages jobs jobs') (task : Nat) :
    World.link? jobs' task = World.link? jobs task := by
  have as_map : ∀ js : List Job, World.link? js task = ((js.map Job.what)[task]?).bind Task.link? := by
    intro js
    unfold World.link?
    rw [List.getElem?_map, Option.bind_map]
    rfl
  rw [as_map, as_map, h.whats]

theorem mem_watched (reads : link? jobs task = some link) : link ∈ watched jobs := by
  obtain ⟨j, hj, hw⟩ := Option.bind_eq_some_iff.mp reads
  exact List.mem_filterMap.mpr ⟨j, List.mem_of_getElem? hj, hw⟩

theorem exists_of_mem_watched (reads : link ∈ watched jobs) : ∃ task, link? jobs task = some link := by
  obtain ⟨j, hj, hw⟩ := List.mem_filterMap.mp reads
  obtain ⟨task, hn⟩ := List.getElem?_of_mem hj
  exact ⟨task, Option.bind_eq_some_iff.mpr ⟨j, hn, hw⟩⟩

theorem link?_inj (apart : (watched jobs).Nodup) (reads : link? jobs task = some link)
    (reads' : link? jobs task' = some link) : task = task' := by
  obtain ⟨j, hj, hw⟩ := Option.bind_eq_some_iff.mp reads
  obtain ⟨j', hj', hw'⟩ := Option.bind_eq_some_iff.mp reads'
  obtain ⟨hn, rfl⟩ := List.getElem?_eq_some_iff.mp hj
  obtain ⟨hn', rfl⟩ := List.getElem?_eq_some_iff.mp hj'
  have sorted := List.pairwise_iff_getElem.mp (List.pairwise_filterMap.mp apart)
  rcases Nat.lt_trichotomy task task' with h | h | h
  · exact absurd rfl (sorted _ _ hn hn' h link hw link hw')
  · exact h
  · exact absurd rfl (sorted _ _ hn' hn h link hw' link hw)

theorem link?_turn [Callback κ σ] {w : World κ σ} (letter : Letter κ) (rest : List (Letter κ))
    (outcomes : Nat → Nat → WriteOutcome) (old : task < w.jobs.length) :
    link? (w.turn letter rest outcomes).jobs task = link? w.jobs task := by
  have hj := List.getElem?_eq_getElem old
  obtain ⟨a, ha, -⟩ := old_job w letter rest outcomes hj
  unfold link?
  rw [ha, hj]
  rfl

theorem Running.link? {w : World κ σ} {g : UInt64} (runs : w.Running task (.reading g link)) :
    World.link? w.jobs task = some link := by
  obtain ⟨j, hj, hw, -⟩ := runs
  exact Option.bind_eq_some_iff.mpr ⟨j, hj, by rw [hw]; rfl⟩

end Watched

/-! ## What comes in -/

/-- What may become of a connection by itself: the peer sends, until it closes. -/
structure Link.Grows (l l' : Link) : Prop where
  sent : l.sent <+: l'.sent
  closed : l.closed = true → l'.closed = true ∧ l'.sent = l.sent

theorem Link.Grows.refl (l : Link) : l.Grows l := ⟨List.prefix_rfl, fun h => ⟨h, rfl⟩⟩

theorem Link.Grows.trans {l l' l'' : Link} (h : l.Grows l') (h' : l'.Grows l'') : l.Grows l'' := by
  refine ⟨h.sent.trans h'.sent, fun closed => ?_⟩
  obtain ⟨closed', same⟩ := h.closed closed
  obtain ⟨closed'', same'⟩ := h'.closed closed'
  exact ⟨closed'', same'.trans same⟩

/-- What has been sent stays in its place. -/
theorem Link.Grows.take {l l' : Link} (h : l.Grows l') (bound : l.read ≤ l.sent.length) :
    l'.sent.take l.read = l.sent.take l.read := by
  obtain ⟨more, he⟩ := h.sent
  rw [← he, List.take_append_of_le_length bound]

/-- No connection opens and nothing is read. -/
structure Unread (w w' : World κ σ) : Prop where
  length : w'.links.length = w.links.length
  links : ∀ (n : Nat) (l : Link), w.links[n]? = some l →
    ∃ l', w'.links[n]? = some l' ∧ l.Grows l' ∧ l'.read = l.read

namespace Unread

variable {w w' w'' : World κ σ}

theorem of_links (h : w'.links = w.links) : Unread w w' :=
  ⟨by rw [h], fun n l hl => ⟨l, by rw [h]; exact hl, .refl l, rfl⟩⟩

theorem trans (h : Unread w w') (h' : Unread w' w'') : Unread w w'' := by
  refine ⟨h'.length.trans h.length, fun n l hl => ?_⟩
  obtain ⟨l', hl', grows, read⟩ := h.links n l hl
  obtain ⟨l'', hl'', grows', read'⟩ := h'.links n l' hl'
  exact ⟨l'', hl'', grows.trans grows', read'.trans read⟩

theorem onLink {link : Nat} {f : Link → Link} (grows : ∀ l, w.links[link]? = some l → l.Grows (f l))
    (read : ∀ l, (f l).read = l.read) : Unread w (w.onLink link f) := by
  refine ⟨List.length_modify .., fun n l hl => ?_⟩
  by_cases hn : link = n
  · subst hn
    exact ⟨f l, by simp [World.onLink, hl], grows l hl, read l⟩
  · exact ⟨l, by simp [World.onLink, hl, hn], .refl l, rfl⟩

theorem apply (w : World κ σ) (e : Effect) : Unread w (w.apply e) := by
  cases e with
  | wrote link frame => exact onLink (fun l _ => ⟨List.prefix_rfl, fun h => ⟨h, rfl⟩⟩) fun _ => rfl
  | _ => exact of_links rfl

theorem foldl_apply (w : World κ σ) (effects : List Effect) :
    Unread w (effects.foldl World.apply w) := by
  induction effects generalizing w with
  | nil => exact of_links rfl
  | cons e rest ih => exact (apply w e).trans (ih _)

theorem earlier (h : Unread w w') {n : Nat} {l' : Link} (hl : w'.links[n]? = some l') :
    ∃ l, w.links[n]? = some l ∧ l.Grows l' ∧ l'.read = l.read := by
  have hn : n < w.links.length := h.length ▸ (List.getElem?_eq_some_iff.mp hl).1
  obtain ⟨l₁, hl₁, grows, read⟩ := h.links n _ (List.getElem?_eq_getElem hn)
  obtain rfl := Option.some.inj (hl.symm.trans hl₁)
  exact ⟨_, List.getElem?_eq_getElem hn, grows, read⟩

variable [Callback κ σ]

theorem turn (w : World κ σ) (letter : Letter κ) (rest : List (Letter κ))
    (outcomes : Nat → Nat → WriteOutcome) : Unread w (w.turn letter rest outcomes) := by
  let ready : World κ σ := { w with
    manager := (w.handling letter outcomes).manager
    shared := (w.handling letter outcomes).shared
    mailbox := rest
    history := w.history ++ [w.handled letter outcomes] }
  have begins : Unread w ready := of_links rfl
  rw [turn_eq]
  exact (begins.trans (foldl_apply _ _)).trans (of_links (links_close _))

end Unread


/-- What a step without the manager does with what comes in: a new connection is offered, a frame is
read and passed on, or the end of the stream is reported; in any other step nothing is read, and the
letters tell of none of that. -/
inductive Feeds (w w' : World κ σ) : List (Letter κ) → Prop where
  | calm {letters : List (Letter κ)} (unread : Unread w w')
      (offer : ∀ letter ∈ letters, letter.message.offer? = none)
      (frame : ∀ letter ∈ letters, letter.message.frame? = none)
      (goes : ∀ letter ∈ letters, ∀ g, letter.message ≠ .closed g .streamEnded) : Feeds w w' letters
  | opens {task : Nat} {g : UInt64} (links : w'.links = w.links ++ [⟨[], false, 0, []⟩]) :
      Feeds w w' [⟨some task, .opened g w.links.length⟩]
  | reads {task link : Nat} {g : UInt64} {l : Link} {frame : Frame}
      (runs : w.Running task (.reading g link)) (there : w.links[link]? = some l)
      (next : l.sent[l.read]? = some (.frame frame))
      (links : w'.links = w.links.modify link fun l => { l with read := l.read + 1 }) :
      Feeds w w' [⟨some task, .inbound g frame⟩]
  | ends {task link : Nat} {g : UInt64} {l : Link} (runs : w.Running task (.reading g link))
      (there : w.links[link]? = some l) (closed : l.closed = true) (last : l.read = l.sent.length)
      (links : w'.links = w.links) : Feeds w w' [⟨some task, .closed g .streamEnded⟩]

namespace Feeds

variable {w w' : World κ σ}

theorem quiet (unread : Unread w w') : Feeds w w' ([] : List (Letter κ)) :=
  .calm unread (List.forall_mem_nil _) (List.forall_mem_nil _) (List.forall_mem_nil _)

theorem tells {sender : Option Nat} {message : Message κ} (unread : Unread w w')
    (offer : message.offer? = none) (frame : message.frame? = none)
    (goes : ∀ g, message ≠ .closed g .streamEnded) : Feeds w w' [⟨sender, message⟩] := by
  refine .calm unread ?_ ?_ ?_ <;> intro letter hl <;> rw [List.mem_singleton.mp hl]
  · exact offer
  · exact frame
  · exact goes

theorem asks {message : Message κ} (unread : Unread w w') (request : message.isRequest = true) :
    Feeds w w' [⟨none, message⟩] := by
  cases message with
  | opened | openFailed | inbound | closed | retry | tick => cases request
  | _ => exact tells unread rfl rfl nofun

end Feeds

/-- Letters come last in the mailbox, unless that is closed. -/
def Posts (w w' : World κ σ) (letters : List (Letter κ)) : Prop :=
  w'.mailbox = w.mailbox ++ if w.manager.phase = .stopped then [] else letters

namespace Posts

variable (w : World κ σ)

theorem none_ {w' : World κ σ} (mailbox : w'.mailbox = w.mailbox) : Posts w w' [] := by
  unfold Posts
  rw [mailbox, ite_self, List.append_nil]

theorem post (sender : Option Nat) (message : Message κ) :
    Posts w (w.post sender message) [⟨sender, message⟩] := by
  unfold Posts World.post
  split
  · exact (List.append_nil _).symm
  · rfl

end Posts

theorem Step.feeds [Callback κ σ] {w w' : World κ σ} (h : Step w w') :
    (∃ letter rest outcomes, w.manager.phase = .running ∧ w.mailbox = letter :: rest ∧
      w' = w.turn letter rest outcomes) ∨ ∃ letters, Posts w w' letters ∧ Feeds w w' letters := by
  cases h with
  | turns runs next outcomes => exact .inl ⟨_, _, outcomes, runs, next, rfl⟩
  | asks request => exact .inr ⟨_, .post .., .asks (.of_links (links_post ..)) request⟩
  | waits | stirs | cancels => exact .inr ⟨_, .none_ w rfl, .quiet (.of_links rfl)⟩
  | sends there open_ item =>
    refine .inr ⟨_, .none_ w rfl, .quiet (.onLink (fun l hl => ?_) fun _ => rfl)⟩
    obtain rfl := Option.some.inj (there.symm.trans hl)
    exact ⟨List.prefix_append .., fun closed => nomatch open_.symm.trans closed⟩
  | leaves link =>
    refine .inr ⟨_, .none_ w rfl, .quiet (.onLink (fun l _ => ?_) fun _ => rfl)⟩
    exact ⟨List.prefix_rfl, fun _ => ⟨rfl, rfl⟩⟩
  | parts left frames what =>
    refine .inr ⟨_, .none_ w rfl, .quiet (Unread.trans (.onLink (fun l _ => ?_) ?_) (.of_links rfl))⟩
    · exact ⟨List.prefix_rfl, fun h => ⟨h, rfl⟩⟩
    · exact fun _ => rfl
  | opens runs => exact .inr ⟨_, Posts.post w.joined .., .opens (links_post ..)⟩
  | refuses | expires | breaks | retries =>
    exact .inr ⟨_, Posts.post w .., .tells (.of_links (links_post ..)) rfl rfl nofun⟩
  | ticks => exact .inr ⟨_, Posts.post w .., .tells (.of_links (links_post ..)) rfl rfl nofun⟩
  | ends runs there closed last =>
    exact .inr ⟨_, Posts.post w .., .ends runs there closed last (links_post ..)⟩
  | reads runs there next =>
    refine .inr ⟨_, Posts.post (w.onLink _ _) .., .reads runs there next (links_post ..)⟩

theorem Step.apart_and_feeds [Callback κ σ] {w w' : World κ σ} (h : Step w w') :
    (∃ letter rest outcomes, w.manager.phase = .running ∧ w.mailbox = letter :: rest ∧
      w' = w.turn letter rest outcomes) ∨
    (∃ letters, Apart w w' letters) ∧ ∃ letters, Posts w w' letters ∧ Feeds w w' letters := by
  rcases h.turn_or_apart with turn | apart
  · exact .inl turn
  · exact h.feeds.imp_right fun feeds => ⟨apart, feeds⟩

/-! ## Tasks and connections belong together -/

/-- What holds of the connections between any two steps of a run: each is offered once and read by one
task at most, and nothing is read from a connection that no task reads. -/
structure Linked (w : World κ σ) : Prop where
  apart : (watched w.jobs ++ w.offers).Nodup
  there : ∀ link ∈ watched w.jobs ++ w.offers, link < w.links.length
  unread : ∀ (link : Nat) (l : Link), w.links[link]? = some l → link ∉ watched w.jobs → l.read = 0

namespace Linked

variable {w w' : World κ σ}

theorem offers_of_silent {letters : List (Letter κ)} (posts : Posts w w' letters)
    (offer : ∀ letter ∈ letters, letter.message.offer? = none) : w'.offers = w.offers := by
  unfold offers
  rw [posts, List.filterMap_append]
  have none_ : letters.filterMap Letter.offer? = [] := List.filterMap_eq_nil_iff.mpr offer
  split
  · exact List.append_nil _
  · rw [none_, List.append_nil]

theorem of_unread (h : Linked w) (reads : watched w'.jobs = watched w.jobs)
    (offers : w'.offers = w.offers) (unread : Unread w w') : Linked w' := by
  refine ⟨?_, ?_, fun link l' hl hw => ?_⟩
  · rw [reads, offers]; exact h.apart
  · rw [reads, offers, unread.length]; exact h.there
  · obtain ⟨l, hl, -, read⟩ := unread.earlier hl
    exact read.trans (h.unread link l hl (reads ▸ hw))

theorem opens (h : Linked w) (reads : watched w'.jobs = watched w.jobs) {task : Nat} {g : UInt64}
    (posts : Posts w w' [⟨some task, .opened g w.links.length⟩])
    (links : w'.links = w.links ++ [⟨[], false, 0, []⟩]) : Linked w' := by
  have offers : w'.offers.Sublist (w.offers ++ [w.links.length]) := by
    unfold World.offers
    rw [posts, List.filterMap_append]
    refine List.Sublist.append_left ?_ _
    split
    · exact List.nil_sublist _
    · exact List.Sublist.refl _
  have known : (watched w'.jobs ++ w'.offers).Sublist
      (watched w.jobs ++ w.offers ++ [w.links.length]) := by
    rw [reads, List.append_assoc]
    exact offers.append_left _
  refine ⟨?_, fun link hl => ?_, fun link l hl hw => ?_⟩
  · refine known.nodup ?_
    rw [← List.concat_eq_append]
    exact .concat (fun hm => Nat.lt_irrefl _ (h.there _ hm)) h.apart
  · rw [links, List.length_append]
    rcases List.mem_append.mp (known.subset hl) with hl | hl
    · exact Nat.lt_succ_of_lt (h.there link hl)
    · rw [List.mem_singleton.mp hl]
      exact Nat.lt_succ_self _
  · rw [links] at hl
    by_cases hn : link < w.links.length
    · rw [List.getElem?_append_left hn] at hl
      exact h.unread link l hl (reads ▸ hw)
    · rw [List.getElem?_append_right (Nat.le_of_not_lt hn)] at hl
      rw [List.mem_singleton.mp (List.mem_of_getElem? hl)]

theorem feeds (h : Linked w) {letters posted : List (Letter κ)} (apart : Apart w w' letters)
    (posts : Posts w w' posted) (feeds : Feeds w w' posted) : Linked w' := by
  have reads := apart.jobs.watched
  have silent : ∀ {letter : Letter κ}, letter.message.offer? = none → Posts w w' [letter] →
      w'.offers = w.offers := by
    intro letter none_ posts
    refine offers_of_silent posts fun l hl => ?_
    rw [List.mem_singleton.mp hl]
    exact none_
  cases feeds with
  | calm unread offer => exact h.of_unread reads (offers_of_silent posts offer) unread
  | opens links => exact h.opens reads posts links
  | ends runs there closed last links =>
    exact h.of_unread reads (silent rfl posts) (.of_links links)
  | reads runs there next links =>
    rename_i task link g l frame
    refine ⟨?_, ?_, fun n l' hl hw => ?_⟩
    · rw [reads, silent rfl posts]; exact h.apart
    · rw [reads, silent rfl posts, links, List.length_modify]; exact h.there
    · -- the connection is read by the task that reads now
      rw [links] at hl
      by_cases hn : link = n
      · subst hn
        exact absurd (mem_watched runs.link?) (reads ▸ hw)
      · rw [List.getElem?_modify_ne _ _ hn] at hl
        exact h.unread n l' hl (reads ▸ hw)

variable [Callback κ σ] {letter : Letter κ} {rest : List (Letter κ)}
  {outcomes : Nat → Nat → WriteOutcome}

/-- A connection that begins to be read was offered by the letter. -/
theorem turn (h : Linked w) (steady : Steady w) (hp : w.manager.phase ≠ .stopped)
    (next : w.mailbox = letter :: rest) : Linked (w.turn letter rest outcomes) := by
  let w' := w.turn letter rest outcomes
  have reads : watched w'.jobs =
      watched w.jobs ++ readings (w.handling letter outcomes).holding.started := by
    show watched (w.turn letter rest outcomes).jobs = _
    rw [jobs_turn, watched_jobs]
  have offered : (readings (w.handling letter outcomes).holding.started).Sublist letter.offer?.toList :=
    (steady.deal hp letter outcomes).reads rfl
  have offers : w'.offers.Sublist (rest.filterMap Letter.offer?) := by
    refine List.Sublist.filterMap _ ?_
    show (w.turn letter rest outcomes).mailbox.Sublist rest
    rw [mailbox_turn]
    split
    · exact List.nil_sublist _
    · exact List.Sublist.refl _
  have known : (watched w'.jobs ++ w'.offers).Sublist (watched w.jobs ++ w.offers) := by
    rw [reads, Serves.offers_next next, List.append_assoc]
    exact (offered.append offers).append_left _
  have unread := Unread.turn w letter rest outcomes
  refine ⟨known.nodup h.apart, fun link hl => ?_, fun link l' hl hw => ?_⟩
  · rw [unread.length]
    exact h.there link (known.subset hl)
  · obtain ⟨l, hl, -, read⟩ := unread.earlier hl
    refine read.trans (h.unread link l hl fun hm => hw ?_)
    show link ∈ watched w'.jobs
    rw [reads]
    exact List.mem_append_left _ hm

end Linked

/-! ## What has been passed on -/

/-- The frame that a letter brings from a task. -/
def Letter.from? (task : Nat) (letter : Letter κ) : Option Frame :=
  if letter.sender = some task then letter.message.frame? else none

/-- The frames that a task has passed on. -/
def passed (task : Nat) (letters : List (Letter κ)) : List Frame :=
  letters.filterMap (Letter.from? task)

theorem passed_append (task : Nat) (first rest : List (Letter κ)) :
    passed task (first ++ rest) = passed task first ++ passed task rest := List.filterMap_append

theorem passed_of_silent {task : Nat} {letters : List (Letter κ)}
    (silent : ∀ letter ∈ letters, letter.sender ≠ some task) : passed task letters = [] := by
  refine List.filterMap_eq_nil_iff.mpr fun letter hl => ?_
  exact if_neg (silent letter hl)

theorem passed_of_dry {letters : List (Letter κ)}
    (dry : ∀ letter ∈ letters, letter.message.frame? = none) (task : Nat) :
    passed task letters = [] := by
  refine List.filterMap_eq_nil_iff.mpr fun letter hl => ?_
  unfold Letter.from?
  rw [dry letter hl, ite_self]

theorem Posts.letters {w w' : World κ σ} {letters : List (Letter κ)} (posts : Posts w w' letters)
    (history : w'.history = w.history) :
    w'.letters = w.letters ++ if w.manager.phase = .stopped then [] else letters := by
  unfold World.letters
  rw [history, posts, List.append_assoc]

theorem letters_next {w : World κ σ} {letter : Letter κ} {rest : List (Letter κ)}
    (next : w.mailbox = letter :: rest) :
    w.letters = w.history.map Handled.letter ++ [letter] ++ rest := by
  unfold World.letters
  rw [next, List.append_assoc]
  rfl

/-- The letters that are left after a turn are the first ones of all, or all. -/
theorem letters_turn [Callback κ σ] {w : World κ σ} {letter : Letter κ} {rest : List (Letter κ)}
    (next : w.mailbox = letter :: rest) (outcomes : Nat → Nat → WriteOutcome) :
    (w.turn letter rest outcomes).letters <+: w.letters ∧
      ((w.turn letter rest outcomes).manager.phase ≠ .stopped →
        (w.turn letter rest outcomes).letters = w.letters) := by
  have history : (w.turn letter rest outcomes).history.map Handled.letter =
      w.history.map Handled.letter ++ [letter] := by
    rw [history_turn, List.map_append]
    rfl
  rw [manager_turn, letters_next next]
  unfold World.letters
  rw [history, mailbox_turn]
  by_cases hs : (w.handling letter outcomes).manager.phase = .stopped
  · rw [if_pos hs, List.append_nil]
    exact ⟨List.prefix_append .., fun h => absurd hs h⟩
  · rw [if_neg hs]
    exact ⟨List.prefix_rfl, fun _ => rfl⟩

/-- The last letter of a task comes after all others of the task. -/
def Orderly (letters : List (Letter κ)) : Prop :=
  letters.Pairwise fun x y => ∀ task, x.sender = some task → x.message.isLast = true →
    y.sender ≠ some task

/-- What a task that reads a connection has passed on so far: what it has read, as far as the mailbox
was open; and if it has reported the end of the stream, there is nothing else to be read. -/
structure Passes (w : World κ σ) (task : Nat) (l : Link) : Prop where
  bound : l.read ≤ l.sent.length
  first : (passed task w.letters).map Incoming.frame <+: l.sent.take l.read
  all : w.manager.phase ≠ .stopped →
    (passed task w.letters).map Incoming.frame = l.sent.take l.read
  ended : ∀ g, ⟨some task, .closed g .streamEnded⟩ ∈ w.letters →
    l.closed = true ∧ l.read = l.sent.length

/-- What holds of the letters between any two steps of a run. -/
structure Passing (w : World κ σ) : Prop where
  orderly : Orderly w.letters
  passes : ∀ (task link : Nat) (l : Link), link? w.jobs task = some link →
    w.links[link]? = some l → Passes w task l

namespace Passes

variable {w w' : World κ σ} {task : Nat} {l l' : Link}

/-- Nothing has been read from the connection, and the task has passed on nothing. -/
theorem of_quiet (h : Passes w task l) (grows : l.Grows l') (read : l'.read = l.read)
    (manager : w'.manager = w.manager) {more : List (Letter κ)}
    (letters : w'.letters = w.letters ++ more) (quiet : passed task more = [])
    (ended : ∀ g, ⟨some task, .closed g .streamEnded⟩ ∈ more →
      l.closed = true ∧ l.read = l.sent.length) : Passes w' task l' := by
  have same : passed task w'.letters = passed task w.letters := by
    rw [letters, passed_append, quiet, List.append_nil]
  have taken : l'.sent.take l'.read = l.sent.take l.read := by rw [read, grows.take h.bound]
  refine ⟨?_, ?_, fun hp => ?_, fun g hl => ?_⟩
  · rw [read]
    exact Nat.le_trans h.bound grows.sent.length_le
  · rw [same, taken]
    exact h.first
  · rw [same, taken]
    exact h.all (manager ▸ hp)
  · have old : l.closed = true ∧ l.read = l.sent.length := by
      rw [letters] at hl
      rcases List.mem_append.mp hl with hl | hl
      · exact h.ended g hl
      · exact ended g hl
    obtain ⟨closed, sent⟩ := grows.closed old.1
    exact ⟨closed, by rw [read, sent]; exact old.2⟩

theorem reads (h : Passes w task l) {frame : Frame} (next : l.sent[l.read]? = some (.frame frame))
    (manager : w'.manager = w.manager) {g : UInt64} (posts : w'.letters = w.letters ++
      if w.manager.phase = .stopped then [] else [⟨some task, .inbound g frame⟩]) :
    Passes w' task { l with read := l.read + 1 } := by
  have short : l.read < l.sent.length := (List.getElem?_eq_some_iff.mp next).1
  have taken : l.sent.take (l.read + 1) = l.sent.take l.read ++ [.frame frame] := by
    rw [List.take_add_one, next]
    rfl
  have one : passed task [(⟨some task, .inbound g frame⟩ : Letter κ)] = [frame] := by
    unfold passed Letter.from?
    simp [Message.frame?]
  refine ⟨short, ?_, fun hp => ?_, fun g' hl => ?_⟩
  · show _ <+: l.sent.take (l.read + 1)
    rw [posts, passed_append, List.map_append, taken]
    by_cases hs : w.manager.phase = .stopped
    · have nothing : passed task ([] : List (Letter κ)) = [] := rfl
      rw [if_pos hs, nothing, List.map_nil, List.append_nil]
      exact h.first.trans (List.prefix_append ..)
    · rw [if_neg hs, one, h.all hs]
      exact List.prefix_rfl
  · rw [manager] at hp
    show _ = l.sent.take (l.read + 1)
    rw [posts, if_neg hp, passed_append, List.map_append, one, h.all hp, taken]
    rfl
  · rw [posts] at hl
    have old : ⟨some task, .closed g' .streamEnded⟩ ∈ w.letters := by
      rcases List.mem_append.mp hl with hl | hl
      · exact hl
      · split at hl
        · cases hl
        · cases List.mem_singleton.mp hl
    have := (h.ended g' old).2
    omega

theorem of_new (paced : Paced w) (new : w.jobs[task]? = none) (unread : l.read = 0) :
    Passes w task l := by
  have silent : ∀ letter ∈ w.letters, letter.sender ≠ some task := by
    intro letter hl he
    cases paced.traceable letter hl with
    | request => cases he
    | report there =>
      cases he
      exact nomatch new.symm.trans there
  have nothing : passed task w.letters = [] := passed_of_silent silent
  refine ⟨?_, ?_, fun _ => ?_, fun g hl => absurd rfl (silent _ hl)⟩
  · rw [unread]
    exact Nat.zero_le _
  · rw [nothing]
    exact List.nil_prefix
  · rw [nothing, unread]
    rfl

/-- A turn passes nothing on, but the mailbox may be closed. -/
theorem turn [Callback κ σ] (h : Passes w task l) (hp : w.manager.phase ≠ .stopped) {letter : Letter κ}
    {rest : List (Letter κ)} (next : w.mailbox = letter :: rest) (outcomes : Nat → Nat → WriteOutcome)
    (grows : l.Grows l') (read : l'.read = l.read) : Passes (w.turn letter rest outcomes) task l' := by
  obtain ⟨first, all⟩ := letters_turn next outcomes
  have taken : l'.sent.take l'.read = l.sent.take l.read := by rw [read, grows.take h.bound]
  refine ⟨?_, ?_, fun going => ?_, fun g hl => ?_⟩
  · rw [read]
    exact Nat.le_trans h.bound grows.sent.length_le
  · rw [taken]
    exact ((first.filterMap _).map _).trans h.first
  · rw [taken, all going]
    exact h.all hp
  · obtain ⟨closed, last⟩ := h.ended g (first.subset hl)
    obtain ⟨closed', sent⟩ := grows.closed closed
    exact ⟨closed', by rw [read, sent]; exact last⟩

end Passes

namespace Passing

variable {w w' : World κ σ}

/-- A task that sends a letter has not sent its last one. -/
theorem orderly_apart (h : Passing w) (paced : Paced w) {letters : List (Letter κ)}
    (apart : Apart w w' letters) : Orderly w'.letters := by
  rcases Paced.letters_apart apart with he | he <;> rw [he]
  · exact h.orderly
  · refine List.pairwise_append.mpr ⟨h.orderly, ?_, fun x hx y hy task hs last he => ?_⟩
    · match letters, apart.one with
      | [], _ => exact .nil
      | [_], _ => exact List.pairwise_singleton _ _
    · cases paced.traceable x hx with
      | request => cases hs
      | report there kind tag delivered =>
        cases hs
        cases apart.sent y hy with
        | request => cases he
        | report there' runs =>
          cases he
          obtain rfl := Option.some.inj (there.symm.trans there')
          exact nomatch runs.symm.trans (delivered last)

theorem feeds (h : Passing w) (linked : Linked w) (paced : Paced w) {letters posted : List (Letter κ)}
    (apart : Apart w w' letters) (posts : Posts w w' posted) (feeds : Feeds w w' posted) :
    Passing w' := by
  have sent := posts.letters apart.history
  have quiet : (∀ letter ∈ posted, letter.message.frame? = none) → ∀ task,
      passed task (if w.manager.phase = .stopped then [] else posted) = [] := by
    intro dry task
    split
    · rfl
    · exact passed_of_dry dry task
  have among : ∀ {letter : Letter κ}, letter ∈ (if w.manager.phase = .stopped then [] else posted) →
      letter ∈ posted := by
    intro letter hl
    split at hl
    · cases hl
    · exact hl
  refine ⟨h.orderly_apart paced apart, fun task link l' reads hl => ?_⟩
  rw [apart.jobs.link?] at reads
  have known := linked.there link (List.mem_append_left _ (mem_watched reads))
  cases feeds with
  | calm unread offer frame goes =>
    obtain ⟨l, hl, grows, read⟩ := unread.earlier hl
    exact (h.passes task link l reads hl).of_quiet grows read apart.manager sent (quiet frame task)
      fun g hg => absurd rfl (goes _ (among hg) g)
  | opens links =>
    rw [links, List.getElem?_append_left known] at hl
    refine (h.passes task link l' reads hl).of_quiet (.refl _) rfl apart.manager sent (quiet ?_ task)
      fun g hg => ?_
    · intro letter hl
      rw [List.mem_singleton.mp hl]
      rfl
    · cases List.mem_singleton.mp (among hg)
  | ends runs there closed last links =>
    rename_i task' link' g l
    rw [links] at hl
    refine (h.passes task link l' reads hl).of_quiet (.refl _) rfl apart.manager sent (quiet ?_ task)
      fun g hg => ?_
    · intro letter hl
      rw [List.mem_singleton.mp hl]
      rfl
    · cases List.mem_singleton.mp (among hg)
      obtain rfl := Option.some.inj (reads.symm.trans runs.link?)
      obtain rfl := Option.some.inj (hl.symm.trans there)
      exact ⟨closed, last⟩
  | reads runs there next links =>
    rename_i task' link' g l frame
    have reads' : link? w.jobs task' = some link' := runs.link?
    rw [links] at hl
    -- the frame is one of this task, or of another one, which reads another connection
    by_cases ht : task = task'
    · subst ht
      obtain rfl := Option.some.inj (reads.symm.trans reads')
      rw [List.getElem?_modify_eq, there] at hl
      obtain rfl := Option.some.inj hl
      exact (h.passes task link l reads there).reads next apart.manager sent
    · have other : link' ≠ link := by
        rintro rfl
        exact ht (link?_inj linked.apart.of_append_left reads reads')
      rw [List.getElem?_modify_ne _ _ other] at hl
      refine (h.passes task link l' reads hl).of_quiet (.refl _) rfl apart.manager sent ?_ fun g hg => ?_
      · refine passed_of_silent fun letter hl he => ?_
        rw [List.mem_singleton.mp (among hl)] at he
        exact ht (Option.some.inj he).symm
      · cases List.mem_singleton.mp (among hg)

variable [Callback κ σ] {letter : Letter κ} {rest : List (Letter κ)}
  {outcomes : Nat → Nat → WriteOutcome}

theorem turn (h : Passing w) (linked : Linked w) (paced : Paced w) (steady : Steady w)
    (hp : w.manager.phase ≠ .stopped) (next : w.mailbox = letter :: rest) :
    Passing (w.turn letter rest outcomes) := by
  have linked' : Linked (w.turn letter rest outcomes) := linked.turn steady hp next
  have apart := linked'.apart.of_append_left
  refine ⟨h.orderly.sublist (letters_turn next outcomes).1.sublist, fun task link l' reads hl => ?_⟩
  obtain ⟨l, hl, grows, read⟩ := (Unread.turn w letter rest outcomes).earlier hl
  refine Passes.turn ?_ hp next outcomes grows read
  by_cases old : task < w.jobs.length
  · exact h.passes task link l ((link?_turn letter rest outcomes old).symm.trans reads) hl
  · -- the connection begins to be read
    refine .of_new paced (List.getElem?_eq_none (Nat.le_of_not_lt old)) ?_
    refine linked.unread link l hl fun hm => ?_
    obtain ⟨reader, hr⟩ := exists_of_mem_watched hm
    obtain ⟨j, hj, -⟩ := Option.bind_eq_some_iff.mp hr
    have there : reader < w.jobs.length := (List.getElem?_eq_some_iff.mp hj).1
    have same := link?_inj apart reads ((link?_turn letter rest outcomes there).trans hr)
    exact old (same ▸ there)

end Passing

section Runs

variable [Callback κ σ] {config : Config} {policy : Nat → Verdict} {autoPong : Bool} {shared : σ}

/-- **Tasks and connections belong together.** -/
theorem linked_of_run {w : World κ σ} (run : Run config policy autoPong shared w) : Linked w := by
  induction run with
  | start => exact ⟨.nil, List.forall_mem_nil _, nofun⟩
  | step before step ih =>
    rcases step.apart_and_feeds with ⟨letter, rest, outcomes, runs, next, rfl⟩ |
      ⟨⟨letters, apart⟩, posted, posts, feeds⟩
    · exact ih.turn (steady_of_run before) (by rw [runs]; nofun) next
    · exact ih.feeds apart posts feeds

/-- **What a task has passed on is what it has read.** -/
theorem passing_of_run {w : World κ σ} (run : Run config policy autoPong shared w) : Passing w := by
  induction run with
  | start => exact ⟨.nil, nofun⟩
  | step before step ih =>
    have linked := linked_of_run before
    have paced := paced_of_run before
    rcases step.apart_and_feeds with ⟨letter, rest, outcomes, runs, next, rfl⟩ |
      ⟨⟨letters, apart⟩, posted, posts, feeds⟩
    · exact ih.turn linked paced (steady_of_run before) (by rw [runs]; nofun) next
    · exact ih.feeds linked paced apart posts feeds

end Runs

end World

end LiveMetrics
