import LiveMetrics.Proofs.Connection.Processing
import LiveMetrics.Proofs.Connection.Reading

/-!
# What the manager takes from the connections

Of the frames that a task passes on the manager takes those that it handles while it holds the task
(`Sound.takes_iff`), and drops the others without a trace. A task that is not held is never held
again, so what the manager has taken from a connection are the first frames that were passed on, and
all of them as long as the task is held (`Heeds`).

With what is passed on (`Passes`) this makes the frames that are processed the first frames that the
peer has sent, in their order and once each, and all of them if the connection is given up because the
stream has ended. Each of them is counted, and dispatched if it is data, in the turn that takes it, and a
turn that takes none leaves what frames change alone (`processed_of_reachable`).
-/

set_option autoImplicit false

namespace LiveMetrics

open Loopback (Incoming)
open Relation (ReflTransGen)

/-- The frame among what a peer has sent. -/
def Loopback.Incoming.frame? : Incoming → Option Frame
  | .frame f => some f
  | .error _ => none

theorem DisconnectCause.eq_streamEnded {cause : DisconnectCause} (kind : cause.kind = "stream_ended") :
    cause = .streamEnded := by
  cases cause with
  | streamEnded => rfl
  | _ => exact absurd kind (of_decide_eq_true rfl)

namespace World

variable {κ σ : Type}

/-- The frames that the peer has sent. -/
def Link.frames (l : Link) : List Frame := l.sent.filterMap Incoming.frame?

theorem frames_sent (frames : List Frame) :
    (frames.map Incoming.frame).filterMap Incoming.frame? = frames := by
  rw [List.filterMap_map]
  exact List.filterMap_some

theorem Link.frames_prefix {l : Link} {first : List Frame}
    (sent : first.map Incoming.frame <+: l.sent) : first <+: l.frames :=
  frames_sent first ▸ sent.filterMap Incoming.frame?

theorem Link.frames_eq {l : Link} {all : List Frame} (sent : all.map Incoming.frame = l.sent) :
    l.frames = all := by
  unfold frames
  rw [← sent, frames_sent]

/-! ## Frames that are taken -/

/-- The connection that the sender of a letter reads. -/
def source? (w : World κ σ) (letter : Letter κ) : Option Nat := letter.sender.bind (link? w.jobs)

/-- The frames of a connection that were processed in the course of a history. -/
def processed (w : World κ σ) (link : Nat) (history : List (Handled κ)) : List Frame :=
  history.filterMap fun r => if w.source? r.letter = some link then r.takes? else none

/-- The frames that were taken from a task. -/
def taken (task : Nat) (history : List (Handled κ)) : List Frame :=
  history.filterMap fun r => if r.letter.sender = some task then r.takes? else none

theorem taken_append (task : Nat) (first rest : List (Handled κ)) :
    taken task (first ++ rest) = taken task first ++ taken task rest := List.filterMap_append

theorem Handled.frame?_of_takes {r : Handled κ} {frame : Frame} (takes : r.takes? = some frame) :
    r.letter.message.frame? = some frame := by
  rw [(Handled.takes?_eq_some.mp takes).1]
  rfl

theorem processed_eq {w : World κ σ} (apart : (watched w.jobs).Nodup) {task link : Nat}
    (reads : link? w.jobs task = some link) (history : List (Handled κ)) :
    w.processed link history = taken task history := by
  unfold processed taken
  congr 1
  funext r
  have same : w.source? r.letter = some link ↔ r.letter.sender = some task := by
    unfold source?
    rw [Option.bind_eq_some_iff]
    constructor
    · rintro ⟨n, hn, hl⟩
      rw [hn, link?_inj apart hl reads]
    · exact fun hs => ⟨task, hs, reads⟩
  simp only [same]

/-! ## Reports of the present connection -/

section Reports

variable {w : World κ σ}

/-- A report of the present generation comes from the task that is held, unless it is about an
attempt. -/
theorem Sound.held_of_current (h : Sound w) {letter : Letter κ} (hl : letter ∈ w.mailbox) {s : Slot}
    (kind : letter.message.slot? = some s) (settled : s ≠ .opening)
    (tag : letter.message.generation? = some w.manager.generation) :
    ∃ task, letter.sender = some task ∧ w.manager.holding.slot s = some task := by
  cases h.letters letter hl with
  | request hr => exact nomatch (Message.slot?_of_request hr).symm.trans kind
  | report there kind' tag' last =>
    rename_i task message j
    have slot : j.what.slot = s := Option.some.inj (kind'.symm.trans kind)
    refine ⟨task, rfl, ?_⟩
    rcases h.timely _ hl task j rfl there (Option.some.inj (tag'.symm.trans tag)) with held | ⟨other, -⟩
    · rwa [slot] at held
    · exact absurd (slot.symm.trans other) settled

/-- A report of the present generation about what is read comes from the task that reads the open
connection. -/
theorem Sound.reader_of_current (h : Sound w) {letter : Letter κ} (hl : letter ∈ w.mailbox)
    (kind : letter.message.slot? = some .reading)
    (tag : letter.message.generation? = some w.manager.generation) :
    ∃ task link, letter.sender = some task ∧ w.manager.readerTask = some task ∧
      w.manager.writer = some link ∧ link? w.jobs task = some link := by
  obtain ⟨task, sender, held⟩ := h.held_of_current hl kind nofun tag
  obtain ⟨j, g, link, there, writer, what⟩ := h.placed.linked task held
  exact ⟨task, link, sender, held, writer, Option.bind_eq_some_iff.mpr ⟨j, there, by rw [what]; rfl⟩⟩

variable [Callback κ σ] {letter : Letter κ} {rest : List (Letter κ)}
  {outcomes : Nat → Nat → WriteOutcome} {task : Nat}

/-- **A frame is taken** exactly if the task that passes it on is held. -/
theorem Sound.takes_iff (h : Sound w) (hp : w.manager.phase ≠ .stopped)
    (next : w.mailbox = letter :: rest) (sender : letter.sender = some task) {frame : Frame}
    (brings : letter.message.frame? = some frame) :
    (w.handled letter outcomes).takes? = some frame ↔ w.manager.readerTask = some task := by
  have hl : letter ∈ w.mailbox := next ▸ List.mem_cons_self
  obtain ⟨g, message⟩ : ∃ g, letter.message = .inbound g frame := by
    unfold Message.frame? at brings
    split at brings
    · rename_i g _ hm
      exact ⟨g, by rw [hm, Option.some.inj brings]⟩
    · cases brings
  rw [Handled.takes?_eq_some]
  show letter.message = .inbound w.manager.generation frame ∧ w.manager.state = .connected ↔ _
  constructor
  · rintro ⟨current, -⟩
    obtain ⟨task', link, sender', held, -⟩ := h.reader_of_current hl (by rw [current]; rfl)
      (by rw [current]; rfl)
    obtain rfl := Option.some.inj (sender.symm.trans sender')
    exact held
  · intro held
    have up : w.manager.state = .connected := (h.agrees hp).reading.mp (by
      rw [show w.manager.holding.readerTask = some task from held]
      rfl)
    refine ⟨?_, up⟩
    cases h.letters letter hl with
    | request hr => cases sender
    | report there kind tag last =>
      rename_i task' message' j
      cases sender
      have present := h.owns.present .reading task j held there
      obtain rfl : message' = .inbound g frame := message
      show Message.inbound g frame = .inbound w.manager.generation frame
      rw [show w.manager.generation = g from present.symm.trans (Option.some.inj tag).symm]

end Reports

/-! ## The invariant -/

/-- What holds between any two steps of a run in which generations do not come round: from each task
the first frames that it has passed on were taken, and all of them while the task is held. -/
structure Heeds (w : World κ σ) : Prop where
  first : ∀ task, taken task w.history <+: passed task (w.history.map Handled.letter)
  all : ∀ task, w.manager.readerTask = some task →
    taken task w.history = passed task (w.history.map Handled.letter)

namespace Heeds

variable [Callback κ σ] {w : World κ σ} {letter : Letter κ} {rest : List (Letter κ)}
  {outcomes : Nat → Nat → WriteOutcome} {task : Nat}

/-- What an entry takes from a task that is held is what the task has passed on. -/
theorem taken_of_held (sound : Sound w) (hp : w.manager.phase ≠ .stopped)
    (next : w.mailbox = letter :: rest) (held : w.manager.readerTask = some task) :
    taken task [w.handled letter outcomes] = passed task [letter] := by
  have same : (if letter.sender = some task then (w.handled letter outcomes).takes? else none) =
      Letter.from? task letter := by
    unfold Letter.from?
    split
    · rename_i sender
      cases brings : letter.message.frame? with
      | some frame => exact (sound.takes_iff hp next sender brings).mpr held
      | none =>
        cases takes : (w.handled letter outcomes).takes? with
        | none => rfl
        | some frame => exact nomatch brings.symm.trans (Handled.frame?_of_takes takes)
    · rfl
  unfold taken passed
  rw [List.filterMap_cons, List.filterMap_cons, ← same]
  rfl

theorem taken_of_loose (sound : Sound w) (hp : w.manager.phase ≠ .stopped)
    (next : w.mailbox = letter :: rest) (loose : w.manager.readerTask ≠ some task) :
    taken task [w.handled letter outcomes] = [] := by
  refine List.filterMap_eq_nil_iff.mpr fun r hr => ?_
  rw [List.mem_singleton.mp hr]
  split
  · rename_i sender
    cases takes : (w.handled letter outcomes).takes? with
    | none => rfl
    | some frame =>
      exact absurd ((sound.takes_iff hp next sender (Handled.frame?_of_takes takes)).mp takes) loose
  · rfl

theorem turn (h : Heeds w) (sound : Sound w) (paced : Paced w) (hp : w.manager.phase ≠ .stopped)
    (next : w.mailbox = letter :: rest) : Heeds (w.turn letter rest outcomes) := by
  have history : (w.turn letter rest outcomes).history = w.history ++ [w.handled letter outcomes] :=
    history_turn ..
  have letters : ((w.turn letter rest outcomes).history.map Handled.letter) =
      w.history.map Handled.letter ++ [letter] := by
    rw [history, List.map_append]
    rfl
  have extends_ : ∀ task, w.manager.readerTask = some task →
      taken task (w.turn letter rest outcomes).history =
        passed task ((w.turn letter rest outcomes).history.map Handled.letter) := by
    intro task held
    rw [letters, history, taken_append, passed_append, h.all task held,
      taken_of_held sound hp next held]
  refine ⟨fun task => ?_, fun task held => ?_⟩
  · by_cases held : w.manager.readerTask = some task
    · exact extends_ task held ▸ List.prefix_rfl
    · rw [letters, history, taken_append, passed_append, taken_of_loose sound hp next held,
        List.append_nil]
      exact (h.first task).trans (List.prefix_append ..)
  · rw [manager_turn] at held
    rcases (sound.course hp letter outcomes).renewed (sound.begins hp next) with ⟨same, -⟩ | renewed
    · exact extends_ task ((congrArg Holding.readerTask same).symm.trans held)
    · -- the task has just been started, so nothing has come from it yet
      have new : w.jobs[task]? = none := by
        have tasks := (renewed .reading task held).1
        rw [sound.placed.tasks] at tasks
        exact List.getElem?_eq_none tasks
      have silent : ∀ l ∈ (w.turn letter rest outcomes).history.map Handled.letter,
          l.sender ≠ some task := by
        intro l hl he
        have among : l ∈ w.letters := letters_next next ▸ List.mem_append_left rest (letters ▸ hl)
        cases paced.traceable l among with
        | request => cases he
        | report there =>
          cases he
          exact nomatch new.symm.trans there
      have nothing : taken task (w.turn letter rest outcomes).history = [] := by
        refine List.filterMap_eq_nil_iff.mpr fun r hr => ?_
        exact if_neg (silent r.letter (List.mem_map_of_mem hr))
      rw [nothing, passed_of_silent silent]

end Heeds

/-! ## Later worlds -/

/-- What stays in later worlds: the connections that the tasks read, and what the peers have sent. -/
structure Extends (w w' : World κ σ) : Prop where
  link? : ∀ task link, link? w.jobs task = some link → World.link? w'.jobs task = some link
  links : ∀ (n : Nat) (l : Link), w.links[n]? = some l →
    ∃ l', w'.links[n]? = some l' ∧ l.Grows l'

namespace Extends

variable {w w' w'' : World κ σ}

theorem refl (w : World κ σ) : Extends w w :=
  ⟨fun _ _ reads => reads, fun _ l hl => ⟨l, hl, .refl l⟩⟩

theorem trans (h : Extends w w') (h' : Extends w' w'') : Extends w w'' := by
  refine ⟨fun task link reads => h'.link? task link (h.link? task link reads), fun n l hl => ?_⟩
  obtain ⟨l', hl', grows⟩ := h.links n l hl
  obtain ⟨l'', hl'', grows'⟩ := h'.links n l' hl'
  exact ⟨l'', hl'', grows.trans grows'⟩

theorem feeds {letters : List (Letter κ)} (feeds : Feeds w w' letters) {n : Nat} {l : Link}
    (hl : w.links[n]? = some l) : ∃ l', w'.links[n]? = some l' ∧ l.Grows l' := by
  cases feeds with
  | calm unread =>
    obtain ⟨l', hl', grows, -⟩ := unread.links n l hl
    exact ⟨l', hl', grows⟩
  | opens links =>
    refine ⟨l, ?_, .refl l⟩
    rw [links, List.getElem?_append_left (List.getElem?_eq_some_iff.mp hl).1]
    exact hl
  | ends runs there closed last links => exact ⟨l, by rw [links]; exact hl, .refl l⟩
  | reads runs there next links =>
    rename_i task link g l₀ frame
    by_cases hn : link = n
    · subst hn
      refine ⟨{ l with read := l.read + 1 }, ?_, ⟨List.prefix_rfl, fun h => ⟨h, rfl⟩⟩⟩
      rw [links, List.getElem?_modify_eq, hl]
      rfl
    · exact ⟨l, by rw [links, List.getElem?_modify_ne _ _ hn]; exact hl, .refl l⟩

theorem step [Callback κ σ] (step : Step w w') : Extends w w' := by
  rcases step.apart_and_feeds with ⟨letter, rest, outcomes, runs, next, rfl⟩ |
    ⟨⟨letters, apart⟩, posted, posts, comes⟩
  · refine ⟨fun task link reads => ?_, fun n l hl => ?_⟩
    · obtain ⟨j, hj, -⟩ := Option.bind_eq_some_iff.mp reads
      exact (link?_turn letter rest outcomes (List.getElem?_eq_some_iff.mp hj).1).trans reads
    · obtain ⟨l', hl', grows, -⟩ := (Unread.turn w letter rest outcomes).links n l hl
      exact ⟨l', hl', grows⟩
  · exact ⟨fun task link reads => (apart.jobs.link? task).trans reads, fun n l hl => feeds comes hl⟩

theorem steps [Callback κ σ] (steps : ReflTransGen Step w w') : Extends w w' := by
  induction steps with
  | refl => exact .refl w
  | tail steps step ih => exact ih.trans (.step step)

theorem turned [Callback κ σ] {w₀ w₁ : World κ σ} {past : List (Handled κ)} {r : Handled κ}
    (turned : Turned w₀ w₁ w past r) : Extends w₀ w :=
  (Extends.step turned.step).trans (.steps turned.since)

end Extends

section Runs

variable [Callback κ σ] {config : Config} {policy : Nat → Verdict} {autoPong : Bool} {shared : σ}
  {w : World κ σ}

theorem heeds_of_reachable (reached : Reachable config policy autoPong shared w) : Heeds w := by
  induction reached with
  | start => exact ⟨fun _ => List.prefix_rfl, nofun⟩
  | step before step fresh ih =>
    rcases step.turn_or_apart with ⟨letter, rest, outcomes, runs, next, rfl⟩ | ⟨letters, apart⟩
    · exact ih.turn (sound_of_reachable before) (paced_of_run before.run) (by rw [runs]; nofun) next
    · refine ⟨?_, ?_⟩
      · rw [apart.history]; exact ih.first
      · rw [apart.history, apart.manager]; exact ih.all

/-! ## Frames in order -/

theorem processed_prefix (reached : Reachable config policy autoPong shared w) {link : Nat} {l : Link}
    (there : w.links[link]? = some l) : w.processed link w.history <+: l.frames := by
  by_cases watched : link ∈ watched w.jobs
  · obtain ⟨task, reads⟩ := exists_of_mem_watched watched
    have passes := (passing_of_run reached.run).passes task link l reads there
    rw [processed_eq (linked_of_run reached.run).apart.of_append_left reads]
    have handled : passed task (w.history.map Handled.letter) <+: passed task w.letters :=
      (List.prefix_append ..).filterMap _
    have first := ((heeds_of_reachable reached).first task).trans handled
    exact Link.frames_prefix (((first.map _).trans passes.first).trans (List.take_prefix ..))
  · have nothing : w.processed link w.history = [] := by
      refine List.filterMap_eq_nil_iff.mpr fun r _ => if_neg fun source => watched ?_
      obtain ⟨task, -, reads⟩ := Option.bind_eq_some_iff.mp source
      exact mem_watched reads
    rw [nothing]
    exact List.nil_prefix

/-- Only the end of the present connection is a reason to give it up. -/
theorem Began.current_of_closed {w₀ : World κ σ} {past : List (Handled κ)} {r : Handled κ}
    (began : Began w₀ past r) (steady : Steady w₀) {g : UInt64} {cause : DisconnectCause}
    (asked : r.letter.message = .closed g cause) (answers : r.answers ≠ []) :
    g = w₀.manager.generation := by
  have deal := began.deal steady
  rw [asked, began.before] at deal
  generalize hd : r.holding = d at deal
  generalize hl : r.ledger = l at deal
  cases deal with
  | stays last busy other reason =>
    refine absurd ?_ answers
    show r.ledger.answers = []
    rw [hl, Ledger.answers_drop?]
    rfl
  | fails failing cause =>
    cases failing with
    | writing up steady => cases steady
    | closed => rfl

/-- A connection is given up because the stream has ended only when the task that reads it tells so. -/
theorem Began.ended {w₀ : World κ σ} {past : List (Handled κ)} {r : Handled κ}
    (began : Began w₀ past r) (run : Run config policy autoPong shared w₀)
    (gives : r.GivesUp .streamEnded) :
    r.letter.message = .closed w₀.manager.generation .streamEnded := by
  obtain ⟨t, cause, manager, now, blames, record⟩ := began.blames run gives
  obtain rfl := cause.eq_streamEnded (congrArg ErrorRecord.kind record)
  obtain ⟨rest, outcomes, next, -⟩ := began.entry
  have honest : r.letter.message.Honest := honest_of_run run r.letter (next ▸ List.mem_cons_self)
  generalize hm : r.letter.message = message at blames honest
  generalize hc : DisconnectCause.streamEnded = cause at blames
  cases blames with
  | writing context error => cases hc
  | refused generation cause =>
    subst hc
    cases honest with
    | other refused closed => exact absurd rfl (refused _ _)
  | closed generation cause =>
    subst hc
    rw [began.current_of_closed (steady_of_run run) hm gives.1]
  | left current why => cases why <;> cases hc
  | silent current overdue => cases hc

/-- When the task that is held tells that the stream has ended, everything has been taken. -/
theorem Began.complete {w₀ : World κ σ} {past : List (Handled κ)} {r : Handled κ}
    (began : Began w₀ past r) (reached : Reachable config policy autoPong shared w₀)
    (asked : r.letter.message = .closed w₀.manager.generation .streamEnded) :
    ∃ task link l, w₀.manager.writer = some link ∧ link? w₀.jobs task = some link ∧
      w₀.links[link]? = some l ∧ l.closed = true ∧ l.frames = taken task past := by
  obtain ⟨rest, outcomes, next, -⟩ := began.entry
  obtain ⟨task, link, sender, held, writer, reads⟩ :=
    (sound_of_reachable reached).reader_of_current (next ▸ List.mem_cons_self)
      (by rw [asked]; rfl) (by rw [asked]; rfl)
  have known := (linked_of_run reached.run).there link (List.mem_append_left _ (mem_watched reads))
  have there := List.getElem?_eq_getElem known
  have passing := passing_of_run reached.run
  have passes := passing.passes task link _ reads there
  have last : r.letter = ⟨some task, .closed w₀.manager.generation .streamEnded⟩ := by
    rw [← asked, ← sender]
  have letters := letters_next next
  obtain ⟨closed, read⟩ := passes.ended w₀.manager.generation (by
    rw [letters, ← last]
    simp)
  -- the report of the end is the last letter of its task, so all that the task has passed on is handled
  have quiet : passed task rest = [] := by
    have orderly := passing.orderly
    rw [letters] at orderly
    refine passed_of_silent fun y hy => ?_
    have after := (List.pairwise_append.mp orderly).2.2 r.letter
      (List.mem_append_right _ (List.mem_singleton_self _)) y hy
    exact after task sender (by rw [asked]; rfl)
  have dry : passed task [r.letter] = [] :=
    passed_of_dry (fun letter hl => by rw [List.mem_singleton.mp hl, asked]; rfl) task
  have all := passes.all began.going
  rw [letters, passed_append, passed_append, quiet, dry, List.append_nil, List.append_nil, read,
    List.take_length, ← (heeds_of_reachable reached).all task held, began.history] at all
  exact ⟨task, link, _, writer, reads, there, closed, Link.frames_eq all⟩

/-- **A frame is taken** exactly if it comes while a connection is open, and from that connection. -/
theorem takes_iff_current (reached : Reachable config policy autoPong shared w) {r : Handled κ}
    (hr : r ∈ w.history) {frame : Frame} : r.takes? = some frame ↔
      r.letter.message.frame? = some frame ∧ r.before.state = .connected ∧
        ∃ link, r.before.writer = some link ∧ w.source? r.letter = some link := by
  obtain ⟨past, later, history⟩ := List.append_of_mem hr
  obtain ⟨w₀, w₁, reached₀, turned⟩ := reached.turned history
  have extends_ := Extends.turned turned
  have began := turned.began
  obtain ⟨rest, outcomes, next, entry⟩ := began.entry
  have sound := sound_of_reachable reached₀
  constructor
  · intro takes
    obtain ⟨current, state⟩ := Handled.takes?_eq_some.mp takes
    rw [began.before] at current
    obtain ⟨task, link, sender, -, writer, reads⟩ :=
      sound.reader_of_current (next ▸ List.mem_cons_self) (by rw [current]; rfl) (by rw [current]; rfl)
    refine ⟨Handled.frame?_of_takes takes, state, link, by rw [began.before]; exact writer, ?_⟩
    exact Option.bind_eq_some_iff.mpr ⟨task, sender, extends_.link? task link reads⟩
  · rintro ⟨brings, state, link, writer, source⟩
    rw [began.before] at state writer
    obtain ⟨task, sender, reads⟩ := Option.bind_eq_some_iff.mp source
    obtain ⟨reader, held⟩ := Option.isSome_iff_exists.mp
      ((sound.agrees began.going).reading.mpr state)
    obtain ⟨j, g, link', there, writer', what⟩ := sound.placed.linked reader held
    obtain rfl := Option.some.inj (writer.symm.trans writer')
    -- the open connection has one reader
    have reads' : link? w₀.jobs reader = some link :=
      Option.bind_eq_some_iff.mpr ⟨j, there, by rw [what]; rfl⟩
    have apart := (linked_of_run reached.run).apart.of_append_left
    obtain rfl := link?_inj apart reads (extends_.link? reader link reads')
    rw [entry]
    exact (sound.takes_iff began.going next sender brings).mpr held

/-- **What is processed is what was sent**: the frames of a connection that are processed are the first
ones that the peer has sent, in their order and once each. If the connection is given up because the
stream has ended, the peer has closed it, and all its frames have been processed before. A frame is
processed only while its connection is the open one, and then it is counted, and dispatched if it is
data; a frame that comes too late leaves no trace. -/
theorem processed_of_reachable (reached : Reachable config policy autoPong shared w) :
    (∀ link l, w.links[link]? = some l → w.processed link w.history <+: l.frames) ∧
    (∀ past r later, w.history = past ++ r :: later → r.GivesUp .streamEnded →
      ∃ link l, r.before.writer = some link ∧ w.links[link]? = some l ∧ l.closed = true ∧
        w.processed link past = l.frames) ∧
    ∀ past r later, w.history = past ++ r :: later →
      ∃ w₀ w₁, Reachable config policy autoPong shared w₀ ∧ Turned w₀ w₁ w past r ∧
        (∀ frame, r.takes? = some frame → r.before.state = .connected ∧
          (∃ link, r.before.writer = some link ∧ w.source? r.letter = some link) ∧
          r.Processes frame w₀.shared w₁.shared) ∧
        (r.takes? = none → r.Leaves w₀.shared w₁.shared) := by
  refine ⟨fun link l there => processed_prefix reached there, fun past r later history gives => ?_,
    fun past r later history => ?_⟩
  · obtain ⟨w₀, w₁, reached₀, turned⟩ := reached.turned history
    have began := turned.began
    have extends_ := Extends.turned turned
    obtain ⟨task, link, l₀, writer, reads, there, closed, all⟩ :=
      began.complete reached₀ (began.ended reached₀.run gives)
    obtain ⟨l, there', grows⟩ := extends_.links link l₀ there
    obtain ⟨closed', sent⟩ := grows.closed closed
    refine ⟨link, l, by rw [began.before]; exact writer, there', closed', ?_⟩
    rw [processed_eq (linked_of_run reached.run).apart.of_append_left (extends_.link? task link reads),
      ← all]
    unfold Link.frames
    rw [sent]
  · obtain ⟨w₀, w₁, reached₀, turned⟩ := reached.turned history
    refine ⟨w₀, w₁, reached₀, turned, fun frame takes => ?_, turned.leaves⟩
    have hr : r ∈ w.history := by simp [history]
    obtain ⟨-, open_, own⟩ := (takes_iff_current reached hr).mp takes
    exact ⟨open_, own, turned.processes reached₀.run takes⟩

end Runs

/-! ## A peer that goes after two frames -/

def alertText : ByteArray := "\x7b\"topic\":\"alerts\",\"body\":7\x7d".toUTF8

def alertFrame : Frame := .text alertText

theorem received_alertText : ∃ sample,
    received? Config.default.buffers.maxMessage alertText 0 = some sample ∧ sample.topic = .alerts := by
  have topic : (received? Config.default.buffers.maxMessage alertText 0).map Sample.topic =
      some .alerts := by decide +kernel
  exact Option.map_eq_some_iff.mp topic

/-- While a client has subscribed to alerts, an alert and a pong have come, the peer has closed the
connection, and the reader has reported the end of the stream. -/
def streamEndReported : World Listener Notebook :=
  (((subscribedOnline.arrived alertFrame).arrived (.pong .empty)).onLink 0 fun l =>
    { l with closed := true }).deliver 1 (.closed 1 .streamEnded)

def alertEntry : Handled Listener :=
  streamEndReported.handled ⟨some 1, .inbound 1 alertFrame⟩ fun _ _ => .done

def alertHandled : World Listener Notebook :=
  streamEndReported.turn ⟨some 1, .inbound 1 alertFrame⟩
    [⟨some 1, .inbound 1 (.pong .empty)⟩, ⟨some 1, .closed 1 .streamEnded⟩] fun _ _ => .done

def pongHandled : World Listener Notebook :=
  alertHandled.turn ⟨some 1, .inbound 1 (.pong .empty)⟩ [⟨some 1, .closed 1 .streamEnded⟩]
    fun _ _ => .done

def streamEndEntry : Handled Listener :=
  pongHandled.handled ⟨some 1, .closed 1 .streamEnded⟩ fun _ _ => .done

def streamEndHandled : World Listener Notebook :=
  pongHandled.turn ⟨some 1, .closed 1 .streamEnded⟩ [] fun _ _ => .done

theorem run_streamEndHandled :
    Run .default (fun _ => .giveUp) true (.empty 20) streamEndHandled := by
  have reads : Run .default (fun _ => .giveUp) true (.empty 20)
      ((subscribedOnline.arrived alertFrame).arrived (.pong .empty)) :=
    (run_subscribedOnline.plains (plains_arrived rfl ⟨_, rfl, rfl, rfl⟩ rfl rfl rfl _)).plains
      (plains_arrived rfl ⟨_, rfl, rfl, rfl⟩ rfl rfl rfl _)
  have ends : Run .default (fun _ => .giveUp) true (.empty 20) streamEndReported :=
    .step (.step reads (.leaves _)) (.ends ⟨_, rfl, rfl, rfl⟩ rfl rfl rfl)
  have first : Run .default (fun _ => .giveUp) true (.empty 20) alertHandled :=
    .step ends (.turns rfl rfl _)
  have second : Run .default (fun _ => .giveUp) true (.empty 20) pongHandled :=
    .step first (.turns (by decide +kernel) ((mailbox_turn ..).trans (if_neg (by decide +kernel))) _)
  exact .step second
    (.turns (by decide +kernel) ((mailbox_turn ..).trans (if_neg (by decide +kernel))) _)

/-- The case of an alert that a client has subscribed to, and of a pong, after which the peer goes. -/
theorem processed_streamEndHandled :
    (Reachable .default (fun _ => .giveUp) true (.empty 20) streamEndHandled ∧
      (∃ later, streamEndHandled.history = streamEndReported.history ++ alertEntry :: later) ∧
      alertEntry.takes? = some alertFrame ∧
      streamEndHandled.history = pongHandled.history ++ streamEndEntry :: [] ∧
      streamEndEntry.GivesUp .streamEnded) ∧
    streamEndHandled.processed 0 pongHandled.history = [alertFrame, .pong .empty] ∧
    alertEntry.after.health.framesReceived = 1 ∧ alertEntry.calls.map Invocation.handle = [⟨0⟩] := by
  have reached := (run_streamEndHandled.reachable (by decide +kernel)).1
  have last : streamEndHandled.history = pongHandled.history ++ streamEndEntry :: [] := history_turn ..
  have first : streamEndHandled.history = streamEndReported.history ++ alertEntry ::
      [alertHandled.handled ⟨some 1, .inbound 1 (.pong .empty)⟩ (fun _ _ => .done),
        streamEndEntry] := by
    rw [last, show pongHandled.history = _ from history_turn ..,
      show alertHandled.history = _ from history_turn .., List.append_assoc, List.append_assoc]
    rfl
  have gives : streamEndEntry.GivesUp .streamEnded := ⟨by decide +kernel, by decide +kernel⟩
  have takes : alertEntry.takes? = some alertFrame := rfl
  obtain ⟨-, complete, each⟩ := processed_of_reachable reached
  obtain ⟨w₀, w₁, -, -, taken, -⟩ := each _ _ _ first
  obtain ⟨-, -, processes⟩ := taken alertFrame takes
  refine ⟨⟨reached, ⟨_, first⟩, takes, last, gives⟩, ?_, processes.counted, ?_⟩
  · obtain ⟨link, l, writer, there, -, all⟩ := complete _ _ _ last gives
    have open_ : streamEndEntry.before.writer = some 0 := by decide +kernel
    obtain rfl := Option.some.inj (open_.symm.trans writer)
    have frames : (streamEndHandled.links[0]?).map Link.frames = some [alertFrame, .pong .empty] := by
      decide +kernel
    rw [there] at frames
    exact all.trans (Option.some.inj frames)
  · obtain ⟨calls, outcome, outcomes, dispatches⟩ := processes.dispatched alertText rfl
    obtain ⟨sample, received, topic⟩ := received_alertText
    obtain ⟨fits, decoded⟩ := received?_eq_some.mp received
    have taken := (dispatches.taken sample fits decoded).subscribers
    unfold Handled.calls
    rw [outcomes]
    calc ([outcome].flatMap Outcome.calls).map Invocation.handle
        = (calls.map Registry.Call.subscriber).map Subscriber.handle := by
          rw [List.flatMap_singleton, dispatches.noted, List.map_map, List.map_map]
          rfl
      _ = [⟨0⟩] := by
          rw [taken, topic]
          rfl

end World

end LiveMetrics
