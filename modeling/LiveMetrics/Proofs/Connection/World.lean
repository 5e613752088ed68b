import LiveMetrics.Loopback.State
import LiveMetrics.Proofs.Connection.Course

/-!
# Runs of a manager

A manager with everything it deals with: the mailbox, the tasks that it has started, and the
connections with their peers. A step (`World.Step`) is one request of a client, one turn of the
manager, or one thing that a task, a peer or the clock does. Steps come in any order; writes,
attempts and peers do whatever they may do. `World.Run` are the worlds that some run leads to.

* A task that has been aborted may still report, until the abort takes effect (`Step.cancels`):
  the abort may find it between two waits, or it may come at the end of a turn in which the task
  has already reported.
* Whatever is due happens at its instant or at any later one.
* What the callbacks share may be changed by others at any time.
* `World.history` is what the manager has done so far, one entry for each message.

A generation is a 64-bit number, and after 2 ^ 64 generations the numbers come round. `World.Reachable`
are the runs in which nothing stays in flight for so long: neither the mailbox nor the runtime keeps
a report, or a task that may still report, until its number is given out again. All runs of fewer
than 2 ^ 64 generations are of that kind (`Run.reachable`).
-/

set_option autoImplicit false

namespace LiveMetrics

open Loopback (Incoming)

/-! ## Reports and tasks -/

/-- Whether a message comes from a client. -/
def Message.isRequest {κ : Type} : Message κ → Bool
  | .connect _ _ | .disconnect | .subscribe _ _ _ | .unsubscribe _ | .tellState | .tellStats
  | .stop => true
  | _ => false

/-- The generation that a report bears. -/
def Message.generation? {κ : Type} : Message κ → Option UInt64
  | .opened g _ | .openFailed g _ | .inbound g _ | .closed g _ | .retry g | .tick g => some g
  | _ => none

namespace Task

/-- The generation that a task reports under. -/
def generation : Task → UInt64
  | .opening g _ _ | .reading g _ | .ticking g _ | .retrying g _ => g

/-- The instant up to which a task waits that is started now. -/
def due? (now : Nat) : Task → Option Nat
  | .opening _ _ limit => some (Loopback.deadline now limit)
  | .reading _ _ => none
  | .ticking _ interval => if Loopback.fits interval then some (now + interval.nanos) else none
  | .retrying _ delay => some (Loopback.deadline now delay)

end Task

/-! ## Worlds -/

namespace World

/-- A message on its way to the manager. -/
structure Letter (κ : Type) where
  /-- The task that reports; a request comes from none. -/
  sender : Option Nat
  message : Message κ

/-- What has become of a task. -/
inductive Fate where
  | running
  /-- It has sent its last report. -/
  | delivered
  /-- It was aborted, and the abort has taken effect. -/
  | cancelled
  deriving DecidableEq

/-- A task that has been started. -/
structure Job where
  what : Task
  begun : Nat
  due : Option Nat
  aborted : Bool
  fate : Fate
  deriving DecidableEq

/-- A task that starts now. -/
def Job.new (now : Nat) (what : Task) : Job := ⟨what, now, what.due? now, false, .running⟩

structure Link where
  /-- What the peer has sent so far, and whether it will send no more. -/
  sent : List Incoming
  closed : Bool
  /-- How much of it has been read. -/
  read : Nat
  /-- What has been written to the peer. -/
  written : List Frame

/-- The handling of a message. -/
structure Handled (κ : Type) where
  now : Nat
  letter : Letter κ
  before : Manager κ
  after : Manager κ
  effects : List Effect

end World

/-- A manager among its tasks and connections. -/
structure World (κ σ : Type) where
  now : Nat
  manager : Manager κ
  shared : σ
  mailbox : List (World.Letter κ)
  /-- All tasks so far; their number is their place. -/
  jobs : List World.Job
  /-- All connections so far; their number is their place. -/
  links : List World.Link
  /-- The connections that are left to a close handshake. -/
  farewells : List Nat
  history : List (World.Handled κ)

namespace World

variable {κ σ : Type}

/-- A manager at rest. -/
def start (config : Config) (policy : Nat → Verdict) (autoPong : Bool) (shared : σ) :
    World κ σ where
  now := 0
  manager := .new config policy autoPong
  shared
  mailbox := []
  jobs := []
  links := []
  farewells := []
  history := []

/-- Puts a message into the mailbox, which is closed when the manager has stopped. -/
def post (w : World κ σ) (sender : Option Nat) (message : Message κ) : World κ σ :=
  if w.manager.phase = .stopped then w
  else { w with mailbox := w.mailbox ++ [⟨sender, message⟩] }

def onJob (w : World κ σ) (task : Nat) (f : Job → Job) : World κ σ :=
  { w with jobs := w.jobs.modify task f }

def onLink (w : World κ σ) (link : Nat) (f : Link → Link) : World κ σ :=
  { w with links := w.links.modify link f }

def joined (w : World κ σ) : World κ σ := { w with links := w.links ++ [⟨[], false, 0, []⟩] }

/-- A close handshake is over. -/
def parted (w : World κ σ) (link : Nat) : World κ σ :=
  { w with farewells := w.farewells.erase link }

/-- A task sends its last report. -/
def deliver (w : World κ σ) (task : Nat) (message : Message κ) : World κ σ :=
  (w.post (some task) message).onJob task fun j => { j with fate := .delivered }

/-- Does what the manager does to the outside. -/
def apply (w : World κ σ) : Effect → World κ σ
  | .start _ what => { w with jobs := w.jobs ++ [.new w.now what] }
  | .abort task => w.onJob task fun j => { j with aborted := true }
  | .wrote link frame => w.onLink link fun l => { l with written := l.written ++ [frame] }
  | .farewell link => { w with farewells := w.farewells ++ [link] }
  | _ => w

/-- A mailbox of a manager that stops is closed. -/
def close (w : World κ σ) : World κ σ :=
  if w.manager.phase = .stopped then { w with mailbox := [] } else w

/-- The manager handles a letter; `rest` stays in the mailbox. -/
def turn [Callback κ σ] (w : World κ σ) (letter : Letter κ) (rest : List (Letter κ))
    (outcomes : Nat → Nat → WriteOutcome) : World κ σ :=
  let (manager, shared, effects) := w.manager.handle w.shared w.now outcomes letter.message
  let handled : Handled κ := ⟨w.now, letter, w.manager, manager, effects⟩
  (effects.foldl apply
    { w with manager, shared, mailbox := rest, history := w.history ++ [handled] }).close

/-- Whether a task has been started that may still report. -/
def Running (w : World κ σ) (task : Nat) (what : Task) : Prop :=
  ∃ j, w.jobs[task]? = some j ∧ j.what = what ∧ j.fate = .running

/-- Whether a task waits for an instant that has come. -/
def Due (w : World κ σ) (task instant : Nat) : Prop :=
  (∃ j, w.jobs[task]? = some j ∧ j.due = some instant) ∧ instant ≤ w.now

/-- What can happen next. -/
inductive Step [Callback κ σ] : World κ σ → World κ σ → Prop where
  | asks {w : World κ σ} {message : Message κ} (request : message.isRequest = true) :
      Step w (w.post none message)
  | turns {w : World κ σ} {letter : Letter κ} {rest : List (Letter κ)}
      (runs : w.manager.phase = .running) (next : w.mailbox = letter :: rest)
      (outcomes : Nat → Nat → WriteOutcome) : Step w (w.turn letter rest outcomes)
  | waits {w : World κ σ} (span : Nat) : Step w { w with now := w.now + span }
  /-- What the callbacks share changes. -/
  | stirs {w : World κ σ} (shared : σ) : Step w { w with shared }
  /-- An attempt leads to a connection. -/
  | opens {w : World κ σ} {task : Nat} {g : UInt64} {endpoint : String} {limit : Span}
      (runs : w.Running task (.opening g endpoint limit)) :
      Step w (w.joined.deliver task (.opened g w.links.length))
  /-- An attempt fails, or panics. -/
  | refuses {w : World κ σ} {task : Nat} {g : UInt64} {endpoint : String} {limit : Span}
      (runs : w.Running task (.opening g endpoint limit)) (error : String) :
      Step w (w.deliver task (.openFailed g (.openFailed error)))
  | expires {w : World κ σ} {task : Nat} {g : UInt64} {endpoint : String} {limit : Span}
      {instant : Nat} (runs : w.Running task (.opening g endpoint limit))
      (due : w.Due task instant) :
      Step w (w.deliver task (.openFailed g (.openTimeout limit)))
  /-- The peer sends. -/
  | sends {w : World κ σ} {link : Nat} {l : Link} (there : w.links[link]? = some l)
      (open_ : l.closed = false) (item : Incoming) :
      Step w (w.onLink link fun l => { l with sent := l.sent ++ [item] })
  /-- The peer sends no more. -/
  | leaves {w : World κ σ} (link : Nat) :
      Step w (w.onLink link fun l => { l with closed := true })
  | reads {w : World κ σ} {task link : Nat} {g : UInt64} {l : Link} {frame : Frame}
      (runs : w.Running task (.reading g link)) (there : w.links[link]? = some l)
      (next : l.sent[l.read]? = some (.frame frame)) :
      Step w ((w.onLink link fun l => { l with read := l.read + 1 }).post (some task)
        (.inbound g frame))
  | breaks {w : World κ σ} {task link : Nat} {g : UInt64} {l : Link} {text : String}
      (runs : w.Running task (.reading g link)) (there : w.links[link]? = some l)
      (next : l.sent[l.read]? = some (.error text)) :
      Step w (w.deliver task (.closed g (.readFailure (Loopback.readError text).message)))
  | ends {w : World κ σ} {task link : Nat} {g : UInt64} {l : Link}
      (runs : w.Running task (.reading g link)) (there : w.links[link]? = some l)
      (closed : l.closed = true) (last : l.read = l.sent.length) :
      Step w (w.deliver task (.closed g .streamEnded))
  /-- A timer for pings fires; the next instant is counted from the last one, or from now. -/
  | ticks {w : World κ σ} {task : Nat} {g : UInt64} {interval : Span} {instant : Nat}
      (runs : w.Running task (.ticking g interval)) (due : w.Due task instant) {from_ : Nat}
      (again : from_ = instant ∨ from_ = w.now) :
      Step w ((w.post (some task) (.tick g)).onJob task fun j =>
        { j with due := some (from_ + interval.nanos) })
  | retries {w : World κ σ} {task : Nat} {g : UInt64} {delay : Span}
      {instant : Nat} (runs : w.Running task (.retrying g delay)) (due : w.Due task instant) :
      Step w (w.deliver task (.retry g))
  /-- The abort of a task takes effect. -/
  | cancels {w : World κ σ} {task : Nat} {j : Job} (there : w.jobs[task]? = some j)
      (aborted : j.aborted = true) (runs : j.fate = .running) :
      Step w (w.onJob task fun j => { j with fate := .cancelled })
  /-- A close handshake ends, with or without its frame. -/
  | parts {w : World κ σ} {link : Nat} (left : link ∈ w.farewells) (frames : List Frame)
      (what : frames = [] ∨ frames = [.clientClose]) :
      Step w ((w.onLink link fun l => { l with written := l.written ++ frames }).parted link)

/-- Whether nothing in flight bears a generation. -/
def Unborne (w : World κ σ) (g : UInt64) : Prop :=
  (∀ j ∈ w.jobs, j.fate = .running → j.what.generation ≠ g) ∧
    ∀ letter ∈ w.mailbox, letter.message.generation? ≠ some g

section Runs

variable [Callback κ σ] (config : Config) (policy : Nat → Verdict) (autoPong : Bool) (shared : σ)

/-- The worlds that a run leads to. -/
inductive Run : World κ σ → Prop where
  | start : Run (.start config policy autoPong shared)
  | step {w w' : World κ σ} (before : Run w) (step : Step w w') : Run w'

/-- The worlds that a run leads to in which nothing in flight bears the number of a generation that
begins. -/
inductive Reachable : World κ σ → Prop where
  | start : Reachable (.start config policy autoPong shared)
  | step {w w' : World κ σ} (before : Reachable w) (step : Step w w')
      (fresh : w'.manager.generation ≠ w.manager.generation → w.Unborne w'.manager.generation) :
      Reachable w'

end Runs

end World

end LiveMetrics
