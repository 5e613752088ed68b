import LiveMetrics.Connection.Manager
import LiveMetrics.Loopback.Socket

/-!
# A client and a server in one process

The manager of a client, its mailbox and its tasks, and a server that treats each attempt to
connect as a script says. `State.apply` does the effects of the manager; the other operations are
single steps of what runs beside it: tasks, close handshakes, and the manager itself. Instants are
nanoseconds on a clock that starts at 0; timers fire on whole milliseconds.
-/

set_option autoImplicit false

namespace LiveMetrics.Loopback

/-- How the server treats an attempt to connect. -/
inductive Reception where
  | accept
  | refuse (reason : String)
  /-- It never answers. -/
  | hang
  deriving Repr, DecidableEq

/-- An entry of the script. -/
inductive Scripted where
  | now (reception : Reception)
  /-- It waits until it is released. -/
  | gated (reception : Reception)
  /-- The attempt panics before it reaches the server. -/
  | panics (reason : String)
  deriving Repr, DecidableEq

/-- How far an attempt to connect has come. -/
inductive Stage where
  | fresh
  | gated (reception : Reception)
  | hanging
  deriving DecidableEq

/-- A running task. -/
inductive Job where
  | opening (generation : UInt64) (endpoint : String) (limit : Span) (deadline : Nat)
      (stage : Stage)
  | reading (generation : UInt64) (link : Nat)
  | ticking (generation : UInt64) (due : Option Nat) (interval : Span)
  | retrying (generation : UInt64) (due : Nat)
  deriving DecidableEq

/-- A close handshake; `begun` tells whether it has tried to write. -/
structure Farewell where
  deadline : Nat
  begun : Bool
  deriving DecidableEq

/-- An answer of the manager to a question. -/
inductive Answer where
  | state (state : ConnectionState)
  | stats (stats : Stats)

/-- Notes of changes of the state, in what the callbacks share. -/
class Watched (σ : Type) where
  watch : String → ConnectionState → σ → σ

structure State (κ σ : Type) where
  now : Nat
  manager : Manager κ
  shared : σ
  mailbox : List (Message κ)
  /-- The tasks that run, by number. -/
  jobs : List (Nat × Job)
  /-- The close handshakes that run, by connection. -/
  farewells : List (Nat × Farewell)
  /-- All connections so far; their number is their place. -/
  sockets : List Socket
  script : List Scripted
  /-- The attempts so far, with their instants. -/
  attempts : List (Nat × String)
  serverGone : Bool
  /-- Whether all writes fail. -/
  writesFail : Bool
  /-- The state that was published last. -/
  published : ConnectionState
  logged : List LogEvent
  answers : List Answer

/-! ## Time -/

/-- The instant of a deadline on the grid of whole milliseconds. -/
def wakeAt (deadline : Nat) : Nat := (deadline + (nanosPerMilli - 1)) / nanosPerMilli * nanosPerMilli

/-- Whether a span fits on the clock. -/
def fits (d : Span) : Bool := d.seconds < Nat.pow 2 63

/-- Thirty years, which stand for every wait that does not fit on the clock. -/
def farAway : Nat := 30 * 365 * 24 * 60 * 60 * nanosPerSecond

/-- The end of a wait that begins now. -/
def deadline (now : Nat) (d : Span) : Nat := now + if fits d then d.nanos else farAway

/-- How long a close handshake may take. -/
def closeGrace : Span := .ofSeconds 1

namespace State

variable {κ σ : Type}

/-- A manager at rest and a server without a script. -/
def start (config : Config) (policy : Nat → Verdict) (autoPong : Bool) (shared : σ) :
    State κ σ where
  now := 0
  manager := .new config policy autoPong
  shared
  mailbox := []
  jobs := []
  farewells := []
  sockets := []
  script := []
  attempts := []
  serverGone := false
  writesFail := false
  published := .disconnected
  logged := []
  answers := []

def isStopped (s : State κ σ) : Bool := s.manager.phase == .stopped

def log (s : State κ σ) (events : List LogEvent) : State κ σ :=
  { s with logged := s.logged ++ events }

/-- Puts a message into the mailbox, which is closed when the manager has stopped. -/
def post (s : State κ σ) (message : Message κ) : State κ σ :=
  if s.isStopped then s else { s with mailbox := s.mailbox ++ [message] }

def onSocket (s : State κ σ) (link : Nat) (f : Socket → Socket) : State κ σ :=
  { s with sockets := s.sockets.modify link f }

/-- The client reads a connection no more. -/
def dropReader (s : State κ σ) (link : Nat) : State κ σ :=
  s.onSocket link fun k => { k with readerGone := true }

/-- The client writes to a connection no more. -/
def dropWriter (s : State κ σ) (link : Nat) : State κ σ :=
  s.onSocket link fun k => { k with writerGone := true }

def writeOutcome (s : State κ σ) (link : Nat) : WriteOutcome :=
  if s.writesFail then .failed brokenPipe
  else
    match s.sockets[link]? with
    | none => .failed noPeer
    | some k =>
      if k.stalled then .stalled else if k.deserted then .failed noPeer else .done

/-! ## Tasks -/

def job (now : Nat) : Task → Job
  | .opening generation endpoint limit =>
    .opening generation endpoint limit (deadline now limit) .fresh
  | .reading generation link => .reading generation link
  | .ticking generation interval =>
    .ticking generation (if fits interval then some (now + interval.nanos) else none) interval
  | .retrying generation delay => .retrying generation (deadline now delay)

def putJob (s : State κ σ) (task : Nat) (job : Job) : State κ σ :=
  { s with jobs := Keyed.put task job s.jobs }

/-- Ends a task; a task that reads lets go of its connection. -/
def endJob (s : State κ σ) (task : Nat) : State κ σ :=
  let ended := { s with jobs := Keyed.erase task s.jobs }
  match s.jobs.lookup task with
  | some (.reading _ link) => ended.dropReader link
  | some (.opening _ _ _ _ _) | some (.ticking _ _ _) | some (.retrying _ _) | none => ended

/-- Does what the manager does to the outside. -/
def apply [Watched σ] (s : State κ σ) (e : Effect) : State κ σ :=
  let s := s.log e.logged
  match e with
  | .log _ | .dispatched _ => s
  | .publish _ is => { s with published := is }
  | .observe observer state => { s with shared := Watched.watch observer.name state s.shared }
  | .wrote link frame => s.onSocket link (·.write frame)
  | .start task what => s.putJob task (job s.now what)
  | .abort task => s.endJob task
  | .farewell link =>
    { s with farewells := Keyed.put link ⟨deadline s.now closeGrace, false⟩ s.farewells }
  | .release link => s.dropWriter link
  | .discard link => (s.dropReader link).dropWriter link
  | .answerState state => { s with answers := s.answers ++ [.state state] }
  | .answerStats stats => { s with answers := s.answers ++ [.stats stats] }

/-- Lets go of what waits in the mailbox, connections included. -/
def closeMailbox (s : State κ σ) : State κ σ :=
  s.mailbox.foldl
    (fun s message =>
      match message with
      | .opened _ link => (s.dropReader link).dropWriter link
      | _ => s)
    { s with mailbox := [] }

/-- The manager takes the next message, if it runs and there is one. -/
def take? [Callback κ σ] [Watched σ] (s : State κ σ) : Option (State κ σ) :=
  match s.manager.phase, s.mailbox with
  | .running, message :: rest =>
    let (manager, shared, effects) :=
      s.manager.handle s.shared s.now (fun link _ => s.writeOutcome link) message
    let s := effects.foldl apply { s with manager, shared, mailbox := rest }
    some (if s.isStopped then s.closeMailbox else s)
  | _, _ => none

def endFarewell (s : State κ σ) (link : Nat) (events : List LogEvent) : State κ σ :=
  ({ s with farewells := Keyed.erase link s.farewells }.dropWriter link).log events

/-- A close handshake tries to write its frame, once at first and once when its time is over. -/
def part? (s : State κ σ) (entry : Nat × Farewell) : Option (State κ σ) :=
  let (link, f) := entry
  if f.begun && s.now < f.deadline then none
  else
    match s.writeOutcome link with
    | .done => some ((s.onSocket link (·.write .clientClose)).endFarewell link [])
    | .failed error => some (s.endFarewell link [.closeNotDelivered error])
    | .stalled =>
      if f.deadline ≤ s.now then some (s.endFarewell link [.closeTimedOut])
      else some { s with farewells := Keyed.put link { f with begun := true } s.farewells }

/-- A timer fires if it is due: one for pings or one for a retry. -/
def fire? (s : State κ σ) : Nat × Job → Option (State κ σ)
  | (task, .ticking generation (some due) interval) =>
    if due ≤ s.now then
      some ((s.post (.tick generation)).putJob task
        (.ticking generation (some (due + interval.nanos)) interval))
    else none
  | (task, .retrying generation due) =>
    if due ≤ s.now then some ((s.post (.retry generation)).endJob task) else none
  | _ => none

/-- An attempt reaches the server. -/
def reach (s : State κ σ) (task : Nat) (generation : UInt64) (endpoint : String) (limit : Span)
    (deadline : Nat) (reception : Reception) : State κ σ :=
  let failed (s : State κ σ) (reason : String) : State κ σ :=
    (s.post (.openFailed generation (.openFailed (StreamError.connectionFailed reason).message))).endJob
      task
  if s.serverGone then failed s "mock server dropped"
  else
    let s := { s with attempts := s.attempts ++ [(s.now, endpoint)] }
    match reception with
    | .accept =>
      ({ s with sockets := s.sockets ++ [Socket.new] }.post
        (.opened generation s.sockets.length)).endJob task
    | .refuse reason => failed s reason
    | .hang => s.putJob task (.opening generation endpoint limit deadline .hanging)

/-- A task goes on if it can without a timer: an attempt begins, or a reader reads. -/
def run? (s : State κ σ) : Nat × Job → Option (State κ σ)
  | (task, .opening generation endpoint limit deadline .fresh) =>
    let s' := { s with script := s.script.tail }
    match s.script.head?.getD (.now .accept) with
    | .now reception => some (s'.reach task generation endpoint limit deadline reception)
    | .gated reception =>
      some (s'.putJob task (.opening generation endpoint limit deadline (.gated reception)))
    | .panics reason =>
      some (((s'.log [.openPanicked generation reason]).post
        (.openFailed generation (.openFailed ("transport panicked: " ++ reason)))).endJob task)
  | (task, .reading generation link) =>
    match s.sockets[link]? with
    | none => none
    | some k =>
      match k.incoming with
      | .frame frame :: rest =>
        some ((s.onSocket link fun k => { k with incoming := rest }).post
          (.inbound generation frame))
      | .error text :: _ =>
        some ((s.post (.closed generation (.readFailure (readError text).message))).endJob task)
      | [] =>
        if k.ended then some ((s.post (.closed generation .streamEnded)).endJob task) else none
  | _ => none

/-- An attempt fails because its time is over. -/
def expire? (s : State κ σ) : Nat × Job → Option (State κ σ)
  | (task, .opening generation _ limit deadline _) =>
    if deadline ≤ s.now then
      some ((s.post (.openFailed generation (.openTimeout limit))).endJob task)
    else none
  | _ => none

end State

end LiveMetrics.Loopback
