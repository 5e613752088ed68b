import LiveMetrics.Loopback.Schedule
import LiveMetrics.Session.Step

/-!
# Running a scripted session

A session is a client over a server in memory. `Session.run` takes the steps in order; after each
one everything happens that can happen at that instant, and the report says what can be seen.
-/

set_option autoImplicit false

namespace LiveMetrics

open Loopback

instance : Watched Notebook where
  watch observer state b := b.note (.state observer state)

structure Session where
  config : Config
  net : Loopback.State Listener Notebook
  handles : HandleSupply
  /-- How many connections and attempts have been reported. -/
  seenSockets : Nat
  seenAttempts : Nat

namespace Session

/-- A session with a client that has not connected yet, if its settings are valid. -/
def start (config : Config) (policy : Nat → Verdict) (autoPong : Bool) :
    Except ConfigFault Session := do
  config.validate
  return ⟨config, .start config policy autoPong (.empty config.windowCapacity), .start, 0, 0⟩

def onNet (s : Session) (f : State Listener Notebook → State Listener Notebook) : Session :=
  { s with net := f s.net }

/-! ## Requests of the client -/

/-- Sends a request to the manager; when it has stopped, that is logged. -/
def request (s : Session) (message : Message Listener) (dropped : LogEvent) : Session :=
  s.onNet fun net => if net.isStopped then net.log [dropped] else net.post message

/-- An observer with that name; the one named `panic` panics. -/
def observer (name : String) : Observer := ⟨name, fun _ => name == "panic"⟩

/-- Subscribes a listener under the next handle. -/
def subscribe (s : Session) (topic : Topic) (listener : Listener) : Session × Handle :=
  let (handle, handles) := s.handles.draw
  ({ s with handles }.request (.subscribe handle topic listener)
    (.subscriptionDropped handle topic), handle)

/-- Asks the manager something. -/
def ask (s : Session) (question : Message Listener) : Session × Reply :=
  if s.net.isStopped then (s, .error (.manager LogEvent.notRunning))
  else (s.onNet (·.post question), .asked)

/-- Does what a step is for if that is a request to the manager. -/
def request? (s : Session) : Deed → Option (Session × Reply)
  | .connect url name =>
    some (s.request (.connect url (some (observer name))) .connectDropped, .nothing)
  | .connectConfigured =>
    some (s.request (.connect s.config.endpoint none) .connectDropped, .nothing)
  | .disconnect => some (s.request .disconnect .disconnectDropped, .nothing)
  | .subscribe topic listener =>
    let (s, handle) := s.subscribe topic listener
    some (s, .handle handle)
  | .unsubscribe handle =>
    some (s.request (.unsubscribe handle) (.unsubscribeDropped handle), .nothing)
  | .stats => some (s.ask .tellStats)
  | .currentState => some (s.ask .tellState)
  | .shutdown => some (s.onNet (·.post .stop), .nothing)
  | _ => none

/-! ## The side of the server -/

/-- The connection that a step means, if the server has it. -/
def link? (s : Session) (link : Option Nat) : Option (Nat × Socket) :=
  let number := link.getD (s.net.sockets.length - 1)
  match s.net.sockets[number]? with
  | some socket => if socket.deserted then none else some (number, socket)
  | none => none

def onLink (s : Session) (link : Option Nat) (f : Socket → Socket) : Session :=
  match s.link? link with
  | some (number, _) => s.onNet (·.onSocket number f)
  | none => s

/-- Sends something to the client. -/
def push (s : Session) (link : Option Nat) (item : Incoming) : Session × Sent :=
  match s.link? link with
  | none => (s, .noConnection)
  | some (number, socket) =>
    match socket.send item with
    | .ok socket => (s.onNet (·.onSocket number fun _ => socket), .ok)
    | .error fault => (s, .refused fault)

/-- Sends things to the client in order. -/
def pushAll (s : Session) (link : Option Nat) : List Incoming → Session × List Sent
  | [] => (s, [])
  | item :: rest =>
    let (s, sent) := s.push link item
    let (s, others) := s.pushAll link rest
    (s, sent :: others)

/-- Lets the gated attempts reach the server. -/
def releaseGates (net : State Listener Notebook) : State Listener Notebook :=
  net.jobs.foldl
    (fun net entry =>
      match entry with
      | (task, .opening generation endpoint limit deadline (.gated reception)) =>
        net.reach task generation endpoint limit deadline reception
      | _ => net) net

/-- Lets the gated attempts reach the server, and keeps their results back. -/
def releaseLate (s : Session) : Session × List (Message Listener) :=
  let net := releaseGates { s.net with mailbox := [] }
  (s.onNet fun old => { net with mailbox := old.mailbox }, net.mailbox)

/-- The next frame that the client wrote, or nothing when it writes no more. -/
def nextFrame? (link : Nat) (net : State Listener Notebook) :
    Option (State Listener Notebook × Option Frame) :=
  match net.sockets[link]? with
  | none => some (net, none)
  | some socket =>
    match socket.written with
    | frame :: rest => some (net.onSocket link fun k => { k with written := rest }, some frame)
    | [] => if socket.writerGone then some (net, none) else none

/-- Takes the next control frame that the client wrote, and all frames before it. -/
def takeControl (link : Nat) (net : State Listener Notebook) :
    State Listener Notebook × Option ControlFrame :=
  match net.sockets[link]? with
  | none => (net, none)
  | some socket =>
    let (rest, control) := Socket.takeControl socket.written
    (net.onSocket link fun k => { k with written := rest }, control)

/-- Waits for the next control frame; other frames are taken as they come. -/
def awaitControl (link : Nat) (within : Span) (net : State Listener Notebook) :
    State Listener Notebook × Option ControlFrame :=
  let next? (net : State Listener Notebook) :=
    match net.sockets[link]? with
    | none => some (net, none)
    | some socket =>
      match Socket.takeControl socket.written with
      | (rest, some control) =>
        some (net.onSocket link fun k => { k with written := rest }, some control)
      | (_, none) => if socket.writerGone then some (net, none) else none
  match net.await next? within with
  | (net, some (some control)) => (net, some control)
  | (net, some none) | (net, none) => ((takeControl link net).1, none)

/-! ## Steps -/

def act (s : Session) (link : Option Nat) : Deed → Session × Reply
  | .script entries => (s.onNet fun net => { net with script := net.script ++ entries }, .nothing)
  | .release => (s.onNet releaseGates, .nothing)
  | .dropServer => (s.onNet fun net => { net with serverGone := true }, .nothing)
  | .send frames =>
    let (s, results) := s.pushAll link (frames.map .frame)
    (s, .sent results)
  | .sendText text =>
    let (s, result) := s.push link (.frame (.ofText text))
    (s, .pushed result)
  | .sendEnvelope topic body =>
    let (s, result) := s.push link (.frame (Envelope.encode topic body))
    (s, .envelope result)
  | .readError text =>
    let (s, result) := s.push link (.error text)
    (s, .pushed result)
  | .dropSocket => (s.onLink link Socket.finish, .nothing)
  | .dropPeer => (s.onLink link Socket.desert, .nothing)
  | .stall => (s.onLink link fun k => { k with stalled := true }, .nothing)
  | .failWrites on => (s.onNet fun net => { net with writesFail := on }, .nothing)
  | .advance span => (s.onNet (·.sleep span), .nothing)
  | .windows => (s, .windows s.net.shared)
  | .config => (s, .config s.config)
  | .nextControl =>
    match s.link? link with
    | none => (s, .noConnection)
    | some (number, _) =>
      let (net, control) := takeControl number s.net
      ({ s with net }, .control control)
  | .accept within =>
    if s.net.serverGone then (s, .accepted false)
    else
      let fresh? (net : State Listener Notebook) :=
        if s.seenSockets < net.sockets.length then some (net, ()) else none
      let (net, arrival) := s.net.await fresh? within
      ({ s with net }, .accepted arrival.isSome)
  | .receive within =>
    match s.link? link with
    | none => (s, .noConnection)
    | some (number, _) =>
      let (net, frame) := s.net.await (nextFrame? number) within
      ({ s with net }, .frame frame.join)
  | .receiveControl within =>
    match s.link? link with
    | none => (s, .noConnection)
    | some (number, _) =>
      let (net, control) := awaitControl number within s.net
      ({ s with net }, .control control)
  | _ => (s, .nothing)

/-- Does what a step is for; `late` comes to the manager behind a request, but before anything
else. -/
def perform (s : Session) (p : Step) (late : List (Message Listener)) : Session × Reply :=
  let arrive (s : Session) := s.onNet fun net => late.foldl (·.post ·) net
  match s.request? p.deed with
  | some (s, reply) => (arrive s, reply)
  | none => (arrive s).act p.link p.deed

/-- Lets everything happen that can happen at this instant, and takes the answer to a question. -/
def finish (s : Session) : Reply → Session × Reply
  | .asked =>
    let net := s.net.settle
    let reply := match net.answers with
      | .state state :: _ => Reply.state state
      | .stats stats :: _ => .stats stats
      | [] => .nothing
    ({ s with net := { net with answers := [] } }, reply)
  | reply => (s.onNet (·.settle), reply)

/-- Collects the frames that the client wrote. -/
def collect (s : Session) : List (Nat × Frame) :=
  (s.net.sockets.zipIdx.map fun (socket, link) => socket.written.map fun f => (link, f)).flatten

/-- What can be seen, and the session as it goes on. -/
def report (s : Session) (reply : Reply) (drain : Bool) : Session × Report :=
  let net := s.net
  let attempts := if net.serverGone then [] else net.attempts
  ({ s with
      net := { net with
        shared := { net.shared with notes := [] }
        logged := []
        sockets := if drain then net.sockets.map fun k => { k with written := [] } else net.sockets }
      seenSockets := net.sockets.length
      seenAttempts := net.attempts.length },
    { reply
      now := net.now
      state := net.published
      notes := net.shared.notes
      out := if drain then s.collect else []
      attempts := (attempts.drop s.seenAttempts).map (·.1)
      connections := net.sockets.length
      url := attempts.getLast?.map (·.2)
      logged := net.logged })

def step (s : Session) (p : Step) : Session × Report :=
  let s := match p.after with
    | some span => s.onNet (·.sleep span)
    | none => s
  let (s, late) := if p.release then s.releaseLate else (s, [])
  let s := if p.dropPeer then s.onLink p.link Socket.desert else s
  let (s, reply) := s.perform p late
  let (s, reply) := s.finish reply
  s.report reply p.drain

def run (s : Session) : List Step → List Report
  | [] => []
  | p :: rest =>
    let (s, report) := s.step p
    report :: s.run rest

end Session

end LiveMetrics
