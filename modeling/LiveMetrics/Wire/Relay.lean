import LiveMetrics.Config
import LiveMetrics.Wire.Receiver

/-!
# From one peer to another

Two peers accept a connection each; what the one sends is relayed to the other. `Relay.run` sends
frames one at a time and says what the other reads. `connectFault` and `acceptFault` are what is
left of a connection that cannot come about. No manager takes part in this; it is the layer of the socket
alone.
-/

set_option autoImplicit false

namespace LiveMetrics.Wire

/-- An error of the protocol, by the operation that met it. -/
def protocolError (context : String) : StreamError := .transport context "protocol error"

/-- Why a connection to what is no address of a websocket fails; the sizes of the buffers are
checked first. -/
def connectFault (buffers : BufferSizes) : StreamError :=
  match buffers.validate with
  | .error fault => fault.error
  | .ok () => protocolError "connect"

/-- Why a handshake fails that is no whole request for an upgrade. -/
def acceptFault : StreamError := protocolError "accept"

/-- Whether the websocket itself answers pings. -/
def repliesToPings : Bool := true

/-- What is done with the two peers. -/
inductive Entry where
  | send (frame : Frame)
  /-- The sender closes without a reason. -/
  | close
  | read
  /-- The receiver's client writes bytes as they are. -/
  | raw (bytes : ByteArray)
  /-- The receiver's client goes away. -/
  | hangUp

/-- What came of it. -/
inductive Got where
  | frame (frame : Frame)
  | readFailed
  | ended
  | nothing
  | sendFailed (error : StreamError)

structure Relay where
  /-- Whether the sender has closed. -/
  closed : Bool
  receiver : Receiver

namespace Relay

/-- Two open connections. -/
def new : Relay := ⟨false, .new⟩

/-- What was read, as the receiver shows it. -/
def got : Received → Got
  | .message message => .frame (message.toFrame .plain)
  | .failed => .readFailed
  | .ended => .ended
  | .nothing => .nothing

def read (r : Relay) : Relay × Got :=
  let (receiver, received) := r.receiver.receive
  ({ r with receiver }, got received)

/-- A message of the sender reaches the receiver. -/
def pass (r : Relay) (message : WireMessage UInt16) : Relay × Got :=
  if r.receiver.ended || r.receiver.hungUp then r.read
  else
    match message.carried? with
    | some message =>
      let (receiver, received) := r.receiver.deliver message
      ({ r with receiver }, got received)
    | none => ({ r with receiver := r.receiver.finish }, .readFailed)

def step (r : Relay) : Entry → Relay × Got
  | .send frame =>
    if r.closed then (r, .sendFailed (protocolError "write"))
    else
      let message := WireMessage.ofFrame .plain frame
      let closing := match message with
        | .close _ => true
        | _ => false
      { r with closed := closing }.pass message
  | .close =>
    if r.closed then (r, .sendFailed (protocolError "close"))
    else { r with closed := true }.pass (.close none)
  | .read => r.read
  | .raw bytes =>
    { r with receiver := { r.receiver with buffer := r.receiver.buffer ++ bytes.toList } }.read
  | .hangUp => { r with receiver := { r.receiver with hungUp := true } }.read

def run (r : Relay) : List Entry → List Got
  | [] => []
  | entry :: rest =>
    let (r, result) := r.step entry
    result :: r.run rest

end Relay

end LiveMetrics.Wire
