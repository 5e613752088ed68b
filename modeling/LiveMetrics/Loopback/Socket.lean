import LiveMetrics.Control
import LiveMetrics.Error

/-!
# Connections in memory

A socket joins the client to a server in the same process. The client writes frames that the server
takes; the server sends frames, or an error, that the client reads. Either side may go away, and
the server may stop to take what is written.
-/

set_option autoImplicit false

namespace LiveMetrics.Loopback

/-- What the client reads. -/
inductive Incoming where
  | frame (frame : Frame)
  | error (text : String)
  deriving DecidableEq

structure Socket where
  /-- What the client wrote and the server has not taken. -/
  written : List Frame
  /-- What the server sent and the client has not read. -/
  incoming : List Incoming
  /-- Whether the server sends no more. -/
  ended : Bool
  /-- Whether the client reads no more. -/
  readerGone : Bool
  /-- Whether the client writes no more. -/
  writerGone : Bool
  /-- Whether writes stay unfinished. -/
  stalled : Bool
  /-- Whether the server has gone. -/
  deserted : Bool
  deriving DecidableEq

/-- Why the server cannot send. -/
inductive SendFault where
  | socketDropped
  | channelClosed
  deriving Repr, DecidableEq

def SendFault.message : SendFault → String
  | socketDropped => "mock socket already dropped"
  | channelClosed => "mock client channel is closed"

/-- What a client reads as the error of that text. -/
def readError (text : String) : StreamError := .transport "read" text

/-- Why all writes fail when they are told to. -/
def brokenPipe : StreamError := .transport "write" "broken pipe"

/-- Why a write to a deserted socket fails. -/
def noPeer : StreamError := .transport "mock_transport_write" "mock outbound channel closed"

namespace Socket

def new : Socket := ⟨[], [], false, false, false, false, false⟩

def send (s : Socket) (item : Incoming) : Except SendFault Socket :=
  if s.ended then .error .socketDropped
  else if s.readerGone then .error .channelClosed
  else .ok { s with incoming := s.incoming ++ [item] }

/-- The server sends no more; what it has sent can still be read. -/
def finish (s : Socket) : Socket := { s with ended := true }

/-- The server goes away with all that it has not taken. -/
def desert (s : Socket) : Socket := { s with ended := true, deserted := true, written := [] }

/-- The client writes a frame. -/
def write (s : Socket) (frame : Frame) : Socket := { s with written := s.written ++ [frame] }

/-- Drops frames that are no control frames, and takes the control frame after them. -/
def takeControl : List Frame → List Frame × Option ControlFrame
  | [] => ([], none)
  | frame :: rest =>
    match frame.payload?.map ControlFrame.decode with
    | some (.ok control) => (rest, some control)
    | some (.error _) | none => takeControl rest

end Socket

end LiveMetrics.Loopback
