/-!
# Frames

What travels over a connection: text and binary frames carry data, pings, pongs and close frames
control it. A text frame may hold bytes that are no text; `WireMessage.ofFrame` is what is sent then.
-/

set_option autoImplicit false

namespace LiveMetrics

/-- Payloads are compared byte by byte. -/
instance (priority := high) payloadDecidableEq : DecidableEq ByteArray := ByteArray.instDecidableEq

/-- What a close frame may say. -/
structure CloseReason where
  code : UInt16
  reason : ByteArray
  deriving DecidableEq

inductive Frame where
  | text (payload : ByteArray)
  | binary (payload : ByteArray)
  | ping (payload : ByteArray)
  | pong (payload : ByteArray)
  | close (why : Option CloseReason)
  deriving DecidableEq

namespace Frame

def ofText (s : String) : Frame := .text s.toUTF8

/-- The close frame of a client that leaves on purpose. -/
def clientClose : Frame := .close (some ⟨1000, "client disconnect".toUTF8⟩)

/-- The data of a frame that carries any. -/
def payload? : Frame → Option ByteArray
  | .text payload | .binary payload => some payload
  | .ping _ | .pong _ | .close _ => none

end Frame

end LiveMetrics
