import LiveMetrics.Frame

/-!
# Messages of the websocket protocol

The protocol carries text as text: a text message and the reason of a close message are always
UTF-8. `WireMessage.ofFrame` turns a frame into the message that is sent for it,
`WireMessage.toFrame` a message into the frame that arrives. Only what could not be sent changes: a
text frame without text is sent as binary, a close reason without text is left empty.
-/

set_option autoImplicit false

namespace LiveMetrics

/-- How messages hold close codes: as what a number is turned into, and read as a number. -/
structure CloseCodes (κ : Type) where
  ofNumber : UInt16 → κ
  number : κ → UInt16

/-- Close codes that are their numbers. -/
def CloseCodes.plain : CloseCodes UInt16 := ⟨id, id⟩

/-- A message of the websocket protocol, with close codes in `κ`. -/
inductive WireMessage (κ : Type) where
  | text (text : String)
  | binary (payload : ByteArray)
  | ping (payload : ByteArray)
  | pong (payload : ByteArray)
  | close (why : Option (κ × String))
  /-- A frame as it is on the wire; no frame is sent so, and no reader is given one. -/
  | bare
  deriving DecidableEq

namespace WireMessage

section Frames

variable {κ : Type} (codes : CloseCodes κ)

/-- The message that is sent for a frame. -/
def ofFrame : Frame → WireMessage κ
  | .text payload =>
    match String.fromUTF8? payload with
    | some s => text s
    | none => binary payload
  | .binary payload => binary payload
  | .ping payload => ping payload
  | .pong payload => pong payload
  | .close why =>
    close (why.map fun w => (codes.ofNumber w.code, (String.fromUTF8? w.reason).getD ""))

/-- The frame that arrives for a message. -/
def toFrame : WireMessage κ → Frame
  | text s => .text s.toUTF8
  | binary payload => .binary payload
  | ping payload => .ping payload
  | pong payload => .pong payload
  | close why => .close (why.map fun (code, reason) => ⟨codes.number code, reason.toUTF8⟩)
  | bare => .binary .empty

end Frames

/-- Whether a close code may be sent: those of the standard, and those from 3000 to 4999. -/
def allowedCode (code : UInt16) : Bool :=
  let n := code.toNat
  (1000 ≤ n && n ≤ 1003) || (1007 ≤ n && n ≤ 1013) || (3000 ≤ n && n ≤ 4999)

/-- What is made of a close message that comes in: a code that may not be sent is a violation. -/
def admitClose : Option (UInt16 × String) → WireMessage UInt16
  | some (code, reason) =>
    close (some (if allowedCode code then (code, reason) else (1002, "Protocol violation")))
  | none => close none

/-- The greatest payload of a ping, a pong or a close message. -/
def maxControl : Nat := 125

/-- The greatest payload of a frame, 16 MiB. -/
def maxFrame : Nat := 16 * 1024 * 1024

/-- The message as it gets through one connection, unless it is too large. -/
def carried? : WireMessage UInt16 → Option (WireMessage UInt16)
  | text s => if s.utf8ByteSize ≤ maxFrame then some (text s) else none
  | binary payload => if payload.size ≤ maxFrame then some (binary payload) else none
  | ping payload => if payload.size ≤ maxControl then some (ping payload) else none
  | pong payload => if payload.size ≤ maxControl then some (pong payload) else none
  | close none => some (close none)
  | close (some (code, reason)) =>
    if reason.utf8ByteSize + 2 ≤ maxControl then some (admitClose (some (code, reason))) else none
  | bare => none

end WireMessage

end LiveMetrics
