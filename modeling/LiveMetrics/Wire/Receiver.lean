import LiveMetrics.Text.Utf8
import LiveMetrics.Wire.Message

/-!
# Receiving messages

The receiving end of a connection reads frames from the bytes of its client and puts messages
together from them. Frames of a client are masked; a message of data may come in several frames,
with other messages between them. `Receiver.receive` gives the next message; what breaks a rule of
the protocol ends the connection.

This is an outer layer: a manager is given frames, and does not see how they are put together.
-/

set_option autoImplicit false

namespace LiveMetrics.Wire

inductive Opcode where
  | continuation
  | text
  | binary
  | close
  | ping
  | pong
  deriving Repr, DecidableEq

/-- The opcode of a number; the others are reserved. -/
def Opcode.ofNat? : Nat → Option Opcode
  | 0 => some continuation
  | 1 => some text
  | 2 => some binary
  | 8 => some close
  | 9 => some ping
  | 10 => some pong
  | _ => none

/-- A frame without its mask. -/
structure RawFrame where
  final : Bool
  opcode : Opcode
  payload : List UInt8

/-- What bytes begin with. -/
inductive Parsed where
  /-- A frame, and the bytes after it. -/
  | frame (frame : RawFrame) (rest : List UInt8)
  /-- Not yet a whole frame. -/
  | more
  /-- No frame of a client. -/
  | broken

/-- The number that bytes spell, the highest first. -/
def bigEndian (bytes : List UInt8) : Nat := bytes.foldl (fun n b => n * 256 + b.toNat) 0

/-- Takes the mask off a payload, or puts it on. -/
def unmask (mask payload : List UInt8) : List UInt8 :=
  payload.zipIdx.map fun (b, i) => b ^^^ mask.getD (i % 4) 0

/-- How many bytes the length takes beyond its first. -/
def lengthBytes (short : Nat) : Nat := if short = 126 then 2 else if short = 127 then 8 else 0

/-- Reads a frame from the front of bytes. -/
def RawFrame.parse : List UInt8 → Parsed
  | first :: second :: rest =>
    let extra := lengthBytes (second.toNat % 128)
    let masked := 128 ≤ second.toNat
    let header := extra + if masked then 4 else 0
    if rest.length < header then .more
    else
      let length := if extra = 0 then second.toNat % 128 else bigEndian (rest.take extra)
      let mask := (rest.take header).drop extra
      let body := rest.drop header
      match Opcode.ofNat? (first.toNat % 16) with
      | none => .broken
      | some opcode =>
        if WireMessage.maxFrame < length then .broken
        else if body.length < length then .more
        else if !masked || first.toNat / 16 % 8 ≠ 0 then .broken
        else
          .frame ⟨128 ≤ first.toNat, opcode, unmask mask (body.take length)⟩ (body.drop length)
  | _ => .more

/-- A message of data of which more frames are to come. -/
structure Fragment where
  isText : Bool
  payload : List UInt8

structure Receiver where
  /-- The bytes that have come in and are not read yet. -/
  buffer : List UInt8
  fragment : Option Fragment
  /-- Whether no more bytes come in. -/
  hungUp : Bool
  /-- Whether the connection is at its end. -/
  ended : Bool

/-- What the receiving end reads. -/
inductive Received where
  | message (message : WireMessage UInt16)
  | failed
  /-- The connection is at its end. -/
  | ended
  /-- Nothing yet. -/
  | nothing

/-- What a frame leads to. -/
inductive Taken where
  | message (message : WireMessage UInt16)
  | fragment (fragment : Fragment)
  | broken

/-- A message or a part of one, from all its bytes so far. -/
def takeData (final isText : Bool) (payload : List UInt8) : Taken :=
  if isText then
    if final then
      match String.fromUTF8? ⟨payload.toArray⟩ with
      | some s => .message (.text s)
      | none => .broken
    else if Text.beginsText payload then .fragment ⟨true, payload⟩ else .broken
  else if final then .message (.binary ⟨payload.toArray⟩)
  else .fragment ⟨false, payload⟩

/-- The close message with that payload: nothing, or a code and a reason. -/
def takeClose : List UInt8 → Taken
  | [] => .message (.close none)
  | high :: low :: reason =>
    match String.fromUTF8? ⟨reason.toArray⟩ with
    | some reason =>
      .message (WireMessage.admitClose (some (UInt16.ofNat (bigEndian [high, low]), reason)))
    | none => .broken
  | [_] => .broken

/-- What a frame leads to after the fragment before it. -/
def takeFrame (fragment : Option Fragment) (f : RawFrame) : Taken :=
  match f.opcode, fragment with
  | .continuation, some before => takeData f.final before.isText (before.payload ++ f.payload)
  | .text, none => takeData f.final true f.payload
  | .binary, none => takeData f.final false f.payload
  | .continuation, none | .text, some _ | .binary, some _ => .broken
  | .close, _ | .ping, _ | .pong, _ =>
    if !f.final || WireMessage.maxControl < f.payload.length then .broken
    else
      match f.opcode with
      | .ping => .message (.ping ⟨f.payload.toArray⟩)
      | .pong => .message (.pong ⟨f.payload.toArray⟩)
      | _ => takeClose f.payload

namespace Receiver

def new : Receiver := ⟨[], none, false, false⟩

def finish (r : Receiver) : Receiver := { r with ended := true }

/-- A message has come in; a close message is the last. -/
def deliver (r : Receiver) : WireMessage UInt16 → Receiver × Received
  | .close why => (r.finish, .message (.close why))
  | message => (r, .message message)

/-- Reads at most `fuel` frames, until there is a message. -/
def receiveWithin : Nat → Receiver → Receiver × Received
  | 0, r => (r, .nothing)
  | fuel + 1, r =>
    if r.ended then (r, .ended)
    else
      match RawFrame.parse r.buffer with
      | .more => if r.hungUp then (r.finish, .failed) else (r, .nothing)
      | .broken => (r.finish, .failed)
      | .frame frame rest =>
        let r := { r with buffer := rest }
        match takeFrame r.fragment frame with
        | .broken => (r.finish, .failed)
        | .fragment fragment => receiveWithin fuel { r with fragment := some fragment }
        | .message message =>
          let control := match frame.opcode with
            | .close | .ping | .pong => true
            | .continuation | .text | .binary => false
          (if control then r else { r with fragment := none }).deliver message

/-- Reads the next message. A frame has two bytes at least, so the buffer bounds how many there
are. -/
def receive (r : Receiver) : Receiver × Received := receiveWithin (r.buffer.length + 1) r

end Receiver

end LiveMetrics.Wire
