import LiveMetrics.Error
import LiveMetrics.Frame
import LiveMetrics.Json.Printer
import LiveMetrics.Json.Record
import LiveMetrics.Topic

/-!
# Control frames

A client tells the server which topics it wants. `ControlFrame.encode` writes such a message as a
text frame, `ControlFrame.decode` reads one.
-/

set_option autoImplicit false

namespace LiveMetrics

inductive ControlKind where
  | subscribe
  | unsubscribe
  deriving Repr, DecidableEq

/-- A request to begin or to end the flow of a topic. -/
structure ControlFrame where
  kind : ControlKind
  topic : Topic
  deriving Repr, DecidableEq

/-- The word that marks a request. -/
def ControlKind.tag : ControlKind → String
  | subscribe => "subscribe"
  | unsubscribe => "unsubscribe"

def ControlKind.ofTag? : String → Option ControlKind
  | "subscribe" => some subscribe
  | "unsubscribe" => some unsubscribe
  | _ => none

namespace ControlFrame

def encode (c : ControlFrame) : Frame :=
  .ofText (Json.Value.object
    [("type", .string c.kind.tag), ("topic", .string c.topic.name)]).render

/-- The only value of that name. -/
def sole? (name : String) (members : List (String × Json.Value)) : Option Json.Value :=
  match members.filter fun m => m.1 == name with
  | [(_, v)] => some v
  | _ => none

/-- The request in a JSON value: an object with `type` and `topic` once each, whatever else it
holds, or an array of the two. -/
def ofValue? : Json.Value → Option ControlFrame
  | .object members => do
    let tag ← (sole? "type" members).bind Json.Value.text?
    let topic ← (sole? "topic" members).bind Json.Value.text?
    let kind ← ControlKind.ofTag? tag
    return ⟨kind, ⟨topic⟩⟩
  | .array [.string tag, .string topic] => (ControlKind.ofTag? tag).map fun kind => ⟨kind, ⟨topic⟩⟩
  | _ => none

/-- Reads a request from the bytes of a frame. -/
def decode (raw : ByteArray) : Except DecodeFault ControlFrame :=
  match (String.fromUTF8? raw).bind fun text => (Json.Value.parse? text).bind ofValue? with
  | some c => .ok c
  | none => .error .malformedControl

def termText (c : ControlFrame) : String :=
  let kind := match c.kind with
    | .subscribe => "Subscribe"
    | .unsubscribe => "Unsubscribe"
  kind ++ " \x7b topic: " ++ c.topic.termText ++ " \x7d"

end ControlFrame

end LiveMetrics
