import LiveMetrics.Error
import LiveMetrics.Frame
import LiveMetrics.Json.Record
import LiveMetrics.Sample

/-!
# Envelopes

A data frame carries an envelope with the members `topic` and `body`. The body is a JSON value, or
a string that spells one and is read once more. `Envelope.decode` makes a sample of a frame's
bytes, `Envelope.encode` an envelope with the body as a string.
-/

set_option autoImplicit false

namespace LiveMetrics

/-- The members of an envelope; both may be missing or `null`. -/
structure Envelope where
  topic : Option String
  body : Option Json.Value

namespace Envelope

/-- Reads the members that an envelope has. -/
def ofTree? (t : Json.Tree) : Option Envelope := do
  let r ← Json.Record.ofTree? ["topic", "body"] t
  let topic ← r.optional? "topic" (Json.Tree.nullable? Json.Tree.text?) none
  let body ← r.optional? "body" (Json.Tree.nullable? Json.Tree.value?) none
  return ⟨topic, body⟩

/-- Reads an envelope from bytes that are one JSON document in UTF-8. -/
def parse? (raw : ByteArray) : Option Envelope := do
  let text ← String.fromUTF8? raw
  let tree ← Json.Tree.parse? text.toList
  ofTree? tree

/-- The value that a body stands for: a string is read as JSON, anything else is taken as it is. -/
def bodyValue? : Json.Value → Option Json.Value
  | .string text => Json.Value.parse? text
  | v => some v

/-- The time a payload gives in its member `timestamp`, if that is a number. -/
def timestamp? (fields : Json.Value) : Option Int :=
  (fields.get? "timestamp").bind Json.Value.int64?

/-- The sample that an envelope carries, or the first of its faults. -/
def sample (e : Envelope) (receivedAt : Int) : Except DecodeFault Sample :=
  match e.topic with
  | none | some "" => .error .noTopic
  | some topic =>
    match e.body with
    | none => .error (.noBody topic)
    | some body =>
      match bodyValue? body with
      | none => .error (.malformedBody topic)
      | some fields => .ok ⟨⟨topic⟩, (timestamp? fields).getD receivedAt, fields⟩

/-- Decodes a data frame; `receivedAt` is the time of a payload that gives none. -/
def decode (raw : ByteArray) (receivedAt : Int) : Except DecodeFault Sample :=
  match parse? raw with
  | none => .error .malformedEnvelope
  | some e => e.sample receivedAt

/-- The frame that carries a body, spelled as a string, on a topic. -/
def encode (topic body : String) : Frame :=
  .ofText (Json.Value.object [("topic", .string topic), ("body", .string body)]).render

end Envelope

end LiveMetrics
