import LiveMetrics.Error
import LiveMetrics.Json.Record
import LiveMetrics.Sample

/-!
# Typed payloads

A type of payloads can be read from a JSON document and written as a JSON value. `Sample.decode`
reads the payload of a sample: the value is written out again and that text is read.
-/

set_option autoImplicit false

namespace LiveMetrics

/-- A type of payloads. -/
class Payload (α : Type) where
  /-- Reads a payload from a document. -/
  ofTree? : Json.Tree → Option α
  /-- The payload as a value. -/
  toValue : α → Json.Value

namespace Payload

/-- Reads a payload from a text that is exactly one JSON document. -/
def parse? {α : Type} [Payload α] (text : String) : Option α :=
  (Json.Tree.parse? text.toList).bind ofTree?

/-- The JSON text of a payload. -/
def render {α : Type} [Payload α] (a : α) : String :=
  (toValue a).render

end Payload

/-- Reads the payload of a sample as one of the typed models. -/
def Sample.decode {α : Type} [Payload α] (s : Sample) : Except DecodeFault α :=
  match Payload.parse? s.fields.render with
  | some a => .ok a
  | none => .error (.malformedPayload s.topic.name)

end LiveMetrics
