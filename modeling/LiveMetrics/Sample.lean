import LiveMetrics.Json.Printer
import LiveMetrics.Topic

/-!
# Samples

One decoded observation: its topic, its time in milliseconds, and the JSON value that was sent.
-/

set_option autoImplicit false

namespace LiveMetrics

structure Sample where
  topic : Topic
  timestamp : Int
  fields : Json.Value
  deriving Repr

namespace Sample

def field? (s : Sample) (name : String) : Option Json.Value :=
  s.fields.get? name

/-- The first member of that name as a double, if it is a number. -/
def fieldDouble? (s : Sample) (name : String) : Option Double :=
  (s.field? name).bind Json.Value.double?

end Sample

end LiveMetrics
