import LiveMetrics.Binary64.Grid
import LiveMetrics.Span

/-!
# Spans as seconds in a double

A span as a number of seconds, rounded to a double, and back: a number of seconds becomes the
nearest whole number of nanoseconds, a tie the even one. Numbers of seconds are magnitudes on the
grid of `Binary64`.
-/

set_option autoImplicit false

namespace LiveMetrics.Span

/-- The seconds of a span: the whole seconds and the rest as doubles, added up. -/
def inSeconds (d : Span) : Nat :=
  Binary64.add (Binary64.ofRatio d.seconds 1) (Binary64.ofRatio d.subsecond nanosPerSecond)

/-- The span of that many seconds, if it is below 2^64 seconds. -/
def ofSeconds? (seconds : Nat) : Option Span :=
  if Nat.pow 2 64 * Binary64.one ≤ seconds then none
  else some (ofNanos (Binary64.roundDiv (seconds * nanosPerSecond) Binary64.one))

end LiveMetrics.Span
