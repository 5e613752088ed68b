/-!
# Spans of time

A span is a whole number of nanoseconds, at most 2^64 - 1 seconds and 999999999 nanoseconds;
operations that would exceed this stop at it. Instants are nanoseconds on a clock that starts at 0.
-/

set_option autoImplicit false

namespace LiveMetrics

def nanosPerSecond : Nat := 1000000000

def nanosPerMilli : Nat := 1000000

/-- A length of time. -/
structure Span where
  nanos : Nat
  nanos_lt : nanos < Nat.pow 2 64 * nanosPerSecond := by decide
  deriving DecidableEq

namespace Span

def zero : Span := ⟨0, by decide⟩

def longest : Span := ⟨Nat.pow 2 64 * nanosPerSecond - 1, by decide⟩

/-- The span of that many nanoseconds, the longest one at most. -/
def ofNanos (n : Nat) : Span :=
  ⟨min n (Nat.pow 2 64 * nanosPerSecond - 1),
    Nat.lt_of_le_of_lt (Nat.min_le_right _ _) (by decide)⟩

def ofMillis (n : Nat) : Span := ofNanos (n * nanosPerMilli)

def ofSeconds (n : Nat) : Span := ofNanos (n * nanosPerSecond)

instance : Inhabited Span := ⟨zero⟩

def seconds (d : Span) : Nat := d.nanos / nanosPerSecond

/-- The nanoseconds beyond the whole seconds. -/
def subsecond (d : Span) : Nat := d.nanos % nanosPerSecond

def millis (d : Span) : Nat := d.nanos / nanosPerMilli

def micros (d : Span) : Nat := d.nanos / 1000

def isZero (d : Span) : Bool := d.nanos == 0

def times (d : Span) (n : Nat) : Span := ofNanos (d.nanos * n)

/-- The time from one instant to a later one, zero if it is earlier. -/
def between (start finish : Nat) : Span := ofNanos (finish - start)

/-! ## In words -/

/-- A fraction of `places` digits without the zeros at its end, with its point if any is left. -/
def fractionText (places fraction : Nat) : String :=
  let digits := Nat.toDigits 10 fraction
  let padded := List.replicate (places - digits.length) '0' ++ digits
  let kept := (padded.reverse.dropWhile (· == '0')).reverse
  if kept.isEmpty then "" else String.ofList ('.' :: kept)

/-- The span in the largest of the units s, ms, µs and ns that it reaches, to the nanosecond. -/
def text (d : Span) : String :=
  if nanosPerSecond ≤ d.nanos then
    toString (d.nanos / nanosPerSecond) ++ fractionText 9 (d.nanos % nanosPerSecond) ++ "s"
  else if nanosPerMilli ≤ d.nanos then
    toString (d.nanos / nanosPerMilli) ++ fractionText 6 (d.nanos % nanosPerMilli) ++ "ms"
  else if 1000 ≤ d.nanos then
    toString (d.nanos / 1000) ++ fractionText 3 (d.nanos % 1000) ++ "µs"
  else toString d.nanos ++ "ns"

end Span

end LiveMetrics
