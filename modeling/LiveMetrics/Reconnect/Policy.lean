import LiveMetrics.Binary64.Double
import LiveMetrics.Reconnect.Jitter
import LiveMetrics.Span.Seconds

/-!
# When to connect again

A policy says how long to wait before the next attempt, as a function of the number of attempts
that have failed since the last success, counted from 1. It may also give up.
-/

set_option autoImplicit false

namespace LiveMetrics

/-- What a policy answers. -/
inductive Verdict where
  /-- Try again after this time. -/
  | wait (delay : Span)
  /-- Do not try again. -/
  | giveUp
  /-- The policy itself failed. -/
  | broken (reason : String)
  deriving DecidableEq

namespace Verdict

def delay? : Verdict → Option Span
  | wait delay => some delay
  | giveUp | broken _ => none

end Verdict

/-- Delays that grow by a constant factor, a magnitude of `Binary64` above 1, up to `max`. -/
structure Backoff where
  base : Span
  max : Span
  factor : Nat
  maxAttempts : Option Nat
  deriving DecidableEq

inductive Policy where
  | fixed (delay : Span) (maxAttempts : Option Nat)
  | exponential (backoff : Backoff)
  | jittered (inner : Policy) (seed : UInt64)
  | never
  deriving DecidableEq

/-- Whether an attempt is beyond the limit. -/
def exhausted (maxAttempts : Option Nat) (attempt : Nat) : Bool :=
  match maxAttempts with
  | some limit => limit < attempt
  | none => false

namespace Backoff

/-- One and a half. -/
def defaultFactor : Nat := 3 * Nat.pow 2 1073

/-- A backoff with that factor, or with one and a half if the factor is not a finite number above
1. -/
def new (base max : Span) (factor : Double) (maxAttempts : Option Nat) : Backoff :=
  let usable := factor.isFinite && !factor.negative && Binary64.one < factor.units
  ⟨base, max, if usable then factor.units else defaultFactor, maxAttempts⟩

/-- The delay in seconds, before the cap: the base times a power of the factor, whose exponent
stops at 1024. -/
def seconds (b : Backoff) (attempt : Nat) : Nat :=
  Binary64.mul b.base.inSeconds (Binary64.pow b.factor (min (attempt - 1) 1024))

def delay (b : Backoff) (attempt : Nat) : Span :=
  if b.base.isZero then .zero
  else
    let seconds := b.seconds attempt
    if b.max.inSeconds ≤ seconds then b.max else (Span.ofSeconds? seconds).getD b.max

end Backoff

/-- A span times a factor in seconds, if the product is a span. -/
def Span.scale? (d : Span) (factor : Nat) : Option Span :=
  Span.ofSeconds? (Binary64.mul factor d.inSeconds)

/-- The answer whose delay is scaled, which fails if the product is no span. -/
def Verdict.scaled (factor : Nat) : Verdict → Verdict
  | wait delay =>
    (delay.scale? factor).elim
      (broken "can not convert float seconds to Duration: value is either too big or NaN") wait
  | other => other

/-- The answers of a policy, whatever it is, each with its delay scaled by the factor of the
attempt. -/
def jitter (inner : Nat → Verdict) (seed : UInt64) (attempt : Nat) : Verdict :=
  (inner attempt).scaled (Jitter.factor seed attempt)

namespace Policy

/-- Five seconds between attempts, for ever. -/
def defaultDelay : Span := .ofSeconds 5

/-- One second, growing by one half up to thirty seconds. -/
def defaultBackoff (maxAttempts : Option Nat) : Backoff :=
  ⟨.ofSeconds 1, .ofSeconds 30, Backoff.defaultFactor, maxAttempts⟩

/-- The answer to the failed attempt of that number. -/
def verdict : Policy → Nat → Verdict
  | fixed delay maxAttempts, attempt =>
    if exhausted maxAttempts attempt then .giveUp else .wait delay
  | exponential b, attempt =>
    if exhausted b.maxAttempts attempt then .giveUp else .wait (b.delay attempt)
  | jittered inner seed, attempt => jitter inner.verdict seed attempt
  | never, _ => .giveUp

end Policy

end LiveMetrics
