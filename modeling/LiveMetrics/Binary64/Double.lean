import LiveMetrics.Binary64.Grid

/-!
# Doubles

A double is its 64 bits: the sign, eleven bits of exponent, 52 bits of fraction. `Double.units` is
its magnitude on the grid of `Binary64`, `Double.ofUnits` the way back.
-/

set_option autoImplicit false

namespace LiveMetrics

/-- A double-precision number, by its bits. -/
structure Double where
  bits : UInt64
  deriving Repr, DecidableEq, Inhabited

namespace Double

/-- The bits without the sign. -/
def unsigned (d : Double) : Nat :=
  d.bits.toNat % Nat.pow 2 63

/-- Whether the sign bit is set; also a zero can have it. -/
def negative (d : Double) : Bool :=
  Nat.pow 2 63 ≤ d.bits.toNat

/-- Whether the double is neither infinite nor without value. -/
def isFinite (d : Double) : Bool :=
  d.unsigned < 2047 * Nat.pow 2 52

/-- Whether the bits stand for no number. -/
def isNaN (d : Double) : Bool :=
  2047 * Nat.pow 2 52 < d.unsigned

/-- The magnitude, counted in 2^-1074. -/
def units (d : Double) : Nat :=
  let exponent := d.unsigned / Nat.pow 2 52
  let fraction := d.unsigned % Nat.pow 2 52
  if exponent = 0 then fraction else (Nat.pow 2 52 + fraction) * Nat.pow 2 (exponent - 1)

/-- The double with a sign and a magnitude on the grid; the magnitude `top` gives infinity. -/
def ofUnits (negative : Bool) (n : Nat) : Double :=
  let n := Binary64.cap n
  let s := Binary64.spacing n
  ⟨UInt64.ofNat ((if negative then Nat.pow 2 63 else 0) + s * Nat.pow 2 52 + n / Nat.pow 2 s)⟩

/-- The zero without a sign. -/
def zero : Double := ⟨0⟩

/-- The double nearest to a whole number. -/
def ofInt (n : Int) : Double :=
  ofUnits (n < 0) (Binary64.ofRatio n.natAbs 1)

/-- The whole part, clamped to 64 bits with a sign; 0 for what is no number. -/
def toInt64 (d : Double) : Int :=
  if d.isNaN then 0
  else
    let whole : Int := d.units / Binary64.one
    max (-Int.pow 2 63) (min (Int.pow 2 63 - 1) (if d.negative then -whole else whole))

end Double

end LiveMetrics
