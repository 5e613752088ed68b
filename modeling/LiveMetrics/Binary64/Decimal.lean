import LiveMetrics.Binary64.Double

/-!
# Doubles and decimal digits

A decimal `digits * 10 ^ exponent` is read as the nearest magnitude of a double (`decimalUnits`); a
magnitude is written with the fewest digits that read back as it (`shortest`), of those the nearest
to it, of two equally near ones the even one.
-/

set_option autoImplicit false

namespace LiveMetrics.Binary64

/-- The magnitude nearest to `digits * 10 ^ exponent`, `top` when that is infinite. Far outside the
range of doubles the answer is plain and the power is not worked out. -/
def decimalUnits (digits : Nat) (exponent : Int) : Nat :=
  if digits = 0 then 0
  else if 310 < exponent then top
  else if exponent < -(330 + digits.log2 : Int) then 0
  else if 0 ≤ exponent then ofRatio (digits * Nat.pow 10 exponent.toNat) 1
  else ofRatio digits (Nat.pow 10 (-exponent).toNat)

/-- A whole number of digits and a power of ten. -/
structure Decimal where
  digits : Nat
  exponent : Int
  deriving Repr, DecidableEq

/-- A magnitude in steps of `10 ^ exponent`, as a fraction. -/
def inSteps (n : Nat) (exponent : Int) : Nat × Nat :=
  if 0 ≤ exponent then (n, one * Nat.pow 10 exponent.toNat) else (n * Nat.pow 10 (-exponent).toNat, one)

/-- The least exponent from `exponent` on whose power of ten is above the magnitude. -/
def pointFrom : Nat → Nat → Int → Int
  | 0, _, exponent => exponent
  | fuel + 1, n, exponent =>
    let (num, den) := inSteps n exponent
    if num < den then exponent else pointFrom fuel n (exponent + 1)

/-- How many digits stand before the point of a magnitude; not positive below 0.1. The search
starts from an estimate by the binary logarithm that is never too large. -/
def point (n : Nat) : Int :=
  pointFrom 4 n (((n.log2 : Int) - 1074) * 30103 / 100000)

/-- The decimal with the given exponent that reads back as the magnitude, if there is one: one of
the two neighbours of the magnitude, the nearer if both do. -/
def readsBack? (n : Nat) (exponent : Int) : Option Decimal :=
  let (num, den) := inSteps n exponent
  let below := num / den
  let above := below + 1
  if decimalUnits below exponent = n then
    if decimalUnits above exponent = n ∧
        (den < 2 * (num % den) ∨ (den = 2 * (num % den) ∧ below % 2 = 1))
    then some ⟨above, exponent⟩ else some ⟨below, exponent⟩
  else if decimalUnits above exponent = n then some ⟨above, exponent⟩
  else none

/-- Tries one more digit at a time; a magnitude has an exact decimal at the exponent -1074. -/
def shortestFrom : Nat → Nat → Int → Decimal
  | 0, n, _ => ⟨n * Nat.pow 5 1074, -1074⟩
  | fuel + 1, n, exponent =>
    match readsBack? n exponent with
    | some d => d
    | none => shortestFrom fuel n (exponent - 1)

/-- Moves zeros at the end of the digits into the exponent. -/
def dropZeros : Nat → Decimal → Decimal
  | 0, d => d
  | fuel + 1, d =>
    if d.digits % 10 = 0 then dropZeros fuel ⟨d.digits / 10, d.exponent + 1⟩ else d

/-- The decimal with the fewest digits that reads back as a positive magnitude below `top`. -/
def shortest (n : Nat) : Decimal :=
  dropZeros 20 (shortestFrom 17 n (point n - 1))

end LiveMetrics.Binary64
