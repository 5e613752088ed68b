/-!
# Magnitudes of doubles as whole numbers

Every finite double is a whole multiple of the least positive one, 2^-1074. Here a magnitude is
that multiple, a `Nat`; rounding, sums, products and comparisons are then exact arithmetic on
numbers. A magnitude of `top` or more stands for infinity.

* `roundDiv` rounds a quotient to the nearest whole number, a tie to the even one.
* `nearest` rounds a quotient to the nearest magnitude of a double: 53 significant bits.
* `add`, `mul`, `ofRatio` and `pow` are the operations on magnitudes, each rounded once (`pow` once
  per multiplication).
-/

set_option autoImplicit false

namespace LiveMetrics.Binary64

/-- How often the least positive double goes into 1. -/
def one : Nat := Nat.pow 2 1074

/-- 2^1024, the least magnitude that is infinite. -/
def top : Nat := Nat.pow 2 2098

/-- `num / den` rounded to the nearest whole number; of two equally near ones, the even one. -/
def roundDiv (num den : Nat) : Nat :=
  let quotient := num / den
  let twice := 2 * (num % den)
  if twice < den then quotient
  else if den < twice then quotient + 1
  else quotient + quotient % 2

/-- Around `n` the doubles lie `2 ^ spacing n` apart. -/
def spacing (n : Nat) : Nat :=
  n.log2 - 52

/-- The magnitude with 53 significant bits that is nearest to `num / den`. -/
def nearest (num den : Nat) : Nat :=
  let s := spacing (num / den)
  roundDiv num (den * Nat.pow 2 s) * Nat.pow 2 s

/-- Magnitudes from `top` on are one and the same infinity. -/
def cap (n : Nat) : Nat :=
  min n top

/-- The magnitude of the fraction `num / den`. -/
def ofRatio (num den : Nat) : Nat :=
  cap (nearest (num * one) den)

def add (a b : Nat) : Nat :=
  cap (nearest (a + b) 1)

/-- The rounded product of two magnitudes of which none is zero while the other is infinite. -/
def mul (a b : Nat) : Nat :=
  if top ≤ a ∨ top ≤ b then top else cap (nearest (a * b) one)

/-- One round of repeated squaring per binary digit of `exponent`. -/
def powFrom : Nat → Nat → Nat → Nat → Nat
  | 0, result, _, _ => result
  | fuel + 1, result, base, exponent =>
    let result := if exponent % 2 = 1 then mul result base else result
    if exponent / 2 = 0 then result else powFrom fuel result (mul base base) (exponent / 2)

/-- A power by repeated squaring from the lowest binary digit of the exponent up. -/
def pow (base exponent : Nat) : Nat :=
  powFrom (exponent.log2 + 1) one base exponent

end LiveMetrics.Binary64
