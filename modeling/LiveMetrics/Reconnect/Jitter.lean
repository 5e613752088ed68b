import LiveMetrics.Binary64.Grid

/-!
# The jitter of a delay

A factor between one half and one that depends on a seed and the number of the attempt alone. The
two are mixed to one word, a small generator expands the word to the state of a larger one, and
the first word of that one, scaled, is the factor.
-/

set_option autoImplicit false

namespace LiveMetrics.Jitter

/-- The seed and the attempt in one word, by way of a multiple of the golden ratio. -/
def mix (seed : UInt64) (attempt : Nat) : UInt64 :=
  seed + UInt64.ofNat attempt * 0x9E3779B97F4A7C15

/-- The step of the linear generator that expands a word. -/
def advance (s : UInt64) : UInt64 :=
  s * 6364136223846793005 + 11634580027462260723

/-- Turns 32 bits to the right. -/
def rotateRight (w r : UInt32) : UInt32 :=
  (w >>> r) ||| (w <<< (32 - r))

/-- Turns 64 bits to the left. -/
def rotateLeft (w r : UInt64) : UInt64 :=
  (w <<< r) ||| (w >>> (64 - r))

/-- The 32 bits that a state of the linear generator gives. -/
def output (s : UInt64) : UInt32 :=
  rotateRight (((s >>> 18) ^^^ s) >>> 27).toUInt32 (s >>> 59).toUInt32

/-- Eight times 32 bits, in order. -/
def expand (word : UInt64) : List UInt32 :=
  let states := (List.range 8).scanl (fun s _ => advance s) word
  states.tail.map output

/-- Two halves as a word, the low one first. -/
def join (low high : UInt32) : UInt64 :=
  low.toUInt64 ||| (high.toUInt64 <<< 32)

/-- The first word of the generator whose state the seed expands to; it takes the first and the
last of the four words of the state. -/
def firstWord (seed : UInt64) : UInt64 :=
  match expand seed with
  | [a, b, _, _, _, _, y, z] =>
    let first := join a b
    rotateLeft (first + join y z) 23 + first
  | _ => 0

/-- The greatest fraction that 52 bits give, just below 1. -/
def maxFraction : Nat := (Nat.pow 2 52 - 1) * Nat.pow 2 1022

def half : Nat := Nat.pow 2 1073

/-- The next lower magnitude. -/
def below (n : Nat) : Nat := n - Nat.pow 2 (Binary64.spacing (n - 1))

/-- Lowers a scale until the greatest fraction does not lead beyond 1. -/
def lowerScale : Nat → Nat → Nat
  | 0, scale => scale
  | fuel + 1, scale =>
    if Binary64.one < Binary64.add (Binary64.mul scale maxFraction) half then
      lowerScale fuel (below scale)
    else scale

/-- What the fraction is multiplied with: one half over the greatest fraction, so that the whole
range up to 1 is reached. -/
def scale : Nat :=
  lowerScale 8 (Binary64.ofRatio (Nat.pow 2 51) (Nat.pow 2 52 - 1))

/-- A factor from the upper 52 bits of a word, between one half and one. -/
def factorOf (word : UInt64) : Nat :=
  Binary64.add (Binary64.mul ((word >>> 12).toNat * Nat.pow 2 1022) scale) half

/-- The factor of an attempt, a magnitude of `Binary64`. -/
def factor (seed : UInt64) (attempt : Nat) : Nat :=
  factorOf (firstWord (mix seed attempt))

end LiveMetrics.Jitter
