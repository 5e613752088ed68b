/-!
# Histograms of three digits

Counts of whole numbers from 1 up to 2^26, exact below 2048 and to three digits above: there a
number is counted as the greatest one that shares its eleven leading binary digits.
-/

set_option autoImplicit false

namespace LiveMetrics

/-- How often each level was counted, by rising level. -/
structure Histogram where
  counts : List (Nat × Nat)
  deriving Repr, DecidableEq

namespace Histogram

def empty : Histogram := ⟨[]⟩

/-- The first number that is beyond the range. -/
def limit : Nat := Nat.pow 2 26

/-- The greatest number that is not told apart from `n`. -/
def level (n : Nat) : Nat :=
  let step := Nat.pow 2 (n.log2 - 10)
  n / step * step + step - 1

/-- Adds one to the count of a level. -/
def bump (level : Nat) : List (Nat × Nat) → List (Nat × Nat)
  | [] => [(level, 1)]
  | (other, count) :: rest =>
    if level < other then (level, 1) :: (other, count) :: rest
    else if level = other then (other, count + 1) :: rest
    else (other, count) :: bump level rest

/-- Counts a number; one beyond the range is passed over. -/
def record (h : Histogram) (n : Nat) : Histogram :=
  if n < limit then ⟨bump (level n) h.counts⟩ else h

/-- How many numbers were counted. -/
def size (h : Histogram) : Nat := (h.counts.map (·.2)).foldr (· + ·) 0

/-- The level that the number of a rank, counted from 1, was counted as. -/
def atRank : List (Nat × Nat) → Nat → Nat
  | [], _ => 0
  | (level, count) :: rest, rank => if rank ≤ count then level else atRank rest (rank - count)

/-- The least level up to which `p` percent of the numbers were counted, but one at least. -/
def percentile (h : Histogram) (p : Nat) : Nat :=
  atRank h.counts (max 1 ((h.size * p + 99) / 100))

end Histogram

end LiveMetrics
