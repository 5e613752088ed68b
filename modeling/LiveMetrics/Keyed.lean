/-!
# Lists of entries by key

A list of pairs in which each key stands at most once, in the order in which the keys came. Core's
`List.lookup` finds the entry of a key; `put` writes it and `erase` takes it away.
-/

set_option autoImplicit false

namespace LiveMetrics.Keyed

variable {κ α : Type} [DecidableEq κ]

/-- Replaces the entry of a key in place, or adds it at the end. -/
def put (key : κ) (value : α) : List (κ × α) → List (κ × α)
  | [] => [(key, value)]
  | entry :: rest =>
    if entry.1 = key then (key, value) :: rest else entry :: put key value rest

def erase (key : κ) (entries : List (κ × α)) : List (κ × α) :=
  entries.filter fun entry => entry.1 ≠ key

end LiveMetrics.Keyed
