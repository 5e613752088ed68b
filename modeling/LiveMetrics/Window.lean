/-!
# Sliding windows

A window keeps the last items that were pushed, at most as many as its capacity. A push into a
full window evicts the oldest item; a window of capacity 0 evicts the pushed item itself.

`Window.empty` has a window for every capacity. A program that sets the memory of a window aside when it
makes it cannot do so: beyond the greatest size of a block of memory, counted in bytes, it panics. What is
said of windows here is about the capacities below that.
-/

set_option autoImplicit false

namespace LiveMetrics

/-- The last items that were pushed, oldest first. -/
structure Window (α : Type) where
  capacity : Nat
  items : List α
  length_le : items.length ≤ capacity
  deriving Repr, DecidableEq

namespace Window

variable {α : Type}

/-- A window that holds nothing yet. -/
def empty (capacity : Nat) : Window α := ⟨capacity, [], Nat.zero_le _⟩

/-- Appends an item; when the window was full, also gives the item that had to leave. -/
def push (w : Window α) (item : α) : Window α × Option α :=
  if h : w.items.length < w.capacity then
    (⟨w.capacity, w.items ++ [item], by simpa [Nat.succ_le_iff] using h⟩, none)
  else
    (⟨w.capacity, (w.items ++ [item]).tail, by simpa using w.length_le⟩,
      (w.items ++ [item]).head?)

/-- Pushes items in order. -/
def backfill (w : Window α) (items : List α) : Window α :=
  items.foldl (fun w item => (w.push item).1) w

def clear (w : Window α) : Window α := empty w.capacity

/-- The item that came last. -/
def latest? (w : Window α) : Option α := w.items.getLast?

/-- The item that will leave first. -/
def oldest? (w : Window α) : Option α := w.items.head?

/-- The item at a position, counted from the oldest. -/
def get? (w : Window α) (index : Nat) : Option α := w.items[index]?

def length (w : Window α) : Nat := w.items.length

def isEmpty (w : Window α) : Bool := w.items.isEmpty

/-- Whether the next push evicts an item. -/
def isFull (w : Window α) : Bool := w.items.length == w.capacity

end Window

end LiveMetrics
