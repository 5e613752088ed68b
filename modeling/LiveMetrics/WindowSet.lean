import LiveMetrics.Keyed
import LiveMetrics.Sample
import LiveMetrics.Window

/-!
# Sets of windows

A chart shows one series of a topic. A `WindowSet` holds a window for each series, made when it is
first needed. `feedSample` and `feedSeries` fill such sets from samples: the first with whole
samples, one window per topic; the second with one point per numeric member, one window per topic
and member.
-/

set_option autoImplicit false

namespace LiveMetrics

/-- A topic and one of its series; the series without a name is the topic as a whole. -/
structure WindowKey where
  topic : Topic
  series : String
  deriving Repr, DecidableEq

namespace WindowKey

/-- The key of a topic as a whole. -/
def whole (topic : Topic) : WindowKey := ⟨topic, ""⟩

/-- The order by topic, then by series. -/
def order (a b : WindowKey) : Ordering :=
  (a.topic.order b.topic).then (compare a.series b.series)

end WindowKey

/-- Windows by key, in the order in which they were made. -/
structure WindowSet (α : Type) where
  /-- The capacity of a window that is made by pushing into it. -/
  defaultCapacity : Nat
  windows : List (WindowKey × Window α)

namespace WindowSet

variable {α : Type}

def empty (defaultCapacity : Nat) : WindowSet α := ⟨defaultCapacity, []⟩

/-- The window of a key, if it has one. -/
def window? (s : WindowSet α) (key : WindowKey) : Option (Window α) :=
  s.windows.lookup key

/-- The set with that window under the key. -/
def insert (s : WindowSet α) (key : WindowKey) (w : Window α) : WindowSet α :=
  { s with windows := Keyed.put key w s.windows }

/-- The window of a key, or a new one of that capacity. -/
def windowOr (s : WindowSet α) (key : WindowKey) (capacity : Nat) : Window α :=
  (s.window? key).getD (.empty capacity)

/-- Makes the window of a key unless it has one; a window keeps the capacity it was made with. -/
def ensure (s : WindowSet α) (key : WindowKey) (capacity : Nat) : WindowSet α :=
  s.insert key (s.windowOr key capacity)

/-- Pushes an item into the window of a key and gives the item that had to leave. -/
def push (s : WindowSet α) (key : WindowKey) (item : α) : WindowSet α × Option α :=
  let (w, evicted) := (s.windowOr key s.defaultCapacity).push item
  (s.insert key w, evicted)

/-- Pushes items in order into the window of a key, which is made even if there are none. -/
def backfill (s : WindowSet α) (key : WindowKey) (items : List α) : WindowSet α :=
  s.insert key ((s.windowOr key s.defaultCapacity).backfill items)

/-- The items of a key, oldest first. -/
def snapshot (s : WindowSet α) (key : WindowKey) : List α :=
  match s.window? key with
  | some w => w.items
  | none => []

def remove (s : WindowSet α) (key : WindowKey) : WindowSet α :=
  { s with windows := Keyed.erase key s.windows }

/-- The windows in the order of their keys. -/
def sorted (s : WindowSet α) : List (WindowKey × Window α) :=
  s.windows.mergeSort fun a b => a.1.order b.1 ≠ .gt

end WindowSet

/-! ## Feeding -/

/-- A point of a chart. -/
structure Point where
  timestamp : Int
  value : Double
  deriving Repr, DecidableEq

/-- Keeps a sample in the window of its topic. -/
def WindowSet.feedSample (s : WindowSet Sample) (sample : Sample) : WindowSet Sample :=
  (s.push (.whole sample.topic) sample).1

/-- Adds a point to the window of a member, if the sample has a number there. -/
def WindowSet.feedMember (s : WindowSet Point) (sample : Sample) (name : String) :
    WindowSet Point :=
  match sample.fieldDouble? name with
  | some value => (s.push ⟨sample.topic, name⟩ ⟨sample.timestamp, value⟩).1
  | none => s

/-- Adds a point for each of the listed members that is a number. -/
def WindowSet.feedSeries (s : WindowSet Point) (names : List String) (sample : Sample) :
    WindowSet Point :=
  names.foldl (fun s name => s.feedMember sample name) s

end LiveMetrics
