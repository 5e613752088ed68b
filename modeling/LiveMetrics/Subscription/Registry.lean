import LiveMetrics.Keyed
import LiveMetrics.Subscription.Callback

/-!
# The registry of subscriptions

Callbacks by topic, in the order in which they were registered. Three lists hold the
subscriptions: the topics in the order in which each got its first callback, the callbacks of each
topic, and the topic of each handle. `insert` and `remove` tell whether a topic gets its first or
loses its last callback, `deliver` calls all callbacks of a topic, whatever each of them does.
-/

set_option autoImplicit false

namespace LiveMetrics

structure Subscriber (κ : Type) where
  handle : Handle
  callback : κ

structure Registry (κ : Type) where
  topics : List Topic
  subscribers : List (Topic × List (Subscriber κ))
  index : List (Handle × Topic)

/-- What was removed, and whether the topic has no callback left. -/
structure Removed where
  topic : Topic
  nowEmpty : Bool
  deriving Repr, DecidableEq

/-- One call of a callback. -/
structure Invocation where
  handle : Handle
  result : CallResult
  deriving Repr, DecidableEq

/-- The calls that one sample led to, in order. -/
structure Delivery where
  calls : List Invocation
  deriving Repr, DecidableEq

namespace Delivery

/-- How many callbacks took the sample. -/
def delivered (d : Delivery) : Nat := d.calls.countP fun c => c.result.isDone

/-- How many callbacks failed or panicked. -/
def failed (d : Delivery) : Nat := d.calls.countP fun c => !c.result.isDone

end Delivery

namespace Registry

variable {κ σ : Type}

def empty : Registry κ := ⟨[], [], []⟩

def contains (r : Registry κ) (handle : Handle) : Bool := (r.index.lookup handle).isSome

/-- The callbacks of a topic, in the order of their registration. -/
def callbacks (r : Registry κ) (topic : Topic) : List (Subscriber κ) :=
  (r.subscribers.lookup topic).getD []

def countOn (r : Registry κ) (topic : Topic) : Nat := (r.callbacks topic).length

/-- How many subscriptions there are. -/
def size (r : Registry κ) : Nat := r.index.length

/-- How many topics have a callback. -/
def topicCount (r : Registry κ) : Nat := r.topics.length

/-- Registers a callback and tells whether it is the first of its topic. A handle that is
registered already stays as it is. -/
def insert (r : Registry κ) (handle : Handle) (topic : Topic) (callback : κ) :
    Registry κ × Bool :=
  if r.contains handle then (r, false)
  else
    let present := r.callbacks topic
    ({ topics := if present.isEmpty then r.topics ++ [topic] else r.topics
       subscribers := Keyed.put topic (present ++ [⟨handle, callback⟩]) r.subscribers
       index := r.index ++ [(handle, topic)] },
      present.isEmpty)

def remove (r : Registry κ) (handle : Handle) : Registry κ × Option Removed :=
  match r.index.lookup handle with
  | none => (r, none)
  | some topic =>
    let left := (r.callbacks topic).filter fun s => s.handle ≠ handle
    ({ topics := if left.isEmpty then r.topics.filter (· ≠ topic) else r.topics
       subscribers :=
         if left.isEmpty then Keyed.erase topic r.subscribers
         else Keyed.put topic left r.subscribers
       index := Keyed.erase handle r.index },
      some ⟨topic, left.isEmpty⟩)

/-- Calls callbacks in order, each once. -/
def callAll [Callback κ σ] (sample : Sample) :
    List (Subscriber κ) → σ → List (Subscriber κ) × σ × List Invocation
  | [], shared => ([], shared, [])
  | s :: rest, shared =>
    let (callback, shared, result) := Callback.call s.callback sample shared
    let (rest, shared, calls) := callAll sample rest shared
    (⟨s.handle, callback⟩ :: rest, shared, ⟨s.handle, result⟩ :: calls)

/-- Hands a sample to the callbacks of its topic, if it has any. -/
def deliver [Callback κ σ] (r : Registry κ) (sample : Sample) (shared : σ) :
    Registry κ × σ × Option Delivery :=
  match r.subscribers.lookup sample.topic with
  | none => (r, shared, none)
  | some present =>
    let (present, shared, calls) := callAll sample present shared
    ({ r with subscribers := Keyed.put sample.topic present r.subscribers }, shared, some ⟨calls⟩)

/-- The registry as a term: its topics and how many subscriptions there are. -/
def termText (r : Registry κ) : String :=
  "SubscriptionRegistry \x7b topics: [" ++ ", ".intercalate (r.topics.map Topic.termText) ++
    "], subscriptions: " ++ toString r.size ++ " \x7d"

end Registry

end LiveMetrics
