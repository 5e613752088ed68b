import LiveMetrics.Connection.State
import LiveMetrics.Payload.Models
import LiveMetrics.Subscription.Callback
import LiveMetrics.WindowSet

/-!
# Listeners

The callbacks of a scripted session. They share a notebook: a list of notes in the order in which
they were taken, and two sets of windows that feeding listeners fill. Some fail or panic, always or
at certain calls.
-/

set_option autoImplicit false

namespace LiveMetrics

/-- A line in the notebook; tags tell the listeners apart. -/
inductive Note where
  | sample (tag : String) (topic : Topic) (timestamp : Int)
  | failing (tag : String) (timestamp : Int)
  | panicking (tag : String) (timestamp : Int)
  | call (tag : String) (timestamp : Int) (number : Nat)
  | member (tag : String) (topic : Topic) (value : Option Double)
  | scenario (tag : String) (stats : ScenarioStats)
  | workers (tag : String) (status : WorkerStatus)
  | alert (tag : String) (alert : Alert)
  | state (observer : String) (state : ConnectionState)

/-- What the listeners share. -/
structure Notebook where
  notes : List Note
  charts : WindowSet Point
  samples : WindowSet Sample

namespace Notebook

def empty (capacity : Nat) : Notebook := ⟨[], .empty capacity, .empty capacity⟩

def note (b : Notebook) (n : Note) : Notebook := { b with notes := b.notes ++ [n] }

end Notebook

inductive Listener where
  /-- Notes each sample. -/
  | recording (tag : String)
  /-- Notes the time of each sample and fails. -/
  | failing (tag : String)
  /-- Notes the time of each sample and panics. -/
  | panicking (tag : String)
  /-- Numbers its calls from 1 and fails at some of them. -/
  | flaky (tag : String) (failsAt : List Nat) (calls : Nat)
  /-- Notes a member of each sample as a number. -/
  | member (tag : String) (name : String)
  /-- Notes the statistics of a scenario. -/
  | scenario (tag : String)
  /-- Notes the state of the workers. -/
  | workers (tag : String)
  /-- Notes alerts. -/
  | alerts (tag : String)
  /-- Fills the windows of charts. -/
  | charting (names : List String)
  /-- Fills the windows of samples. -/
  | keeping

namespace Listener

/-- Why a listener fails. -/
def failure : CallResult := .failed "view detached"

/-- Why a listener panics. -/
def panic : CallResult := .panicked "chart exploded"

/-- Notes a typed payload, or fails because the sample does not hold one. -/
def typed {α : Type} [Payload α] (note : α → Note) (s : Sample) (b : Notebook) :
    Notebook × CallResult :=
  match (s.decode : Except DecodeFault α) with
  | .ok payload => (b.note (note payload), .done)
  | .error fault => (b, .failed fault.error.message)

/-- What a listener does with a sample, its own state aside. -/
def react (l : Listener) (s : Sample) (b : Notebook) : Notebook × CallResult :=
  match l with
  | recording tag => (b.note (.sample tag s.topic s.timestamp), .done)
  | failing tag => (b.note (.failing tag s.timestamp), failure)
  | panicking tag => (b.note (.panicking tag s.timestamp), panic)
  | flaky tag failsAt calls =>
    (b.note (.call tag s.timestamp (calls + 1)),
      if failsAt.contains (calls + 1) then failure else .done)
  | member tag name => (b.note (.member tag s.topic (s.fieldDouble? name)), .done)
  | scenario tag => typed (.scenario tag) s b
  | workers tag => typed (.workers tag) s b
  | alerts tag => typed (.alert tag) s b
  | charting names => ({ b with charts := b.charts.feedSeries names s }, .done)
  | keeping => ({ b with samples := b.samples.feedSample s }, .done)

/-- The listener after a call. -/
def next : Listener → Listener
  | flaky tag failsAt calls => flaky tag failsAt (calls + 1)
  | l => l

instance : Callback Listener Notebook where
  call l s b := (l.next, l.react s b)

end Listener

end LiveMetrics
