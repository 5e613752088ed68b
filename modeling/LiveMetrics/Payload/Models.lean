import LiveMetrics.Payload.Basic

/-!
# The payloads of the three kinds of topics

Statistics of a scenario, the state of the workers, and alerts. Members that are missing get the
value of an empty record; of an alert only `message` and `createdAt` may be missing.
-/

set_option autoImplicit false

namespace LiveMetrics

open Json

/-- The greatest whole number of 64 bits. -/
def maxWord : Nat := Nat.pow 2 64 - 1

/-! ## Scenario statistics -/

/-- What is published on the topic of a scenario. The responses are counted by status code, in the
order of the codes. -/
structure ScenarioStats where
  scenarioId : String
  totalRequests : Nat
  successfulRequests : Nat
  failedRequests : Nat
  successRate : Double
  avgLatencyMs : Double
  minLatencyMs : Double
  maxLatencyMs : Double
  p50LatencyMs : Double
  p95LatencyMs : Double
  p99LatencyMs : Double
  statusCodeDistribution : List (String × Nat)
  currentRps : Double
  deriving Repr, DecidableEq

namespace ScenarioStats

def empty : ScenarioStats :=
  ⟨"", 0, 0, 0, .zero, .zero, .zero, .zero, .zero, .zero, .zero, [], .zero⟩

def names : List String :=
  ["scenarioId", "totalRequests", "successfulRequests", "failedRequests", "successRate",
    "avgLatencyMs", "minLatencyMs", "maxLatencyMs", "p50LatencyMs", "p95LatencyMs",
    "p99LatencyMs", "statusCodeDistribution", "currentRps"]

/-- The members that the charts of latency and throughput show. -/
def chartFields : List String :=
  ["p50LatencyMs", "p95LatencyMs", "p99LatencyMs", "currentRps"]

/-- Puts a count under its code into a list that is sorted by code. -/
def putCount (code : String) (count : Nat) : List (String × Nat) → List (String × Nat)
  | [] => [(code, count)]
  | (other, n) :: rest =>
    if code < other then (code, count) :: (other, n) :: rest
    else if code = other then (code, count) :: rest
    else (other, n) :: putCount code count rest

/-- The counts of an object, in order of their codes; of a repeated code the last count counts. -/
def countsOnto (done : List (String × Nat)) :
    List (List Char × Tree) → Option (List (String × Nat))
  | [] => some done
  | (raw, tree) :: rest => do
    let code ← unescape? raw
    let count ← tree.natural? maxWord
    countsOnto (putCount code count done) rest

def counts? : Tree → Option (List (String × Nat))
  | .object members => countsOnto [] members
  | _ => none

def ofTree? (t : Tree) : Option ScenarioStats := do
  let r ← Record.ofTree? names t
  let scenarioId ← r.optional? "scenarioId" Tree.text? ""
  let totalRequests ← r.optional? "totalRequests" (Tree.natural? maxWord) 0
  let successfulRequests ← r.optional? "successfulRequests" (Tree.natural? maxWord) 0
  let failedRequests ← r.optional? "failedRequests" (Tree.natural? maxWord) 0
  let successRate ← r.optional? "successRate" Tree.double? .zero
  let avgLatencyMs ← r.optional? "avgLatencyMs" Tree.double? .zero
  let minLatencyMs ← r.optional? "minLatencyMs" Tree.double? .zero
  let maxLatencyMs ← r.optional? "maxLatencyMs" Tree.double? .zero
  let p50LatencyMs ← r.optional? "p50LatencyMs" Tree.double? .zero
  let p95LatencyMs ← r.optional? "p95LatencyMs" Tree.double? .zero
  let p99LatencyMs ← r.optional? "p99LatencyMs" Tree.double? .zero
  let statusCodeDistribution ← r.optional? "statusCodeDistribution" counts? []
  let currentRps ← r.optional? "currentRps" Tree.double? .zero
  return ⟨scenarioId, totalRequests, successfulRequests, failedRequests, successRate, avgLatencyMs,
    minLatencyMs, maxLatencyMs, p50LatencyMs, p95LatencyMs, p99LatencyMs, statusCodeDistribution,
    currentRps⟩

def toValue (s : ScenarioStats) : Value :=
  .object
    [("scenarioId", .string s.scenarioId),
      ("totalRequests", .integer s.totalRequests),
      ("successfulRequests", .integer s.successfulRequests),
      ("failedRequests", .integer s.failedRequests),
      ("successRate", .float s.successRate),
      ("avgLatencyMs", .float s.avgLatencyMs),
      ("minLatencyMs", .float s.minLatencyMs),
      ("maxLatencyMs", .float s.maxLatencyMs),
      ("p50LatencyMs", .float s.p50LatencyMs),
      ("p95LatencyMs", .float s.p95LatencyMs),
      ("p99LatencyMs", .float s.p99LatencyMs),
      ("statusCodeDistribution",
        .object (s.statusCodeDistribution.map fun (code, n) => (code, .integer n))),
      ("currentRps", .float s.currentRps)]

instance : Payload ScenarioStats := ⟨ofTree?, toValue⟩

end ScenarioStats

/-! ## Worker status -/

/-- What is published on the topic of the workers. -/
structure WorkerStatus where
  activeWorkers : Nat
  taskQueueSize : Nat
  timestamp : Int
  deriving Repr, DecidableEq

namespace WorkerStatus

def names : List String := ["activeWorkers", "taskQueueSize", "timestamp"]

def ofTree? (t : Tree) : Option WorkerStatus := do
  let r ← Record.ofTree? names t
  let activeWorkers ← r.optional? "activeWorkers" (Tree.natural? (Nat.pow 2 32 - 1)) 0
  let taskQueueSize ← r.optional? "taskQueueSize" (Tree.natural? maxWord) 0
  let timestamp ← r.optional? "timestamp" (Tree.integer? (-Int.pow 2 63) (Int.pow 2 63 - 1)) 0
  return ⟨activeWorkers, taskQueueSize, timestamp⟩

def toValue (s : WorkerStatus) : Value :=
  .object
    [("activeWorkers", .integer s.activeWorkers), ("taskQueueSize", .integer s.taskQueueSize),
      ("timestamp", .integer s.timestamp)]

instance : Payload WorkerStatus := ⟨ofTree?, toValue⟩

end WorkerStatus

/-! ## Alerts -/

inductive Severity where
  | critical
  | error
  | warning
  | info
  deriving Repr, DecidableEq

namespace Severity

def word : Severity → String
  | critical => "CRITICAL"
  | error => "ERROR"
  | warning => "WARNING"
  | info => "INFO"

/-- The severity that a word names, in capitals only. -/
def ofWord? : String → Option Severity
  | "CRITICAL" => some critical
  | "ERROR" => some error
  | "WARNING" => some warning
  | "INFO" => some info
  | _ => none

/-- A word, or an object whose only member has the word for a name and `null` for a value. -/
def ofTree? : Tree → Option Severity
  | .string raw => (unescape? raw).bind ofWord?
  | .object [(raw, .null)] => (unescape? raw).bind ofWord?
  | _ => none

end Severity

/-- What is published on the topic of alerts. -/
structure Alert where
  id : String
  severity : Severity
  title : String
  message : String
  createdAt : Option String
  deriving Repr, DecidableEq

namespace Alert

def names : List String := ["id", "severity", "title", "message", "createdAt"]

def ofTree? (t : Tree) : Option Alert := do
  let r ← Record.ofTree? names t
  let id ← r.required? "id" Tree.text?
  let severity ← r.required? "severity" Severity.ofTree?
  let title ← r.required? "title" Tree.text?
  let message ← r.optional? "message" Tree.text? ""
  let createdAt ← r.optional? "createdAt" (Tree.nullable? Tree.text?) none
  return ⟨id, severity, title, message, createdAt⟩

def toValue (a : Alert) : Value :=
  .object
    [("id", .string a.id), ("severity", .string a.severity.word), ("title", .string a.title),
      ("message", .string a.message),
      ("createdAt", match a.createdAt with | some t => .string t | none => .null)]

instance : Payload Alert := ⟨ofTree?, toValue⟩

end Alert

end LiveMetrics
