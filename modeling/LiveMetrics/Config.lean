import LiveMetrics.Error
import LiveMetrics.Span
import LiveMetrics.Text.Blank

/-!
# Configuration

The settings of a client, the environment variables that override them, and the conditions they
must meet.
-/

set_option autoImplicit false

namespace LiveMetrics

/-- The sizes of the buffers of a connection, in bytes. -/
structure BufferSizes where
  read : Nat
  write : Nat
  maxWrite : Nat
  maxMessage : Nat
  maxFrame : Nat
  deriving Repr, DecidableEq

/-- Metric frames are small; one mebibyte leaves room enough. -/
def BufferSizes.default : BufferSizes :=
  ⟨128 * 1024, 64 * 1024, 256 * 1024, 1024 * 1024, 1024 * 1024⟩

structure Config where
  /-- The address that a connect without an address goes to. -/
  endpoint : String
  /-- The time between two pings. -/
  heartbeatInterval : Span
  /-- How long a connection may be silent; four intervals if nothing is said. -/
  livenessTimeout : Option Span
  /-- How long opening a connection may take. -/
  connectTimeout : Span
  /-- How many items a window holds. -/
  windowCapacity : Nat
  buffers : BufferSizes
  deriving DecidableEq

/-- What is wrong with settings. -/
inductive ConfigFault where
  | zeroHeartbeat
  | zeroConnectTimeout
  | emptyWindow
  | writeLimit (limit buffer : Nat)
  | badVariable (name raw : String) (why : Text.WordError)
  deriving Repr, DecidableEq

namespace ConfigFault

def reason : ConfigFault → String
  | zeroHeartbeat => "heartbeat interval must be non-zero"
  | zeroConnectTimeout => "connect timeout must be non-zero"
  | emptyWindow => "window capacity must be non-zero"
  | writeLimit limit buffer =>
    "max_write_buffer_bytes (" ++ toString limit ++ ") must exceed write_buffer_bytes (" ++
      toString buffer ++ ")"
  | badVariable name raw why => name ++ "=" ++ Text.quoted raw ++ ": " ++ why.message

def error (fault : ConfigFault) : StreamError := .invalidState fault.reason

end ConfigFault

/-- The limit of what waits to be written must exceed the size of one write. -/
def BufferSizes.validate (b : BufferSizes) : Except ConfigFault Unit :=
  if b.maxWrite ≤ b.write then .error (.writeLimit b.maxWrite b.write) else .ok ()

/-- The capacity of a window when nothing is said. -/
def defaultWindowCapacity : Nat := 20

namespace Config

def default : Config :=
  ⟨"ws://localhost:8080/ws", .ofSeconds 4, none, .ofSeconds 10, defaultWindowCapacity,
    BufferSizes.default⟩

/-- How long a connection may be silent. -/
def liveness (c : Config) : Span :=
  c.livenessTimeout.getD (c.heartbeatInterval.times 4)

/-- The conditions, in the order in which they are checked. -/
def validate (c : Config) : Except ConfigFault Unit :=
  if c.heartbeatInterval.isZero then .error .zeroHeartbeat
  else if c.connectTimeout.isZero then .error .zeroConnectTimeout
  else if c.windowCapacity = 0 then .error .emptyWindow
  else c.buffers.validate

/-! ## The environment -/

def urlVariable : String := "LOADTEST_STREAM_URL"
def heartbeatVariable : String := "LOADTEST_STREAM_HEARTBEAT_MS"
def connectTimeoutVariable : String := "LOADTEST_STREAM_CONNECT_TIMEOUT_MS"
def windowVariable : String := "LOADTEST_STREAM_WINDOW"

/-- The number in a variable, blanks around it aside; `none` if it is not set. -/
def readVariable (lookup : String → Option String) (name : String) :
    Except ConfigFault (Option Nat) :=
  match lookup name with
  | none => .ok none
  | some raw =>
    match Text.readWord (Text.trim raw) with
    | .ok n => .ok (some n)
    | .error why => .error (.badVariable name raw why)

/-- The address in the environment, unless it is blank. -/
def readUrl (lookup : String → Option String) : Option String :=
  match lookup urlVariable with
  | some url => if (Text.trim url).isEmpty then none else some (Text.trim url)
  | none => none

/-- The default settings, overridden by the variables that are set, if they are valid. -/
def ofEnvironment (lookup : String → Option String) : Except ConfigFault Config := do
  let c := default
  let c := { c with endpoint := (readUrl lookup).getD c.endpoint }
  let heartbeat ← readVariable lookup heartbeatVariable
  let c := { c with heartbeatInterval := (heartbeat.map Span.ofMillis).getD c.heartbeatInterval }
  let timeout ← readVariable lookup connectTimeoutVariable
  let c := { c with connectTimeout := (timeout.map Span.ofMillis).getD c.connectTimeout }
  let window ← readVariable lookup windowVariable
  let c := { c with windowCapacity := window.getD c.windowCapacity }
  c.validate
  return c

end Config

end LiveMetrics
