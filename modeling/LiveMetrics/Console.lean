import LiveMetrics.Config

/-!
# The console

A program that watches one scenario for a while. Its arguments come in pairs of a flag and a value;
the last one of a flag counts. What does not fit them prints the usage text; then the settings are
read from the environment. `Console.outcome` is how the program ends that has nothing to wait for.
-/

set_option autoImplicit false

namespace LiveMetrics.Console

structure Arguments where
  scenario : String
  /-- How long the console runs. -/
  seconds : Nat
  deriving Repr, DecidableEq

def Arguments.default : Arguments := ⟨"demo", 60⟩

/-- Reads arguments on top of those read before. -/
def Arguments.read? : Arguments → List String → Option Arguments
  | a, [] => some a
  | a, "--scenario" :: scenario :: rest => read? { a with scenario } rest
  | a, "--secs" :: seconds :: rest =>
    match Text.readWord seconds with
    | .ok seconds => read? { a with seconds } rest
    | .error _ => none
  | _, _ => none

def usage : String := String.intercalate "\n"
  ["live_console",
    "Streams one scenario's metrics plus worker status and alerts, logging the chart windows.",
    "",
    "USAGE:",
    "cargo run --example live_console -- [--scenario <ID>] [--secs <N>]",
    "",
    "ENVIRONMENT:",
    "LOADTEST_STREAM_URL            websocket endpoint (default ws://localhost:8080/ws)",
    "LOADTEST_STREAM_HEARTBEAT_MS   heartbeat interval",
    "LOADTEST_STREAM_WINDOW         points kept per chart series (default 20)",
    "RUST_LOG                       log filter (default info)",
    ""]

/-- How the console ends: its exit code and what it prints as an error. -/
structure Ending where
  code : Nat
  message : String
  deriving Repr, DecidableEq

/-- The end of a console with these arguments and environment variables: wrong arguments come
before wrong settings. -/
def outcome (arguments : List String) (lookup : String → Option String) : Ending :=
  match Arguments.default.read? arguments with
  | none => ⟨2, usage ++ "\n"⟩
  | some _ =>
    match Config.ofEnvironment lookup with
    | .error fault => ⟨1, "Error: " ++ fault.error.termText ++ "\n"⟩
    | .ok _ => ⟨0, ""⟩

end LiveMetrics.Console
