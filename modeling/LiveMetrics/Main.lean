import LiveMetrics.Console

/-!
# The command line of the console
-/

set_option autoImplicit false

open LiveMetrics

def main (arguments : List String) : IO UInt32 := do
  let names := [Config.urlVariable, Config.heartbeatVariable, Config.connectTimeoutVariable,
    Config.windowVariable]
  let values ← names.mapM fun name => do return (name, ← IO.getEnv name)
  let ending := Console.outcome arguments fun name => (values.lookup name).join
  IO.eprint ending.message
  return UInt32.ofNat ending.code
