/-!
# The states of a connection
-/

set_option autoImplicit false

namespace LiveMetrics

inductive ConnectionState where
  | disconnected
  | connecting
  | connected
  | reconnecting
  | failed
  deriving Repr, DecidableEq, Inhabited

namespace ConnectionState

def name : ConnectionState → String
  | disconnected => "disconnected"
  | connecting => "connecting"
  | connected => "connected"
  | reconnecting => "reconnecting"
  | failed => "failed"

/-- The states in which no connection is open and none will be tried without a request. -/
def isIdle : ConnectionState → Bool
  | disconnected | failed => true
  | connecting | connected | reconnecting => false

end ConnectionState

end LiveMetrics
