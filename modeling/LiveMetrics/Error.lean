import LiveMetrics.Span
import LiveMetrics.Text.Quoted

/-!
# What can go wrong

`StreamError` is what a call can fail with, `DecodeFault` why bytes are no envelope, control frame
or payload, `DisconnectCause` why a connection was given up. The wording of each stands in one
function.
-/

set_option autoImplicit false

namespace LiveMetrics

/-- The ways a call can fail. -/
inductive StreamError where
  | connectionFailed (reason : String)
  | transport (context error : String)
  | timeout (context : String)
  | decode (reason : String)
  | invalidState (reason : String)
  | manager (reason : String)
  deriving Repr, DecidableEq

namespace StreamError

def message : StreamError → String
  | connectionFailed reason => "Connection failed: " ++ reason
  | transport context error => "Transport error (" ++ context ++ "): " ++ error
  | timeout context => "Timeout: " ++ context
  | decode reason => "Decode failed: " ++ reason
  | invalidState reason => "Invalid state: " ++ reason
  | manager reason => "Actor error: " ++ reason

/-- The error as a term, with its texts quoted. -/
def termText : StreamError → String
  | connectionFailed reason => "ConnectionFailed(" ++ Text.quoted reason ++ ")"
  | transport context error =>
    "TransportError \x7b context: " ++ Text.quoted context ++ ", error: " ++ Text.quoted error ++
      " \x7d"
  | timeout context => "Timeout \x7b context: " ++ Text.quoted context ++ " \x7d"
  | decode reason => "Decode(" ++ Text.quoted reason ++ ")"
  | invalidState reason => "InvalidState(" ++ Text.quoted reason ++ ")"
  | manager reason => "ActorError(" ++ Text.quoted reason ++ ")"

end StreamError

/-- Why bytes could not be decoded. -/
inductive DecodeFault where
  | malformedEnvelope
  | noTopic
  | noBody (topic : String)
  | malformedBody (topic : String)
  | malformedControl
  | malformedPayload (topic : String)
  deriving Repr, DecidableEq

namespace DecodeFault

/-- What is said of a text that is not the JSON it should be. -/
def jsonFault : String := "not a JSON document of the expected form"

def reason : DecodeFault → String
  | malformedEnvelope => "invalid envelope: " ++ jsonFault
  | noTopic => "envelope has no topic"
  | noBody topic => "envelope on " ++ topic ++ " has no body"
  | malformedBody topic => "body on " ++ topic ++ ": " ++ jsonFault
  | malformedControl => "invalid control frame: " ++ jsonFault
  | malformedPayload topic => "payload on " ++ topic ++ ": " ++ jsonFault

def error (fault : DecodeFault) : StreamError := .decode fault.reason

end DecodeFault

/-- Why an open or opening connection was given up. -/
inductive DisconnectCause where
  | openFailed (error : String)
  | openTimeout (after : Span)
  | readFailure (error : String)
  | remoteClosed (code : Option UInt16) (reason : String)
  | streamEnded
  | writeFailure (context error : String)
  | heartbeatTimeout (silentFor : Span)
  deriving DecidableEq

namespace DisconnectCause

/-- A short name that stays the same. -/
def kind : DisconnectCause → String
  | openFailed _ => "open_failed"
  | openTimeout _ => "open_timeout"
  | readFailure _ => "read_failure"
  | remoteClosed _ _ => "remote_closed"
  | streamEnded => "stream_ended"
  | writeFailure _ _ => "write_failure"
  | heartbeatTimeout _ => "heartbeat_timeout"

def message : DisconnectCause → String
  | openFailed error => "open failed: " ++ error
  | openTimeout after => "open timed out after " ++ after.text
  | readFailure error => "read failed: " ++ error
  | remoteClosed (some code) reason =>
    "closed by server (code=" ++ toString code.toNat ++ ", reason=" ++ reason ++ ")"
  | remoteClosed none _ => "closed by server"
  | streamEnded => "stream ended"
  | writeFailure context error => "write failed (" ++ context ++ "): " ++ error
  | heartbeatTimeout silentFor => "no inbound traffic for " ++ silentFor.text

end DisconnectCause

end LiveMetrics
