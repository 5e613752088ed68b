import LiveMetrics.Loopback.State
import LiveMetrics.Session.Listener

/-!
# Steps of a scripted session

What a session does with a client and its server in memory, one step at a time, and what each step
answers.
-/

set_option autoImplicit false

namespace LiveMetrics.Session

/-- What a step does. Connections are those of the server, by number. -/
inductive Deed where
  /-- Queues the treatment of the next attempts. -/
  | script (entries : List Loopback.Scripted)
  /-- Lets gated attempts go on. -/
  | release
  | dropServer
  | connect (url observer : String)
  /-- Connects to the address in the settings; the observer stays. -/
  | connectConfigured
  | disconnect
  | subscribe (topic : Topic) (listener : Listener)
  | unsubscribe (handle : Handle)
  | send (frames : List Frame)
  | sendText (text : String)
  | sendEnvelope (topic body : String)
  | readError (text : String)
  | dropSocket
  | dropPeer
  | stall
  | failWrites (on : Bool)
  | advance (span : Span)
  | stats
  | currentState
  | windows
  | config
  | nextControl
  | shutdown
  | accept (within : Span)
  | receive (within : Span)
  | receiveControl (within : Span)

structure Step where
  deed : Deed
  /-- Time that passes first; the step still comes before what is due at its end. -/
  after : Option Span
  /-- Lets gated attempts go on, with their results after this step. -/
  release : Bool
  /-- The server goes away from the connection, and the client notices after this step. -/
  dropPeer : Bool
  /-- Whether the frames that the client wrote are collected at the end. -/
  drain : Bool
  /-- The connection that is meant; the latest if none is. -/
  link : Option Nat

/-- How sending to the client went. -/
inductive Sent where
  | ok
  | refused (fault : Loopback.SendFault)
  | noConnection
  deriving Repr, DecidableEq

/-- What a step answers. -/
inductive Reply where
  | nothing
  /-- The manager answers when it comes to the question. -/
  | asked
  | handle (handle : Handle)
  | sent (results : List Sent)
  | envelope (result : Sent)
  | pushed (result : Sent)
  | stats (stats : Stats)
  | state (state : ConnectionState)
  | error (error : StreamError)
  | windows (notebook : Notebook)
  | config (config : Config)
  | frame (frame : Option Frame)
  | control (control : Option ControlFrame)
  | accepted (yes : Bool)
  | noConnection

/-- What can be seen after a step. -/
structure Report where
  reply : Reply
  now : Nat
  state : ConnectionState
  notes : List Note
  /-- The frames that the client wrote, with their connections. -/
  out : List (Nat × Frame)
  /-- The instants of the attempts since the last report. -/
  attempts : List Nat
  connections : Nat
  /-- The address of the last attempt. -/
  url : Option String
  logged : List LogEvent

end LiveMetrics.Session
