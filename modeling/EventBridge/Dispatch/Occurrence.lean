import EventBridge.Engine.Live
import EventBridge.Http.Headers

/-! # What handlers are called for

An occurrence names the handler that is called for it, the context it is about, and what else the
handler is given. The end of a trigger, and its beginning, are not about a context.
-/

namespace EventBridge.Dispatch

open Engine (Live)
open Net (Ip)

/-- What happens on a connection. -/
inductive Traffic where
  | up
  | down
  | data (payload : ByteArray)
  | datagram (payload : ByteArray)
  | request (method url : String) (headers : Http.Headers) (body : ByteArray)
  | response (code : UInt32) (status : String) (headers : Http.Headers) (body : ByteArray)

/-- The name of the handler for what happens on a connection. -/
def Traffic.handler : Traffic → String
  | .up => "connection_up"
  | .down => "connection_down"
  | .data _ => "data"
  | .datagram _ => "datagram"
  | .request .. => "http_request"
  | .response .. => "http_response"

/-- What a handler is called for. -/
inductive Occurrence where
  | triggerUp (liid : String) (address : Ip)
  | triggerDown (liid : String)
  | traffic (live : Live) (what : Traffic)

namespace Occurrence

/-- The name of the handler. -/
def handler : Occurrence → String
  | .triggerUp .. => "trigger_up"
  | .triggerDown _ => "trigger_down"
  | .traffic _ what => what.handler

/-- What it is about. -/
def live? : Occurrence → Option Live
  | .traffic live _ => some live
  | _ => none

end Occurrence

/-- How a handler was found and ended. -/
inductive Outcome where
  | handled
  | noHandler
  /-- It failed, and the failure was logged. -/
  | failed
  deriving DecidableEq, Repr

/-- The name of an outcome. -/
def Outcome.name : Outcome → String
  | .handled => "Handled"
  | .noHandler => "NoHandler"
  | .failed => "Failed"

end EventBridge.Dispatch
