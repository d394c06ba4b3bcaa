import EventBridge.Engine.Context
import EventBridge.Http.Headers

/-! # Events of a trace

A trace is a sequence of lines with one event each. `Event` holds what a line says, `Kind` its
nine cases by name. Connections go by the names that the trace gives them.
-/

namespace EventBridge.Trace

open Net (Ip Endpoint)
open Engine (Protocol)
open Http (Headers)

/-- The cases of an event. -/
inductive Kind where
  | target
  | triggerUp
  | triggerDown
  | connectionUp
  | data
  | datagram
  | httpRequest
  | httpResponse
  | connectionDown
  deriving DecidableEq, Repr

namespace Kind

/-- Every case, in the order in which diagnostics list them. -/
def all : List Kind :=
  [.target, .triggerUp, .triggerDown, .connectionUp, .data, .datagram, .httpRequest,
    .httpResponse, .connectionDown]

/-- The name of a case on a line. -/
def name : Kind → String
  | .target => "target"
  | .triggerUp => "trigger_up"
  | .triggerDown => "trigger_down"
  | .connectionUp => "connection_up"
  | .data => "data"
  | .datagram => "datagram"
  | .httpRequest => "http_request"
  | .httpResponse => "http_response"
  | .connectionDown => "connection_down"

/-- The name of a case in diagnostics about its form. -/
def title : Kind → String
  | .target => "Target"
  | .triggerUp => "TriggerUp"
  | .triggerDown => "TriggerDown"
  | .connectionUp => "ConnectionUp"
  | .data => "Data"
  | .datagram => "Datagram"
  | .httpRequest => "HttpRequest"
  | .httpResponse => "HttpResponse"
  | .connectionDown => "ConnectionDown"

/-- The case of a name. -/
def ofName? (name : String) : Option Kind := all.find? fun kind => kind.name == name

/-- A case is found by its name. -/
theorem ofName?_name (kind : Kind) : ofName? kind.name = some kind := by
  cases kind <;> decide

end Kind

/-- Bytes on a line: as a text, in base64, as both or as neither. -/
structure Payload where
  text : Option String
  base64 : Option String
  deriving DecidableEq, Repr

/-- One event of a trace. -/
inductive Event where
  /-- From here on `address` is a target under `liid`. -/
  | target (liid : String) (address : Ip)
  | triggerUp (liid : String) (address : Ip)
  | triggerDown (liid : String)
  /-- A connection opens. Its own `liid` and `trigger` replace what the targets would give; a
  `layer` is the application protocol on top of the flow. -/
  | connectionUp (conn : String) (source destination : Endpoint) (protocol : Protocol)
      (liid : Option String) (trigger : Option Ip) (layer : Option String)
  | data (conn : String) (payload : Payload)
  | datagram (conn : String) (payload : Payload)
  | httpRequest (conn method url : String) (headers : Headers) (body : Payload)
  | httpResponse (conn : String) (code : UInt32) (status : String) (headers : Headers)
      (body : Payload)
  | connectionDown (conn : String)
  deriving DecidableEq, Repr

namespace Event

/-- The case of an event. -/
def kind : Event → Kind
  | .target .. => .target
  | .triggerUp .. => .triggerUp
  | .triggerDown .. => .triggerDown
  | .connectionUp .. => .connectionUp
  | .data .. => .data
  | .datagram .. => .datagram
  | .httpRequest .. => .httpRequest
  | .httpResponse .. => .httpResponse
  | .connectionDown .. => .connectionDown

/-- The name of the event's case. -/
def name (event : Event) : String := event.kind.name

end Event

end EventBridge.Trace
