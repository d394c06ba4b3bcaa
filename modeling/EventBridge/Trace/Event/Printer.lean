import EventBridge.Json.Printer
import EventBridge.Trace.Event

/-! # Writing a trace line

The JSON object of an event: the kind, and then every field in the order of declaration, `null` for
one that is absent.
-/

namespace EventBridge.Trace

namespace Event

/-- A text, or `null` for none. -/
def optionalString : Option String → Json
  | some s => .string s
  | none => .null

/-- Header fields as an object of texts. -/
def headersJson (headers : Http.Headers) : Json :=
  .object (headers.fields.map fun field => (field.1, .string field.2))

/-- The fields of an event, by name. -/
def members : Event → List (String × Json)
  | .target liid address => [("liid", .string liid), ("address", .string address.text)]
  | .triggerUp liid address => [("liid", .string liid), ("address", .string address.text)]
  | .triggerDown liid => [("liid", .string liid)]
  | .connectionUp conn source destination protocol liid trigger layer =>
    [("conn", .string conn), ("src", .string source.text), ("dest", .string destination.text),
      ("protocol", .string protocol.name), ("liid", optionalString liid),
      ("trigger", optionalString (trigger.map Net.Ip.text)), ("layer", optionalString layer)]
  | .data conn payload =>
    [("conn", .string conn), ("payload", optionalString payload.text),
      ("payload_base64", optionalString payload.base64)]
  | .datagram conn payload =>
    [("conn", .string conn), ("payload", optionalString payload.text),
      ("payload_base64", optionalString payload.base64)]
  | .httpRequest conn method url headers body =>
    [("conn", .string conn), ("method", .string method), ("url", .string url),
      ("headers", headersJson headers), ("body", optionalString body.text),
      ("body_base64", optionalString body.base64)]
  | .httpResponse conn code status headers body =>
    [("conn", .string conn), ("code", Json.ofNat code.toNat), ("status", .string status),
      ("headers", headersJson headers), ("body", optionalString body.text),
      ("body_base64", optionalString body.base64)]
  | .connectionDown conn => [("conn", .string conn)]

/-- The JSON object of an event. -/
def toJson (event : Event) : Json := .object (("event", .string event.name) :: event.members)

/-- The line of an event. -/
def render (event : Event) : String := event.toJson.render

end Event

end EventBridge.Trace
