import EventBridge.Document.Mismatch
import EventBridge.Json.Basic
import EventBridge.Net.Address.Reader
import EventBridge.Trace.Event

/-! # From members to an event

Which fields an event of each kind has, what a field accepts, and the event that the members of an
object make.

* `check` goes through the members in their order: a field that occurs again and a value that its
  field does not accept are reported as they come. Members that are no field are passed over.
* `build` takes the values. What is left to report then is a field that is missing, in the order of
  declaration.

A line may also give the values alone, in the order of declaration (`ofItems`); at the end those
may be left out that an object may leave out.
-/

namespace EventBridge.Trace

open Document (Found Mismatch elements)
open Net (Ip Endpoint)
open Engine (Protocol)
open Http (Headers)

/-! ### What a field accepts -/

/-- A JSON value as diagnostics show it. -/
def found : Json → Found
  | .null => .null
  | .bool b => .boolean b
  | .number (.natural n) => .integer n
  | .number (.negative n) => .integer (-n)
  | .number (.real x) => .floating (Decimal.signedText x)
  | .string s => .string s
  | .array _ => .sequence
  | .object _ => .map

/-- A text. -/
def readText : Json → Except Mismatch String
  | .string s => .ok s
  | other => .error (.invalidType (found other) "a string")

/-- An address, given as a text. -/
def readAddress : Json → Except Mismatch Ip
  | .string s =>
    match Ip.parse? s with
    | some address => .ok address
    | none => .error .invalidAddress
  | other => .error (.invalidType (found other) "IP address")

/-- An address with a port, given as a text. -/
def readEndpoint : Json → Except Mismatch Endpoint
  | .string s =>
    match Endpoint.parse? s with
    | some endpoint => .ok endpoint
    | none => .error .invalidEndpoint
  | other => .error (.invalidType (found other) "socket address")

/-- A field that `null` leaves open. -/
def readOptional {α : Type} (read : Json → Except Mismatch α) : Json → Except Mismatch (Option α)
  | .null => .ok none
  | other => (read other).map some

/-- The protocol of a name. -/
def protocolOfName (name : String) : Except Mismatch Protocol :=
  if name = "tcp" then .ok .tcp
  else if name = "udp" then .ok .udp
  else .error (.unknownVariant name ["tcp", "udp"])

/-- A protocol by its name, or an object with the name as its one member, of no content. -/
def readProtocol : Json → Except Mismatch Protocol
  | .string s => protocolOfName s
  | .object [(name, content)] => do
    let protocol ← protocolOfName name
    match content with
    | .null | .object [] => return protocol
    | other => .error (.invalidType (found other) "unit")
  | .object _ => .error (.invalidValue .map "map with a single key")
  | other => .error (.invalidType (found other) "string or map")

/-- Fields given one by one, in order. -/
def readFields : List (String × Json) → Headers → Except Mismatch Headers
  | [], headers => .ok headers
  | (name, value) :: rest, headers => do
    let value ← readText value
    readFields rest (headers.insert name value)

/-- Header fields, given as an object of texts. -/
def readHeaders : Json → Except Mismatch Headers
  | .object members => readFields members Headers.empty
  | other => .error (.invalidType (found other) "a map")

/-- A number written without fraction and exponent, below `2 ^ 32`. -/
def readCode : Json → Except Mismatch UInt32
  | .number (.natural n) =>
    if n < UInt32.size then .ok (UInt32.ofNat n) else .error (.invalidValue (.integer n) "u32")
  | .number (.negative n) => .error (.invalidValue (.integer (-n)) "u32")
  | other => .error (.invalidType (found other) "u32")

/-! ### The fields of each kind -/

/-- A field: its name, what it accepts, and whether it may be absent. -/
structure Field where
  name : String
  accepts : Json → Except Mismatch Unit
  optional : Bool

/-- A field of a name that a reader accepts. -/
def field {α : Type} (name : String) (read : Json → Except Mismatch α) : Field :=
  ⟨name, fun value => (read value).map fun _ => (), false⟩

/-- The same, and it may be absent. -/
def optionalField {α : Type} (name : String) (read : Json → Except Mismatch α) : Field :=
  { field name read with optional := true }

/-- The fields of a kind in the order of declaration. -/
def Kind.fields : Kind → List Field
  | .target | .triggerUp => [field "liid" readText, field "address" readAddress]
  | .triggerDown => [field "liid" readText]
  | .connectionUp =>
    [field "conn" readText, field "src" readEndpoint, field "dest" readEndpoint,
      optionalField "protocol" readProtocol, optionalField "liid" (readOptional readText),
      optionalField "trigger" (readOptional readAddress),
      optionalField "layer" (readOptional readText)]
  | .data | .datagram =>
    [field "conn" readText, optionalField "payload" (readOptional readText),
      optionalField "payload_base64" (readOptional readText)]
  | .httpRequest =>
    [field "conn" readText, field "method" readText, field "url" readText,
      optionalField "headers" readHeaders, optionalField "body" (readOptional readText),
      optionalField "body_base64" (readOptional readText)]
  | .httpResponse =>
    [field "conn" readText, field "code" readCode, field "status" readText,
      optionalField "headers" readHeaders, optionalField "body" (readOptional readText),
      optionalField "body_base64" (readOptional readText)]
  | .connectionDown => [field "conn" readText]

/-- The members of an object, by name. -/
abbrev Members := List (String × Json)

/-- Goes through the members in order; `seen` are the fields that were there before. -/
def check (fields : List Field) : List String → Members → Except Mismatch Unit
  | _, [] => .ok ()
  | seen, (name, value) :: rest =>
    match fields.find? fun f => f.name == name with
    | none => check fields seen rest
    | some f =>
      -- A field is seen also where it was null.
      if seen.contains name then .error (.duplicateField name)
      else do
        f.accepts value
        check fields (name :: seen) rest

/-! ### The values -/

/-- The value of a field that has to be there. -/
def required {α : Type} (members : Members) (name : String) (read : Json → Except Mismatch α) :
    Except Mismatch α :=
  match members.lookup name with
  | some value => read value
  | none => .error (.missingField name)

/-- The value of a field, or what stands for its absence. -/
def optional {α : Type} (members : Members) (name : String) (absent : α)
    (read : Json → Except Mismatch α) : Except Mismatch α :=
  match members.lookup name with
  | some value => read value
  | none => .ok absent

/-- The text of a field, if there is one. -/
def optionalText (members : Members) (name : String) : Except Mismatch (Option String) :=
  optional members name none (readOptional readText)

/-- Bytes under two names. -/
def payload (members : Members) (text base64 : String) : Except Mismatch Payload := do
  let text ← optionalText members text
  let base64 ← optionalText members base64
  return ⟨text, base64⟩

/-- The event of a kind with the values of the members. -/
def build (members : Members) : Kind → Except Mismatch Event
  | .target => do
    let liid ← required members "liid" readText
    let address ← required members "address" readAddress
    return .target liid address
  | .triggerUp => do
    let liid ← required members "liid" readText
    let address ← required members "address" readAddress
    return .triggerUp liid address
  | .triggerDown => do
    let liid ← required members "liid" readText
    return .triggerDown liid
  | .connectionUp => do
    let conn ← required members "conn" readText
    let source ← required members "src" readEndpoint
    let destination ← required members "dest" readEndpoint
    let protocol ← optional members "protocol" .tcp readProtocol
    let liid ← optionalText members "liid"
    let trigger ← optional members "trigger" none (readOptional readAddress)
    let layer ← optionalText members "layer"
    return .connectionUp conn source destination protocol liid trigger layer
  | .data => do
    let conn ← required members "conn" readText
    let payload ← payload members "payload" "payload_base64"
    return .data conn payload
  | .datagram => do
    let conn ← required members "conn" readText
    let payload ← payload members "payload" "payload_base64"
    return .datagram conn payload
  | .httpRequest => do
    let conn ← required members "conn" readText
    let method ← required members "method" readText
    let url ← required members "url" readText
    let headers ← optional members "headers" Headers.empty readHeaders
    let body ← payload members "body" "body_base64"
    return .httpRequest conn method url headers body
  | .httpResponse => do
    let conn ← required members "conn" readText
    let code ← required members "code" readCode
    let status ← required members "status" readText
    let headers ← optional members "headers" Headers.empty readHeaders
    let body ← payload members "body" "body_base64"
    return .httpResponse conn code status headers body
  | .connectionDown => do
    let conn ← required members "conn" readText
    return .connectionDown conn

/-- The event of a kind that the members of an object make. -/
def ofMembers (kind : Kind) (members : Members) : Except Mismatch Event := do
  check kind.fields [] members
  build members kind

/-! ### Values alone -/

/-- Names values by the fields of a kind, in order. A field that is absent ends the values, which is
an error unless the field may be absent. -/
def nameItems (kind : Kind) : Nat → List Field → List Json → Except Mismatch Members
  | _, [], _ => .ok []
  | index, f :: fields, [] =>
    if f.optional then nameItems kind (index + 1) fields []
    else
      .error (.invalidLength index
        ("struct variant TraceEvent::" ++ kind.title ++ " with " ++ elements kind.fields.length))
  | index, f :: fields, value :: rest => do
    f.accepts value
    let members ← nameItems kind (index + 1) fields rest
    return (f.name, value) :: members

/-- The event of a kind that values in the order of declaration make. -/
def ofItems (kind : Kind) (items : List Json) : Except Mismatch Event := do
  let members ← nameItems kind 0 kind.fields items
  let count := kind.fields.length
  if count < items.length then
    .error (.invalidLength items.length (elements count ++ " in sequence"))
  else build members kind

end EventBridge.Trace
