import EventBridge.Json.Reader
import EventBridge.Trace.Event.Fields

/-! # Reading a trace line

A line is a JSON object, or an array, with the kind of the event in it. The reader goes from left to
right and reports what is wrong with the kind as soon as it stands there, before it knows whether
the rest of the line is JSON. Everything else about the event is settled once the whole value is
read, and what follows the value comes last of all.
-/

namespace EventBridge.Trace

open Document (Found Mismatch)
open Json (Malformed skipGaps)

/-- Why a line is no event. -/
inductive ReadError where
  /-- The line is not JSON. -/
  | malformed (cause : Malformed)
  /-- The line is JSON as far as it was read, and no event. -/
  | mismatch (cause : Mismatch)
  deriving DecidableEq, Repr

/-- The wording of why a line is no event. -/
def ReadError.message : ReadError → String
  | .malformed cause => cause.message
  | .mismatch cause => cause.message

/-- The name of the member that holds the kind. -/
def tagName : String := "event"

/-- A step of reading JSON, as a step of reading an event. -/
def lift {α : Type} : Except Malformed α → Except ReadError α
  | .ok x => .ok x
  | .error e => .error (.malformed e)

/-- A step of matching fields, as a step of reading an event. -/
def liftMismatch {α : Type} : Except Mismatch α → Except ReadError α
  | .ok x => .ok x
  | .error e => .error (.mismatch e)

/-- A complaint about a value in the place of the kind. -/
def invalidTag {α : Type} (found : Found) : Except ReadError α :=
  .error (.mismatch (.invalidType found "variant identifier"))

/-- The kind at the front. What is no string is named by its first token. -/
def readKind (cs : List Char) : Except ReadError (Kind × List Char) :=
  match skipGaps cs with
  | '\x22' :: rest => do
    let (name, rest) ← lift (Json.stringRest rest)
    match Kind.ofName? name with
    | some kind => return (kind, rest)
    | none => .error (.mismatch (.unknownVariant name (Kind.all.map Kind.name)))
  | '[' :: _ => invalidTag .sequence
  | '\x7b' :: _ => invalidTag .map
  | cs => do
    let (value, _) ← lift (Json.readValue 1 cs)
    invalidTag (found value)

/-- The members of an object, from behind its brace or a comma on, apart from the kind. -/
def readMembers : Nat → Option Kind → List Char →
    Except ReadError (Option Kind × Members × List Char)
  | 0, _, _ => .error (.malformed .unexpectedEnd)
  | fuel + 1, kind?, cs => do
    let (name, cs) ← lift (Json.readName cs)
    let continued (kind? : Option Kind) (member : Members) (cs : List Char) :
        Except ReadError (Option Kind × Members × List Char) :=
      match skipGaps cs with
      | ',' :: rest =>
        match skipGaps rest with
        | '\x7d' :: _ => .error (.malformed .trailingComma)
        | rest => do
          let (kind?, members, rest) ← readMembers fuel kind? rest
          return (kind?, member ++ members, rest)
      | '\x7d' :: rest => .ok (kind?, member, rest)
      | rest => .error (.malformed (Json.unexpected rest))
    if name = tagName then
      -- A second kind is an error by its name alone.
      if kind?.isSome then .error (.mismatch (.duplicateField tagName))
      else do
        let cs ← lift (Json.readColon cs)
        let (kind, cs) ← readKind cs
        continued (some kind) [] cs
    else do
      let cs ← lift (Json.readColon cs)
      let (value, cs) ← lift (Json.readValue (Json.depthLimit - 1) cs)
      continued kind? [(name, value)] cs

/-- The items of an array behind its first one, up to the bracket. -/
def readItems (cs : List Char) : Except ReadError (List Json × List Char) :=
  match skipGaps cs with
  | ']' :: rest => .ok ([], rest)
  | ',' :: rest =>
    match skipGaps rest with
    | ']' :: _ => .error (.malformed .trailingComma)
    | rest => lift (Json.arrayItems (Json.readValue (Json.depthLimit - 1)) (rest.length + 1) rest)
  | rest => .error (.malformed (Json.unexpected rest))

/-- The event at the front of the characters. -/
def readEvent (cs : List Char) : Except ReadError (Event × List Char) :=
  let missingTag := ReadError.mismatch (.missingField tagName)
  match skipGaps cs with
  | '\x7b' :: rest =>
    match skipGaps rest with
    | '\x7d' :: _ => .error missingTag
    | rest => do
      let (kind?, members, rest) ← readMembers (rest.length + 1) none rest
      match kind? with
      | some kind => do
        let event ← liftMismatch (ofMembers kind members)
        return (event, rest)
      | none => .error missingTag
  | '[' :: rest =>
    match skipGaps rest with
    | ']' :: _ => .error missingTag
    | rest => do
      let (kind, rest) ← readKind rest
      let (items, rest) ← readItems rest
      let event ← liftMismatch (ofItems kind items)
      return (event, rest)
  | cs => do
    let (value, _) ← lift (Json.readValue 1 cs)
    .error (.mismatch (.invalidType (found value) "internally tagged enum TraceEvent"))

/-- The event that a line is. -/
def Event.parse (line : String) : Except ReadError Event := do
  let (event, rest) ← readEvent line.toList
  lift (Json.ended rest)
  return event

end EventBridge.Trace
