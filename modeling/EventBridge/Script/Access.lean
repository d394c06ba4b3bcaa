import EventBridge.Engine.Live
import EventBridge.Script.Machine
import EventBridge.Script.Numeral

/-! # Access to tables

Reading and writing fields, and finding the function behind a value that is called, with what
metatables say about each. A metatable can hand on to another table, which may hand on again; such
chains end at a limit.

A computation of a script is `Eval`: it changes the machine, and gives a result or raises a value.
It can look at the contexts that are live, and not change them.
-/

namespace EventBridge.Script

/-- The contexts that handles stand for, as long as there is a table of them. -/
abbrev Contexts := Option (HandleTable Engine.Live)

/-- A computation of a script. What it raises is a value. -/
abbrev Eval := ReaderT Contexts (ExceptT Value (StateM Machine))

/-- Calls of script values, as far as an access needs them. -/
abbrev Call := Value → List Value → Eval (List Value)

/-- Raises a message. -/
def raiseText {α : Type} (text : String) : Eval α := throw (Value.ofText text)

/-- Raises what a function of the bridge refuses with. -/
def refuse {α : Type} (cause : Refusal) : Eval α := do
  let (id, m) := (← get).newObject
  set m
  throw (.failure id cause)

/-- A new table as a value. -/
def allocate (table : Table) : Eval Value := do
  let (id, m) := (← get).newTable table
  set m
  return .table id

/-- The first of some results, or nil. -/
def firstOf (results : List Value) : Value := results.headD .nil

/-- Tables that hand on to one another are at most so many. -/
def chainLimit : Nat := 2000

/-! ### Fields -/

/-- Reads a field: that of the table itself, or what its metatable says. -/
def readField (call : Call) (key : Value) : Nat → Value → Eval Value
  | 0, _ => raiseText "'__index' chain too long; possibly a loop"
  | steps + 1, .table id => do
    let m ← get
    match (m.table id).get key with
    | .nil =>
      match m.metafield id "__index" with
      | .nil => return .nil
      | .function f => return firstOf (← call (.function f) [.table id, key])
      -- A table in this place is read in turn, metatable and all.
      | handler => readField call key steps handler
    | value => return value
  | _ + 1, value => raiseText ("attempt to index a " ++ value.typeName ++ " value")

/-- Why a value cannot be a key, if it cannot. -/
def badKey? (key : Value) : Option String :=
  match key with
  | .nil => some "table index is nil"
  | .float x => if x.isNaN then some "table index is NaN" else none
  | _ => none

/-- Sets an entry of a table itself. -/
def writeEntry (id : Nat) (key value : Value) : Eval Unit :=
  match badKey? key with
  | some text => raiseText text
  | none => modify fun m => m.setTable id ((m.table id).set key value)

/-- Writes a field: that of the table itself if it is there, or as its metatable says. -/
def writeField (call : Call) (key value : Value) : Nat → Value → Eval Unit
  | 0, _ => raiseText "'__newindex' chain too long; possibly a loop"
  | steps + 1, .table id => do
    let m ← get
    match (m.table id).get key with
    | .nil =>
      match m.metafield id "__newindex" with
      | .nil => writeEntry id key value
      | .function f => discard (call (.function f) [.table id, key, value])
      | handler => writeField call key value steps handler
    | _ => writeEntry id key value
  | _ + 1, other => raiseText ("attempt to index a " ++ other.typeName ++ " value")

/-- Reads a global variable. -/
def readGlobal (call : Call) (name : ByteArray) : Eval Value :=
  readField call (.string name) chainLimit (.table Machine.globals)

/-- Sets a global variable. -/
def writeGlobal (call : Call) (name : ByteArray) (value : Value) : Eval Unit :=
  writeField call (.string name) value chainLimit (.table Machine.globals)

/-! ### Calls -/

/-- Calls a value: a function, or a table whose metatable says what is called in its place, with
the table in front of the arguments. -/
def invoke (run : Callable → List Value → Eval (List Value)) : Nat → Value → List Value →
    Eval (List Value)
  | 0, _, _ => raiseText "stack overflow"
  | _ + 1, .function id, args => do
    let m ← get
    run (m.functions[id]?.getD default) args
  | steps + 1, .table id, args => do
    match (← get).metafield id "__call" with
    | .nil => raiseText "attempt to call a table value"
    | handler => invoke run steps handler (.table id :: args)
  | _ + 1, value, _ => raiseText ("attempt to call a " ++ value.typeName ++ " value")

/-! ### Texts -/

/-- The text of a value: a string as it is, a number by its digits, a table as its metatable says,
and anything else by its name. -/
def display (call : Call) (value : Value) : Eval ByteArray :=
  match value with
  | .string bytes => return bytes
  | .integer _ | .float _ => return (value.chunk?.getD ByteArray.empty)
  | .boolean b => return (toString b).toUTF8
  | .failure _ cause => return cause.message.toUTF8
  | .table id => do
    match (← get).metafield id "__tostring" with
    | .nil => return value.objectName.toUTF8
    | handler =>
      match firstOf (← call handler [value]) with
      | .string bytes => return bytes
      | other =>
        match other.chunk? with
        | some bytes => return bytes
        | none => raiseText "'__tostring' must return a string"
  | other => return other.objectName.toUTF8

end EventBridge.Script
