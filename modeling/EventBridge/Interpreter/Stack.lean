import EventBridge.Http.Headers
import EventBridge.Interpreter.Basic

/-! # The evaluation stack

Positions are counted from `1` at the bottom, or from `-1` at the top. An operation that fails
leaves the stack as it was, with two exceptions: `setGlobal` has taken the value off that could not
be stored, and `call` has taken off the value called and its arguments.
-/

namespace EventBridge

open Script (Value Fault)
open Host (failStack)

/-- The place from the bottom, from `0`, that an index names in a stack of a depth. -/
def stackPlace (depth : Nat) (index : Int32) : Except StackError Nat :=
  let i := index.toInt
  if 0 < i then
    if i ≤ depth then .ok (i.toNat - 1) else .error (.badIndex index)
  else if i < 0 then
    if i.natAbs ≤ depth then .ok (depth - i.natAbs) else .error (.badIndex index)
  else .error (.badIndex index)

/-- How many results a call leaves. -/
inductive ResultCount where
  /-- So many, filled up with nil or cut. -/
  | fixed (count : Nat)
  | all
  deriving DecidableEq, Repr

/-- Results by their number. -/
def ResultCount.take (results : List Value) : ResultCount → List Value
  | .all => results
  | .fixed count => results.take count ++ List.replicate (count - results.length) .nil

/-- A call that leaves a fixed number of results leaves that many. -/
theorem ResultCount.length_take_fixed (results : List Value) (count : Nat) :
    (ResultCount.take results (.fixed count)).length = count := by
  simp only [take, List.length_append, List.length_take, List.length_replicate]
  omega

namespace Host

/-! ### Putting values on the stack -/

/-- Puts a value on top. -/
def push (value : Value) : Host Unit := modify fun i => { i with stack := i.stack ++ [value] }

/-- Puts nil on top. -/
def pushNil : Host Unit := push .nil

/-- Puts an integer on top. -/
def pushInteger (n : Int64) : Host Unit := push (.integer n)

/-- Puts the bytes of a text on top, whatever their number. -/
def pushText (text : String) : Host Unit := push (Value.ofText text)

/-- Fails for more bytes than the limits allow. -/
def checkBytes (bytes : ByteArray) : Host Unit := do
  let limit := (← get).limits.payloadBytes
  if limit < bytes.size then failStack (.payloadTooLarge bytes.size limit)

/-- Puts bytes on top, as many as the limits allow. -/
def pushBytes (bytes : ByteArray) : Host Unit := do
  checkBytes bytes
  push (.string bytes)

/-- The table of header fields. -/
def headerTable (headers : Http.Headers) : Script.Table :=
  ⟨headers.fields.map fun field => (Value.ofText field.1, Value.ofText field.2), none⟩

/-- Fails for more header fields than the limits allow. -/
def checkHeaders (headers : Http.Headers) : Host Unit := do
  let limit := (← get).limits.tableEntries
  if limit < headers.size then failStack (.tableTooLarge headers.size limit)

/-- Puts a new table on top. -/
def pushTable (table : Script.Table) : Host Unit := do
  let i ← get
  let (id, machine) := i.machine.newTable table
  set { i with machine := machine }
  push (.table id)

/-- Puts header fields on top as a table, as many as the limits allow. -/
def pushHeaders (headers : Http.Headers) : Host Unit := do
  checkHeaders headers
  pushTable (headerTable headers)

/-- Puts a handle on top, as an object of its own. -/
def pushHandle (handle : Handle) : Host Unit := do
  let i ← get
  let (id, machine) := i.machine.newObject
  set { i with machine := machine }
  push (.handle id handle)

/-! ### Taking values off the stack -/

/-- How many values are on the stack. -/
def depth : Host Nat := do return (← get).stack.length

/-- Leaves so many values at the bottom. -/
def truncate (depth : Nat) : Host Unit := modify fun i => { i with stack := i.stack.take depth }

/-- Takes values off the top. -/
def pop (n : Nat) : Host Unit := do
  let depth ← depth
  if depth < n then failStack (.underflow n depth)
  truncate (depth - n)

/-- The place that an index names. -/
def place (index : Int32) : Host Nat := do
  match stackPlace (← depth) index with
  | .ok place => return place
  | .error cause => failStack cause

/-- The value at an index. -/
def peek (index : Int32) : Host Value := do
  let place ← place index
  return (← get).stack.getD place .nil

/-- Whether the value at an index is nil. -/
def isNil (index : Int32) : Host Bool := do return (← peek index) == .nil

/-- Takes the value at an index out. -/
def remove (index : Int32) : Host Value := do
  let place ← place index
  let i ← get
  set { i with stack := i.stack.eraseIdx place }
  return i.stack.getD place .nil

/-- Takes the top value off. -/
def popValue : Host Value := do
  let i ← get
  match i.stack.getLast? with
  | none => failStack (.underflow 1 0)
  | some value =>
    set { i with stack := i.stack.dropLast }
    return value

/-! ### Variables, fields and calls -/

/-- A fault while the host reads or writes. -/
def onStack (fault : Fault) : BridgeError := .stack (.interpreter fault)

/-- Puts a global variable on the stack. -/
def getGlobal (name : String) : Host Unit := do
  push (← script onStack (Script.readGlobal Script.call name.toUTF8))

/-- Stores the top value as a global variable. -/
def setGlobal (name : String) : Host Unit := do
  let value ← popValue
  script onStack (Script.writeGlobal Script.call name.toUTF8 value)

/-- Puts a field of the table at an index on the stack. -/
def getField (index : Int32) (name : String) : Host Unit := do
  match ← peek index with
  | .table id =>
    push (← script onStack
      (Script.readField Script.call (Value.ofText name) Script.chainLimit (.table id)))
  | other => failStack (.notATable index other.kind)

/-- What calls of the host fail with. -/
def inCall (fault : Fault) : BridgeError := .call "call" fault

/-- Calls the value below the top ones with those as its arguments, and leaves the results in their
place. -/
def call (arguments : UInt64) (results : ResultCount) : Host Unit := do
  let i ← get
  let depth := i.stack.length
  -- One more than the greatest number of arguments wraps around to zero.
  let needed := (arguments + 1).toNat
  if depth < needed then failStack (.underflow needed depth)
  if depth < arguments.toNat then throw (.aborted arguments)
  let below := i.stack.take (depth - arguments.toNat)
  let values := i.stack.drop (depth - arguments.toNat)
  -- The value called and its arguments are gone even if the call fails.
  set { i with stack := below.dropLast }
  let returned ← match below.getLastD .nil with
    | .function id => script inCall (Script.call (.function id) values)
    | .table id => script inCall (Script.call (.table id) values)
    | other =>
      throw (inCall (.raised ("attempt to call a " ++ other.kind ++ " value") false))
  modify fun i => { i with stack := i.stack ++ results.take returned }

end Host

end EventBridge
