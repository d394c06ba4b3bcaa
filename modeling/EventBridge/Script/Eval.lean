import EventBridge.Script.Library
import EventBridge.Script.Position

/-! # Running scripts

`evalExpr` and `execBlock` run a script by recursion on its form. Calls go through a parameter, so
that one level of calls is defined by itself; `apply` ties the levels together and takes one off the
depth that is left for each. Where no depth is left a call raises, as any failing call does.
-/

namespace EventBridge.Script

open Machine (recordDepth)

/-! ### Parts of expressions -/

/-- Entries under `1`, `2` and so on. -/
def numbered (values : List Value) : Table :=
  values.zipIdx.foldl (fun table (value, i) =>
    table.set (.integer (Int64.ofNat (i + 1))) value) default

/-- A table of values with their number as `n`. -/
def packed (values : List Value) : Table :=
  (numbered values).set (Value.ofText "n") (.integer (Int64.ofNat values.length))

/-- What a guarded call shows of what was raised. -/
def caught : Value → Value
  | .string bytes => .string ⟨(withoutPosition bytes.data.toList).toArray⟩
  | value => value

/-- The strings among the keys of a table. -/
def stringKeys (table : Table) : List ByteArray :=
  table.entries.filterMap fun entry =>
    match entry.1 with
    | .string bytes => some bytes
    | _ => none

/-- Steps of a walk are at most so many, and one for each entry of the table that it goes over. -/
def walkLimit : Nat := 100000

/-- The most steps of a walk that is given a state. -/
def walkSteps (m : Machine) : Value → Nat
  | .table id => walkLimit + (m.table id).entries.length
  | _ => walkLimit

/-- The string keys that a walk visits, from a control value on. -/
def walkKeys (call : Call) (step state : Value) : Nat → Value → Eval (List ByteArray)
  | 0, _ => raiseText "stack overflow"
  | fuel + 1, control => do
    match firstOf (← call step [state, control]) with
    | .nil => return []
    | .string bytes => return bytes :: (← walkKeys call step state fuel (.string bytes))
    | other => walkKeys call step state fuel other

/-- Bytes in ascending order. -/
def bytesBefore (a b : ByteArray) : Bool := !decide (b.data.toList < a.data.toList)

/-- The string keys that a walk over a value visits, in order. -/
def keysOf (call : Call) (value : Value) : Eval (List ByteArray) := do
  let keys ← match value with
    | .table id => do
      let m ← get
      match m.metafield id "__pairs" with
      | .nil => pure (stringKeys (m.table id))
      | handler => do
        let results ← call handler [value]
        let state := results.getD 1 .nil
        let steps := walkSteps (← get) state
        walkKeys call (results.getD 0 .nil) state steps (results.getD 2 .nil)
    | other =>
      badArgument 1 "for iterator" ("table expected, got " ++ argumentType (some other))
  return keys.mergeSort bytesBefore

/-- The length of a string or a table. -/
def lengthOf (value : Value) : Eval Value := do
  match value with
  | .string bytes => return .integer (Int64.ofNat bytes.size)
  | .table id => return .integer (Int64.ofInt ((← get).table id).length)
  | other => badArgument 1 "rawlen" ("table or string expected, got " ++ argumentType (some other))

/-- Whether a number is an integer or a float. -/
def numberKind : Value → Value
  | .integer _ => Value.ofText "integer"
  | .float _ => Value.ofText "float"
  | _ => .nil

/-- A string or a number as a part of a longer string. -/
def chunkOf (value : Value) : Eval ByteArray :=
  match value.chunk? with
  | some bytes => return bytes
  | none => raiseText ("attempt to concatenate a " ++ value.objectName ++ " value")

/-- Strings and numbers one behind the other. They are joined from the right, so of several that are
neither the rightmost is complained about; the last two are looked at from left to right. -/
def concatAll : List Value → Eval ByteArray
  | [] => return ByteArray.empty
  | [value] => chunkOf value
  | [left, right] => return (← chunkOf left) ++ (← chunkOf right)
  | value :: rest => do
    let tail ← concatAll rest
    return (← chunkOf value) ++ tail

/-- Sets entries of a table, one after the other. -/
def fill (table : Value) : List (Value × Value) → Eval Unit
  | [] => return ()
  | (key, value) :: rest => do
    match table with
    | .table id => writeEntry id key value
    | _ => return ()
    fill table rest

/-- Delivers the results of a call in a form. -/
def deliver (form : CallForm) (result : Eval (List Value)) : Eval Value :=
  match form with
  | .first => return firstOf (← result)
  | .packed => do allocate (packed (← result))
  | .guarded => do
    let values ← tryCatch (return .boolean true :: (← result)) fun raised =>
      return [.boolean false, caught raised]
    allocate (packed values)

/-! ### Expressions and statements -/

/-- An argument of the function so many levels out, the first being `1`. -/
def Scope.argument (scope : Scope) (level index : Nat) : Value :=
  if index = 0 then .nil else (scope.getD level []).getD (index - 1) .nil

mutual

/-- The value of an expression, in a function with these arguments around it. -/
def evalExpr (call : Call) (scope : Scope) : Expr → Eval Value
  | .nil => return .nil
  | .boolean b => return .boolean b
  | .integer n => return .integer n
  | .float x => return .float x
  | .string bytes => return .string bytes
  | .global name => readGlobal call name
  | .argument index => return scope.argument 0 index
  | .outer level index => return scope.argument level index
  | .argumentCount => return .integer (Int64.ofNat (scope.headD []).length)
  | .field table key => do
    let table ← evalExpr call scope table
    let key ← evalExpr call scope key
    readField call key chainLimit table
  | .call form callee arguments => do
    let callee ← evalExpr call scope callee
    let values ← evalExprs call scope arguments
    deliver form (call callee values)
  | .function body => do
    let (id, m) := (← get).newFunction (.closure scope body)
    set m
    return .function id
  | .table entries metatable => do
    -- All parts have their values before the table is made.
    let entries ← evalEntries call scope entries
    let metatable ← evalExpr call scope metatable
    let table ← allocate default
    fill table entries
    match metatable with
    | .nil => return table
    | other => do
      discard (setMetatable [table, other])
      return table
  | .length operand => do lengthOf (← evalExpr call scope operand)
  | .typeName operand => return Value.ofText (← evalExpr call scope operand).typeName
  | .numberKind operand => return numberKind (← evalExpr call scope operand)
  | .equal left right => do
    let left ← evalExpr call scope left
    let right ← evalExpr call scope right
    return .boolean (left.same right)
  | .add left right => do
    let left ← evalExpr call scope left
    let right ← evalExpr call scope right
    match left.plus? right with
    | some sum => return sum
    | none => raiseText (left.plusError right)
  | .concat parts => return .string (← concatAll (← evalExprs call scope parts))
  | .not operand => return .boolean !(← evalExpr call scope operand).isTrue
  | .keys operand => do
    let keys ← keysOf call (← evalExpr call scope operand)
    allocate (numbered (keys.map Value.string))
  | .stream => return .stream
  | .thread => do
    let (id, m) := (← get).newObject
    set m
    return .thread id

/-- The values of expressions, from left to right. -/
def evalExprs (call : Call) (scope : Scope) : Exprs → Eval (List Value)
  | .nil => return []
  | .cons head tail => do
    let value ← evalExpr call scope head
    return value :: (← evalExprs call scope tail)

/-- The keys and values of entries, in order. -/
def evalEntries (call : Call) (scope : Scope) : Entries → Eval (List (Value × Value))
  | .nil => return []
  | .cons key value tail => do
    let key ← evalExpr call scope key
    let value ← evalExpr call scope value
    return (key, value) :: (← evalEntries call scope tail)

end

mutual

/-- Runs a statement. The results are there if it returns from the function. -/
def execStmt (call : Call) (scope : Scope) : Stmt → Eval (Option (List Value))
  | .setGlobal name value => do
    writeGlobal call name (← evalExpr call scope value)
    return none
  | .setField table key value => do
    let table ← evalExpr call scope table
    let key ← evalExpr call scope key
    let value ← evalExpr call scope value
    writeField call key value chainLimit table
    return none
  | .record values => do
    let values ← evalExprs call scope values
    modify fun m => { m with records := m.records.push (values.map (m.snapshot recordDepth)) }
    return none
  | .perform callee arguments => do
    let callee ← evalExpr call scope callee
    let values ← evalExprs call scope arguments
    discard (call callee values)
    return none
  | .return values => return some (← evalExprs call scope values)
  | .raise value => do throw (← evalExpr call scope value)
  | .cond test thenBlock elseBlock => do
    if (← evalExpr call scope test).isTrue then execBlock call scope thenBlock
    else execBlock call scope elseBlock

/-- Runs statements until one returns. -/
def execBlock (call : Call) (scope : Scope) : Block → Eval (Option (List Value))
  | .nil => return none
  | .cons head tail => do
    match ← execStmt call scope head with
    | some results => return some results
    | none => execBlock call scope tail

end

/-! ### Calls -/

/-- Runs a function. -/
def runCallable (call : Call) : Callable → List Value → Eval (List Value)
  | .closure scope body, args => return (← execBlock call (args :: scope) body).getD []
  | .builtin builtin, args => builtin.run call args
  | .native native, args => native.run args
  | .refuseWrite name, _ => refuse (.readOnly name)
  | .walk step entries, _ => return [step, .table entries, .nil]

/-- Calls a value, with so many levels of calls left. -/
def apply : Nat → Call
  | 0, _, _ => raiseText "stack overflow"
  | depth + 1, callee, args => invoke (runCallable (apply depth)) chainLimit callee args

/-- Levels of calls are at most so many. -/
def callDepth : Nat := 20000

/-- Calls a value from outside of any script. -/
def call : Call := apply callDepth

/-- Runs a script from its top. -/
def runBlock (block : Block) : Eval (List Value) :=
  return (← execBlock call [[]] block).getD []

end EventBridge.Script
