import EventBridge.Script.Access

/-! # Functions that scripts find in place

The built-in functions, and the questions to the engine. A question takes a context handle as its
first argument; `answer` is what the engine says about the context, and `liveAt` finds the context
or says what is wrong with the handle.
-/

namespace EventBridge.Script

open Engine (Live)

/-! ### Built-in functions -/

/-- The type of an argument in messages. -/
def argumentType : Option Value → String
  | some value => value.objectName
  | none => "no value"

/-- Complains about an argument. -/
def badArgument {α : Type} (n : Nat) (function expected : String) : Eval α :=
  raiseText ("bad argument #" ++ toString n ++ " to '" ++ function ++ "' (" ++ expected ++ ")")

/-- The table that an argument has to be. -/
def tableArgument (n : Nat) (function : String) (args : List Value) : Eval Nat :=
  match args[n - 1]? with
  | some (.table id) => return id
  | other => badArgument n function ("table expected, got " ++ argumentType other)

/-- An argument that has to be there. -/
def anyArgument (n : Nat) (function : String) (args : List Value) : Eval Value :=
  match args[n - 1]? with
  | some value => return value
  | none => badArgument n function "value expected"

/-- The entry behind a key, or the first one behind nil. -/
def entryAfter (table : Table) (key : Value) : Option (List Value) :=
  let rest : Option (List (Value × Value)) :=
    if key = .nil then some table.entries
    else match table.entries.dropWhile (fun (entry : Value × Value) => entry.1 != key.key) with
      | _ :: rest => some rest
      | [] => none
  rest.map fun
    | (k, v) :: _ => [k, v]
    | [] => [.nil]

/-- The metatable, or nil for none, that an argument has to be. -/
def metatableArgument : Option Value → Eval (Option Nat)
  | some .nil => return none
  | some (.table id) => return some id
  | _ => badArgument 2 "setmetatable" "nil or table expected"

/-- Sets the metatable of a table that is not protected. -/
def setMetatable (args : List Value) : Eval (List Value) := do
  let id ← tableArgument 1 "setmetatable" args
  let other ← metatableArgument args[1]?
  let m ← get
  if m.metafield id "__metatable" ≠ .nil then raiseText "cannot change a protected metatable"
  set (m.setTable id { m.table id with metatable := other })
  return [.table id]

/-- The metatable of a value, or what stands in for one that is protected. -/
def getMetatable (args : List Value) : Eval (List Value) := do
  match ← anyArgument 1 "getmetatable" args with
  | .table id =>
    let m ← get
    match m.metafield id "__metatable", (m.table id).metatable with
    | .nil, some other => return [.table other]
    | .nil, none => return [.nil]
    | shown, _ => return [shown]
  | .handle .. | .failure .. => return [.boolean false]
  | _ => return [.nil]

/-- Runs a built-in function. -/
def Builtin.run (call : Call) (args : List Value) : Builtin → Eval (List Value)
  | .rawget => do
    let id ← tableArgument 1 "rawget" args
    let key ← anyArgument 2 "rawget" args
    return [((← get).table id).get key]
  | .rawset => do
    let id ← tableArgument 1 "rawset" args
    let key ← anyArgument 2 "rawset" args
    let value ← anyArgument 3 "rawset" args
    writeEntry id key value
    return [.table id]
  | .setmetatable => setMetatable args
  | .getmetatable => getMetatable args
  | .error => throw (firstOf args)
  | .next => do
    let id ← tableArgument 1 "next" args
    match entryAfter ((← get).table id) (args.getD 1 .nil) with
    | some results => return results
    | none => raiseText "invalid key to 'next'"
  | .tostring => do
    let value ← anyArgument 1 "tostring" args
    return [.string (← display call value)]

/-! ### Questions to the engine -/

/-- What a question finds out about a context. -/
def Native.answer (live : Live) : Native → Except Engine.Failure (List Value)
  | .describeSource => .ok [Value.ofText (live.engine.describeSource live.context)]
  | .describeDestination => .ok [Value.ofText (live.engine.describeDestination live.context)]
  | .liid => .ok [Value.ofText live.root.liid]
  | .contextId => .ok [Value.ofText (toString live.context.id)]
  | .networkInfo => do
    let network ← live.engine.network live.context
    return [Value.ofText network.source.ip.text, Value.ofText network.destination.ip.text,
      Value.ofText network.protocol.name]
  | .triggerInfo =>
    match live.root.trigger with
    | some address => .ok [Value.ofText address.text, Value.ofText address.family]
    | none => .ok [.nil, .nil]

/-- The context that a value stands for. -/
def liveAt (contexts : Contexts) (value : Value) : Except Misuse Live :=
  match value with
  | .handle _ handle =>
    match contexts with
    | some table => table.resolve handle
    | none => .error .foreign
  | other => .error (.notAHandle other.kind)

/-- What a question about a value comes to: the answer of the engine, or a refusal. -/
def Native.reply (native : Native) (contexts : Contexts) (subject : Value) :
    Except Refusal (List Value) :=
  match liveAt contexts subject with
  | .error cause => .error (.misuse cause)
  | .ok live => (native.answer live).mapError .engine

/-- Asks the engine about the context in the first argument, and keeps a note of that. -/
def Native.run (native : Native) (args : List Value) : Eval (List Value) := do
  let subject := firstOf args
  let reply := native.reply (← read) subject
  modify fun m => { m with questions := m.questions.push ⟨native, subject, reply⟩ }
  match reply with
  | .error cause => refuse cause
  | .ok results => return results

end EventBridge.Script
