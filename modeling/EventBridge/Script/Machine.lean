import EventBridge.Keyed
import EventBridge.Script.Value

/-! # The state of a script

All that a running script can change, as a value: its tables and functions, what it has noted, and
what it has asked the engine. The contexts that its handles stand for are not among that.

* Tables and functions are never taken away; their numbers are their places.
* `Table.get` and `Table.set` are the plain access to a table, past its metatable.
* `Machine.snapshot` is a value as it is now, with the tables in it.
-/

namespace EventBridge.Script

/-- A table: its entries, each key once and with a value that is not nil, and its metatable. -/
structure Table where
  entries : List (Value × Value)
  metatable : Option Nat
  deriving DecidableEq

instance : Inhabited Table := ⟨⟨[], none⟩⟩

/-- The functions that a script finds in place. -/
inductive Builtin where
  | rawget
  | rawset
  | setmetatable
  | getmetatable
  | error
  | next
  | tostring
  deriving DecidableEq, Repr

namespace Builtin

/-- The global under which a script finds a function. -/
def name : Builtin → String
  | .rawget => "rawget"
  | .rawset => "rawset"
  | .setmetatable => "setmetatable"
  | .getmetatable => "getmetatable"
  | .error => "error"
  | .next => "next"
  | .tostring => "tostring"

/-- Every function, in the order of their numbers. -/
def all : List Builtin := [.rawget, .rawset, .setmetatable, .getmetatable, .error, .next, .tostring]

end Builtin

/-- The questions that a script can ask the engine. -/
inductive Native where
  | describeSource
  | describeDestination
  | liid
  | contextId
  | networkInfo
  | triggerInfo
  deriving DecidableEq, Repr

namespace Native

/-- The name of a question in scripts. -/
def name : Native → String
  | .describeSource => "describe_src"
  | .describeDestination => "describe_dest"
  | .liid => "get_liid"
  | .contextId => "get_context_id"
  | .networkInfo => "get_network_info"
  | .triggerInfo => "get_trigger_info"

/-- Every question, in the order of registration. -/
def all : List Native :=
  [.describeSource, .describeDestination, .liid, .contextId, .networkInfo, .triggerInfo]

/-- The question of a name. -/
def ofName? (name : String) : Option Native := all.find? fun native => native.name == name

/-- A question is found by its name. -/
theorem ofName?_name (native : Native) : ofName? native.name = some native := by
  cases native <;> decide

end Native

/-- A question as it was asked: what it was asked about, and what it found out or why it refused. -/
structure Question where
  native : Native
  subject : Value
  reply : Except Refusal (List Value)

/-- The arguments of the functions around a piece of code, those of the innermost first. -/
abbrev Scope := List (List Value)

/-- What a function does when it is called. -/
inductive Callable where
  /-- Runs code, which may refer to the arguments of the functions around it. -/
  | closure (scope : Scope) (body : Block)
  | builtin (builtin : Builtin)
  | native (native : Native)
  /-- Refuses to write to a table of native functions. -/
  | refuseWrite (namespaceName : String)
  /-- Starts a walk over the entries of a table with the given step function. -/
  | walk (step : Value) (entries : Nat)

instance : Inhabited Callable := ⟨.closure [] .nil⟩

/-- A value as it was at a moment. -/
inductive Snapshot where
  | nil
  | boolean (value : Bool)
  | integer (value : Int64)
  | float (value : Real64)
  | string (bytes : ByteArray)
  | table (entries : List (Snapshot × Snapshot))
  /-- A table beyond the depth that snapshots have. -/
  | deep
  | function
  | thread
  | handle
  | stream
  | failure (cause : Refusal)

instance : Inhabited Snapshot := ⟨.nil⟩

/-- The state of a script. -/
structure Machine where
  /-- Tables by number; the global variables are the first. -/
  tables : Array Table
  functions : Array Callable
  /-- The number of the next object that is neither. -/
  nextObject : Nat
  /-- What the script has noted, in order. -/
  records : Array (List Snapshot)
  /-- What the script has asked the engine, in order. -/
  questions : Array Question

namespace Table

/-- The value under a key, or nil. -/
def get (table : Table) (key : Value) : Value := (table.entries.lookup key.key).getD .nil

/-- Sets a key; nil takes its entry away. -/
def set (table : Table) (key value : Value) : Table :=
  let key := key.key
  let others := Keyed.erase key table.entries
  { table with entries := if value = .nil then others else others ++ [(key, value)] }

/-- Setting a key changes what is under it, and nothing about other keys. -/
theorem get_set (table : Table) (key other value : Value) :
    (table.set key value).get other = if other.key == key.key then value else table.get other := by
  by_cases hv : value = .nil
  · by_cases h : other.key = key.key
    · simp [get, set, hv, h, Keyed.lookup_erase]
    · simp [get, set, hv, h, Keyed.lookup_erase]
  · by_cases h : other.key = key.key
    · simp [get, set, hv, h, Keyed.lookup_erase, List.lookup_append]
    · simp [get, set, hv, Keyed.lookup_erase, List.lookup_append, List.lookup_cons,
        beq_false_of_ne h]

/-- The value under a name. -/
def field (table : Table) (name : String) : Value := table.get (Value.ofText name)

/-- The end of the positive integers from `n` on that are keys. `fuel` bounds their number. -/
def border (table : Table) : Nat → Int → Int
  | 0, n => n
  | fuel + 1, n =>
    if table.get (.integer (Int64.ofInt (n + 1))) = .nil then n else border table fuel (n + 1)

/-- How many entries stand under `1`, `2` and so on. -/
def length (table : Table) : Int := table.border table.entries.length 0

end Table

namespace Machine

/-- The number of the table of global variables. -/
def globals : Nat := 0

/-- The table of a number. -/
def table (m : Machine) (id : Nat) : Table := m.tables[id]?.getD default

/-- Replaces the table of a number. -/
def setTable (m : Machine) (id : Nat) (table : Table) : Machine :=
  { m with tables := m.tables.setIfInBounds id table }

/-- A new table. -/
def newTable (m : Machine) (table : Table) : Nat × Machine :=
  (m.tables.size, { m with tables := m.tables.push table })

/-- A new function. -/
def newFunction (m : Machine) (callable : Callable) : Nat × Machine :=
  (m.functions.size, { m with functions := m.functions.push callable })

/-- The number of a new object. -/
def newObject (m : Machine) : Nat × Machine :=
  (m.nextObject, { m with nextObject := m.nextObject + 1 })

/-- A field of the metatable of a table. -/
def metafield (m : Machine) (id : Nat) (name : String) : Value :=
  match (m.table id).metatable with
  | some other => (m.table other).field name
  | none => .nil

/-- A script that has not begun: it has the built-in functions. -/
def initial : Machine :=
  let functions := Builtin.all.map Callable.builtin
  let named := Builtin.all.mapIdx fun i builtin => (Value.ofText builtin.name, Value.function i)
  let globals : Table := ⟨(Value.ofText "_G", .table globals) :: named, none⟩
  ⟨#[globals], functions.toArray, 0, #[], #[]⟩

/-! ### Snapshots -/

/-- A value as it is now, with tables down to a depth. -/
def snapshot (m : Machine) : Nat → Value → Snapshot
  | _, .nil => .nil
  | _, .boolean b => .boolean b
  | _, .integer n => .integer n
  | _, .float x => .float x
  | _, .string bytes => .string bytes
  | _, .function _ => .function
  | _, .thread _ => .thread
  | _, .handle .. => .handle
  | _, .stream => .stream
  | _, .failure _ cause => .failure cause
  | 0, .table _ => .deep
  | depth + 1, .table id =>
    .table ((m.table id).entries.map fun entry =>
      (snapshot m depth entry.1, snapshot m depth entry.2))

/-- Levels of tables in what a script notes. -/
def recordDepth : Nat := 6

/-- Levels of tables in an answer, more than any has. -/
def answerDepth : Nat := 200

end Machine

end EventBridge.Script
