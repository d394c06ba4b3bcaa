import EventBridge.Interpreter.Stack
import EventBridge.Text.Quoted

/-! # Native functions and live contexts

Native functions are bound to a script as the fields of one global table. The table that the script
gets is empty: reading it falls through to the functions, writing to it is refused, and its
metatable is out of reach.

A context is live, that is, handles to it work, from `enter` to `leave`.
-/

namespace EventBridge

open Engine (Live)
open Script (Native Table Value Callable)

/-- A function under the name that scripts know it by. -/
structure NativeEntry where
  name : String
  native : Native
  deriving DecidableEq, Repr

/-- An entry as reports show it. -/
def NativeEntry.text (entry : NativeEntry) : String :=
  "NativeFunction \x7b name: " ++ Text.quoted entry.name ++ " \x7d"

/-- The functions that scripts get, each under its own name. -/
def NativeEntry.all : List NativeEntry := Native.all.map fun native => ⟨native.name, native⟩

/-- The first name that occurs a second time. -/
def firstRepeated (seen : List String) : List NativeEntry → Option String
  | [] => none
  | entry :: rest =>
    if entry.name ∈ seen then some entry.name else firstRepeated (entry.name :: seen) rest

/-- The functions of a script that the host has to call by itself. -/
def functionOf (value : Value) : Except Script.Fault Value :=
  match value with
  | .function id => .ok (.function id)
  | other => .error (.conversion other.kind "function")

namespace Host

/-- A new function as a value. -/
def newFunction (callable : Callable) : Host Value := do
  let i ← get
  let (id, machine) := i.machine.newFunction callable
  set { i with machine := machine }
  return .function id

/-- A new table. -/
def newTable (table : Table) : Host Nat := do
  let i ← get
  let (id, machine) := i.machine.newTable table
  set { i with machine := machine }
  return id

/-- The functions by name. -/
def nativeTable : List NativeEntry → Host Table
  | [] => return default
  | entry :: rest => do
    let function ← newFunction (.native entry.native)
    let others ← nativeTable rest
    return { others with entries := (Value.ofText entry.name, function) :: others.entries }

/-- The table that lets a script see entries without changing them. -/
def readOnlyView (namespaceName : String) (entries : Nat) : Host Nat := do
  -- A walk goes by what `next` is when the table is made, not when the walk begins.
  let next ← script .interpreter (Script.readGlobal Script.call "next".toUTF8)
  let next ← match functionOf next with
    | .ok next => pure next
    | .error fault => throw (.interpreter fault)
  let pairs ← newFunction (.walk next entries)
  let refuseWrite ← newFunction (.refuseWrite namespaceName)
  let fields : List (String × Value) :=
    [("__index", .table entries), ("__newindex", refuseWrite), ("__pairs", pairs),
      ("__metatable", .boolean false)]
  let metatable ← newTable ⟨fields.map fun field => (Value.ofText field.1, field.2), none⟩
  newTable ⟨[], some metatable⟩

/-- Binds functions under a global name. -/
def register (namespaceName : String) (natives : List NativeEntry) : Host Unit := do
  match firstRepeated [] natives with
  | some name => throw (.duplicateNative name)
  | none =>
    let entries ← newTable (← nativeTable natives)
    let view ← readOnlyView namespaceName entries
    script .interpreter (Script.writeGlobal Script.call namespaceName.toUTF8 (.table view))
    report ⟨.debug, "bridge", "Registered " ++ toString natives.length ++
      " native function(s) under '" ++ namespaceName ++ "'"⟩

/-! ### Live contexts -/

/-- Makes a context live. -/
def enter (live : Live) : Host Handle := do
  let i ← get
  match i.contexts with
  | none => throw (.interpreter (.raised "context table not installed" false))
  | some contexts =>
    let (handle, contexts) := contexts.insert live
    set { i with contexts := some contexts }
    return handle

/-- The text of a handle in reports. -/
def handleText (handle : Handle) : String :=
  "ContextHandle \x7b table: " ++ toString handle.table ++ ", slot: " ++ toString handle.slot ++
    ", generation: " ++ toString handle.generation ++ " \x7d"

/-- Ends the lifetime of a context. -/
def leave (handle : Handle) : Host Unit := do
  let i ← get
  match i.contexts with
  | none =>
    report ⟨.warn, "bridge", "Context table missing while releasing " ++ handleText handle⟩
  | some contexts =>
    let (_, contexts) := contexts.release handle
    set { i with contexts := some contexts }

/-- Runs a computation while a context is live, and ends its lifetime however that ends. -/
def during {α : Type} (live : Live) (computation : Handle → Host α) : Host α := do
  let handle ← enter live
  let result ← attempt (computation handle)
  leave handle
  deliver result

end Host

end EventBridge
