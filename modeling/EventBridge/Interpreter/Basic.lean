import EventBridge.Config.Basic
import EventBridge.Files.Tree
import EventBridge.Log.Line
import EventBridge.Script.Fault

/-! # The interpreter as the host sees it

The host works on an evaluation stack beside the state of the script: it puts values on the stack,
calls the value below them, and finds the results there. What it may put there has limits.

A computation of the host is `Host`: it changes the interpreter, also where it fails, and fails with
a `BridgeError`. What it reports gathers in the interpreter until it is taken.
-/

namespace EventBridge

open Log (Line)
open Script (Fault Machine Value)

/-- The most that the host passes to a script at once. -/
structure Limits where
  payloadBytes : Nat
  tableEntries : Nat
  deriving DecidableEq, Repr

/-- The limits of the settings of a script. -/
def Limits.of (scripting : Config.Scripting) : Limits :=
  ⟨scripting.maxPayloadBytes, scripting.maxTableEntries⟩

instance : Inhabited Limits := ⟨⟨16777216, 1024⟩⟩

/-- An interpreter. The stack has its bottom in front. -/
structure Interpreter where
  machine : Machine
  /-- The contexts that handles reach. -/
  contexts : Script.Contexts
  stack : List Value
  limits : Limits
  /-- What it has reported and nobody has taken. -/
  lines : List Line

/-! ### Failures -/

/-- Why a value does not get onto the stack, or off it. -/
inductive StackError where
  | payloadTooLarge (size limit : Nat)
  | tableTooLarge (size limit : Nat)
  | underflow (needed depth : Nat)
  | badIndex (index : Int32)
  | notATable (index : Int32) (kind : String)
  /-- Reading or writing for the host ran into the script. -/
  | interpreter (fault : Fault)
  deriving DecidableEq, Repr

/-- The wording of a failure on the stack. -/
def StackError.message : StackError → String
  | .payloadTooLarge size limit =>
    "payload of " ++ toString size ++ " bytes exceeds the " ++ toString limit ++ " byte limit"
  | .tableTooLarge size limit =>
    "table of " ++ toString size ++ " entries exceeds the " ++ toString limit ++ " entry limit"
  | .underflow needed depth =>
    "stack underflow: needed " ++ toString needed ++ " values, stack holds " ++ toString depth
  | .badIndex index => "invalid stack index " ++ toString index.toInt
  | .notATable index kind =>
    "value at stack index " ++ toString index.toInt ++ " is a " ++ kind ++ ", not a table"
  | .interpreter fault => "interpreter error while marshalling: " ++ fault.message

/-- Why a script is not loaded. -/
inductive ModuleError where
  | unreadable (path : String) (cause : FileError)
  | fault (cause : Fault)
  deriving DecidableEq, Repr

/-- The wording of a failed load. -/
def ModuleError.message : ModuleError → String
  | .unreadable path cause =>
    "Error running script: cannot open " ++ path ++ ": " ++ cause.message
  | .fault cause => "Error running script: " ++ cause.message

/-- Why the bridge fails. -/
inductive BridgeError where
  | module (cause : ModuleError)
  /-- A call failed; `origin` is what was called. -/
  | call (origin : String) (fault : Fault)
  | stack (cause : StackError)
  | duplicateNative (name : String)
  | interpreter (fault : Fault)
  /-- A number of arguments so great that one more is none: the call comes to no end. -/
  | aborted (arguments : UInt64)
  deriving DecidableEq, Repr

namespace BridgeError

/-- The wording of a failure. -/
def message : BridgeError → String
  | .module cause => cause.message
  | .call origin fault => "script error in " ++ origin ++ ": " ++ fault.message
  | .stack cause => cause.message
  | .duplicateNative name => "native function '" ++ name ++ "' registered twice"
  | .interpreter fault => "interpreter error: " ++ fault.message
  | .aborted arguments => "call with " ++ toString arguments.toNat ++ " arguments"

/-- The fault of the script behind a failure. -/
def fault? : BridgeError → Option Fault
  | .call _ fault | .interpreter fault | .stack (.interpreter fault) => some fault
  | _ => none

/-- The texts of a failure and of the causes behind it, the outermost first. -/
def chain (e : BridgeError) : List String :=
  e.message :: (e.fault?.map Fault.message).toList

end BridgeError

/-! ### Computations of the host -/

/-- A computation on an interpreter. -/
abbrev Host := ExceptT BridgeError (StateM Interpreter)

namespace Host

/-- Fails for the stack. -/
def failStack {α : Type} (cause : StackError) : Host α := throw (.stack cause)

/-- Runs a computation that may fail, and gives its result or its failure. -/
def attempt {α : Type} (computation : Host α) : Host (Except BridgeError α) :=
  ExceptT.mk (do return .ok (← computation.run))

/-- Gives a result, or fails. -/
def deliver {α : Type} : Except BridgeError α → Host α
  | .ok a => return a
  | .error e => throw e

/-- Adds to what is reported. -/
def report (line : Line) : Host Unit := modify fun i => { i with lines := i.lines ++ [line] }

/-- Runs a computation of the script; a fault fails as `wrap` says. -/
def script {α : Type} (wrap : Fault → BridgeError) (computation : Script.Eval α) : Host α := do
  let i ← get
  let (result, machine) := Script.Eval.toHost computation i.contexts i.machine
  set { i with machine := machine }
  match result with
  | .ok a => return a
  | .error fault => throw (wrap fault)

end Host

namespace Interpreter

/-- An interpreter before any script, with a table of contexts of its own. -/
def new (limits : Limits) (contexts : Nat) : Interpreter :=
  ⟨Machine.initial, some (HandleTable.empty contexts), [], limits, []⟩

/-- How many contexts handles can reach. -/
def live (i : Interpreter) : Nat :=
  match i.contexts with
  | some table => table.live
  | none => 0

/-- Takes the table of contexts away: no handle works from then on, and none can be made. -/
def dropContexts (i : Interpreter) : Interpreter := { i with contexts := none }

/-- Runs a computation: its result, the interpreter after it, and what was reported. -/
def run {α : Type} (i : Interpreter) (computation : Host α) :
    Except BridgeError α × Interpreter × List Line :=
  let (result, after) := computation.run.run { i with lines := [] }
  (result, { after with lines := [] }, after.lines)

end Interpreter

end EventBridge
