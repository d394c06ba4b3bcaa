import EventBridge.Interpreter.Stack
import EventBridge.Script.Reader

/-! # Loading scripts

A script is run from its top when it is loaded. What it returns is left on the stack, and nothing is
left there if it fails.
-/

namespace EventBridge.Host

/-- What loading fails with. -/
def inModule (fault : Script.Fault) : BridgeError := .module (.fault fault)

/-- Runs the script of a text, and says how many values it left on the stack. -/
def loadSource (source : List UInt8) : Host Nat := do
  match Script.parse source with
  | none => throw (inModule .badSyntax)
  | some block =>
    let values ← script inModule (Script.runBlock block)
    modify fun i => { i with stack := i.stack ++ values }
    return values.length

/-- Runs the script in a file. -/
def loadModule (tree : FileTree) (path : String) : Host Nat := do
  report ⟨.debug, "bridge", "Loading module " ++ path⟩
  match tree.read path with
  | .error cause => throw (.module (.unreadable path cause))
  | .ok source =>
    let count ← loadSource source
    report ⟨.info, "bridge", "Loaded module " ++ path⟩
    return count

end EventBridge.Host

namespace EventBridge.Interpreter

/-- Runs the script of a text beside the stack: what it returns or how it fails, and the
interpreter after it. -/
def evaluate (i : Interpreter) (source : List UInt8) :
    Except Script.Fault (List Script.Value) × Interpreter :=
  match Script.parse source with
  | none => (.error .badSyntax, i)
  | some block =>
    let (result, machine) := Script.Eval.toHost (Script.runBlock block) i.contexts i.machine
    (result, { i with machine := machine })

end EventBridge.Interpreter
