import EventBridge.Script.Eval

/-! # What a script's failure is to the host

A value that a script raises and nobody catches becomes a fault. A refusal of the bridge keeps its
identity however often it was caught and raised again; any other value is known by its text.
-/

namespace EventBridge.Script

/-- A refusal as it is passed on through the interpreter, in layers. -/
inductive Layered where
  | bare (cause : Refusal)
  /-- It has come out of a function of the bridge. -/
  | callback (below : Layered)
  /-- Something has been said about it. -/
  | context (text : String) (below : Layered)

/-- The misuse below all layers. -/
def Layered.misuse? : Layered → Option Misuse
  | .bare cause => cause.misuse?
  | .callback below | .context _ below => below.misuse?

/-- Why a computation of a script failed, as the host sees it. -/
inductive Fault where
  /-- The text is no script. -/
  | badSyntax
  /-- A value was raised, with this text; `traced` if it came out of running code. -/
  | raised (text : String) (traced : Bool)
  | refused (cause : Refusal)
  /-- A value of a kind was found where another kind was needed. -/
  | conversion (found wanted : String)
  deriving DecidableEq, Repr

namespace Fault

/-- What the text of a fault from running code ends with. -/
def trace : String := "\nstack traceback:\n\t[C]: in ?"

/-- The text of a fault. -/
def message : Fault → String
  | .badSyntax => "syntax error"
  | .raised text traced => "runtime error: " ++ text ++ (if traced then trace else "")
  | .refused cause => cause.message ++ trace
  | .conversion found wanted => "error converting Lua " ++ found ++ " to " ++ wanted

/-- The misuse behind a fault. A refusal has come out of one function of the bridge, whatever the
script has done with it since. -/
def misuse? : Fault → Option Misuse
  | .refused cause => (Layered.callback (.bare cause)).misuse?
  | _ => none

end Fault

/-- The text of a value whose metatable is left aside. -/
def plainText (value : Value) : ByteArray :=
  match value with
  | .boolean b => (toString b).toUTF8
  | .failure _ cause => cause.message.toUTF8
  | other => other.chunk?.getD other.objectName.toUTF8

/-- Runs a computation with the contexts there are: its result or what it raises, and the machine
after it. -/
def Eval.start {α : Type} (computation : Eval α) (contexts : Contexts) (m : Machine) :
    Except Value α × Machine :=
  ((computation.run contexts).run).run m

/-- Values that finding a text raises, one after the other, are at most so many. -/
def faultLimit : Nat := 100

/-- The fault that a raised value is, and the machine after finding that out. Where a metatable says
how to find the text and that raises again, what it raises takes the place of the value. -/
def faultOf (contexts : Contexts) : Nat → Value → Machine → Fault × Machine
  | _, .failure _ cause, m => (.refused cause, m)
  | 0, value, m => (.raised (Text.Utf8.decodeLossy (plainText value).data.toList) true, m)
  | limit + 1, value, m =>
    match Eval.start (display call value) contexts m with
    | (.ok bytes, m) => (.raised (Text.Utf8.decodeLossy bytes.data.toList) true, m)
    | (.error other, m) => faultOf contexts limit other m

/-- Runs a computation for the host. -/
def Eval.toHost {α : Type} (computation : Eval α) (contexts : Contexts) (m : Machine) :
    Except Fault α × Machine :=
  match Eval.start computation contexts m with
  | (.ok result, m) => (.ok result, m)
  | (.error raised, m) =>
    let (fault, m) := faultOf contexts faultLimit raised m
    (.error fault, m)

end EventBridge.Script
