import EventBridge.Decimal.Form
import EventBridge.Engine.Basic
import EventBridge.Handle.Table
import EventBridge.Script.Syntax
import EventBridge.Text.Utf8

/-! # Script values

The values that scripts compute with. Tables, functions and the host's objects are known by number,
so that two values are the same object exactly if they are equal as data.

* `Value.kind` is the name of a type in messages to the host, `Value.typeName` the coarser one that
  scripts see, and `Value.objectName` the one in what is raised.
* `Value.same` is equality as scripts have it: an integer equals the float of the same value.
-/

namespace EventBridge.Script

/-- Why a function of the bridge refuses. -/
inductive Refusal where
  /-- It was not given a context handle in use. -/
  | misuse (cause : Misuse)
  /-- The engine has no answer. -/
  | engine (cause : Engine.Failure)
  /-- A table of native functions, bound to this name, is not for writing. -/
  | readOnly (namespaceName : String)
  deriving DecidableEq, Repr

/-- The text of a refusal. -/
def Refusal.message : Refusal → String
  | .misuse cause => cause.message
  | .engine cause => cause.message
  | .readOnly name => "runtime error: native function table '" ++ name ++ "' is read-only"

/-- The misuse behind a refusal. -/
def Refusal.misuse? : Refusal → Option Misuse
  | .misuse cause => some cause
  | _ => none

/-- Strings are compared byte by byte. -/
instance instDecidableEqBytes : DecidableEq ByteArray := fun a b =>
  decidable_of_iff (a.data = b.data) ⟨fun h => ByteArray.ext h, fun h => h ▸ rfl⟩

/-- A value of a script. -/
inductive Value where
  | nil
  | boolean (value : Bool)
  | integer (value : Int64)
  | float (value : Real64)
  | string (bytes : ByteArray)
  | table (id : Nat)
  | function (id : Nat)
  | thread (id : Nat)
  /-- A context handle; each time one is passed to a script it is an object of its own. -/
  | handle (id : Nat) (handle : Handle)
  /-- A host object that is not a context handle. -/
  | stream
  /-- What a refusal raises. -/
  | failure (id : Nat) (cause : Refusal)
  deriving DecidableEq

instance : Inhabited Value := ⟨.nil⟩

namespace Value

/-- A string value of a text. -/
def ofText (text : String) : Value := .string text.toUTF8

/-- Texts are told apart by their bytes. -/
theorem ofText_inj {a b : String} (h : ofText a = ofText b) : a = b :=
  String.toByteArray_inj.1 (string.inj h)

/-- The name of a type in messages to the host. -/
def kind : Value → String
  | .nil => "nil"
  | .boolean _ => "boolean"
  | .integer _ => "integer"
  | .float _ => "number"
  | .string _ => "string"
  | .table _ => "table"
  | .function _ => "function"
  | .thread _ => "thread"
  | .handle .. | .stream => "userdata"
  | .failure .. => "error"

/-- The name of a type as scripts see it. -/
def typeName : Value → String
  | .integer _ => "number"
  | .failure .. => "userdata"
  | value => value.kind

/-- The name of an object in messages to a script: that of a type, and for what belongs to the host
the name that the host gives it. -/
def objectName : Value → String
  | .handle .. => "ContextHandle"
  | .stream => "FILE*"
  | value => value.typeName

/-- Everything but nil and false counts as true. -/
def isTrue : Value → Bool
  | .nil | .boolean false => false
  | _ => true

/-- The key under which a value finds its entry: a float that is a whole number counts as that
number. -/
def key : Value → Value
  | .float x =>
    match x.toInteger? with
    | some n => .integer n
    | none => .float x
  | value => value

/-- Equality as scripts have it. No number is equal to what is no number, and the two zeros are
equal. -/
def same (a b : Value) : Bool :=
  match a.key, b.key with
  | .float x, .float y => x.toFloat == y.toFloat
  | x, y => x == y

end Value

end EventBridge.Script
