import EventBridge.Decimal.Real64

/-! # TOML values

A TOML document as a value. Every value knows where it stands in the text, so that a complaint about
it can point there; a place is given by how many characters are left from it on.

* A table remembers how it came about, because that decides whether later lines may add to it.
* The entries of a table keep the order of the document; each key occurs once.
-/

namespace EventBridge.Toml

/-- A stretch of the text, by how many characters are left at its ends. -/
structure Span where
  start : Nat
  stop : Nat
  deriving DecidableEq, Repr

/-- A key and where it stands. -/
structure Key where
  name : String
  span : Span
  deriving DecidableEq, Repr

/-- How a table came about. -/
inductive Origin where
  /-- By a header of its own. -/
  | explicit
  /-- Between braces. -/
  | inline
  /-- As a part of the way to another table's header. -/
  | implied
  /-- By a dotted key. -/
  | dotted
  deriving DecidableEq, Repr

/-- A value of a document. -/
inductive Value where
  | string (span : Span) (value : String)
  | integer (span : Span) (value : Int)
  | float (span : Span) (value : Real64)
  | boolean (span : Span) (value : Bool)
  /-- A date, a time or both; nothing reads what it says. -/
  | datetime (span : Span)
  | array (span : Span) (items : List Value)
  /-- Tables under a header in double brackets. -/
  | tables (span : Option Span) (items : List Value)
  | table (span : Option Span) (origin : Origin) (entries : List (Key × Value))
  deriving Repr, Inhabited

/-- The entries of a table. -/
abbrev Entries := List (Key × Value)

/-- Where a value stands, if it stands in one place. -/
def Value.span? : Value → Option Span
  | .string span _ | .integer span _ | .float span _ | .boolean span _ | .datetime span
  | .array span _ => some span
  | .tables span _ | .table span _ _ => span

/-- What diagnostics call the type of a value. -/
def Value.typeName : Value → String
  | .string .. => "string"
  | .integer .. => "integer"
  | .float .. => "float"
  | .boolean .. => "boolean"
  | .datetime .. => "datetime"
  | .array .. => "array"
  | .tables .. => "array of tables"
  | .table _ .inline _ => "inline table"
  | .table .. => "table"

/-- The value of a key. -/
def Entries.get? (entries : Entries) (name : String) : Option Value :=
  (entries.find? fun entry => entry.1.name == name).map (·.2)

/-- Why a text is no TOML, and how many characters are left where that shows. -/
structure SyntaxError where
  left : Nat
  message : String
  deriving DecidableEq, Repr

end EventBridge.Toml
