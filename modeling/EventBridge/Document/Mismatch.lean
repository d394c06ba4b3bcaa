import EventBridge.Text.Quoted

/-! # What a document has instead of what is asked for

A trace line and a configuration are read in two steps: the document becomes a value, and the value
is matched with the fields that are asked for. A `Mismatch` is what can be wrong in the second step,
the same for both kinds of document.
-/

namespace EventBridge.Document

/-- A value of a document, as far as a message shows it. -/
inductive Found where
  | null
  | boolean (value : Bool)
  | integer (value : Int)
  /-- A double, by the text that the kind of document gives it. -/
  | floating (text : String)
  | string (value : String)
  | sequence
  | map
  deriving DecidableEq, Repr

/-- Why a document does not have the fields that are asked for. -/
inductive Mismatch where
  | missingField (name : String)
  | duplicateField (name : String)
  /-- The name of a case that is none of the known ones. -/
  | unknownVariant (name : String) (known : List String)
  | invalidType (found : Found) (expected : String)
  /-- The type is right, the value is out of its range. -/
  | invalidValue (found : Found) (expected : String)
  | invalidLength (length : Nat) (expected : String)
  | invalidAddress
  | invalidEndpoint
  deriving DecidableEq, Repr

/-- A name as messages show it. -/
def named (name : String) : String := "`" ++ name ++ "`"

/-- A value as messages show it. -/
def Found.text : Found → String
  | .null => "null"
  | .boolean value => "boolean " ++ named (toString value)
  | .integer value => "integer " ++ named (toString value)
  | .floating text => "floating point " ++ named text
  | .string value => "string " ++ Text.quoted value
  | .sequence => "sequence"
  | .map => "map"

/-- The known cases, as the end of a message. -/
def alternatives : List String → String
  | [] => "there are no variants"
  | [one] => "expected " ++ named one
  | [one, other] => "expected " ++ named one ++ " or " ++ named other
  | many => "expected one of " ++ ", ".intercalate (many.map named)

/-- The wording of a diagnostic. -/
def Mismatch.message : Mismatch → String
  | .missingField name => "missing field " ++ named name
  | .duplicateField name => "duplicate field " ++ named name
  | .unknownVariant name known => "unknown variant " ++ named name ++ ", " ++ alternatives known
  | .invalidType found expected => "invalid type: " ++ found.text ++ ", expected " ++ expected
  | .invalidValue found expected => "invalid value: " ++ found.text ++ ", expected " ++ expected
  | .invalidLength length expected =>
    "invalid length " ++ toString length ++ ", expected " ++ expected
  | .invalidAddress => "invalid IP address syntax"
  | .invalidEndpoint => "invalid socket address syntax"

/-- A count of elements in words. -/
def elements (n : Nat) : String :=
  if n = 1 then "1 element" else toString n ++ " elements"

end EventBridge.Document
