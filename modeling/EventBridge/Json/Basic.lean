import EventBridge.Decimal.Form

/-! # JSON values

A JSON document as a value. Members of an object keep their order, and a name may occur in it more
than once: what that means is for the reader of the document to say.

* A number without fraction and exponent is `natural` or `negative` as long as it fits 64 bits;
  every other number is a double, `-0` among them.
-/

namespace EventBridge

/-- A number of a JSON document. -/
inductive Json.Number where
  /-- A number below `2 ^ 64`. -/
  | natural (value : Nat)
  /-- The number `-value`, for a positive value up to `2 ^ 63`. -/
  | negative (value : Nat)
  | real (value : Real64)
  deriving DecidableEq, Repr

/-- A JSON value. -/
inductive Json where
  | null
  | bool (value : Bool)
  | number (value : Json.Number)
  | string (value : String)
  | array (items : List Json)
  | object (members : List (String × Json))
  deriving Repr, Inhabited

namespace Json

/-- A natural number, of 64 bits at most. -/
def ofNat (n : Nat) : Json := .number (.natural n)

/-- An integer, of 64 bits at most. -/
def ofInt (n : Int) : Json :=
  if n < 0 then .number (.negative n.natAbs) else .number (.natural n.toNat)

/-- The value of the first member of a name. -/
def member? (name : String) : Json → Option Json
  | .object members => (members.find? fun m => m.1 == name).map (·.2)
  | _ => none

end Json

end EventBridge
