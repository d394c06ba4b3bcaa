import EventBridge.Json.Reader
import EventBridge.Script.Numeral
import EventBridge.Script.Syntax
import EventBridge.Text.Utf8

/-! # Reading scripts

A script is written as a JSON array of statements; `parse` reads one. A statement is an array that
starts with its name. An expression is a literal, or an object whose member says what it is.

Blank text is the script that does nothing.
-/

namespace EventBridge.Script

/-- The bytes that hexadecimal digits stand for. -/
def bytesOfHex : List Char → Option (List UInt8)
  | [] => some []
  | a :: b :: rest => do
    let high ← Text.digit16? a
    let low ← Text.digit16? b
    return UInt8.ofNat (high * 16 + low) :: (← bytesOfHex rest)
  | [_] => none

/-- A number without fraction: an integer if 64 bits hold it, else a float. -/
def integerExpr (n : Int) : Expr :=
  if fits64 n then .integer (Int64.ofInt n)
  else .float (Real64.ofFloat (Float.ofInt n))

/-- The names of what is no finite number; they are read as global variables. -/
def specialName (text : String) : Option String :=
  let name := if text.toList.head? = some '-' then (text.drop 1).toString else text
  match name.map Char.toLower with
  | "inf" | "infinity" => some "inf"
  | "nan" => some "NaN"
  | _ => none

/-- A float by its text. -/
def floatExpr (text : String) : Option Expr :=
  match specialName text with
  | some name => some (.global name.toUTF8)
  | none => do
    let negative := text.toList.head? = some '-'
    let x := match ← numberOf? text.toUTF8 with
      | .integer 0 => Real64.ofDecimal negative 0 0
      | value => value.toReal
    if x.decode = .infinite then return .global "inf".toUTF8 else return .float x

mutual

/-- An expression, with so many levels left. -/
def readExpr : Nat → Json → Option Expr
  | 0, _ => none
  | depth + 1, json =>
    match json with
    | .null => some .nil
    | .bool b => some (.boolean b)
    | .number (.natural n) => some (integerExpr n)
    | .number (.negative n) => some (integerExpr (-(n : Int)))
    | .number (.real x) => some (.float x)
    | .string s => some (.string s.toUTF8)
    | .array _ => none
    | .object members => readForm depth members

/-- An expression by the members of its object. -/
def readForm : Nat → List (String × Json) → Option Expr
  | 0, _ => none
  | depth + 1, members =>
    match members with
    | [("hex", .string digits)] => do
      let bytes ← bytesOfHex digits.toList
      return .string ⟨bytes.toArray⟩
    | [("num", .string text)] => floatExpr text
    | [("g", .string name)] => some (.global name.toUTF8)
    | [("a", .number (.natural n))] => some (.argument n)
    | [("up", .array [.number (.natural level), .number (.natural n)])] => some (.outer level n)
    | [("nargs", _)] => some .argumentCount
    | [("get", .array [table, key])] => do
      return .field (← readExpr depth table) (← readExpr depth key)
    | [("call", .array (callee :: args))] => do
      return .call .first (← readExpr depth callee) (← readExprs depth args)
    | [("pack", .array (callee :: args))] => do
      return .call .packed (← readExpr depth callee) (← readExprs depth args)
    | [("try", .array (callee :: args))] => do
      return .call .guarded (← readExpr depth callee) (← readExprs depth args)
    | [("fn", .array body)] => do return .function (← readBlock depth body)
    | [("new", .array entries)] => do return .table (← readEntries depth entries) .nil
    | [("new", .array entries), ("meta", other)] | [("meta", other), ("new", .array entries)] => do
      return .table (← readEntries depth entries) (← readExpr depth other)
    | [("len", operand)] => do return .length (← readExpr depth operand)
    | [("type", operand)] => do return .typeName (← readExpr depth operand)
    | [("mtype", operand)] => do return .numberKind (← readExpr depth operand)
    | [("eq", .array [left, right])] => do
      return .equal (← readExpr depth left) (← readExpr depth right)
    | [("add", .array [left, right])] => do
      return .add (← readExpr depth left) (← readExpr depth right)
    | [("cat", .array parts)] => do return .concat (← readExprs depth parts)
    | [("not", operand)] => do return .not (← readExpr depth operand)
    | [("keys", operand)] => do return .keys (← readExpr depth operand)
    | [("foreign", .string "userdata")] => some .stream
    | [("foreign", .string "thread")] => some .thread
    | _ => none

/-- Expressions. -/
def readExprs : Nat → List Json → Option Exprs
  | 0, _ => none
  | _ + 1, [] => some .nil
  | depth + 1, head :: tail => do
    return .cons (← readExpr depth head) (← readExprs depth tail)

/-- Entries of a table, each an array of key and value. -/
def readEntries : Nat → List Json → Option Entries
  | 0, _ => none
  | _ + 1, [] => some .nil
  | depth + 1, .array [key, value] :: tail => do
    return .cons (← readExpr depth key) (← readExpr depth value) (← readEntries depth tail)
  | _, _ => none

/-- A statement. -/
def readStmt : Nat → Json → Option Stmt
  | 0, _ => none
  | depth + 1, json =>
    match json with
    | .array (.string "set" :: [.string name, value]) => do
      return .setGlobal name.toUTF8 (← readExpr depth value)
    | .array (.string "put" :: [table, key, value]) => do
      return .setField (← readExpr depth table) (← readExpr depth key) (← readExpr depth value)
    | .array (.string "rec" :: values) => do return .record (← readExprs depth values)
    | .array (.string "do" :: callee :: args) => do
      return .perform (← readExpr depth callee) (← readExprs depth args)
    | .array (.string "ret" :: values) => do return .return (← readExprs depth values)
    | .array [.string "err", value] => do return .raise (← readExpr depth value)
    | .array [.string "if", test, .array thenBlock] => do
      return .cond (← readExpr depth test) (← readBlock depth thenBlock) .nil
    | .array [.string "if", test, .array thenBlock, .array elseBlock] => do
      return .cond (← readExpr depth test) (← readBlock depth thenBlock)
        (← readBlock depth elseBlock)
    | _ => none

/-- Statements. -/
def readBlock : Nat → List Json → Option Block
  | 0, _ => none
  | _ + 1, [] => some .nil
  | depth + 1, head :: tail => do
    return .cons (← readStmt depth head) (← readBlock depth tail)

end

mutual

/-- The number of values in a JSON value, which bounds the levels of a script. -/
def sizeOfJson : Json → Nat
  | .array items => sizeOfItems items + 1
  | .object members => sizeOfMembers members + 1
  | _ => 1

/-- The number of values in items. -/
def sizeOfItems : List Json → Nat
  | [] => 0
  | item :: rest => sizeOfJson item + sizeOfItems rest

/-- The number of values in members. -/
def sizeOfMembers : List (String × Json) → Nat
  | [] => 0
  | (_, value) :: rest => sizeOfJson value + sizeOfMembers rest

end

/-- The script that a JSON value is. -/
def ofJson (json : Json) : Option Block :=
  match json with
  | .array statements => readBlock (3 * sizeOfJson json + 3) statements
  | _ => none

/-- The script that a text is. -/
def parse (source : List UInt8) : Option Block := do
  let text ← Text.Utf8.decode? source
  if (Json.skipGaps text.toList).isEmpty then return .nil
  else ofJson (← (Json.parse text).toOption)

end EventBridge.Script
