import EventBridge.Decimal.Real64

/-! # Scripts

A script is a block of statements over expressions. There are no local names: a script has global
variables, and a function has the arguments of its call and those of the functions around it. Lists
of expressions, entries and statements are types of their own, so that a script is read and run by
recursion on its form.
-/

namespace EventBridge.Script

/-- What becomes of the results of a call. -/
inductive CallForm where
  /-- The first result. -/
  | first
  /-- A table of all results, with their number as `n`. -/
  | packed
  /-- A table as before, with whether the call went through in front. -/
  | guarded
  deriving DecidableEq, Repr

mutual

/-- An expression, which gives one value. -/
inductive Expr where
  | nil
  | boolean (value : Bool)
  | integer (value : Int64)
  | float (value : Real64)
  | string (bytes : ByteArray)
  /-- A global variable. -/
  | global (name : ByteArray)
  /-- An argument of the function around, the first being `1`. -/
  | argument (index : Nat)
  /-- An argument of a function further out, which is so many levels away. -/
  | outer (level index : Nat)
  /-- How many arguments the function around was given. -/
  | argumentCount
  /-- A field of a table. -/
  | field (table key : Expr)
  | call (form : CallForm) (callee : Expr) (arguments : Exprs)
  | function (body : Block)
  /-- A new table with entries, and its metatable unless that is nil. -/
  | table (entries : Entries) (metatable : Expr)
  | length (operand : Expr)
  | typeName (operand : Expr)
  /-- Whether a number is an integer or a float. -/
  | numberKind (operand : Expr)
  | equal (left right : Expr)
  | add (left right : Expr)
  | concat (parts : Exprs)
  | not (operand : Expr)
  /-- The string keys that a walk over a table visits, in order. -/
  | keys (operand : Expr)
  /-- A host object that is not a context handle. -/
  | stream
  | thread

/-- A list of expressions. -/
inductive Exprs where
  | nil
  | cons (head : Expr) (tail : Exprs)

/-- Entries of a table, by key and value. -/
inductive Entries where
  | nil
  | cons (key value : Expr) (tail : Entries)

/-- A statement. -/
inductive Stmt where
  /-- Sets a global variable. -/
  | setGlobal (name : ByteArray) (value : Expr)
  | setField (table key value : Expr)
  /-- Notes values as they are now. -/
  | record (values : Exprs)
  /-- Calls a function for its effect. -/
  | perform (callee : Expr) (arguments : Exprs)
  | return (values : Exprs)
  | raise (value : Expr)
  | cond (test : Expr) (thenBlock elseBlock : Block)

/-- A list of statements. -/
inductive Block where
  | nil
  | cons (head : Stmt) (tail : Block)

end

instance : Inhabited Expr := ⟨.nil⟩
instance : Inhabited Exprs := ⟨.nil⟩
instance : Inhabited Entries := ⟨.nil⟩
instance : Inhabited Block := ⟨.nil⟩
instance : Inhabited Stmt := ⟨.return .nil⟩

end EventBridge.Script
