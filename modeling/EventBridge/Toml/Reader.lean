import EventBridge.Toml.Build
import EventBridge.Toml.Scalar
import EventBridge.Toml.Text

/-! # Reading TOML

`Toml.parse` reads a document line by line: a line adds an entry to the table that is open, or
closes that table and opens another. What a place in the document may be given is decided in
`Toml.Build`.

* Arrays and tables between braces nest below a limit, and so do the parts of a key.
* An array may go over several lines and end in a comma; a table between braces may not.
-/

namespace EventBridge.Toml

/-! ### Keys -/

/-- Whether a character may stand in a key without quotes. -/
def inKey (c : Char) : Bool :=
  ('a' ≤ c && c ≤ 'z') || ('A' ≤ c && c ≤ 'Z') || ('0' ≤ c && c ≤ '9') || c == '-' ||
    c == '_'

/-- One part of a key. -/
def simpleKey (cs : List Char) : Except SyntaxError (Key × List Char) :=
  let spanned (name : String) (rest : List Char) : Key × List Char :=
    (⟨name, cs.length, rest.length⟩, rest)
  match cs with
  | '\x22' :: rest => do
    let (chars, rest) ← lineString basic (rest.length + 1) rest
    return spanned (String.ofList chars) rest
  | '\'' :: rest => do
    let (chars, rest) ← lineString literal (rest.length + 1) rest
    return spanned (String.ofList chars) rest
  | _ =>
    match cs.span inKey with
    | ([], _) => complain cs "invalid key"
    | (name, rest) => .ok (spanned (String.ofList name) rest)

/-- Levels of arrays, tables and key parts are fewer than this. -/
def depthLimit : Nat := 80

/-- The parts of a key, with the points between them; blanks may stand around each. -/
def keyParts : Nat → List Char → Except SyntaxError (List Key × List Char)
  | 0, cs => complain cs "recursion limit exceeded"
  | depth + 1, cs => do
    let (key, rest) ← simpleKey (skipSpaces cs)
    match skipSpaces rest with
    | '.' :: rest => do
      let (keys, rest) ← keyParts depth rest
      return (key :: keys, rest)
    | rest => return ([key], rest)

/-- A key: the way to its table, and the name there. -/
def readKey (cs : List Char) : Except SyntaxError (List Key × Key × List Char) := do
  let (keys, rest) ← keyParts (depthLimit - 1) cs
  match splitPath keys with
  | (path, some key) => return (path, key, rest)
  | (_, none) => complain cs "invalid key"

/-! ### Values -/

/-- A given word at the front. -/
def word? (letters : String) (cs : List Char) : Option (List Char) :=
  if letters.toList.isPrefixOf cs then some (cs.drop letters.length) else none

/-- A value that starts with a digit or a sign. -/
def numeric (cs : List Char) : Except SyntaxError (Value × List Char) :=
  let span (rest : List Char) : Span := ⟨cs.length, rest.length⟩
  match dateTime? cs with
  | some rest => .ok (.datetime (span rest), rest)
  | none =>
    match float cs with
    | some (x, rest) => .ok (.float (span rest) x, rest)
    | none =>
      match integer cs with
      | some (n, rest) => .ok (.integer (span rest) n, rest)
      | none => complain cs "invalid number"

/-- A value that does not hold others. -/
def scalar (cs : List Char) : Except SyntaxError (Value × List Char) :=
  let span (rest : List Char) : Span := ⟨cs.length, rest.length⟩
  match cs with
  | '\x22' :: rest => do
    let (text, rest) ← styledString basic rest
    return (.string (span rest) text, rest)
  | '\'' :: rest => do
    let (text, rest) ← styledString literal rest
    return (.string (span rest) text, rest)
  | 't' :: _ =>
    match word? "true" cs with
    | some rest => .ok (.boolean (span rest) true, rest)
    | none => complain cs ""
  | 'f' :: _ =>
    match word? "false" cs with
    | some rest => .ok (.boolean (span rest) false, rest)
    | none => complain cs ""
  | 'i' :: _ | 'n' :: _ =>
    match special false cs with
    | some (x, rest) => .ok (.float (span rest) x, rest)
    | none => complain cs ""
  | c :: _ =>
    if c = '+' ∨ c = '-' ∨ (Text.digit10? c).isSome then numeric cs
    else if c = '_' ∨ c = '.' then complain cs "expected leading digit"
    else complain cs "invalid string\nexpected `\"`, `'`"
  | [] => complain cs "invalid string\nexpected `\"`, `'`"

/-- The items of an array, from behind its bracket or a comma on. `fuel` bounds their number. -/
def items (value : List Char → Except SyntaxError (Value × List Char)) :
    Nat → List Char → Except SyntaxError (List Value × List Char)
  | 0, cs => complain cs "invalid array\nexpected `]`"
  | fuel + 1, cs => do
    match ← skipLines cs.length cs with
    | ']' :: rest => return ([], rest)
    | cs =>
      let (first, cs) ← value cs
      match ← skipLines cs.length cs with
      | ',' :: rest => do
        let (others, rest) ← items value fuel rest
        return (first :: others, rest)
      | ']' :: rest => return ([first], rest)
      | rest => complain rest "invalid array\nexpected `]`"

/-- The sign between key and value. -/
def equals (cs : List Char) : Except SyntaxError (List Char) :=
  match cs with
  | '=' :: rest => .ok rest
  | _ => complain cs "expected `.`, `=`"

/-- The entries of a table between braces, from behind its brace or a comma on. -/
def pairs (value : List Char → Except SyntaxError (Value × List Char)) :
    Nat → Entries → List Char → Except SyntaxError (Entries × List Char)
  | 0, _, cs => complain cs "invalid inline table\nexpected `\x7d`"
  | fuel + 1, entries, cs => do
    let (path, key, cs') ← readKey cs
    let cs' ← equals cs'
    let (found, rest) ← value (skipSpaces cs')
    let entries ← match addKey none path key found entries with
      | .ok entries => pure entries
      | .error conflict => complain cs conflict.message
    match skipSpaces rest with
    | ',' :: rest => pairs value fuel entries rest
    | '\x7d' :: rest => return (entries, rest)
    | rest => complain rest "invalid inline table\nexpected `\x7d`"

/-- A value, under `depth` further levels of arrays and tables. -/
def readValue : Nat → List Char → Except SyntaxError (Value × List Char)
  | depth, '[' :: rest =>
    match depth with
    | 0 => complain ('[' :: rest) "recursion limit exceeded"
    | depth + 1 => do
      let (found, after) ← items (readValue depth) (rest.length + 1) rest
      return (.array ⟨rest.length + 1, after.length⟩ found, after)
  | depth, '\x7b' :: rest =>
    match depth with
    | 0 => complain ('\x7b' :: rest) "recursion limit exceeded"
    | depth + 1 =>
      match skipSpaces rest with
      | '\x7d' :: after => .ok (.table (some ⟨rest.length + 1, after.length⟩) .inline [], after)
      | _ => do
        let (found, after) ← pairs (readValue depth) (rest.length + 1) [] rest
        return (.table (some ⟨rest.length + 1, after.length⟩) .inline found, after)
  | _, cs => scalar cs

/-! ### Documents -/

/-- A complaint about what a line would do to the document. -/
def placed {α : Type} (line : List Char) (label : String) (result : Except Conflict α) :
    Except SyntaxError α :=
  match result with
  | .ok a => .ok a
  | .error conflict => complain line (label ++ conflict.message)

/-- A line with a key and a value. -/
def entryLine (draft : Draft) (cs : List Char) : Except SyntaxError (Draft × List Char) := do
  let (path, key, rest) ← readKey cs
  let rest ← equals rest
  let (value, rest) ← readValue (depthLimit - 1) (skipSpaces rest)
  let rest ← lineRest rest
  let draft ← placed cs "" (draft.add path key value)
  return (draft, rest)

/-- What complaints about a header start with. -/
def headerLabel : String := "invalid table header\n"

/-- A line with a header. -/
def headerLine (draft : Draft) (cs : List Char) : Except SyntaxError (Draft × List Char) := do
  let (listed, inner) := match cs with
    | '[' :: '[' :: rest => (true, rest)
    | _ => (false, cs.drop 1)
  let (path, rest) ← keyParts (depthLimit - 1) inner
  let rest ← match listed, rest with
    | true, ']' :: ']' :: rest => pure rest
    | false, ']' :: rest => pure rest
    | true, rest => complain rest (headerLabel ++ "expected `.`, `]]`")
    | false, rest => complain rest (headerLabel ++ "expected `.`, `]`")
  let span : Span := ⟨cs.length, rest.length⟩
  let rest ← match lineRest rest with
    | .ok rest => pure rest
    | .error e => .error { e with message := headerLabel ++ e.message }
  let draft ← placed cs headerLabel (draft.begin path listed span)
  return (draft, rest)

/-- The lines of a document. `fuel` bounds their number. -/
def readLines : Nat → Draft → List Char → Except SyntaxError Draft
  | 0, draft, _ => .ok draft
  | fuel + 1, draft, cs =>
    match skipSpaces cs with
    | [] => .ok draft
    | '#' :: rest => do
      let rest ← lineRest ('#' :: rest)
      readLines fuel draft rest
    | '[' :: rest => do
      let (draft, rest) ← headerLine draft ('[' :: rest)
      readLines fuel draft rest
    | rest =>
      match newline? rest with
      | some rest => readLines fuel draft rest
      | none => do
        let (draft, rest) ← entryLine draft rest
        readLines fuel draft rest

/-- The byte order mark, which may stand in front of a document. -/
def byteOrderMark : Char := Char.ofNat 0xFEFF

/-- The table that a document is. -/
def parse (text : String) : Except SyntaxError Value := do
  let cs := text.toList
  let whole := cs.length
  let body := match cs with
    | c :: rest => if c = byteOrderMark then rest else cs
    | [] => cs
  let empty : Draft := ⟨[], ⟨whole, whole⟩, ⟨[], false, ⟨whole, whole⟩, []⟩⟩
  let draft ← readLines (whole + 1) empty body
  let (entries, span) ← placed [] headerLabel draft.close
  return .table (some span) .explicit entries

end EventBridge.Toml
