import EventBridge.Toml.Basic
import EventBridge.Text.Digits

/-! # Blanks, comments and strings

The readers of the parts of a document that are below its keys and values. Each takes its part off
the front and returns what is left, or says how many characters were left where the text went wrong.

* A line ends with a line feed, or with a carriage return and a line feed.
* Comments and strings hold no control characters but the tab.
* A string over several lines is closed by three quotes; up to two more before them belong to it.
-/

namespace EventBridge.Toml

open Text (digit16? spanDigits ofDigits)

/-- A complaint about the place where these characters are left. -/
def complain {α : Type} (left : List Char) (message : String) : Except SyntaxError α :=
  .error ⟨left.length, message⟩

/-! ### Blanks and comments -/

/-- Blank characters inside a line. -/
def isSpace (c : Char) : Bool := c == ' ' || c == '\t'

/-- The characters behind the blanks at the front. -/
def skipSpaces (cs : List Char) : List Char := cs.dropWhile isSpace

/-- The characters behind the end of a line. -/
def newline? : List Char → Option (List Char)
  | '\n' :: rest => some rest
  | '\r' :: '\n' :: rest => some rest
  | _ => none

/-- Whether a character may stand in a comment. -/
def inComment (c : Char) : Bool := c == '\t' || (' ' ≤ c && c != '\x7f')

/-- The end of a line: blanks, a comment, and the line break or the end of the text. -/
def lineRest (cs : List Char) : Except SyntaxError (List Char) :=
  let blank := skipSpaces cs
  let rest := match blank with
    | '#' :: comment => comment.dropWhile inComment
    | _ => blank
  match rest with
  | [] => .ok []
  | _ => match newline? rest with
    | some next => .ok next
    | none => complain rest "expected newline, `#`"

/-- Blanks, line breaks and comments, as they may stand between the items of an array. -/
def skipLines : Nat → List Char → Except SyntaxError (List Char)
  | 0, cs => .ok cs
  | fuel + 1, cs =>
    match skipSpaces cs with
    | '#' :: comment => do
      let next ← lineRest ('#' :: comment)
      skipLines fuel next
    | rest => match newline? rest with
      | some next => skipLines fuel next
      | none => .ok rest

/-! ### Strings -/

/-- Whether a character stands for itself in a string. -/
def inString (c : Char) : Bool := c == '\t' || (' ' ≤ c && c != '\x7f')

/-- The character of so many hexadecimal digits. -/
def codePoint? (count : Nat) (cs : List Char) : Option (Char × List Char) :=
  let (digits, _) := spanDigits digit16? (cs.take count)
  let value := ofDigits 16 digits
  if digits.length = count ∧ value.isValidChar then some (Char.ofNat value, cs.drop count)
  else none

/-- The character behind a backslash. -/
def escaped? : List Char → Option (Char × List Char)
  | 'b' :: rest => some ('\x08', rest)
  | 't' :: rest => some ('\t', rest)
  | 'n' :: rest => some ('\n', rest)
  | 'f' :: rest => some ('\x0c', rest)
  | 'r' :: rest => some ('\r', rest)
  | '\x22' :: rest => some ('\x22', rest)
  | '\\' :: rest => some ('\\', rest)
  | 'u' :: rest => codePoint? 4 rest
  | 'U' :: rest => codePoint? 8 rest
  | _ => none

/-- A wrong escape. -/
def badEscape {α : Type} (left : List Char) : Except SyntaxError α :=
  complain left "invalid escape sequence\nexpected `b`, `f`, `n`, `r`, `t`, `u`, `U`, `\\`, `\"`"

/-- A kind of string by what it takes literally. -/
structure Style where
  quote : Char
  /-- Whether a backslash escapes. -/
  escapes : Bool
  label : String

/-- Strings between double quotes, in which a backslash escapes. -/
def basic : Style := ⟨'\x22', true, "basic string"⟩

/-- Strings between single quotes, which take everything literally. -/
def literal : Style := ⟨'\'', false, "literal string"⟩

/-- What follows the opening quote of a string on one line. -/
def lineString (style : Style) : Nat → List Char → Except SyntaxError (List Char × List Char)
  | 0, cs => complain cs ("invalid " ++ style.label)
  | fuel + 1, cs =>
    match cs with
    | [] => complain cs ("invalid " ++ style.label)
    | c :: rest =>
      if c = style.quote then .ok ([], rest)
      else if style.escapes && c == '\\' then
        match escaped? rest with
        | none => badEscape rest
        | some (d, rest) => do
          let (ds, rest) ← lineString style fuel rest
          return (d :: ds, rest)
      else if inString c then do
        let (ds, rest) ← lineString style fuel rest
        return (c :: ds, rest)
      else complain cs ("invalid " ++ style.label)

/-- The characters behind blanks and line breaks. A carriage return alone is no line break. -/
def skipBreaks : List Char → List Char
  | '\r' :: '\n' :: rest => skipBreaks rest
  | c :: rest => if isSpace c || c == '\n' then skipBreaks rest else c :: rest
  | [] => []

/-- The characters behind a line break that a backslash hides, with all blanks before the next
text. -/
def hiddenBreak? (cs : List Char) : Option (List Char) :=
  (newline? (skipSpaces cs)).map skipBreaks

/-- What follows the opening quotes of a string over several lines. -/
def blockString (style : Style) : Nat → List Char → Except SyntaxError (List Char × List Char)
  | 0, cs => complain cs ("invalid multiline " ++ style.label)
  | fuel + 1, cs =>
    let quotes := (cs.takeWhile (· == style.quote)).length
    -- Quotes beyond the closing three belong to the string, as far as two go.
    if 3 ≤ quotes then
      let kept := min (quotes - 3) 2
      .ok (List.replicate kept style.quote, cs.drop (kept + 3))
    else match cs with
      | [] => complain cs ("invalid multiline " ++ style.label)
      | c :: rest =>
        if style.escapes && c == '\\' then
          match hiddenBreak? rest with
          | some rest => blockString style fuel rest
          | none =>
            match escaped? rest with
            | none => badEscape rest
            | some (d, rest) => do
              let (ds, rest) ← blockString style fuel rest
              return (d :: ds, rest)
        else if inString c then do
          let (ds, rest) ← blockString style fuel rest
          return (c :: ds, rest)
        else match newline? cs with
          | some rest => do
            let (ds, rest) ← blockString style fuel rest
            return ('\n' :: ds, rest)
          | none => complain cs ("invalid multiline " ++ style.label)

/-- A string of a style behind its first quote. -/
def styledString (style : Style) (cs : List Char) : Except SyntaxError (String × List Char) := do
  let (chars, rest) ← match cs with
    | c :: d :: rest =>
      if c = style.quote ∧ d = style.quote then
        blockString style (rest.length + 1) ((newline? rest).getD rest)
      else lineString style (cs.length + 1) cs
    | _ => lineString style (cs.length + 1) cs
  return (String.ofList chars, rest)

end EventBridge.Toml
