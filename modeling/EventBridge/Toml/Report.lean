import EventBridge.Toml.Reader

/-! # Complaints about a document

A complaint is a message with a stretch of the text. Its report names line and column, shows the
line, and underlines the stretch as far as a line of that length could hold it.
-/

namespace EventBridge.Toml

/-- What is wrong with a document, and where if that is known. -/
structure Complaint where
  span : Option Span
  message : String
  deriving DecidableEq, Repr

/-- A syntax error points at one character. -/
def SyntaxError.complaint (e : SyntaxError) : Complaint :=
  ⟨some ⟨e.left, e.left - 1⟩, e.message⟩

/-- The number of line breaks. -/
def breaks (cs : List Char) : Nat := (cs.filter (· == '\n')).length

/-- The characters behind the last line break. -/
def lastLine (cs : List Char) : List Char := (cs.reverse.takeWhile (· != '\n')).reverse

/-- The size of characters in UTF-8. -/
def byteSize (cs : List Char) : Nat := cs.foldl (fun size c => size + c.utf8Size) 0

/-- The line and the column between two parts of a text, both from zero. The end of the text is
behind its last character, whatever that is. -/
def position (before after : List Char) : Nat × Nat :=
  match after with
  | c :: _ =>
    let line := lastLine before
    (breaks before, if c.toNat < 0x80 then line.length else byteSize line)
  | [] =>
    if before.isEmpty then (0, 0)
    else (breaks before.dropLast, (lastLine before.dropLast).length + 1)

/-- The lines of a text. -/
def splitLines : List Char → List (List Char)
  | [] => [[]]
  | c :: rest =>
    if c = '\n' then [] :: splitLines rest
    else match splitLines rest with
      | line :: others => (c :: line) :: others
      | [] => [[c]]

/-- The report of a complaint about a text. -/
def Complaint.report (complaint : Complaint) (text : String) : String :=
  match complaint.span with
  | none => complaint.message ++ "\n"
  | some span =>
    let cs := text.toList
    let before := cs.take (cs.length - span.start)
    let after := cs.drop (cs.length - span.start)
    let (line, column) := position before after
    let content := (splitLines cs).getD line []
    let size := byteSize (after.take (span.start - span.stop))
    let carets := max 1 (min size (byteSize content))
    let number := toString (line + 1)
    let gutter := "".pushn ' ' (number.length + 1) ++ "|"
    "TOML parse error at line " ++ number ++ ", column " ++ toString (column + 1) ++ "\n"
      ++ gutter ++ "\n"
      ++ number ++ " | " ++ String.ofList content ++ "\n"
      ++ gutter ++ "".pushn ' ' (column + 1) ++ "".pushn '^' carets ++ "\n"
      ++ complaint.message ++ "\n"

end EventBridge.Toml
