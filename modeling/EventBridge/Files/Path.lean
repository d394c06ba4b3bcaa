/-! # Paths

Paths are texts whose pieces are divided by slashes. They are joined as they stand: nothing is
looked up and no `..` is resolved.

* `join` puts a relative path behind a directory, and keeps an absolute one.
* `parent?` is a path without its last piece. Empty pieces and `.` do not count as pieces, except
  for a `.` in front.
-/

namespace EventBridge.Path

/-- Whether a path starts at the root. -/
def isAbsolute (path : String) : Bool := path.toList.head? == some '/'

/-- A path behind a directory. -/
def join (base path : String) : String :=
  if isAbsolute path then path
  else if base.isEmpty ∨ base.toList.getLast? = some '/' then base ++ path
  else base ++ "/" ++ path

/-! ### Pieces -/

/-- The pieces between slashes, empty ones among them. -/
def pieces : List Char → List (List Char)
  | [] => [[]]
  | c :: rest =>
    if c = '/' then [] :: pieces rest
    else match pieces rest with
      | piece :: others => (c :: piece) :: others
      | [] => [[c]]

/-- Whether a piece names nothing. -/
def isVoid (piece : List Char) : Bool := piece == [] || piece == ['.']

/-- Pieces without the void ones at the end. -/
def trimEnd (pieces : List (List Char)) : List (List Char) :=
  (pieces.reverse.dropWhile isVoid).reverse

/-- What stands in front of the pieces: the root, or a `.`. -/
def front : List Char → List Char
  | '/' :: _ => ['/']
  | ['.'] => ['.']
  | '.' :: '/' :: _ => ['.']
  | _ => []

/-- The path without its last piece; the root and the empty path have none. -/
def parent? (path : String) : Option String :=
  let cs := path.toList
  let head := front cs
  match (trimEnd (pieces (cs.drop head.length))).reverse with
  | _ :: before =>
    some (String.ofList (head ++ List.intercalate ['/'] (trimEnd before.reverse)))
  | [] => if head = ['.'] then some "" else none

/-! ### Small facts -/

/-- An absolute path stays as it is behind any directory. -/
theorem join_absolute (base path : String) (h : isAbsolute path = true) :
    join base path = path := by
  simp [join, h]

/-- A path has at least one piece, if only an empty one. -/
theorem pieces_ne_nil (cs : List Char) : pieces cs ≠ [] := by
  cases cs with
  | nil => simp [pieces]
  | cons c rest =>
    unfold pieces
    split
    · simp
    · split <;> simp

end EventBridge.Path
