import EventBridge.Files.Path
import EventBridge.Keyed

/-! # Directories and files

The files that a run can see, as a value: each place, named by the pieces of its path from the root,
is a directory or holds bytes. Operations take the paths that users write, relative to the working
directory, and fail in the words of the operating system.

* `walk` follows a path: every place on the way has to be a directory.
* `read`, `write` and `makeDirectories` are what configuration, scripts and logs need.
-/

namespace EventBridge

/-- Why an operation on files fails. -/
inductive FileError where
  | notFound
  | fileExists
  | notADirectory
  | isADirectory
  | nameTooLong
  /-- A path with a null character names no file. -/
  | nullInName
  /-- The bytes of a file that should be text are not. -/
  | notText
  /-- There is no directory to start from. -/
  | noWholeTree
  deriving DecidableEq, Repr

/-- The wording of a failure. -/
def FileError.message : FileError → String
  | .notFound => "No such file or directory (os error 2)"
  | .fileExists => "File exists (os error 17)"
  | .notADirectory => "Not a directory (os error 20)"
  | .isADirectory => "Is a directory (os error 21)"
  | .nameTooLong => "File name too long (os error 36)"
  | .nullInName => "file name contained an unexpected NUL byte"
  | .notText => "stream did not contain valid UTF-8"
  | .noWholeTree => "failed to create whole tree"

/-- What a place is. -/
inductive FileTree.Node where
  | directory
  | file (bytes : List UInt8)
  deriving DecidableEq, Repr

/-- Places with what they are, and the working directory. The root is always a directory. -/
structure FileTree where
  here : List String
  nodes : List (List String × FileTree.Node)
  deriving DecidableEq, Repr

namespace FileTree

/-- What is at a place. -/
def node? (tree : FileTree) (place : List String) : Option Node :=
  if place.isEmpty then some .directory else tree.nodes.lookup place

/-- Puts something at a place. -/
def set (tree : FileTree) (place : List String) (node : Node) : FileTree :=
  { tree with nodes := Keyed.put place node tree.nodes }

/-- Setting a place changes what is there, and nothing about other places. -/
theorem node?_set (tree : FileTree) (place other : List String) (node : Node) (h : place ≠ []) :
    (tree.set place node).node? other = if other == place then some node else tree.node? other := by
  unfold node?
  by_cases ho : other = []
  · simp [ho, h]
  · simp [ho, set, Keyed.lookup_put]

/-- A working directory with nothing in it. -/
def empty : FileTree := ⟨["work"], [(["work"], .directory)]⟩

/-! ### Following a path -/

/-- Where a path leads. -/
inductive Target where
  | present (place : List String)
  /-- Only the last piece is missing. -/
  | absent (place : List String)
  deriving DecidableEq, Repr

/-- The most bytes that a name has. -/
def nameLimit : Nat := 255

/-- Follows pieces from a place. -/
def walk (tree : FileTree) : List String → List String → Except FileError Target
  | [], place => .ok (.present place)
  | piece :: rest, place =>
    match tree.node? place with
    | some .directory =>
      if piece = "." then walk tree rest place
      else if piece = ".." then walk tree rest place.dropLast
      else if nameLimit < piece.utf8ByteSize then .error .nameTooLong
      else match tree.node? (place ++ [piece]) with
        | some _ => walk tree rest (place ++ [piece])
        -- What is missing may be made, as long as it is the last piece.
        | none => if rest.isEmpty then .ok (.absent (place ++ [piece])) else .error .notFound
    | _ => .error .notADirectory

/-- Follows a path as a user writes it. -/
def locate (tree : FileTree) (path : String) : Except FileError Target :=
  let cs := path.toList
  if cs.isEmpty then .error .notFound
  else if cs.contains '\x00' then .error .nullInName
  else
    let names := (Path.pieces cs).filterMap fun piece =>
      if piece.isEmpty then none else some (String.ofList piece)
    tree.walk names (if Path.isAbsolute path then [] else tree.here)

/-- Whether a path ends in a slash, so that it can only name a directory. -/
def endsInSlash (path : String) : Bool := path.toList.getLast? == some '/'

/-! ### Operations -/

/-- What is at a path. -/
def look (tree : FileTree) (path : String) : Except FileError Node := do
  match ← tree.locate path with
  | .absent _ => .error .notFound
  | .present place =>
    match tree.node? place with
    | some (.file bytes) => if endsInSlash path then .error .notADirectory else .ok (.file bytes)
    | some .directory => .ok .directory
    | none => .error .notFound

/-- Whether there is anything at a path. -/
def contains (tree : FileTree) (path : String) : Bool := (tree.look path).isOk

/-- Whether there is a directory at a path. -/
def isDirectory (tree : FileTree) (path : String) : Bool :=
  match tree.look path with
  | .ok .directory => true
  | _ => false

/-- The bytes of a file. -/
def read (tree : FileTree) (path : String) : Except FileError (List UInt8) := do
  match ← tree.look path with
  | .file bytes => .ok bytes
  | .directory => .error .isADirectory

/-- Makes a file, or replaces what it holds. -/
def write (tree : FileTree) (path : String) (bytes : List UInt8) : Except FileError FileTree := do
  match ← tree.locate path with
  | .absent place =>
    if endsInSlash path then .error .isADirectory else .ok (tree.set place (.file bytes))
  | .present place =>
    match tree.node? place with
    | some (.file _) =>
      if endsInSlash path then .error .notADirectory else .ok (tree.set place (.file bytes))
    | _ => .error .isADirectory

/-- Adds to the end of a file, which is made if it is not there. -/
def append (tree : FileTree) (path : String) (bytes : List UInt8) : Except FileError FileTree :=
  match tree.look path with
  | .ok (.file before) => tree.write path (before ++ bytes)
  | _ => tree.write path bytes

/-- Makes a directory in one that is there. -/
def makeDirectory (tree : FileTree) (path : String) : Except FileError FileTree := do
  match ← tree.locate path with
  | .absent place => .ok (tree.set place .directory)
  | .present _ => .error .fileExists

/-- Makes a directory in one that is there, unless it is there, too. -/
def ensureDirectory (tree : FileTree) (path : String) : Except FileError Unit × FileTree :=
  match tree.makeDirectory path with
  | .ok tree => (.ok (), tree)
  | .error e => (if tree.isDirectory path then .ok () else .error e, tree)

/-- Makes a directory and those on the way to it. `fuel` bounds the length of the way. -/
def makeWay : Nat → FileTree → String → Except FileError Unit × FileTree
  | 0, tree, _ => (.error .noWholeTree, tree)
  | fuel + 1, tree, path =>
    if path.isEmpty then (.ok (), tree)
    else match tree.makeDirectory path with
      | .error .notFound =>
        match Path.parent? path with
        | none => (.error .noWholeTree, tree)
        | some parent =>
          match makeWay fuel tree parent with
          | (.ok (), tree) => tree.ensureDirectory path
          | (.error e, tree) => (.error e, tree)
      | _ => tree.ensureDirectory path

/-- Makes a directory and those on the way to it, unless they are there. Directories that were made
before a later one fails stay. -/
def makeDirectories (tree : FileTree) (path : String) : Except FileError Unit × FileTree :=
  makeWay (path.length + 1) tree path

end FileTree

end EventBridge
