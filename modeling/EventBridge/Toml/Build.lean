import EventBridge.Document.Mismatch
import EventBridge.Toml.Basic

/-! # Putting tables together

Keys and headers of a document name places in nested tables. What they may add to is decided by how
the tables on the way came about.

* A dotted key makes the tables on its way, or goes through those that dotted keys made. It does not
  add to a table with a header of its own.
* Nothing adds to a table between braces.
* A header may give entries to a table that so far only lay on the way to others, once. Such a table
  moves behind the entries that its parent has then.
* A header in double brackets adds a table to a list; a way through such a list is a way through the
  last table of it.
-/

namespace EventBridge.Toml

open Document (named)

/-- Why a key or a header cannot be placed. -/
inductive Conflict where
  /-- The key is there already, in the table of a path if that is known. -/
  | duplicate (key : String) (table : Option (List String))
  /-- The way leads through a value that is no table. -/
  | notATable (key : String) (path : List String) (found : String)
  deriving DecidableEq, Repr

/-- The name of a table in diagnostics. -/
def tableName : List String → String
  | [] => "document root"
  | path => "table " ++ named (".".intercalate path)

/-- The wording of a conflict. -/
def Conflict.message : Conflict → String
  | .duplicate key none => "duplicate key " ++ named key
  | .duplicate key (some path) => "duplicate key " ++ named key ++ " in " ++ tableName path
  | .notATable key path found =>
    "dotted key " ++ named (".".intercalate (path ++ [key])) ++
      " attempted to extend non-table type (" ++ found ++ ")"

/-- Whether the way of a key may lead into a table that is not between braces. -/
def Origin.open (dotted : Bool) : Origin → Bool
  | .explicit | .inline => !dotted
  | .implied | .dotted => true

/-- Replaces the value of the first entry of a name. -/
def Entries.replace (entries : Entries) (name : String) (value : Value) : Entries :=
  match entries with
  | [] => []
  | (key, old) :: rest =>
    if key.name = name then (key, value) :: rest
    else (key, old) :: Entries.replace rest name value

/-- What happens to the entries at the end of a way, and whether they may be added to. -/
abbrev Edit := Origin → Entries → Except Conflict Entries

/-- Changes the entries at the end of a way from a table of an origin. -/
def editAt (dotted : Bool) (edit : Edit) (passed : List String) :
    List Key → Origin → Entries → Except Conflict Entries
  | [], origin, entries => edit origin entries
  | key :: path, _, entries =>
    let made : Origin := if dotted then .dotted else .implied
    match entries.get? key.name with
    | none => do
      let inner ← editAt dotted edit (passed ++ [key.name]) path made []
      return entries ++ [(key, .table none made inner)]
    | some (.table _ .inline _) => .error (.notATable key.name passed "inline table")
    | some (.table span origin inner) =>
      if origin.open dotted then do
        let inner ← editAt dotted edit (passed ++ [key.name]) path origin inner
        return entries.replace key.name (.table span origin inner)
      else .error (.duplicate key.name none)
    | some (.tables span items) =>
      -- The way goes through the table that was added last.
      match items.reverse with
      | .table last origin inner :: before => do
        let inner ← editAt dotted edit (passed ++ [key.name]) path origin inner
        let items := (.table last origin inner :: before).reverse
        return entries.replace key.name (.tables span items)
      | _ => .error (.duplicate key.name none)
    | some other => .error (.notATable key.name passed other.typeName)

/-- Adds a value under a dotted key to the entries of a table, whose path may be known. -/
def addKey (table : Option (List String)) (path : List Key) (key : Key) (value : Value)
    (entries : Entries) : Except Conflict Entries :=
  let edit : Edit := fun origin inner =>
    -- A table that dotted keys made is reached by dotted keys, any other by plain ones.
    if (origin == .dotted) == path.isEmpty then .error (.duplicate key.name none)
    else if (inner.get? key.name).isSome then .error (.duplicate key.name table)
    else .ok (inner ++ [(key, value)])
  editAt true edit [] path .explicit entries

/-! ### Headers -/

/-- The table whose lines are being read: the way to it, whether it is one of a list, where it
stands, and its entries so far. -/
structure Section where
  path : List Key
  listed : Bool
  span : Span
  entries : Entries

/-- A document while it is read: the tables that are complete, and the one that is not. -/
structure Draft where
  root : Entries
  rootSpan : Span
  current : Section

/-- The way to a table without its last key, and that key. -/
def splitPath (path : List Key) : List Key × Option Key :=
  (path.dropLast, path.getLast?)

/-- The names of the keys of a path. -/
def names (path : List Key) : List String := path.map Key.name

/-- Puts a complete table to its place. -/
def Draft.close (draft : Draft) : Except Conflict (Entries × Span) :=
  let now := draft.current
  match splitPath now.path with
  | (_, none) => .ok (now.entries, now.span)
  | (parents, some key) =>
    let table := Value.table (some now.span) .explicit now.entries
    let edit : Edit := fun _ inner =>
      match inner.get? key.name with
      | none =>
        if now.listed then .ok (inner ++ [(key, .tables (some now.span) [table])])
        else .ok (inner ++ [(key, table)])
      | some (.tables span items) =>
        if now.listed then
          let span := match span with
            | some first => ⟨first.start, now.span.stop⟩
            | none => now.span
          .ok (inner.replace key.name (.tables (some span) (items ++ [table])))
        else .error (.duplicate key.name (some (names parents)))
      | some _ => .error (.duplicate key.name (some (names parents)))
    (editAt false edit [] parents .explicit draft.root).map fun root => (root, draft.rootSpan)

/-- The entries that a table of a path has from lying on the way to others, taken out of the
document. -/
def takeImplied (parents : List Key) (key : Key) (root : Entries) :
    Except Conflict (Entries × Entries) := do
  let held : Edit := fun _ inner =>
    match inner.get? key.name with
    | none => .ok []
    | some (.table _ .implied entries) => .ok entries
    | some _ => .error (.duplicate key.name (some (names parents)))
  let find : Edit := fun origin inner => (held origin inner).map fun _ => inner
  let root ← editAt false find [] parents .explicit root
  let rest ← editAt false (fun _ inner => .ok (inner.filter fun e => e.1.name != key.name)) []
    parents .explicit root
  let entries := match lookup parents root with
    | some inner =>
      match inner.get? key.name with
      | some (.table _ .implied entries) => entries
      | _ => []
    | none => []
  return (rest, entries)
where
  /-- The entries at the end of a way. -/
  lookup : List Key → Entries → Option Entries
    | [], entries => some entries
    | key :: path, entries =>
      match entries.get? key.name with
      | some (.table _ _ inner) => lookup path inner
      | some (.tables _ items) =>
        match items.getLast? with
        | some (.table _ _ inner) => lookup path inner
        | _ => none
      | _ => none

/-- Begins a table under a header. -/
def Draft.begin (draft : Draft) (path : List Key) (listed : Bool) (span : Span) :
    Except Conflict Draft := do
  let (root, rootSpan) ← draft.close
  match splitPath path with
  | (_, none) => .ok draft
  | (parents, some key) =>
    if listed then
      let edit : Edit := fun _ inner =>
        match inner.get? key.name with
        | none | some (.tables ..) => .ok inner
        | some _ => .error (.duplicate key.name (some (names parents)))
      let root ← editAt false edit [] parents .explicit root
      return ⟨root, rootSpan, ⟨path, true, span, []⟩⟩
    else
      let (root, entries) ← takeImplied parents key root
      return ⟨root, rootSpan, ⟨path, false, span, entries⟩⟩

/-- Adds a line to the table that is open. -/
def Draft.add (draft : Draft) (path : List Key) (key : Key) (value : Value) :
    Except Conflict Draft := do
  let now := draft.current
  let span := match value.span? with
    | some span => ⟨now.span.start, span.stop⟩
    | none => now.span
  let entries ← addKey (some (names now.path)) path key value now.entries
  return { draft with current := { now with span := span, entries := entries } }

end EventBridge.Toml
