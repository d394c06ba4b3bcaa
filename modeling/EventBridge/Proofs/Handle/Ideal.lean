import EventBridge.Handle.Table

/-! # Tables of handles against their ideal

  A client makes any number of tables, puts things into them, and uses every handle on every
  table, in any order. Against that stands an ideal that has no slots and no generations: it
  remembers for each handle which table gave it out, for what, and whether it was released there.

  * `World` holds the tables and the handles they gave out, `Ideal` what should be known of them.
    Both follow a list of `Request`s.
  * `World.KeepsTo` says what the ideal promises of the tables, one law to a field.
-/

namespace EventBridge.HandleTable

variable {α : Type}

/-! ## Requests -/

/-- What a client does. Tables and handles go by number, in the order in which they came to be. -/
inductive Request (α : Type) where
  | create
  | insert (table : Nat) (a : α)
  | resolve (table handle : Nat)
  | release (table handle : Nat)

/-! ## The tables -/

/-- The tables of a client, and the handles that they gave out. -/
structure World (α : Type) where
  tables : List (HandleTable α)
  handles : List Handle

namespace World

/-- Before the first table. -/
def initial : World α := ⟨[], []⟩

/-- Makes a table. The first has the number `1`. -/
def create (world : World α) : World α :=
  { world with tables := world.tables ++ [HandleTable.empty (world.tables.length + 1)] }

/-- Puts a thing into a table. -/
def insert (world : World α) (t : Nat) (a : α) : World α :=
  match world.tables[t]? with
  | some table =>
    ⟨world.tables.set t (table.insert a).2, world.handles ++ [(table.insert a).1]⟩
  | none => world

/-- What a handle stands for in a table, if there are both. -/
def resolve (world : World α) (t k : Nat) : Option (Except Misuse α) :=
  match world.tables[t]?, world.handles[k]? with
  | some table, some handle => some (table.resolve handle)
  | _, _ => none

/-- Releases a handle on a table, if there are both. -/
def release (world : World α) (t k : Nat) : Option α × World α :=
  match world.tables[t]?, world.handles[k]? with
  | some table, some handle =>
    ((table.release handle).1, { world with tables := world.tables.set t (table.release handle).2 })
  | _, _ => (none, world)

/-- How many things a table holds. -/
def live (world : World α) (t : Nat) : Option Nat := world.tables[t]?.map HandleTable.live

/-- The tables after a request. -/
def step (world : World α) : Request α → World α
  | .create => world.create
  | .insert t a => world.insert t a
  | .resolve .. => world
  | .release t k => (world.release t k).2

/-- The tables after a list of requests. -/
def run (requests : List (Request α)) : World α := requests.foldl step initial

end World

/-! ## The ideal -/

/-- What is known of a handle: which table gave it out, for what, and whether it was released there
    since. -/
structure Issue (α : Type) where
  table : Nat
  thing : α
  released : Bool

/-- What is known of the tables and the handles of a client. -/
structure Ideal (α : Type) where
  /-- For each table, the most things that it has held at once. -/
  peaks : List Nat
  issues : List (Issue α)

namespace Ideal

/-- Before the first table. -/
def initial : Ideal α := ⟨[], []⟩

/-- How many handles of a table are not released. -/
def held (ideal : Ideal α) (t : Nat) : Nat :=
  ideal.issues.countP fun issue => issue.table == t && !issue.released

/-- How many handles a table gave out. -/
def issuedBy (ideal : Ideal α) (t : Nat) : Nat :=
  ideal.issues.countP fun issue => issue.table == t

/-- A thing is put into a table. -/
def insert (ideal : Ideal α) (t : Nat) (a : α) : Ideal α :=
  match ideal.peaks[t]? with
  | some peak =>
    ⟨ideal.peaks.set t (max peak (ideal.held t + 1)), ideal.issues ++ [⟨t, a, false⟩]⟩
  | none => ideal

/-- A handle is released on a table. That counts only on the table which gave it out. -/
def release (ideal : Ideal α) (t k : Nat) : Ideal α :=
  match ideal.issues[k]? with
  | some issue =>
    if issue.table = t then
      { ideal with issues := ideal.issues.set k { issue with released := true } }
    else ideal
  | none => ideal

/-- What is known after a request. -/
def step (ideal : Ideal α) : Request α → Ideal α
  | .create => { ideal with peaks := ideal.peaks ++ [0] }
  | .insert t a => ideal.insert t a
  | .resolve .. => ideal
  | .release t k => ideal.release t k

/-- What is known after a list of requests. -/
def run (requests : List (Request α)) : Ideal α := requests.foldl step initial

end Ideal

/-! ## The tables keep to the ideal -/

/-- The tables of a client answer as the ideal says. -/
structure World.KeepsTo (world : World α) (ideal : Ideal α) : Prop where
  tables : world.tables.length = ideal.peaks.length
  handles : world.handles.length = ideal.issues.length
  /-- A table finds what it was given, under every handle of its own that is not released. -/
  resolve_ok : ∀ t k a, world.resolve t k = some (.ok a) ↔ ideal.issues[k]? = some ⟨t, a, false⟩
  /-- A handle is stale exactly where it was given out and released. -/
  resolve_stale : ∀ t k, world.resolve t k = some (.error .stale) ↔
    ∃ a, ideal.issues[k]? = some ⟨t, a, true⟩
  /-- A handle is foreign exactly to the tables that did not give it out. -/
  resolve_foreign : ∀ t k, world.resolve t k = some (.error .foreign) ↔
    t < world.tables.length ∧ ∃ issue, ideal.issues[k]? = some issue ∧ issue.table ≠ t
  /-- Releasing a handle in use gives back what it stands for. -/
  release_some : ∀ t k a, (world.release t k).1 = some a ↔ ideal.issues[k]? = some ⟨t, a, false⟩
  /-- Releasing any other handle changes nothing. -/
  release_none : ∀ t k, (world.release t k).1 = none → world.release t k = (none, world)
  /-- Putting a thing in changes nothing for the handles there are, on any table. -/
  resolve_insert : ∀ t a u k, k < world.handles.length →
    (world.insert t a).resolve u k = world.resolve u k
  /-- Releasing one handle changes nothing for the others, on any table. -/
  resolve_release : ∀ t j u k, k ≠ j → (world.release t j).2.resolve u k = world.resolve u k
  /-- A table holds as many things as it has handles that are not released. -/
  live : ∀ t, t < world.tables.length → world.live t = some (ideal.held t)
  /-- The numbers in a handle are no greater than those of the tables, of the things that its table
      ever held at once, and of the handles that its table gave out. -/
  numbers : ∀ (k : Nat) (handle : Handle) (issue : Issue α),
    world.handles[k]? = some handle → ideal.issues[k]? = some issue →
    handle.table = issue.table + 1 ∧ handle.table ≤ world.tables.length ∧
    (∃ peak, ideal.peaks[issue.table]? = some peak ∧ handle.slot < peak) ∧
    handle.generation ≤ ideal.issuedBy issue.table

end EventBridge.HandleTable
