/-! # Handles

A table keeps things for a while and hands out handles to them. A handle names the table, a slot and
a generation. Each insertion has a generation of its own, so a slot can be used again without an old
handle reaching what is new there.

* `HandleTable.insert` takes the first free slot.
* `HandleTable.resolve` finds what a handle stands for, or says what is wrong with it.
* `HandleTable.release` ends the lifetime of one thing.
-/

namespace EventBridge

/-- A reference into a table. -/
structure Handle where
  table : Nat
  slot : Nat
  generation : Nat
  deriving DecidableEq, Repr

/-- What is wrong with a value that should be a handle in use. -/
inductive Misuse where
  /-- It is no handle but something of this kind. -/
  | notAHandle (kind : String)
  /-- It belongs to another table. -/
  | foreign
  /-- What it stood for has been released. -/
  | stale
  deriving DecidableEq, Repr

/-- The wording of a misuse. -/
def Misuse.message : Misuse → String
  | .notAHandle kind => "expected a context handle, got " ++ kind
  | .foreign => "context handle was not issued by this runtime"
  | .stale => "stale context handle: the dispatch that issued it has returned"

/-- A slot: the generation it was last used in, and what it holds. -/
structure HandleTable.Slot (α : Type) where
  generation : Nat
  held : Option α
  deriving DecidableEq, Repr

/-- A table of things by handle. -/
structure HandleTable (α : Type) where
  id : Nat
  slots : List (HandleTable.Slot α)
  nextGeneration : Nat
  deriving DecidableEq, Repr

namespace HandleTable

variable {α : Type}

/-- A table in which nothing has been put. -/
def empty (id : Nat) : HandleTable α := ⟨id, [], 1⟩

/-- The first slot that holds nothing. -/
def freeSlot (table : HandleTable α) : Option Nat :=
  table.slots.findIdx? fun slot => slot.held.isNone

/-- Puts a thing into the table. -/
def insert (table : HandleTable α) (a : α) : Handle × HandleTable α :=
  let generation := table.nextGeneration
  let filled : Slot α := ⟨generation, some a⟩
  match table.freeSlot with
  | some slot =>
    (⟨table.id, slot, generation⟩,
      { table with slots := table.slots.set slot filled, nextGeneration := generation + 1 })
  | none =>
    (⟨table.id, table.slots.length, generation⟩,
      { table with slots := table.slots ++ [filled], nextGeneration := generation + 1 })

/-- What a handle stands for. -/
def resolve (table : HandleTable α) (handle : Handle) : Except Misuse α :=
  if handle.table ≠ table.id then .error .foreign
  else match table.slots[handle.slot]? with
    | none => .error .foreign
    | some slot =>
      match slot.held with
      | some a => if slot.generation = handle.generation then .ok a else .error .stale
      | none => .error .stale

/-- Takes out what a handle stands for, if it still does. -/
def release (table : HandleTable α) (handle : Handle) : Option α × HandleTable α :=
  if handle.table ≠ table.id then (none, table)
  else match table.slots[handle.slot]? with
    | none => (none, table)
    | some slot =>
      if slot.generation ≠ handle.generation then (none, table)
      else
        let emptied : Slot α := { slot with held := none }
        (slot.held, { table with slots := table.slots.set handle.slot emptied })

/-- How many things the table holds. -/
def live (table : HandleTable α) : Nat :=
  (table.slots.filter fun slot => slot.held.isSome).length

/-! ### Small facts -/

/-- A table in which nothing has been put holds nothing. -/
@[simp] theorem live_empty (id : Nat) : (empty id : HandleTable α).live = 0 := rfl

/-- Releasing through a handle of another table changes nothing. -/
theorem release_of_table_ne (table : HandleTable α) (handle : Handle)
    (h : handle.table ≠ table.id) : table.release handle = (none, table) := by
  simp [release, h]

/-- A new handle stands for what was put in. -/
theorem resolve_insert (table : HandleTable α) (a : α) :
    (table.insert a).2.resolve (table.insert a).1 = .ok a := by
  unfold insert
  split
  · next slot h =>
    -- A free slot is one of the slots there are.
    obtain ⟨hlt, -⟩ := List.findIdx?_eq_some_iff_getElem.1 h
    simp [resolve, hlt]
  · simp [resolve]

/-- A new handle is of the table's latest generation. -/
theorem insert_generation (table : HandleTable α) (a : α) :
    (table.insert a).1.generation = table.nextGeneration := by
  unfold insert
  split <;> rfl

end HandleTable

end EventBridge
