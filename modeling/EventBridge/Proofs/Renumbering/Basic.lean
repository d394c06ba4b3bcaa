import EventBridge.Script.Access
import EventBridge.Script.Library

/-! # Other numbers for the tables of contexts

  A table of contexts has a number, which its handles carry. Which number that is does not matter as
  long as different tables have different ones: `Renumbering` gives each table another number, and
  `renumber` puts that number into everything that can hold a handle.

  * A table with another number does with renumbered handles what it did with the old ones
    (`HandleTable.insert_renumber`, `resolve_renumber` and `release_renumber`).
  * Values that are different stay different, so tables of a script are read and written as before
    (`Table.get_renumber`, `Table.set_renumber`), and a snapshot does not show numbers at all
    (`Machine.snapshot_renumber`).
-/

namespace EventBridge

/-- New numbers, each for one old number only. -/
structure Renumbering where
  number : Nat → Nat
  injective : ∀ a b, number a = number b → a = b

namespace Renumbering

/-- Two numbers take each other's place. -/
def swap (a b : Nat) : Renumbering where
  number n := if n = a then b else if n = b then a else n
  injective := by
    intro m n h
    split at h <;> split at h <;> (try split at h) <;> (try split at h) <;> omega

@[simp] theorem swap_left (a b : Nat) : (swap a b).number a = b := if_pos rfl

/-- Every number stays. -/
def unchanged : Renumbering := ⟨id, fun _ _ h => h⟩

end Renumbering

variable {σ : Renumbering}

/-! ### Handles and their tables -/

/-- The handle of the table with the new number. -/
def Handle.renumber (σ : Renumbering) (handle : Handle) : Handle :=
  { handle with table := σ.number handle.table }

theorem Handle.renumber_inj {a b : Handle} (h : a.renumber σ = b.renumber σ) : a = b := by
  obtain ⟨table, slot, generation⟩ := a
  obtain ⟨table', slot', generation'⟩ := b
  simp only [renumber, Handle.mk.injEq] at h ⊢
  exact ⟨σ.injective _ _ h.1, h.2⟩

namespace HandleTable

variable {α : Type} (table : HandleTable α)

/-- The table with its new number. -/
def renumber (σ : Renumbering) (table : HandleTable α) : HandleTable α :=
  { table with id := σ.number table.id }

/-- A handle is of a table exactly if it was before. -/
theorem renumber_table_ne_iff (handle : Handle) :
    (handle.renumber σ).table ≠ (table.renumber σ).id ↔ handle.table ≠ table.id :=
  not_congr ⟨σ.injective _ _, congrArg σ.number⟩

theorem insert_renumber (a : α) :
    (table.renumber σ).insert a =
      ((table.insert a).1.renumber σ, (table.insert a).2.renumber σ) := by
  have hfree : (table.renumber σ).freeSlot = table.freeSlot := rfl
  unfold insert
  rw [hfree]
  cases table.freeSlot <;> rfl

theorem resolve_renumber (handle : Handle) :
    (table.renumber σ).resolve (handle.renumber σ) = table.resolve handle := by
  unfold resolve
  simp only [renumber_table_ne_iff]
  rfl

theorem release_renumber (handle : Handle) :
    (table.renumber σ).release (handle.renumber σ) =
      ((table.release handle).1, (table.release handle).2.renumber σ) := by
  unfold release
  simp only [renumber_table_ne_iff]
  by_cases hforeign : handle.table ≠ table.id
  · simp only [if_pos hforeign]
  · simp only [if_neg hforeign]
    have hslot : (table.renumber σ).slots[(handle.renumber σ).slot]? =
        table.slots[handle.slot]? := rfl
    rw [hslot]
    cases table.slots[handle.slot]? with
    | none => rfl
    | some slot =>
      dsimp only
      by_cases hstale : slot.generation ≠ handle.generation
      · rw [if_pos hstale, if_pos (by exact hstale)]
      · rw [if_neg hstale, if_neg (by exact hstale)]
        rfl

end HandleTable

namespace Script

/-! ### Values -/

namespace Value

/-- A value with the new number, if it is a handle. -/
def renumber (σ : Renumbering) : Value → Value
  | .handle id held => .handle id (held.renumber σ)
  | value => value

@[simp] theorem renumber_table (id : Nat) : (table id).renumber σ = table id := rfl

@[simp] theorem renumber_function (id : Nat) : (function id).renumber σ = function id := rfl

@[simp] theorem renumber_ofText (text : String) : (ofText text).renumber σ = ofText text := rfl

theorem renumber_inj {v w : Value} (h : v.renumber σ = w.renumber σ) : v = w := by
  cases v with
  | handle id handle =>
    cases w with
    | handle id' handle' =>
      simp only [renumber, Value.handle.injEq] at h
      rw [h.1, Handle.renumber_inj h.2]
    | _ => cases h
  | _ => cases w <;> first | exact h | cases h

/-- Only what was nil becomes nil. -/
theorem renumber_eq_nil {v : Value} : v.renumber σ = .nil ↔ v = .nil :=
  ⟨fun h => renumber_inj (σ := σ) (w := .nil) h, by rintro rfl; rfl⟩

@[simp] theorem typeName_renumber (v : Value) : (v.renumber σ).typeName = v.typeName := by
  cases v <;> rfl

@[simp] theorem objectName_renumber (v : Value) : (v.renumber σ).objectName = v.objectName := by
  cases v <;> rfl

@[simp] theorem isTrue_renumber (v : Value) : (v.renumber σ).isTrue = v.isTrue := by
  cases v <;> rfl

@[simp] theorem chunk_renumber (v : Value) : (v.renumber σ).chunk? = v.chunk? := by
  cases v <;> rfl

@[simp] theorem key_renumber (v : Value) : (v.renumber σ).key = v.key.renumber σ := by
  cases v with
  | float x =>
    simp only [renumber, key]
    split <;> rfl
  | _ => rfl

/-- Two values compare as before. -/
theorem beq_renumber (v w : Value) : (v.renumber σ == w.renumber σ) = (v == w) := by
  by_cases h : v = w
  · rw [h, beq_self_eq_true, beq_self_eq_true]
  · rw [beq_false_of_ne h, beq_false_of_ne fun heq => h (renumber_inj heq)]

theorem same_renumber (v w : Value) : (v.renumber σ).same (w.renumber σ) = v.same w := by
  unfold same
  rw [key_renumber, key_renumber]
  generalize v.key = a
  generalize w.key = b
  cases a with
  | float x =>
    cases b with
    | float y => rfl
    | _ => exact beq_renumber (.float x) _
  | _ => exact beq_renumber _ b

theorem plus_renumber (v w : Value) : (v.renumber σ).plus? (w.renumber σ) = v.plus? w := by
  have hnumber : ∀ v : Value, (v.renumber σ).toNumber? = v.toNumber? := fun v => by cases v <;> rfl
  unfold plus?
  rw [hnumber, hnumber]

/-- A sum is a number. -/
theorem renumber_of_plus {v w sum : Value} (h : v.plus? w = some sum) : sum.renumber σ = sum := by
  unfold plus? at h
  split at h <;> cases h <;> rfl

theorem plusError_renumber (v w : Value) :
    (v.renumber σ).plusError (w.renumber σ) = v.plusError w := by
  have hstring : ∀ v : Value, (v.renumber σ).isString = v.isString := fun v => by cases v <;> rfl
  have hnumber : ∀ v : Value, (v.renumber σ).isNumber = v.isNumber := fun v => by cases v <;> rfl
  unfold plusError
  rw [hstring, hstring, hnumber, typeName_renumber, typeName_renumber]
  cases v.isNumber <;> simp only [if_true, Bool.false_eq_true, if_false, objectName_renumber]

end Value

@[simp] theorem firstOf_renumber (values : List Value) :
    firstOf (values.map (Value.renumber σ)) = (firstOf values).renumber σ := by
  cases values <;> rfl

theorem getD_renumber (values : List Value) (n : Nat) :
    (values.map (Value.renumber σ)).getD n .nil = (values.getD n .nil).renumber σ := by
  rw [List.getD_eq_getElem?_getD, List.getD_eq_getElem?_getD, List.getElem?_map]
  cases values[n]? <;> rfl

/-! ### Tables -/

/-- An entry with the new numbers. -/
def renumberEntry (σ : Renumbering) (entry : Value × Value) : Value × Value :=
  (entry.1.renumber σ, entry.2.renumber σ)

namespace Table

/-- A table with the new numbers in its entries. -/
def renumber (σ : Renumbering) (table : Table) : Table :=
  { table with entries := table.entries.map (renumberEntry σ) }

variable (table : Table)

theorem get_renumber (key : Value) :
    (table.renumber σ).get (key.renumber σ) = (table.get key).renumber σ := by
  have hlookup : ∀ entries : List (Value × Value),
      (entries.map (renumberEntry σ)).lookup (key.key.renumber σ) =
        (entries.lookup key.key).map (Value.renumber σ) := by
    intro entries
    induction entries with
    | nil => rfl
    | cons entry rest ih =>
      rw [List.map_cons, List.lookup_cons, List.lookup_cons, ih]
      simp only [renumberEntry, Value.beq_renumber]
      cases key.key == entry.1 <;> rfl
  unfold get
  rw [Value.key_renumber]
  show ((table.entries.map (renumberEntry σ)).lookup _).getD .nil = _
  rw [hlookup]
  cases table.entries.lookup key.key <;> rfl

theorem erase_renumber (key : Value) (entries : List (Value × Value)) :
    Keyed.erase (key.renumber σ) (entries.map (renumberEntry σ)) =
      (Keyed.erase key entries).map (renumberEntry σ) := by
  have hkeep : (fun entry : Value × Value => entry.1 != key.renumber σ) ∘ renumberEntry σ =
      fun entry => entry.1 != key :=
    funext fun entry => congrArg not (Value.beq_renumber entry.1 key)
  unfold Keyed.erase
  rw [List.filter_map, hkeep]

theorem set_renumber (key value : Value) :
    (table.renumber σ).set (key.renumber σ) (value.renumber σ) =
      (table.set key value).renumber σ := by
  have herase := erase_renumber (σ := σ) key.key table.entries
  simp only [set, renumber, Value.key_renumber, Value.renumber_eq_nil, herase]
  by_cases hvalue : value = .nil
  · simp only [if_pos hvalue]
  · simp only [if_neg hvalue, List.map_append]
    rfl

theorem field_renumber (name : String) :
    (table.renumber σ).field name = (table.field name).renumber σ :=
  table.get_renumber (Value.ofText name)

/-- As many entries stand under `1`, `2` and so on. -/
theorem length_renumber : (table.renumber σ).length = table.length := by
  have hborder : ∀ (fuel : Nat) (n : Int),
      (table.renumber σ).border fuel n = table.border fuel n := by
    intro fuel
    induction fuel with
    | zero => exact fun n => rfl
    | succ fuel ih =>
      intro n
      have hget := table.get_renumber (σ := σ) (.integer (Int64.ofInt (n + 1)))
      unfold border
      rw [show (Value.integer (Int64.ofInt (n + 1))).renumber σ = .integer _ from rfl] at hget
      simp only [hget, Value.renumber_eq_nil, ih]
  unfold length
  rw [hborder]
  congr 1
  exact List.length_map _

end Table

/-! ### Functions and questions -/

/-- The arguments around a function, with the new numbers. -/
def Scope.renumber (σ : Renumbering) (scope : Scope) : Scope :=
  scope.map (List.map (Value.renumber σ))

/-- A function with the new numbers in what it takes along. -/
def Callable.renumber (σ : Renumbering) : Callable → Callable
  | .closure scope body => .closure (scope.renumber σ) body
  | .walk step entries => .walk (step.renumber σ) entries
  | callable => callable

/-- A question with the new number in what it is about. No reply has a handle in it. -/
def Question.renumber (σ : Renumbering) (question : Question) : Question :=
  { question with subject := question.subject.renumber σ }

/-! ### Machines -/

namespace Machine

/-- A machine with the new numbers in all that it holds. -/
def renumber (σ : Renumbering) (m : Machine) : Machine :=
  { m with
    tables := m.tables.map (Table.renumber σ)
    functions := m.functions.map (Callable.renumber σ)
    questions := m.questions.map (Question.renumber σ) }

/-- A script that has not begun has no handles. -/
@[simp] theorem renumber_initial : initial.renumber σ = initial := by
  simp [initial, renumber, Table.renumber, renumberEntry, Callable.renumber, Builtin.all]

variable (m : Machine)

@[simp] theorem table_renumber (id : Nat) : (m.renumber σ).table id = (m.table id).renumber σ := by
  unfold table
  show (m.tables.map (Table.renumber σ))[id]?.getD default = _
  rw [Array.getElem?_map]
  cases m.tables[id]? <;> rfl

@[simp] theorem function_renumber (id : Nat) :
    (m.renumber σ).functions[id]?.getD default = (m.functions[id]?.getD default).renumber σ := by
  show (m.functions.map (Callable.renumber σ))[id]?.getD default = _
  rw [Array.getElem?_map]
  cases m.functions[id]? <;> rfl

@[simp] theorem metafield_renumber (id : Nat) (name : String) :
    (m.renumber σ).metafield id name = (m.metafield id name).renumber σ := by
  have hmetatable : ((m.table id).renumber σ).metatable = (m.table id).metatable := rfl
  unfold metafield
  rw [table_renumber, hmetatable]
  cases (m.table id).metatable with
  | none => rfl
  | some other =>
    dsimp only
    rw [table_renumber, Table.field_renumber]

theorem setTable_renumber (id : Nat) (table : Table) :
    (m.renumber σ).setTable id (table.renumber σ) = (m.setTable id table).renumber σ := by
  simp only [setTable, renumber, Array.map_setIfInBounds]

theorem newTable_renumber (table : Table) :
    (m.renumber σ).newTable (table.renumber σ) =
      ((m.newTable table).1, (m.newTable table).2.renumber σ) := by
  simp only [newTable, renumber, Array.size_map, Array.map_push]

theorem newFunction_renumber (callable : Callable) :
    (m.renumber σ).newFunction (callable.renumber σ) =
      ((m.newFunction callable).1, (m.newFunction callable).2.renumber σ) := by
  simp only [newFunction, renumber, Array.size_map, Array.map_push]

/-- A snapshot shows that a value is a handle, and not which. -/
theorem snapshot_renumber (depth : Nat) (value : Value) :
    (m.renumber σ).snapshot depth (value.renumber σ) = m.snapshot depth value := by
  induction depth generalizing value with
  | zero => cases value <;> rfl
  | succ depth ih =>
    cases value with
    | table id =>
      simp only [Value.renumber, snapshot, table_renumber, Table.renumber, List.map_map,
        Snapshot.table.injEq]
      exact List.map_congr_left fun entry _ => Prod.ext (ih entry.1) (ih entry.2)
    | _ => rfl

theorem snapshots_renumber (depth : Nat) (values : List Value) :
    (values.map (Value.renumber σ)).map ((m.renumber σ).snapshot depth) =
      values.map (m.snapshot depth) := by
  rw [List.map_map]
  exact List.map_congr_left fun value _ => m.snapshot_renumber depth value

end Machine

/-! ### What handles reach -/

/-- The contexts, in a table with its new number. -/
def Contexts.renumber (σ : Renumbering) (contexts : Contexts) : Contexts :=
  contexts.map (HandleTable.renumber σ)

theorem liveAt_renumber (contexts : Contexts) (value : Value) :
    liveAt (contexts.renumber σ) (value.renumber σ) = liveAt contexts value := by
  cases value with
  | handle id handle =>
    cases contexts with
    | none => rfl
    | some table => exact table.resolve_renumber handle
  | _ => rfl

theorem Native.reply_renumber (native : Native) (contexts : Contexts) (subject : Value) :
    native.reply (contexts.renumber σ) (subject.renumber σ) = native.reply contexts subject := by
  unfold Native.reply
  rw [liveAt_renumber]

/-! ### Where every number stays -/

@[simp] theorem Value.renumber_unchanged (v : Value) : v.renumber .unchanged = v := by
  cases v <;> rfl

theorem map_renumber_unchanged (values : List Value) :
    values.map (Value.renumber .unchanged) = values :=
  (List.map_congr_left fun value _ => value.renumber_unchanged).trans (List.map_id _)

theorem Table.renumber_unchanged (table : Table) : table.renumber .unchanged = table := by
  have hentries : table.entries.map (renumberEntry .unchanged) = table.entries := by
    refine (List.map_congr_left fun entry _ => ?_).trans (List.map_id _)
    exact Prod.ext entry.1.renumber_unchanged entry.2.renumber_unchanged
  unfold renumber
  rw [hentries]

theorem Callable.renumber_unchanged (callable : Callable) :
    callable.renumber .unchanged = callable := by
  cases callable with
  | closure scope body =>
    have hscope : scope.renumber .unchanged = scope :=
      (List.map_congr_left fun args _ => map_renumber_unchanged args).trans (List.map_id _)
    rw [Callable.renumber, hscope]
  | walk step entries => rw [Callable.renumber, Value.renumber_unchanged]
  | _ => rfl

theorem Machine.renumber_unchanged (m : Machine) : m.renumber .unchanged = m := by
  have hquestion : ∀ question : Question, question.renumber .unchanged = question := by
    intro question
    unfold Question.renumber
    rw [Value.renumber_unchanged]
  unfold renumber
  rw [funext Table.renumber_unchanged, funext Callable.renumber_unchanged, funext hquestion]
  simp only [Array.map_id_fun', id_eq]

theorem Contexts.renumber_unchanged (contexts : Contexts) :
    Contexts.renumber .unchanged contexts = contexts := by
  cases contexts <;> rfl

end Script

end EventBridge
