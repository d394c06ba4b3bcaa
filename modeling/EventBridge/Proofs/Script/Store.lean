import EventBridge.Script.Machine

/-! # Tables and functions by number

  What a machine has under a number after a table is changed, and after something new is made: a new
  table or function has the next number, and nothing else is touched.
-/

namespace EventBridge.Script.Machine

variable (m : Machine)

/-- A table that is there is changed, and no other. -/
theorem table_setTable (id other : Nat) (table : Table) :
    (m.setTable id table).table other =
      if id = other ∧ id < m.tables.size then table else m.table other := by
  unfold Machine.table setTable
  rw [Array.getElem?_setIfInBounds]
  by_cases hid : id = other
  · subst hid
    by_cases hbound : id < m.tables.size
    · simp [hbound]
    · simp [hbound]
  · simp [hid]

theorem table_setTable_ne {id other : Nat} (h : id ≠ other) (table : Table) :
    (m.setTable id table).table other = m.table other := by
  rw [table_setTable, if_neg fun hid => h hid.1]

theorem table_setTable_self {id : Nat} (h : id < m.tables.size) (table : Table) :
    (m.setTable id table).table id = table := by
  rw [table_setTable, if_pos ⟨rfl, h⟩]

@[simp] theorem size_setTable (id : Nat) (table : Table) :
    (m.setTable id table).tables.size = m.tables.size := Array.size_setIfInBounds

theorem table_newTable (table : Table) (id : Nat) :
    (m.newTable table).2.table id = if id = m.tables.size then table else m.table id := by
  unfold Machine.table newTable
  rw [Array.getElem?_push]
  by_cases hid : id = m.tables.size
  · simp [hid]
  · simp [hid]

theorem table_newTable_of_lt (table : Table) {id : Nat} (h : id < m.tables.size) :
    (m.newTable table).2.table id = m.table id := by
  rw [table_newTable, if_neg (Nat.ne_of_lt h)]

@[simp] theorem size_newTable (table : Table) :
    (m.newTable table).2.tables.size = m.tables.size + 1 := Array.size_push _

theorem functions_newFunction (callable : Callable) (id : Nat) :
    (m.newFunction callable).2.functions[id]? =
      if id = m.functions.size then some callable else m.functions[id]? := by
  unfold newFunction
  exact Array.getElem?_push

/-- A function that is there stays what it is. -/
theorem functions_newFunction_of_some (callable : Callable) {id : Nat} {other : Callable}
    (h : m.functions[id]? = some other) :
    (m.newFunction callable).2.functions[id]? = some other := by
  have hlt : id < m.functions.size := (Array.getElem?_eq_some_iff.1 h).1
  rw [functions_newFunction, if_neg (Nat.ne_of_lt hlt), h]

end EventBridge.Script.Machine
