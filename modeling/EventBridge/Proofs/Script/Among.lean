import EventBridge.Proofs.Discipline.Basic

/-! # Values among given handles

  A script comes by handles only as values that it is given. `Machine.Among S` says that every
  handle in a machine is one of `S`: in its tables, as key or as value, and in its functions.

  The lemmas say of each change to a machine that it stays among `S` if what goes in does. Nothing
  but a handle itself can break that.
-/

namespace EventBridge.Script

variable {S : Handle → Prop}

/-! ### Values -/

/-- A value that is no handle, or one of `S`. -/
def Value.Among (S : Handle → Prop) : Value → Prop
  | .handle _ reference => S reference
  | _ => True

theorem Value.Among.mono {T : Handle → Prop} (hST : ∀ handle, S handle → T handle) {value : Value}
    (h : value.Among S) : value.Among T := by
  cases value with
  | handle id handle => exact hST handle h
  | _ => trivial

theorem Value.among_of_plain {value : Value} (h : value.Plain) : value.Among S := by
  cases value with
  | handle id handle => exact h.elim
  | _ => trivial

/-- Every value is among all handles. -/
theorem Value.among_true (value : Value) : value.Among fun _ => True := by
  cases value <;> trivial

/-! ### Lists of values -/

/-- Values that are all among `S`. -/
def AllAmong (S : Handle → Prop) (values : List Value) : Prop := ∀ value ∈ values, value.Among S

@[simp] theorem allAmong_nil : AllAmong S [] := by simp [AllAmong]

theorem AllAmong.mono {T : Handle → Prop} (hST : ∀ handle, S handle → T handle)
    {values : List Value} (h : AllAmong S values) : AllAmong T values :=
  fun value hmem => (h value hmem).mono hST

theorem allAmong_true (values : List Value) : AllAmong (fun _ => True) values :=
  fun value _ => value.among_true

theorem AllAmong.of_subset {values others : List Value} (h : AllAmong S others)
    (hsub : values ⊆ others) : AllAmong S values := fun value hmem => h value (hsub hmem)

/-! ### Tables -/

/-- A table whose entries are all among `S`. -/
def Table.Among (S : Handle → Prop) (table : Table) : Prop :=
  ∀ entry ∈ table.entries, entry.1.Among S ∧ entry.2.Among S

theorem Table.among_default : (default : Table).Among S := by
  intro entry hmem
  cases hmem

theorem Table.Among.mono {T : Handle → Prop} (hST : ∀ handle, S handle → T handle) {table : Table}
    (h : table.Among S) : table.Among T :=
  fun entry hmem => ⟨(h entry hmem).1.mono hST, (h entry hmem).2.mono hST⟩

/-! ### Functions -/

/-- Arguments that are all among `S`. -/
def Scope.Among (S : Handle → Prop) (scope : Scope) : Prop := ∀ args ∈ scope, AllAmong S args

/-- A function holds the arguments of the functions around it, and the step of a walk. -/
def Callable.Among (S : Handle → Prop) : Callable → Prop
  | .closure scope _ => scope.Among S
  | .walk step _ => step.Among S
  | _ => True

theorem Callable.Among.mono {T : Handle → Prop} (hST : ∀ handle, S handle → T handle)
    {callable : Callable} (h : callable.Among S) : callable.Among T := by
  cases callable with
  | closure scope body => exact fun args hmem => (h args hmem).mono hST
  | walk step entries => exact Value.Among.mono hST h
  | _ => trivial

/-- The tables of a walk are no handles. -/
theorem Callable.holds_iff_among {callable : Callable} :
    callable.Holds (Value.Among S) ↔ callable.Among S := by
  cases callable with
  | walk step entries => exact ⟨And.left, fun h => ⟨h, trivial⟩⟩
  | _ => exact Iff.rfl

/-! ### Machines -/

/-- A machine in which every handle is one of `S`. -/
structure Machine.Among (S : Handle → Prop) (m : Machine) : Prop where
  tables : ∀ table ∈ m.tables, table.Among S
  functions : ∀ callable ∈ m.functions, callable.Among S

namespace Machine

/-- Every machine is among all handles. -/
theorem among_true (m : Machine) : m.Among fun _ => True where
  tables := fun _ _ entry _ => ⟨entry.1.among_true, entry.2.among_true⟩
  functions := by
    intro callable _
    cases callable with
    | closure scope body => exact fun args _ => allAmong_true args
    | walk step entries => exact step.among_true
    | _ => trivial

theorem Among.mono {T : Handle → Prop} (hST : ∀ handle, S handle → T handle) {m : Machine}
    (h : m.Among S) : m.Among T where
  tables := fun table hmem => (h.tables table hmem).mono hST
  functions := fun callable hmem => (h.functions callable hmem).mono hST

theorem Among.table {m : Machine} (h : m.Among S) (id : Nat) : (m.table id).Among S := by
  unfold Machine.table
  cases hid : m.tables[id]? with
  | none => exact Table.among_default
  | some table => exact h.tables table (Array.mem_of_getElem? hid)

theorem Among.function {m : Machine} (h : m.Among S) (id : Nat) :
    Callable.Among S (m.functions[id]?.getD default) := by
  cases hid : m.functions[id]? with
  | none => exact fun args hmem => absurd hmem List.not_mem_nil
  | some callable => exact h.functions callable (Array.mem_of_getElem? hid)

theorem Among.setTable {m : Machine} (h : m.Among S) (id : Nat) {table : Table}
    (htable : table.Among S) : (m.setTable id table).Among S where
  tables := by
    intro other hmem
    rcases Array.mem_or_eq_of_mem_setIfInBounds hmem with hmem | rfl
    · exact h.tables other hmem
    · exact htable
  functions := h.functions

theorem Among.newTable {m : Machine} (h : m.Among S) {table : Table} (htable : table.Among S) :
    (m.newTable table).2.Among S where
  tables := by
    intro other hmem
    rcases Array.mem_push.1 hmem with hmem | rfl
    · exact h.tables other hmem
    · exact htable
  functions := h.functions

theorem Among.newFunction {m : Machine} (h : m.Among S) {callable : Callable}
    (hcallable : callable.Among S) : (m.newFunction callable).2.Among S where
  tables := h.tables
  functions := by
    intro other hmem
    rcases Array.mem_push.1 hmem with hmem | rfl
    · exact h.functions other hmem
    · exact hcallable

theorem Among.newObject {m : Machine} (h : m.Among S) : m.newObject.2.Among S where
  tables := h.tables
  functions := h.functions

/-- A script that has not begun holds no handle. -/
theorem among_initial : Machine.initial.Among S where
  tables := by
    intro table hmem
    rw [show Machine.initial.tables = #[Machine.initial.table globals] from rfl,
      Array.mem_singleton] at hmem
    subst hmem
    intro entry hmem
    rcases List.mem_cons.1 hmem with rfl | hmem
    · exact ⟨trivial, trivial⟩
    · obtain ⟨i, hi, rfl⟩ := List.mem_mapIdx.1 hmem
      exact ⟨trivial, trivial⟩
  functions := by
    intro callable hmem
    obtain ⟨builtin, -, rfl⟩ := List.mem_map.1 (List.mem_toArray.1 hmem)
    trivial

end Machine

end EventBridge.Script
