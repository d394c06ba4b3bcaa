import EventBridge.Proofs.Script.Asking

/-! # What scripts are held to

  A script works with the values that it comes by, and changes a machine by a few operations only. A
  `Discipline` says which values it may come by and which machines it may be run in, and has a law
  for each of those operations. Whatever is built from them then keeps to it: a piece of a script
  that is given allowed values, in a sound machine, leaves a sound machine and gives allowed values.

  * `World` is what is known of a run besides its machine. It only grows (`Later`), and a value that
    is allowed stays so.
  * A table can have fields that a script reads through and never gets hold of: `Window` is what
    such a metatable has to be like.
  * `Discipline.Keeps` says of a computation that it keeps to a discipline, started at any later
    time. The rules follow the ways to put computations together.
-/

namespace EventBridge.Script

/-- A value that stands for nothing but itself, or for an object without contents. -/
def Value.Plain : Value → Prop
  | .table _ | .function _ | .handle .. | .failure .. => False
  | _ => True

/-! ### Holding values -/

/-- The values that a function holds on to. -/
def Callable.Holds (allows : Value → Prop) : Callable → Prop
  | .closure scope _ => ∀ args ∈ scope, ∀ value ∈ args, allows value
  | .walk step entries => allows step ∧ allows (.table entries)
  | _ => True

/-- The entries of a table. -/
def Table.Holds (allows : Value → Prop) (table : Table) : Prop :=
  ∀ entry ∈ table.entries, allows entry.1 ∧ allows entry.2

theorem Callable.Holds.imp {allows allows' : Value → Prop} {callable : Callable}
    (h : callable.Holds allows) (himp : ∀ value, allows value → allows' value) :
    callable.Holds allows' := by
  cases callable with
  | closure scope body => exact fun args hargs value hmem => himp value (h args hargs value hmem)
  | walk step entries => exact ⟨himp _ h.1, himp _ h.2⟩
  | _ => trivial

section Tables

variable {allows : Value → Prop}

theorem Table.holds_default : (default : Table).Holds allows := by
  intro entry hmem
  cases hmem

variable (hplain : ∀ {value : Value}, value.Plain → allows value) {table : Table}

include hplain

/-- The key under which a value finds its entry is the value itself, or a number. -/
theorem Value.allows_key {value : Value} (h : allows value) : allows value.key := by
  cases value with
  | float x =>
    simp only [Value.key]
    split
    · exact hplain trivial
    · exact h
  | _ => exact h

theorem Table.Holds.get (h : table.Holds allows) (key : Value) : allows (table.get key) := by
  unfold Table.get
  cases hget : table.entries.lookup key.key with
  | none => exact hplain trivial
  | some value =>
    obtain ⟨front, rest, hentries, -⟩ := List.lookup_eq_some_iff.1 hget
    have hmem : (key.key, value) ∈ table.entries := by simp [hentries]
    exact (h _ hmem).2

theorem Table.Holds.set (h : table.Holds allows) {key value : Value} (hkey : allows key)
    (hvalue : allows value) : (table.set key value).Holds allows := by
  have hothers : ∀ entry ∈ Keyed.erase key.key table.entries, allows entry.1 ∧ allows entry.2 :=
    fun entry hmem => h entry (List.mem_filter.1 hmem).1
  intro entry hmem
  simp only [Table.set] at hmem
  split at hmem
  · exact hothers entry hmem
  · rcases List.mem_append.1 hmem with hmem | hmem
    · exact hothers entry hmem
    · rw [List.mem_singleton.1 hmem]
      exact ⟨Value.allows_key hplain hkey, hvalue⟩

end Tables

/-- A table without a metatable, as what it holds can be read through another one. -/
structure Machine.Bare (allows : Value → Prop) (m : Machine) (id : Nat) : Prop where
  holds : (m.table id).Holds allows
  metatable : (m.table id).metatable = none

/-- A metatable that no script gets: what its tables read through need not be allowed, as long as it
    is without a metatable of its own, and walks go over it by the function in place. -/
structure Machine.Window (allows : Value → Prop) (m : Machine) (metatable : Nat) : Prop where
  locked : (m.table metatable).field "__metatable" ≠ .nil
  index : ∃ entries, (m.table metatable).field "__index" = .table entries ∧ m.Bare allows entries
  pairs : ∃ walk step entries, (m.table metatable).field "__pairs" = .function walk ∧
    m.functions[walk]? = some (.walk (.function step) entries) ∧
    m.functions[step]? = some (.builtin .next) ∧ m.Bare allows entries
  others : ∀ name, name ≠ "__index" → name ≠ "__pairs" →
    allows ((m.table metatable).field name)

/-- What scripts are held to. -/
structure Discipline where
  World : Type
  Later : World → World → Prop
  /-- The machines that a script may be run in. -/
  Sound : World → Machine → Prop
  /-- The values that a script may come by. -/
  Allows : World → Value → Prop
  /-- The contexts that a script may be run with. -/
  Admits : Contexts → Prop
  refl : ∀ w, Later w w
  trans : ∀ {w w' w''}, Later w w' → Later w' w'' → Later w w''
  later : ∀ {w w' value}, Later w w' → Allows w value → Allows w' value
  plain : ∀ w {value : Value}, value.Plain → Allows w value
  globals : ∀ w, Allows w (.table Machine.globals)
  /-- What an allowed table holds. -/
  table : ∀ {w m id}, Sound w m → Allows w (.table id) → (m.table id).Holds (Allows w)
  metatable : ∀ {w m id other}, Sound w m → Allows w (.table id) →
    (m.table id).metatable = some other → Allows w (.table other) ∨ m.Window (Allows w) other
  /-- What an allowed function holds. -/
  function : ∀ {w m id}, Sound w m → Allows w (.function id) →
    Callable.Holds (Allows w) (m.functions[id]?.getD default)
  setEntry : ∀ {w m id key value}, Sound w m → Allows w (.table id) → Allows w key →
    Allows w value → Sound w (m.setTable id ((m.table id).set key value))
  setMeta : ∀ {w m id} {other : Option Nat}, Sound w m → Allows w (.table id) →
    m.metafield id "__metatable" = .nil → (∀ o, other = some o → Allows w (.table o)) →
    Sound w (m.setTable id { m.table id with metatable := other })
  newTable : ∀ {w m table}, Sound w m → table.Holds (Allows w) →
    (∀ other, table.metatable = some other → Allows w (.table other)) →
    Sound w (m.newTable table).2 ∧ Allows w (.table m.tables.size)
  newFunction : ∀ {w m callable}, Sound w m → Callable.Holds (Allows w) callable →
    Sound w (m.newFunction callable).2 ∧ Allows w (.function m.functions.size)
  newObject : ∀ {w m}, Sound w m → Sound w m.newObject.2
  record : ∀ {w m} (records : Array (List Snapshot)), Sound w m → Sound w { m with records }
  /-- A refusal to write to a table of native functions. -/
  readOnly : ∀ {w m} (name : String), Sound w m →
    ∃ w', Later w w' ∧ Sound w' m.newObject.2 ∧
      Allows w' (.failure m.nextObject (.readOnly name))
  /-- A question that the engine answers. -/
  answered : ∀ {w m contexts subject} (native : Native) {results : List Value}, Sound w m →
    Admits contexts → Allows w subject → native.reply contexts subject = .ok results →
    ∃ w', Later w w' ∧ Sound w' (m.noting ⟨native, subject, .ok results⟩)
  /-- A question that is refused. -/
  refused : ∀ {w m contexts subject} (native : Native) {cause : Refusal}, Sound w m →
    Admits contexts → Allows w subject → native.reply contexts subject = .error cause →
    ∃ w', Later w w' ∧ Sound w' (m.noting ⟨native, subject, .error cause⟩).newObject.2 ∧
      Allows w' (.failure m.nextObject cause)

namespace Discipline

variable {D : Discipline} {w w' : D.World} {m : Machine}

/-! ### Plain values -/

theorem allows_nil (w : D.World) : D.Allows w .nil := D.plain w trivial

theorem allows_boolean (w : D.World) (b : Bool) : D.Allows w (.boolean b) := D.plain w trivial

theorem allows_integer (w : D.World) (n : Int64) : D.Allows w (.integer n) := D.plain w trivial

theorem allows_string (w : D.World) (bytes : ByteArray) : D.Allows w (.string bytes) :=
  D.plain w trivial

theorem allows_ofText (w : D.World) (text : String) : D.Allows w (Value.ofText text) :=
  D.plain w trivial

/-! ### Lists of values -/

/-- Values that are all allowed. -/
def AllowsAll (D : Discipline) (w : D.World) (values : List Value) : Prop :=
  ∀ value ∈ values, D.Allows w value

@[simp] theorem allowsAll_nil : D.AllowsAll w [] := by simp [AllowsAll]

@[simp] theorem allowsAll_cons {value : Value} {values : List Value} :
    D.AllowsAll w (value :: values) ↔ D.Allows w value ∧ D.AllowsAll w values := by
  simp [AllowsAll]

theorem AllowsAll.single {value : Value} (h : D.Allows w value) : D.AllowsAll w [value] :=
  allowsAll_cons.2 ⟨h, allowsAll_nil⟩

theorem AllowsAll.later {values : List Value} (h : D.AllowsAll w values) (hw : D.Later w w') :
    D.AllowsAll w' values := fun value hmem => D.later hw (h value hmem)

theorem AllowsAll.of_plain {values : List Value} (h : ∀ value ∈ values, value.Plain) :
    D.AllowsAll w values := fun value hmem => D.plain w (h value hmem)

theorem AllowsAll.of_subset {values others : List Value} (h : D.AllowsAll w others)
    (hsub : values ⊆ others) : D.AllowsAll w values := fun value hmem => h value (hsub hmem)

theorem AllowsAll.append {values others : List Value} (h : D.AllowsAll w values)
    (h' : D.AllowsAll w others) : D.AllowsAll w (values ++ others) := by
  intro value hmem
  rcases List.mem_append.1 hmem with hmem | hmem
  · exact h value hmem
  · exact h' value hmem

theorem AllowsAll.getElem? {values : List Value} (h : D.AllowsAll w values) {i : Nat}
    {value : Value} (hi : values[i]? = some value) : D.Allows w value :=
  h value (List.mem_of_getElem? hi)

/-- A value of a list, or nil where the list ends. -/
theorem AllowsAll.getD {values : List Value} (h : D.AllowsAll w values) (i : Nat) :
    D.Allows w (values.getD i .nil) := by
  rw [List.getD_eq_getElem?_getD]
  cases hi : values[i]? with
  | none => exact allows_nil w
  | some value => exact h.getElem? hi

/-- The last value of a list, or nil where there is none. -/
theorem AllowsAll.getLastD {values : List Value} (h : D.AllowsAll w values) :
    D.Allows w (values.getLastD .nil) := by
  rw [List.getLastD_eq_getLast?]
  cases hlast : values.getLast? with
  | none => exact allows_nil w
  | some value => exact h value (List.mem_of_getLast? hlast)

theorem AllowsAll.firstOf {values : List Value} (h : D.AllowsAll w values) :
    D.Allows w (firstOf values) := by
  cases values with
  | nil => exact allows_nil w
  | cons value rest => exact h value List.mem_cons_self

/-! ### Tables -/

/-- The entry behind a key is one of the table. -/
theorem holds_entryAfter {table : Table} (h : table.Holds (D.Allows w)) {key : Value}
    {results : List Value} (hresults : entryAfter table key = some results) :
    D.AllowsAll w results := by
  obtain ⟨rest, hrest, hhead⟩ := Option.map_eq_some_iff.1 hresults
  have hsub : ∀ entry ∈ rest, entry ∈ table.entries := by
    split at hrest
    · cases hrest
      exact fun entry hmem => hmem
    · split at hrest
      · next first others hdrop =>
        cases hrest
        intro entry hmem
        have hmem : entry ∈ first :: rest := List.mem_cons_of_mem _ hmem
        rw [← hdrop] at hmem
        exact (List.dropWhile_sublist _).subset hmem
      · cases hrest
  split at hhead
  · next k v others =>
    cases hhead
    obtain ⟨hk, hv⟩ := h _ (hsub _ List.mem_cons_self)
    exact allowsAll_cons.2 ⟨hk, .single hv⟩
  · cases hhead
    exact .single (allows_nil w)

/-- Values under `1`, `2` and so on. -/
theorem holds_numbered {values : List Value} (h : D.AllowsAll w values) :
    (numbered values).Holds (D.Allows w) := by
  -- The table grows with each value, so the induction is about any table to start from.
  have hfold : ∀ (pairs : List (Value × Nat)) (table : Table), table.Holds (D.Allows w) →
      (∀ pair ∈ pairs, D.Allows w pair.1) →
      (pairs.foldl (fun table pair =>
        table.set (.integer (Int64.ofNat (pair.2 + 1))) pair.1) table).Holds (D.Allows w) := by
    intro pairs
    induction pairs with
    | nil => exact fun table htable _ => htable
    | cons pair pairs ih =>
      intro table htable hpairs
      have hkey := allows_integer w (Int64.ofNat (pair.2 + 1))
      exact ih _ (htable.set (D.plain w) hkey (hpairs pair List.mem_cons_self))
        fun other hmem => hpairs other (List.mem_cons_of_mem _ hmem)
  refine hfold _ _ Table.holds_default fun pair hmem => ?_
  exact h _ (List.fst_mem_of_mem_zipIdx hmem)

theorem holds_packed {values : List Value} (h : D.AllowsAll w values) :
    (packed values).Holds (D.Allows w) :=
  (holds_numbered h).set (D.plain w) (allows_ofText w "n") (allows_integer w _)

/-! ### Metatables -/

/-- What the metatable of an allowed table says is allowed, apart from the two fields that a window
    keeps to itself. -/
theorem allows_metafield (hm : D.Sound w m) {id : Nat} (hid : D.Allows w (.table id))
    {name : String} (hindex : name ≠ "__index") (hpairs : name ≠ "__pairs") :
    D.Allows w (m.metafield id name) := by
  unfold Machine.metafield
  cases hmeta : (m.table id).metatable with
  | none => exact allows_nil w
  | some other =>
    rcases D.metatable hm hid hmeta with hother | hwindow
    · exact (D.table hm hother).get (D.plain w) _
    · exact hwindow.others name hindex hpairs

/-- Reading on goes to an allowed value, or into a table that a window is in front of. -/
theorem metafield_index (hm : D.Sound w m) {id : Nat} (hid : D.Allows w (.table id)) :
    D.Allows w (m.metafield id "__index") ∨
      ∃ entries, m.metafield id "__index" = .table entries ∧ m.Bare (D.Allows w) entries := by
  unfold Machine.metafield
  cases hmeta : (m.table id).metatable with
  | none => exact .inl (allows_nil w)
  | some other =>
    rcases D.metatable hm hid hmeta with hother | hwindow
    · exact .inl ((D.table hm hother).get (D.plain w) _)
    · exact .inr hwindow.index

/-- A walk begins with an allowed value, or goes over a table that a window is in front of. -/
theorem metafield_pairs (hm : D.Sound w m) {id : Nat} (hid : D.Allows w (.table id)) :
    D.Allows w (m.metafield id "__pairs") ∨
      ∃ walk step entries, m.metafield id "__pairs" = .function walk ∧
        m.functions[walk]? = some (.walk (.function step) entries) ∧
        m.functions[step]? = some (.builtin .next) ∧ m.Bare (D.Allows w) entries := by
  unfold Machine.metafield
  cases hmeta : (m.table id).metatable with
  | none => exact .inl (allows_nil w)
  | some other =>
    rcases D.metatable hm hid hmeta with hother | hwindow
    · exact .inl ((D.table hm hother).get (D.plain w) _)
    · exact .inr hwindow.pairs

/-- A metatable that a script is shown is one that it may come by. -/
theorem allows_metatable (hm : D.Sound w m) {id other : Nat} (hid : D.Allows w (.table id))
    (hmeta : (m.table id).metatable = some other) (hopen : m.metafield id "__metatable" = .nil) :
    D.Allows w (.table other) := by
  rcases D.metatable hm hid hmeta with hother | hwindow
  · exact hother
  · -- A window is locked, so that it is not the one that is shown.
    have hlocked : m.metafield id "__metatable" = (m.table other).field "__metatable" := by
      unfold Machine.metafield
      rw [hmeta]
    exact absurd (hlocked ▸ hopen) hwindow.locked

/-! ### Functions -/

/-- The arguments of the functions around a piece of code. -/
def AllowsScope (D : Discipline) (w : D.World) (scope : Scope) : Prop :=
  ∀ args ∈ scope, D.AllowsAll w args

theorem AllowsScope.later {scope : Scope} (h : D.AllowsScope w scope) (hw : D.Later w w') :
    D.AllowsScope w' scope := fun args hmem => (h args hmem).later hw

theorem AllowsScope.cons {scope : Scope} (h : D.AllowsScope w scope) {args : List Value}
    (hargs : D.AllowsAll w args) : D.AllowsScope w (args :: scope) := by
  intro others hmem
  rcases List.mem_cons.1 hmem with rfl | hmem
  · exact hargs
  · exact h others hmem

theorem AllowsScope.argument {scope : Scope} (h : D.AllowsScope w scope) (level index : Nat) :
    D.Allows w (scope.argument level index) := by
  unfold Scope.argument
  split
  · exact allows_nil w
  · have hargs : D.AllowsAll w (scope.getD level []) := by
      rw [List.getD_eq_getElem?_getD]
      cases hlevel : scope[level]? with
      | none => exact allowsAll_nil
      | some args => exact h args (List.mem_of_getElem? hlevel)
    exact hargs.getD _

end Discipline

end EventBridge.Script
