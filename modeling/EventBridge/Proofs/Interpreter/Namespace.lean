import EventBridge.Proofs.Discipline.Dispatcher
import EventBridge.Proofs.Script.Globals

/-! # Namespaces of native functions

  What registration makes of a list of native functions in an interpreter that has run nothing: the
  functions, a table of them, and the table that scripts get, which is empty and has a metatable
  that goes on to the other one.

  * `FirstRepeats` is the name for which registration is refused; without one it goes through
    (`exec_register_of_nodup`).
  * `Namespace.Sealed` says of a machine that the namespace is in it as it was registered: the table
    of functions, the metatable and the function that begins a walk are held by nothing that a
    script can come by.
  * `Namespace.discipline`: this is kept by whatever scripts do, as it is by each of the operations
    that `Discipline` lists.
-/

namespace EventBridge

open Host (exec)
open Script (Callable Discipline Machine Table Value)

/-! ### Names -/

/-- The first name that occurs again after it has occurred. -/
def FirstRepeats (natives : List NativeEntry) (name : String) : Prop :=
  ∃ front entry rest, natives = front ++ entry :: rest ∧ entry.name = name ∧
    (front.map NativeEntry.name).Nodup ∧ name ∈ front.map NativeEntry.name

/-- Looking for a repeated name, after some names that have occurred. -/
theorem firstRepeated_cases (seen : List String) (natives : List NativeEntry) :
    (firstRepeated seen natives = none ∧ (natives.map NativeEntry.name).Nodup ∧
      ∀ name ∈ natives.map NativeEntry.name, name ∉ seen) ∨
    ∃ front entry rest, natives = front ++ entry :: rest ∧
      firstRepeated seen natives = some entry.name ∧ (front.map NativeEntry.name).Nodup ∧
      (∀ name ∈ front.map NativeEntry.name, name ∉ seen) ∧
      (entry.name ∈ seen ∨ entry.name ∈ front.map NativeEntry.name) := by
  induction natives generalizing seen with
  | nil => exact .inl ⟨rfl, List.nodup_nil, nofun⟩
  | cons entry rest ih =>
    by_cases hseen : entry.name ∈ seen
    · refine .inr ⟨[], entry, rest, rfl, ?_, List.nodup_nil, nofun, .inl hseen⟩
      rw [firstRepeated, if_pos hseen]
    · -- From here on the name of this entry has occurred as well.
      rw [firstRepeated, if_neg hseen]
      rcases ih (entry.name :: seen) with ⟨hnone, hnodup, hfresh⟩ |
        ⟨front, other, back, rfl, hsome, hnodup, hfresh, hother⟩
      · refine .inl ⟨hnone, List.nodup_cons.2 ⟨fun hmem => ?_, hnodup⟩, ?_⟩
        · exact hfresh entry.name hmem List.mem_cons_self
        · intro name hmem
          rcases List.mem_cons.1 hmem with rfl | hmem
          · exact hseen
          · exact fun h => hfresh name hmem (List.mem_cons_of_mem _ h)
      · refine .inr ⟨entry :: front, other, back, rfl, hsome, ?_, ?_, ?_⟩
        · refine List.nodup_cons.2 ⟨fun hmem => ?_, hnodup⟩
          exact hfresh entry.name hmem List.mem_cons_self
        · intro name hmem
          rcases List.mem_cons.1 hmem with rfl | hmem
          · exact hseen
          · exact fun h => hfresh name hmem (List.mem_cons_of_mem _ h)
        · rcases hother with hother | hother
          · rcases List.mem_cons.1 hother with heq | hother
            · exact .inr (heq ▸ List.mem_cons_self)
            · exact .inl hother
          · exact .inr (List.mem_cons_of_mem _ hother)

/-- Registration looks for the first repeated name, and goes on if there is none. -/
theorem firstRepeated_nil (natives : List NativeEntry) :
    (firstRepeated [] natives = none ∧ (natives.map NativeEntry.name).Nodup) ∨
      ∃ name, firstRepeated [] natives = some name ∧ FirstRepeats natives name := by
  rcases firstRepeated_cases [] natives with ⟨hnone, hnodup, -⟩ |
    ⟨front, entry, rest, rfl, hsome, hnodup, -, hmem⟩
  · exact .inl ⟨hnone, hnodup⟩
  · exact .inr ⟨entry.name, hsome, front, entry, rest, rfl, rfl, hnodup,
      hmem.resolve_left List.not_mem_nil⟩

/-- A repeated name stops registration before it has made anything. -/
theorem exec_register_of_repeated {natives : List NativeEntry} {name : String}
    (h : firstRepeated [] natives = some name) (namespaceName : String) (i : Interpreter) :
    exec (Host.register namespaceName natives) i = (.error (.duplicateNative name), i) := by
  unfold Host.register
  rw [h]
  rfl

/-! ### What is registered -/

/-- A namespace: a name for scripts, and the functions under it. -/
structure Namespace where
  name : String
  natives : List NativeEntry

namespace Namespace

/-- The number of the table of functions. -/
def entries : Nat := 1

/-- The number of the metatable of the table that scripts get. -/
def metatable : Nat := 2

/-- The number of the table that scripts get. -/
def view : Nat := 3

/-- The number of the function in place that a walk goes by. -/
def step : Nat := 5

/-- The number of the first function, behind those in place. -/
def first : Nat := 7

variable (n : Namespace)

/-- The number of the function that begins a walk. -/
def walk : Nat := first + n.natives.length

/-- The number of the function that refuses to write. -/
def refusal : Nat := first + n.natives.length + 1

/-- The functions by name. -/
def functions : Table :=
  ⟨n.natives.mapIdx fun i entry => (Value.ofText entry.name, .function (first + i)), none⟩

/-- The metatable of the table that scripts get. -/
def metafields : Table :=
  ⟨[(Value.ofText "__index", .table entries), (Value.ofText "__newindex", .function n.refusal),
    (Value.ofText "__pairs", .function n.walk), (Value.ofText "__metatable", .boolean false)], none⟩

/-- A value that is none of the objects that registration keeps to itself. -/
structure Open (value : Value) : Prop where
  entries : value ≠ .table entries
  metatable : value ≠ .table metatable
  walk : value ≠ .function n.walk

/-- The namespace is as it was registered, and nothing that a script can come by holds what belongs
    to it alone. -/
structure Sealed (m : Machine) : Prop where
  entries : m.table entries = n.functions
  metatable : m.table metatable = n.metafields
  view : (m.table view).metatable = some Namespace.metatable
  there : Namespace.view < m.tables.size
  natives : ∀ i entry, n.natives[i]? = some entry →
    m.functions[first + i]? = some (.native entry.native)
  step : m.functions[step]? = some (.builtin .next)
  walk : m.functions[n.walk]? = some (.walk (.function Namespace.step) Namespace.entries)
  refusal : m.functions[n.refusal]? = some (.refuseWrite n.name)
  tables : ∀ id, n.Open (.table id) → (m.table id).Holds n.Open
  metatables : ∀ id other, id ≠ Namespace.view → (m.table id).metatable = some other →
    n.Open (.table other)
  callables : ∀ id, n.Open (.function id) → Callable.Holds n.Open (m.functions[id]?.getD default)

variable {n} {m : Machine}

theorem open_table {id : Nat} : n.Open (.table id) ↔ id ≠ entries ∧ id ≠ metatable :=
  ⟨fun h => ⟨fun heq => h.entries (heq ▸ rfl), fun heq => h.metatable (heq ▸ rfl)⟩,
    fun h => ⟨fun heq => h.1 (Value.table.inj heq), fun heq => h.2 (Value.table.inj heq), nofun⟩⟩

theorem open_function {id : Nat} : n.Open (.function id) ↔ id ≠ n.walk :=
  ⟨fun h heq => h.walk (heq ▸ rfl), fun h => ⟨nofun, nofun, fun heq => h (Value.function.inj heq)⟩⟩

theorem open_of_plain {value : Value} (h : value.Plain) : n.Open value where
  entries := by
    rintro rfl
    exact h
  metatable := by
    rintro rfl
    exact h
  walk := by
    rintro rfl
    exact h

theorem open_failure (id : Nat) (cause : Script.Refusal) : n.Open (.failure id cause) :=
  ⟨nofun, nofun, nofun⟩

theorem open_view : n.Open (.table view) := open_table.2 ⟨by decide, by decide⟩

/-- The functions themselves are for scripts. -/
theorem holds_functions : n.functions.Holds n.Open := by
  intro entry hmem
  obtain ⟨i, hi, rfl⟩ := List.mem_mapIdx.1 hmem
  refine ⟨open_of_plain trivial, open_function.2 ?_⟩
  show first + i ≠ first + n.natives.length
  omega

/-! ### What keeps it so -/

/-- Only tables and functions matter. -/
theorem Sealed.of_eq {m' : Machine} (h : n.Sealed m) (htables : m'.tables = m.tables)
    (hfunctions : m'.functions = m.functions) : n.Sealed m' := by
  have htable : ∀ id, m'.table id = m.table id := fun id => by
    unfold Machine.table
    rw [htables]
  constructor
  · rw [htable, h.entries]
  · rw [htable, h.metatable]
  · rw [htable, h.view]
  · rw [htables]
    exact h.there
  · rw [hfunctions]
    exact h.natives
  · rw [hfunctions]
    exact h.step
  · rw [hfunctions]
    exact h.walk
  · rw [hfunctions]
    exact h.refusal
  · intro id hid
    rw [htable]
    exact h.tables id hid
  · intro id other hid
    rw [htable]
    exact h.metatables id other hid
  · intro id hid
    rw [hfunctions]
    exact h.callables id hid

/-- A table that a script can come by may be changed, as far as that does not let anything out. -/
theorem Sealed.setTable (h : n.Sealed m) {id : Nat} (hid : n.Open (.table id)) {table : Table}
    (hholds : table.Holds n.Open)
    (hview : id = Namespace.view → table.metatable = some Namespace.metatable)
    (hmeta : id ≠ Namespace.view → ∀ other, table.metatable = some other → n.Open (.table other)) :
    n.Sealed (m.setTable id table) := by
  -- What belongs to the namespace alone is not open, so that it is another table that changes.
  obtain ⟨hentries, hmetatable⟩ := open_table.1 hid
  constructor
  · rw [Machine.table_setTable_ne _ hentries, h.entries]
  · rw [Machine.table_setTable_ne _ hmetatable, h.metatable]
  · rw [Machine.table_setTable]
    split
    · next hview' => exact hview hview'.1
    · exact h.view
  · rw [Machine.size_setTable]
    exact h.there
  · exact h.natives
  · exact h.step
  · exact h.walk
  · exact h.refusal
  · intro other hother
    rw [Machine.table_setTable]
    split
    · exact hholds
    · exact h.tables other hother
  · intro other above hother
    rw [Machine.table_setTable]
    split
    · next heq =>
      obtain ⟨rfl, -⟩ := heq
      exact hmeta hother above
    · exact h.metatables other above hother
  · exact h.callables

theorem Sealed.newTable (h : n.Sealed m) {table : Table} (hholds : table.Holds n.Open)
    (hmeta : ∀ other, table.metatable = some other → n.Open (.table other)) :
    n.Sealed (m.newTable table).2 := by
  -- The tables of the namespace were there before, so that the new one has a number of its own.
  have hthere := h.there
  have hlt : ∀ id, id ≤ Namespace.view → id < m.tables.size := fun id hid => by omega
  constructor
  · rw [Machine.table_newTable_of_lt _ _ (hlt _ (by decide)), h.entries]
  · rw [Machine.table_newTable_of_lt _ _ (hlt _ (by decide)), h.metatable]
  · rw [Machine.table_newTable_of_lt _ _ (hlt _ (by decide)), h.view]
  · rw [Machine.size_newTable]
    omega
  · exact h.natives
  · exact h.step
  · exact h.walk
  · exact h.refusal
  · intro id hid
    rw [Machine.table_newTable]
    split
    · exact hholds
    · exact h.tables id hid
  · intro id other hid
    rw [Machine.table_newTable]
    split
    · exact hmeta other
    · exact h.metatables id other hid
  · exact h.callables

theorem Sealed.newFunction (h : n.Sealed m) {callable : Callable} (hholds : callable.Holds n.Open) :
    n.Sealed (m.newFunction callable).2 := by
  constructor
  · exact h.entries
  · exact h.metatable
  · exact h.view
  · exact h.there
  · exact fun i entry hi => m.functions_newFunction_of_some callable (h.natives i entry hi)
  · exact m.functions_newFunction_of_some callable h.step
  · exact m.functions_newFunction_of_some callable h.walk
  · exact m.functions_newFunction_of_some callable h.refusal
  · exact h.tables
  · exact h.metatables
  · intro id hid
    rw [Machine.functions_newFunction]
    split
    · exact hholds
    · exact h.callables id hid

/-- What the metatable has under a name. -/
theorem field_metafields (name : String) : n.metafields.field name =
    if name = "__index" then .table entries
    else if name = "__newindex" then .function n.refusal
    else if name = "__pairs" then .function n.walk
    else if name = "__metatable" then .boolean false
    else .nil := by
  have hbeq : ∀ text : String, (Value.ofText name == Value.ofText text) = decide (name = text) := by
    intro text
    by_cases h : name = text
    · simp [h]
    · have hne : Value.ofText name ≠ Value.ofText text := fun heq => h (Value.ofText_inj heq)
      simp [h, hne]
  have hkey : (Value.ofText name).key = Value.ofText name := rfl
  unfold metafields Table.field Table.get
  rw [hkey]
  simp only [List.lookup_cons, hbeq, List.lookup_nil]
  by_cases hindex : name = "__index"
  · simp [hindex]
  by_cases hnew : name = "__newindex"
  · simp [hnew]
  by_cases hpairs : name = "__pairs"
  · simp [hpairs]
  by_cases hmeta : name = "__metatable"
  · simp [hmeta]
  simp [hindex, hnew, hpairs, hmeta]

/-- What a lookup in the table of scripts is told by the metatable. -/
theorem Sealed.metafield (h : n.Sealed m) (name : String) :
    m.metafield Namespace.view name = n.metafields.field name := by
  unfold Machine.metafield
  rw [h.view]
  dsimp only
  rw [h.metatable]

/-- The metatable lets nothing out. -/
theorem Sealed.window (h : n.Sealed m) : m.Window n.Open Namespace.metatable := by
  have hbare : m.Bare n.Open Namespace.entries := by
    constructor
    · rw [h.entries]
      exact holds_functions
    · rw [h.entries]
      rfl
  constructor
  · rw [h.metatable, field_metafields]
    exact nofun
  · refine ⟨Namespace.entries, ?_, hbare⟩
    rw [h.metatable, field_metafields]
    rfl
  · refine ⟨n.walk, Namespace.step, Namespace.entries, ?_, h.walk, h.step, hbare⟩
    rw [h.metatable, field_metafields]
    rfl
  · intro name hindex hpairs
    rw [h.metatable, field_metafields, if_neg hindex, if_neg hpairs]
    have hrefusal : n.Open (.function n.refusal) := open_function.2 (Nat.succ_ne_self _)
    split
    · exact hrefusal
    · split <;> exact open_of_plain trivial

/-- Scripts are held to leave a namespace sealed. Anything may be come by but what belongs to it
    alone. -/
def discipline (n : Namespace) : Discipline where
  World := Unit
  Later _ _ := True
  Sound _ := n.Sealed
  Allows _ := n.Open
  Admits _ := True
  refl _ := trivial
  trans _ _ := trivial
  later _ h := h
  plain _ _ h := open_of_plain h
  globals _ := open_table.2 ⟨by decide, by decide⟩
  table h hid := h.tables _ hid
  metatable := by
    intro _ m id other h _ hmeta
    by_cases hview : id = view
    · subst hview
      rw [h.view] at hmeta
      cases hmeta
      exact .inr h.window
    · exact .inl (h.metatables id other hview hmeta)
  function h hid := h.callables _ hid
  setEntry := by
    intro _ m id key value h hid hkey hvalue
    refine h.setTable hid ((h.tables id hid).set open_of_plain hkey hvalue) ?_ ?_
    · rintro rfl
      exact h.view
    · exact fun hview other hmeta => h.metatables id other hview hmeta
  setMeta := by
    intro _ m id other h hid hopen hother
    -- The table of scripts itself is locked.
    have hview : id ≠ view := by
      rintro rfl
      rw [h.metafield, field_metafields] at hopen
      cases hopen
    exact h.setTable hid (h.tables id hid) (fun heq => absurd heq hview) fun _ => hother
  newTable := by
    intro _ m table h hholds hmeta
    have hthere := h.there
    refine ⟨h.newTable hholds hmeta, open_table.2 ⟨?_, ?_⟩⟩
    · unfold view at hthere
      unfold entries
      omega
    · unfold view at hthere
      unfold metatable
      omega
  newFunction := by
    intro _ m callable h hholds
    have hwalk : n.walk < m.functions.size := (Array.getElem?_eq_some_iff.1 h.walk).1
    exact ⟨h.newFunction hholds, open_function.2 (Nat.ne_of_gt hwalk)⟩
  newObject h := h.of_eq rfl rfl
  record _ h := h.of_eq rfl rfl
  readOnly _ h := ⟨(), trivial, h.of_eq rfl rfl, open_failure _ _⟩
  answered _ _ h _ _ _ := ⟨(), trivial, h.of_eq rfl rfl⟩
  refused _ _ h _ _ _ := ⟨(), trivial, h.of_eq rfl rfl, open_failure _ _⟩

theorem anyContexts (n : Namespace) : n.discipline.AnyContexts where
  admits _ := trivial
  handles _ _ _ := ⟨nofun, nofun, nofun⟩

/-! ### Registration -/

/-- What each of the functions does. -/
def callables (natives : List NativeEntry) : List Callable :=
  natives.map fun entry => .native entry.native

/-- The script as registration leaves it, if it has run nothing before. -/
def machine (n : Namespace) : Machine where
  tables := #[(Machine.initial.table Machine.globals).set (Value.ofText n.name) (.table view),
    n.functions, n.metafields, ⟨[], some metatable⟩]
  functions := (Machine.initial.functions ++ (callables n.natives).toArray).push
    (.walk (.function step) entries) |>.push (.refuseWrite n.name)
  nextObject := 0
  records := #[]
  questions := #[]

/-- The functions are made one after the other. -/
theorem exec_nativeTable (natives : List NativeEntry) (i : Interpreter) :
    exec (Host.nativeTable natives) i =
      (.ok ⟨natives.mapIdx fun k entry =>
          (Value.ofText entry.name, .function (i.machine.functions.size + k)), none⟩,
        { i with machine := { i.machine with
          functions := i.machine.functions ++ (callables natives).toArray } }) := by
  -- Each function takes the next number, so the induction is about any interpreter.
  induction natives generalizing i with
  | nil =>
    rw [Host.nativeTable, Host.exec_pure]
    simp [callables]
    rfl
  | cons entry rest ih =>
    have hnew : exec (Host.newFunction (.native entry.native)) i =
        (.ok (.function i.machine.functions.size),
          { i with machine := (i.machine.newFunction (.native entry.native)).2 }) := rfl
    have hfunctions : (i.machine.newFunction (.native entry.native)).2.functions ++
        (callables rest).toArray =
          i.machine.functions ++ (callables (entry :: rest)).toArray := by
      simp [Machine.newFunction, callables]
    rw [Host.nativeTable, Host.exec_bind, hnew]
    dsimp only
    rw [Host.exec_bind, ih, hfunctions]
    simp [Machine.newFunction, List.mapIdx_cons, Nat.add_assoc, Nat.add_comm 1]

/-- The table for scripts is made of two functions and a metatable, by what `next` is then. -/
theorem exec_readOnlyView {i : Interpreter} {next : Nat}
    (hnext : (i.machine.table Machine.globals).get (.string "next".toUTF8) = .function next)
    (name : String) (entries : Nat) :
    exec (Host.readOnlyView name entries) i =
      (.ok (i.machine.tables.size + 1), { i with machine := { i.machine with
        functions := (i.machine.functions.push (.walk (.function next) entries)).push
          (.refuseWrite name)
        tables := (i.machine.tables.push ⟨[(Value.ofText "__index", .table entries),
          (Value.ofText "__newindex", .function (i.machine.functions.size + 1)),
          (Value.ofText "__pairs", .function i.machine.functions.size),
          (Value.ofText "__metatable", .boolean false)], none⟩).push
            ⟨[], some i.machine.tables.size⟩ } }) := by
  have hread : (Script.readGlobal Script.call "next".toUTF8).toHost i.contexts i.machine =
      (.ok (.function next), i.machine) := Script.toHost_readGlobal_of_get hnext nofun
  have hfunction : ∀ (callable : Callable) (i : Interpreter),
      exec (Host.newFunction callable) i = (.ok (.function i.machine.functions.size),
        { i with machine := (i.machine.newFunction callable).2 }) := fun _ _ => rfl
  have htable : ∀ (table : Table) (i : Interpreter), exec (Host.newTable table) i =
      (.ok i.machine.tables.size, { i with machine := (i.machine.newTable table).2 }) :=
    fun _ _ => rfl
  rw [Host.readOnlyView, Host.exec_bind, Host.exec_script, hread]
  simp only [Except.mapError, functionOf, pure_bind, Host.exec_bind, hfunction, htable,
    Machine.newFunction, Machine.newTable, List.map_cons, List.map_nil, Array.size_push]

theorem size_callables (n : Namespace) :
    (Machine.initial.functions ++ (callables n.natives).toArray).size = n.walk := by
  simp only [Array.size_append, callables, List.size_toArray, List.length_map]
  rfl

/-- The script while the namespace is not yet bound to its name. -/
def unbound (n : Namespace) : Machine :=
  { n.machine with tables := #[Machine.initial.table Machine.globals, n.functions, n.metafields,
      ⟨[], some metatable⟩] }

/-- What registration makes before it binds the namespace to its name. -/
theorem exec_readOnlyView_initial (n : Namespace) (limits : Limits) (contexts : Nat) :
    exec (Host.nativeTable n.natives >>= fun table => Host.newTable table >>= fun entries =>
        Host.readOnlyView n.name entries) (Interpreter.new limits contexts) =
      (.ok view, { Interpreter.new limits contexts with machine := n.unbound }) := by
  let made : Machine := { Machine.initial with
    functions := Machine.initial.functions ++ (callables n.natives).toArray
    tables := #[Machine.initial.table Machine.globals, n.functions] }
  have hsize : made.functions.size = n.walk := n.size_callables
  have hnext : (made.table Machine.globals).get (.string "next".toUTF8) = .function step := rfl
  have hentries : exec (Host.nativeTable n.natives >>= Host.newTable)
      (Interpreter.new limits contexts) =
        (.ok entries, { Interpreter.new limits contexts with machine := made }) := by
    rw [Host.exec_bind, exec_nativeTable]
    rfl
  rw [← bind_assoc, Host.exec_bind, hentries]
  dsimp only
  rw [exec_readOnlyView hnext]
  dsimp only
  rw [hsize]
  rfl

/-- Registration without a repeated name goes through. -/
theorem exec_register (n : Namespace) (h : firstRepeated [] n.natives = none) (limits : Limits)
    (contexts : Nat) :
    ∃ lines, exec (Host.register n.name n.natives) (Interpreter.new limits contexts) =
      (.ok (), { Interpreter.new limits contexts with machine := n.machine, lines := lines }) := by
  have hopen : ¬ n.unbound.Intercepts n.name.toUTF8 := fun hintercepts => hintercepts.2 rfl
  have hstore : (Script.writeGlobal Script.call n.name.toUTF8 (.table view)).toHost
      (Interpreter.new limits contexts).contexts n.unbound = (.ok (), n.machine) :=
    Script.toHost_writeGlobal_of_not_intercepts Script.call hopen
  -- Everything is made first, and bound to the name then.
  have hregister : Host.register n.name n.natives =
      ((Host.nativeTable n.natives >>= fun table => Host.newTable table >>= fun entries =>
          Host.readOnlyView n.name entries) >>= fun view =>
        Host.script .interpreter (Script.writeGlobal Script.call n.name.toUTF8 (.table view)) >>=
          fun _ => Host.report ⟨.debug, "bridge", "Registered " ++ toString n.natives.length ++
            " native function(s) under '" ++ n.name ++ "'"⟩) := by
    unfold Host.register
    rw [h]
    simp only [bind_assoc]
  rw [hregister, Host.exec_bind, exec_readOnlyView_initial]
  dsimp only
  rw [Host.exec_bind, Host.exec_script, hstore]
  exact ⟨_, rfl⟩

/-- The functions in place, those of the namespace, and two for its metatable. -/
theorem functions_machine (n : Namespace) (id : Nat) :
    n.machine.functions[id]? =
      if id = n.refusal then some (.refuseWrite n.name)
      else if id = n.walk then some (.walk (.function step) entries)
      else if first ≤ id then (callables n.natives)[id - first]?
      else Machine.initial.functions[id]? := by
  have hsize := n.size_callables
  have hinitial : Machine.initial.functions.size = first := rfl
  have hlast : n.walk + 1 = n.refusal := rfl
  unfold machine
  dsimp only
  rw [Array.getElem?_push, Array.size_push, hsize, hlast]
  by_cases hrefusal : id = n.refusal
  · rw [if_pos hrefusal, if_pos hrefusal]
  · rw [if_neg hrefusal, if_neg hrefusal, Array.getElem?_push, hsize]
    by_cases hwalk : id = n.walk
    · rw [if_pos hwalk, if_pos hwalk]
    · rw [if_neg hwalk, if_neg hwalk, Array.getElem?_append, hinitial]
      by_cases hfirst : first ≤ id
      · rw [if_pos hfirst, if_neg (by omega)]
        exact List.getElem?_toArray
      · rw [if_neg hfirst, if_pos (by omega)]

/-- What a script finds in place is open to it. -/
theorem holds_initial (n : Namespace) : (Machine.initial.table Machine.globals).Holds n.Open := by
  intro entry hmem
  have hwalk : first ≤ n.walk := Nat.le_add_right _ _
  rcases List.mem_cons.1 hmem with rfl | hmem
  · exact ⟨open_of_plain trivial, n.discipline.globals ()⟩
  · obtain ⟨i, hi, rfl⟩ := List.mem_mapIdx.1 hmem
    have hlt : i < first := hi
    exact ⟨open_of_plain trivial, open_function.2 (by omega)⟩

/-- A namespace is sealed when it is registered. -/
theorem sealed_machine (n : Namespace) : n.Sealed n.machine := by
  constructor
  · rfl
  · rfl
  · rfl
  · show 3 < 4
    decide
  · intro i entry hi
    have hlt : i < n.natives.length := (List.getElem?_eq_some_iff.1 hi).1
    have hentry : (callables n.natives)[i]? = some (.native entry.native) := by
      simp [callables, hi]
    rw [functions_machine, if_neg, if_neg, if_pos (Nat.le_add_right _ _), Nat.add_sub_cancel_left,
      hentry]
    · unfold walk
      omega
    · unfold refusal
      omega
  · rw [functions_machine, if_neg, if_neg, if_neg (by decide)]
    · rfl
    · unfold walk step first
      omega
    · unfold refusal step first
      omega
  · rw [functions_machine, if_neg, if_pos rfl]
    exact Nat.ne_of_lt (Nat.lt_succ_self _)
  · rw [functions_machine, if_pos rfl]
  · intro id hid
    obtain ⟨hentries, hmetatable⟩ := open_table.1 hid
    match id with
    | 0 => exact n.holds_initial.set open_of_plain (open_of_plain trivial) open_view
    | 1 => exact absurd rfl hentries
    | 2 => exact absurd rfl hmetatable
    | 3 => exact fun entry hmem => absurd hmem List.not_mem_nil
    | id + 4 => exact fun entry hmem => absurd hmem List.not_mem_nil
  · intro id other hview hmeta
    match id with
    | 0 | 1 | 2 | id + 4 => cases hmeta
    | 3 => exact absurd rfl hview
  · intro id hid
    cases hcallable : n.machine.functions[id]? with
    | none => exact fun args hmem => absurd hmem List.not_mem_nil
    | some callable =>
      rw [functions_machine] at hcallable
      split at hcallable
      · cases hcallable
        trivial
      · rw [if_neg (open_function.1 hid)] at hcallable
        -- Neither a native function nor one in place holds anything.
        split at hcallable
        · obtain ⟨entry, -, rfl⟩ := List.mem_map.1 (List.mem_of_getElem? hcallable)
          trivial
        · have hmem := Array.mem_of_getElem? hcallable
          obtain ⟨builtin, -, rfl⟩ := List.mem_map.1 (List.mem_toArray.1 hmem)
          trivial

end Namespace

end EventBridge
