import EventBridge.Proofs.Interpreter.Namespace
import EventBridge.Proofs.Script.Walk

/-! # Namespaces are read-only

  The table that scripts get for a namespace shows the functions that were registered, and cannot be
  made to show others, whatever scripts run.

  * `Namespace.Guards` is how the table behaves in a machine: reading it, walking it, writing to it,
    and the ways around that.
  * `Namespace.Reached` has every machine that comes up after registration: between the things that
    are done with the interpreter, and behind any piece of code.
  * `namespaces_are_read_only`: registration is refused for a repeated name, and otherwise the table
    behaves so in every machine that is reached.
-/

namespace EventBridge

open Host (exec)
open Script (Builtin Contexts Eval Machine Piece Table Value apply chainLimit keysOf readField
  writeField)

namespace Namespace

variable {n : Namespace} {contexts : Contexts} {m : Machine}

/-! ### Reading -/

/-- What a key stands for in a namespace: the function of that name, or nothing. -/
inductive Stands (n : Namespace) : Value → Value → Prop where
  | function {i : Nat} {entry : NativeEntry} : n.natives[i]? = some entry →
    Stands n (Value.ofText entry.name) (.function (first + i))
  | nothing {key : Value} : (∀ entry ∈ n.natives, key ≠ Value.ofText entry.name) →
    Stands n key .nil

/-- A key that finds its entry under a name is that name. -/
theorem eq_ofText_of_key {key : Value} {name : String} (h : key.key = Value.ofText name) :
    key = Value.ofText name := by
  cases key with
  | float x =>
    simp only [Value.key] at h
    split at h <;> cases h
  | _ => exact h

theorem stands_get (n : Namespace) (key : Value) : n.Stands key (n.functions.get key) := by
  unfold Table.get
  cases hlookup : n.functions.entries.lookup key.key with
  | none =>
    -- A key that is one of the names would have been found.
    refine .nothing fun entry hmem heq => ?_
    obtain ⟨i, hi, hentry⟩ := List.mem_iff_getElem.1 hmem
    have hpair : (Value.ofText entry.name, Value.function (first + i)) ∈ n.functions.entries :=
      List.mem_mapIdx.2 ⟨i, hi, by rw [hentry]⟩
    have hne := List.lookup_eq_none_iff.1 hlookup _ hpair
    rw [heq] at hne
    simp [Value.ofText, Value.key] at hne
  | some value =>
    obtain ⟨front, rest, hentries, -⟩ := List.lookup_eq_some_iff.1 hlookup
    have hmem : (key.key, value) ∈ n.functions.entries := by simp [hentries]
    obtain ⟨i, hi, hpair⟩ := List.mem_mapIdx.1 hmem
    obtain ⟨hkey, hvalue⟩ := Prod.mk.inj hpair
    rw [eq_ofText_of_key hkey.symm, ← hvalue]
    exact .function (List.getElem?_eq_getElem hi)

/-! ### The table in a machine -/

/-- How the table of a namespace behaves: it shows what was registered, and lets nobody change
    that. -/
structure Guards (n : Namespace) (contexts : Contexts) (m : Machine) : Prop where
  /-- A key that the table itself lacks is read as what it stands for. -/
  reads : ∀ call key, (m.table view).get key = .nil → ∃ value, n.Stands key value ∧
    (readField call key chainLimit (.table view)).start contexts m = (.ok value, m)
  /-- A key that a script has put into the table is read from there. -/
  shadowed : ∀ call key, (m.table view).get key ≠ .nil →
    (readField call key chainLimit (.table view)).start contexts m =
      (.ok ((m.table view).get key), m)
  /-- A walk visits the registered names, each of them once. -/
  walks : ∀ depth, ∃ names, names.Perm (n.natives.map fun entry => entry.name.toUTF8) ∧
    (keysOf (apply (depth + 1)) (.table view)).start contexts m = (.ok names, m)
  /-- Writing to a key that the table lacks is refused. Nothing but the number of an object is used
      up for that. -/
  refuses : ∀ depth key value, (m.table view).get key = .nil →
    (writeField (apply (depth + 1)) key value chainLimit (.table view)).start contexts m =
      (.error (.failure m.nextObject (.readOnly n.name)), { m with nextObject := m.nextObject + 1 })
  /-- Where no call can be made any more, it is refused as every call is. -/
  exhausted : ∀ key value, (m.table view).get key = .nil →
    (writeField (apply 0) key value chainLimit (.table view)).start contexts m =
      (.error (Value.ofText "stack overflow"), m)
  /-- The metatable is not shown. -/
  hidden : ∀ args, args[0]? = some (.table view) →
    (Script.getMetatable args).start contexts m = (.ok [.boolean false], m)
  /-- The metatable is not replaced. -/
  locked : ∀ args, args[0]? = some (.table view) → ∃ text,
    (Script.setMetatable args).start contexts m = (.error (Value.ofText text), m)
  /-- Writing past the metatable changes what the table itself has under the key, and nothing
      else. -/
  rawSet : ∀ call key value, Script.badKey? key = none → ∃ m',
    (Builtin.rawset.run call [.table view, key, value]).start contexts m =
      (.ok [.table view], m') ∧
    (∀ other, (m'.table view).get other =
      if other.key == key.key then value else (m.table view).get other) ∧
    (m'.table view).metatable = (m.table view).metatable ∧
    (∀ id, id ≠ view → m'.table id = m.table id) ∧
    m'.functions = m.functions ∧ m'.nextObject = m.nextObject ∧ m'.records = m.records ∧
      m'.questions = m.questions
  /-- What cannot be a key is refused there, too. -/
  badKey : ∀ call key value text, Script.badKey? key = some text →
    (Builtin.rawset.run call [.table view, key, value]).start contexts m =
      (.error (Value.ofText text), m)
  /-- To clear an entry shows again what the key stands for. -/
  cleared : ∀ call call' key m',
    (Builtin.rawset.run call [.table view, key, .nil]).start contexts m = (.ok [.table view], m') →
    ∃ value, n.Stands key value ∧
      (readField call' key chainLimit (.table view)).start contexts m' = (.ok value, m')
  /-- The functions are those that were registered. -/
  natives : ∀ i entry, n.natives[i]? = some entry →
    m.functions[first + i]? = some (.native entry.native)

section Guarded

variable (h : n.Sealed m)

include h

theorem start_readField_view (call : Script.Call) {key : Value}
    (hkey : (m.table view).get key = .nil) :
    (readField call key chainLimit (.table view)).start contexts m =
      (.ok (n.functions.get key), m) := by
  have hindex : m.metafield view "__index" = .table entries := by
    rw [h.metafield, field_metafields]
    rfl
  have hbare : (m.table entries).metatable = none := by
    rw [h.entries]
    rfl
  rw [chainLimit, readField, Eval.start_bind, Eval.start_get]
  dsimp only
  rw [hkey, hindex]
  exact (Script.start_readField_of_bare hbare key 1998).trans (by rw [h.entries])

/-- Writing to a key that the table lacks is a call of the function that refuses. -/
theorem start_writeField_view (call : Script.Call) {key : Value}
    (hkey : (m.table view).get key = .nil) (value : Value) :
    (writeField call key value chainLimit (.table view)).start contexts m =
      (discard (call (.function n.refusal) [.table view, key, value])).start contexts m := by
  have hnew : m.metafield view "__newindex" = .function n.refusal := by
    rw [h.metafield, field_metafields]
    rfl
  rw [chainLimit, writeField, Eval.start_bind, Eval.start_get]
  dsimp only
  rw [hkey, hnew]

theorem start_keysOf_view (depth : Nat) (hnodup : (n.natives.map NativeEntry.name).Nodup) :
    ∃ names, names.Perm (n.natives.map fun entry => entry.name.toUTF8) ∧
      (keysOf (apply (depth + 1)) (.table view)).start contexts m = (.ok names, m) := by
  have hpairs : m.metafield view "__pairs" = .function n.walk := by
    rw [h.metafield, field_metafields]
    rfl
  have hcall : (apply (depth + 1) (.function n.walk) [.table view]).start contexts m =
      (.ok [.function step, .table entries, .nil], m) := by
    rw [Script.start_apply_function, h.walk]
    rfl
  -- The table of functions, with its names as they are in scripts.
  let pairs : List (ByteArray × Value) :=
    n.natives.mapIdx fun i entry => (entry.name.toUTF8, Value.function (first + i))
  have hentries :
      (m.table entries).entries = pairs.map fun pair => (Value.string pair.1, pair.2) := by
    rw [h.entries]
    refine List.mapIdx_eq_iff.2 fun i => ?_
    simp [pairs, Function.comp_def, Value.ofText]
  have hnames : pairs.map Prod.fst = n.natives.map fun entry => entry.name.toUTF8 := by
    refine List.ext_getElem? fun i => ?_
    simp [pairs, Function.comp_def]
  have hdistinct : (pairs.map Prod.fst).Nodup := by
    rw [hnames]
    refine List.pairwise_map.2 ((List.pairwise_map.1 hnodup).imp fun hne heq => hne ?_)
    exact String.toByteArray_inj.1 heq
  -- A walk is given more steps than there are names, so that it does not run out of them.
  have hsteps : pairs.length < Script.walkSteps m (.table entries) := by
    show pairs.length < Script.walkLimit + (m.table entries).entries.length
    rw [hentries, List.length_map, Script.walkLimit]
    omega
  refine ⟨(pairs.map Prod.fst).mergeSort Script.bytesBefore, ?_, ?_⟩
  · rw [← hnames]
    exact List.mergeSort_perm _ _
  · rw [Script.start_keysOf_of_walk hpairs hcall,
      Script.start_walkKeys_of_names depth h.step hentries hdistinct hsteps]

/-- The table is protected against a new metatable, whatever that would be. -/
theorem start_setMetatable_view {args : List Value} (hargs : args[0]? = some (.table view)) :
    ∃ text, (Script.setMetatable args).start contexts m = (.error (Value.ofText text), m) := by
  have hlocked : m.metafield view "__metatable" ≠ .nil := by
    rw [h.metafield, field_metafields]
    exact nofun
  have htable : Script.tableArgument 1 "setmetatable" args = pure view := by
    unfold Script.tableArgument
    rw [hargs]
  have hrefused : ∀ other : Option Nat, ((do
      let m ← get
      if m.metafield view "__metatable" ≠ .nil then
        Script.raiseText "cannot change a protected metatable"
      set (m.setTable view { m.table view with metatable := other })
      return [.table view] : Eval (List Value))).start contexts m =
        (.error (Value.ofText "cannot change a protected metatable"), m) := by
    intro other
    rw [Eval.start_bind, Eval.start_get]
    dsimp only
    rw [if_pos hlocked]
    rfl
  unfold Script.setMetatable
  rw [htable, pure_bind]
  -- A second argument that is no metatable is complained about first.
  unfold Script.metatableArgument
  split
  · exact ⟨_, hrefused none⟩
  · exact ⟨_, hrefused _⟩
  · exact ⟨_, rfl⟩

omit h in
/-- What may be a key is set in the table itself. -/
theorem start_rawSet_view (call : Script.Call) (key value : Value) :
    (Builtin.rawset.run call [.table view, key, value]).start contexts m =
      match Script.badKey? key with
      | some text => (.error (Value.ofText text), m)
      | none => (.ok [.table view], m.setTable view ((m.table view).set key value)) := by
  show (Script.writeEntry view key value >>= fun _ => pure [Value.table view]).start contexts m = _
  unfold Script.writeEntry
  cases Script.badKey? key <;> rfl

theorem guards_of_sealed (hnodup : (n.natives.map NativeEntry.name).Nodup) :
    n.Guards contexts m where
  reads call key hkey := ⟨_, n.stands_get key, start_readField_view h call hkey⟩
  shadowed := by
    intro call key hkey
    rw [chainLimit, readField, Eval.start_bind, Eval.start_get]
    dsimp only
    cases hget : (m.table view).get key with
    | nil => exact absurd hget hkey
    | _ => rfl
  walks depth := start_keysOf_view h depth hnodup
  refuses := by
    intro depth key value hkey
    have hcall : (apply (depth + 1) (.function n.refusal) [.table view, key, value]).start contexts
        m = (.error (.failure m.nextObject (.readOnly n.name)), m.newObject.2) := by
      rw [Script.start_apply_function, h.refusal]
      rfl
    rw [start_writeField_view h _ hkey]
    show ((apply (depth + 1) (.function n.refusal) [.table view, key, value]) >>=
      fun _ => pure ()).start contexts m = _
    rw [Eval.start_bind, hcall]
    rfl
  exhausted := by
    intro key value hkey
    rw [start_writeField_view h _ hkey]
    rfl
  hidden := by
    intro args hargs
    have hshown : m.metafield view "__metatable" = .boolean false := by
      rw [h.metafield, field_metafields]
      rfl
    have hvalue : Script.anyArgument 1 "getmetatable" args = pure (.table view) := by
      unfold Script.anyArgument
      rw [hargs]
    unfold Script.getMetatable
    rw [hvalue, pure_bind]
    dsimp only
    rw [Eval.start_bind, Eval.start_get]
    dsimp only
    rw [hshown]
    rfl
  locked args hargs := start_setMetatable_view h hargs
  rawSet := by
    intro call key value hkey
    refine ⟨m.setTable view ((m.table view).set key value), ?_, ?_, ?_, ?_, rfl, rfl, rfl, rfl⟩
    · rw [start_rawSet_view, hkey]
    · intro other
      rw [m.table_setTable_self h.there]
      exact (m.table view).get_set key other value
    · rw [m.table_setTable_self h.there]
      rfl
    · intro id hid
      exact m.table_setTable_ne (Ne.symm hid) _
  badKey := by
    intro call key value text hkey
    rw [start_rawSet_view, hkey]
  cleared := by
    intro call call' key m' hcleared
    rw [start_rawSet_view] at hcleared
    cases hkey : Script.badKey? key with
    | some text =>
      rw [hkey] at hcleared
      cases hcleared
    | none =>
      rw [hkey] at hcleared
      obtain ⟨-, rfl⟩ := Prod.mk.inj hcleared
      -- The namespace is still sealed then, so that reading goes on to the functions.
      have hholds : ((m.table view).set key .nil).Holds n.Open := by
        intro entry hmem
        rw [Table.set, if_pos rfl] at hmem
        exact h.tables view open_view entry (List.mem_filter.1 hmem).1
      have hsealed := h.setTable open_view hholds (fun _ => h.view) fun hview => absurd rfl hview
      refine ⟨_, n.stands_get key, start_readField_view hsealed call' ?_⟩
      rw [m.table_setTable_self h.there, Table.get_set]
      simp
  natives := h.natives

end Guarded

/-! ### Every machine that comes up -/

/-- The machines that come up once a namespace is registered in an interpreter. -/
inductive Reached (n : Namespace) (i : Interpreter) : Machine → Prop where
  /-- Between the things that are done with the interpreter. -/
  | between {activities : List Interpreter.Activity} :
    (∀ activity ∈ activities, activity.Fair) → Reached n i (i.after activities).machine
  /-- Behind a piece of code that works with what a script can come by. -/
  | behind {m : Machine} {piece : Piece} (contexts : Contexts) : Reached n i m → piece.Has n.Open →
    Reached n i (piece.values.start contexts m).2

/-- Nothing that a piece of code gives or raises belongs to the namespace alone. -/
def Discreet (n : Namespace) (contexts : Contexts) (m : Machine) : Prop :=
  ∀ piece : Piece, piece.Has n.Open → match (piece.values.start contexts m).1 with
    | .ok values => ∀ value ∈ values, n.Open value
    | .error raised => n.Open raised

theorem sealed_of_reached {i : Interpreter} (hi : i.Holds n.discipline ()) (h : n.Reached i m) :
    n.Sealed m := by
  induction h with
  | between hfair =>
    obtain ⟨_, _, hafter⟩ := Interpreter.holds_after n.anyContexts hi hfair
    exact hafter.machine
  | behind contexts _ hpiece ih =>
    obtain ⟨_, _, hsound, -⟩ :=
      (Script.Discipline.keeps_values (D := n.discipline) (w := ()) hpiece).at trivial ih
    exact hsound

theorem discreet_of_sealed (h : n.Sealed m) (contexts : Contexts) : n.Discreet contexts m := by
  intro piece hpiece
  obtain ⟨_, _, -, hgives⟩ :=
    (Script.Discipline.keeps_values (D := n.discipline) (w := ()) hpiece).at trivial h
  split
  · next values hvalues =>
    rw [hvalues] at hgives
    exact hgives
  · next raised hraised =>
    rw [hraised] at hgives
    exact hgives

end Namespace

/-- A name that occurs twice stops registration, which then has done nothing. Otherwise the
    namespace is bound to its name as an empty table that shows the functions, and however scripts
    are run afterwards, nothing that they do makes it show anything else: they can neither change
    what is behind it nor get hold of that. -/
theorem namespaces_are_read_only (name : String) (natives : List NativeEntry) :
    (∃ repeated, FirstRepeats natives repeated ∧ ∀ i : Interpreter,
      exec (Host.register name natives) i = (.error (.duplicateNative repeated), i)) ∨
    ((natives.map NativeEntry.name).Nodup ∧ ∀ limits own, ∃ i,
      exec (Host.register name natives) (Interpreter.new limits own) = (.ok (), i) ∧
      (i.machine.table Machine.globals).field name = .table Namespace.view ∧
      (i.machine.table Namespace.view).entries = [] ∧
      ∀ m, Namespace.Reached ⟨name, natives⟩ i m → ∀ contexts,
        Namespace.Guards ⟨name, natives⟩ contexts m ∧
        Namespace.Discreet ⟨name, natives⟩ contexts m) := by
  rcases firstRepeated_nil natives with ⟨hnone, hnodup⟩ | ⟨repeated, hsome, hrepeats⟩
  · refine .inr ⟨hnodup, fun limits own => ?_⟩
    let n : Namespace := ⟨name, natives⟩
    obtain ⟨lines, hregister⟩ := n.exec_register hnone limits own
    refine ⟨_, hregister, ?_, rfl, fun m hreached contexts => ?_⟩
    · show ((Machine.initial.table Machine.globals).set (Value.ofText name) (.table
        Namespace.view)).get (Value.ofText name) = _
      rw [Table.get_set]
      simp
    · have hholds : Interpreter.Holds n.discipline ()
          { Interpreter.new limits own with machine := n.machine, lines := lines } :=
        ⟨trivial, n.sealed_machine, nofun⟩
      have hsealed : n.Sealed m := Namespace.sealed_of_reached hholds hreached
      exact ⟨Namespace.guards_of_sealed hsealed hnodup,
        Namespace.discreet_of_sealed hsealed contexts⟩
  · exact .inl ⟨repeated, hrepeats, exec_register_of_repeated hsome name⟩

end EventBridge
