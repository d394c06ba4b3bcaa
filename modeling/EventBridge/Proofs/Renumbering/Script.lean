import EventBridge.Proofs.Renumbering.Basic
import EventBridge.Proofs.Script.Start

/-! # Scripts do not see the numbers of tables

  `Mirrors σ f computation mirrored` says that `mirrored`, started with other numbers for the tables
  of contexts, does what `computation` does: its result is `f` of the other's, it raises what the
  other raises with the new numbers, and so is the machine after it.

  The rules follow the ways to put computations together. With them a function that scripts find in
  place mirrors itself on renumbered arguments, if the calls that it makes do.
-/

namespace EventBridge.Script

variable {σ : Renumbering} {α β : Type}

namespace Eval

/-- What a run comes to, with the new numbers. -/
def renumbered (σ : Renumbering) (f : α → α) :
    Except Value α × Machine → Except Value α × Machine
  | (.ok a, m) => (.ok (f a), m.renumber σ)
  | (.error raised, m) => (.error (raised.renumber σ), m.renumber σ)

/-- A computation that does with the new numbers what another does. -/
def Mirrors (σ : Renumbering) (f : α → α) (computation mirrored : Eval α) : Prop :=
  ∀ contexts m, mirrored.start (Contexts.renumber σ contexts) (m.renumber σ) =
    renumbered σ f (computation.start contexts m)

/-! ### Rules -/

theorem Mirrors.pure {f : α → α} {a b : α} (h : b = f a) :
    Mirrors σ f (Pure.pure a) (Pure.pure b) := by
  intro contexts m
  rw [h]
  rfl

theorem Mirrors.throw {f : α → α} (raised : Value) :
    Mirrors σ f (MonadExcept.throw raised) (MonadExcept.throw (raised.renumber σ)) :=
  fun _ _ => rfl

theorem Mirrors.get : Mirrors σ (Machine.renumber σ) MonadState.get MonadState.get := fun _ _ => rfl

theorem Mirrors.set (m : Machine) :
    Mirrors σ (fun done => done) (MonadStateOf.set m : Eval PUnit)
      (MonadStateOf.set (m.renumber σ)) :=
  fun _ _ => rfl

theorem Mirrors.modify {change change' : Machine → Machine}
    (h : ∀ m, change' (m.renumber σ) = (change m).renumber σ) :
    Mirrors σ (fun done => done) (modify change : Eval PUnit) (modify change') := by
  intro contexts m
  rw [start_modify, start_modify, h]
  rfl

theorem Mirrors.read : Mirrors σ (Contexts.renumber σ) MonadReader.read MonadReader.read :=
  fun _ _ => rfl

theorem Mirrors.bind {f : α → α} {g : β → β} {computation mirrored : Eval α}
    {next next' : α → Eval β} (h : Mirrors σ f computation mirrored)
    (hnext : ∀ a, Mirrors σ g (next a) (next' (f a))) :
    Mirrors σ g (computation >>= next) (mirrored >>= next') := by
  intro contexts m
  rw [start_bind, start_bind, h contexts m]
  rcases computation.start contexts m with ⟨raised | a, m'⟩
  · rfl
  · exact hnext a contexts m'

theorem Mirrors.tryCatch {f : α → α} {computation mirrored : Eval α}
    {handler handler' : Value → Eval α} (h : Mirrors σ f computation mirrored)
    (hhandler : ∀ raised, Mirrors σ f (handler raised) (handler' (raised.renumber σ))) :
    Mirrors σ f (MonadExcept.tryCatch computation handler)
      (MonadExcept.tryCatch mirrored handler') := by
  intro contexts m
  rw [start_tryCatch, start_tryCatch, h contexts m]
  rcases computation.start contexts m with ⟨raised | a, m'⟩
  · exact hhandler raised contexts m'
  · rfl

/-- A result that is not looked at. -/
theorem Mirrors.discard {f : α → α} {computation mirrored : Eval α}
    (h : Mirrors σ f computation mirrored) :
    Mirrors σ (fun done => done) (Functor.discard computation) (Functor.discard mirrored) :=
  h.bind fun _ => .pure rfl

end Eval

open Eval (Mirrors)

/-- Calls that do with the new numbers what they do. -/
def Call.Mirrored (σ : Renumbering) (call : Call) : Prop :=
  ∀ callee args, Mirrors σ (List.map (Value.renumber σ)) (call callee args)
    (call (callee.renumber σ) (args.map (Value.renumber σ)))

variable {call : Call}

/-! ### Raising and allocating -/

theorem mirrored_raiseText {f : α → α} (text : String) :
    Mirrors σ f (raiseText text) (raiseText text) := Mirrors.throw (Value.ofText text)

theorem mirrored_refuse {f : α → α} (cause : Refusal) :
    Mirrors σ f (refuse cause) (refuse cause) := fun _ _ => rfl

theorem mirrored_allocate (table : Table) :
    Mirrors σ (Value.renumber σ) (allocate table) (allocate (table.renumber σ)) := by
  refine Mirrors.get.bind fun m => ?_
  rw [Machine.newTable_renumber]
  exact (Mirrors.set _).bind fun _ => .pure rfl

/-! ### Fields -/

theorem mirrored_readField (hcall : call.Mirrored σ) (key : Value) (steps : Nat) (table : Value) :
    Mirrors σ (Value.renumber σ) (readField call key steps table)
      (readField call (key.renumber σ) steps (table.renumber σ)) := by
  induction steps generalizing table with
  | zero => exact mirrored_raiseText _
  | succ steps ih =>
    cases table with
    | table id =>
      rw [readField, Value.renumber_table, readField]
      refine Mirrors.get.bind fun m => ?_
      rw [Machine.table_renumber, Table.get_renumber, Machine.metafield_renumber]
      cases (m.table id).get key with
      | nil =>
        -- A field that is missing leads to the handler, if there is one.
        cases m.metafield id "__index" with
        | nil => exact .pure rfl
        | function f =>
          exact (hcall (.function f) [.table id, key]).bind fun results =>
            .pure (firstOf_renumber results)
        | _ => exact ih _
      | _ => exact .pure rfl
    | _ => exact mirrored_raiseText _

theorem badKey_renumber (key : Value) : badKey? (key.renumber σ) = badKey? key := by
  cases key <;> rfl

theorem mirrored_writeEntry (id : Nat) (key value : Value) :
    Mirrors σ (fun done => done) (writeEntry id key value)
      (writeEntry id (key.renumber σ) (value.renumber σ)) := by
  unfold writeEntry
  rw [badKey_renumber]
  split
  · exact mirrored_raiseText _
  · refine .modify fun m => ?_
    rw [Machine.table_renumber, Table.set_renumber, Machine.setTable_renumber]

theorem mirrored_writeField (hcall : call.Mirrored σ) (key value : Value) (steps : Nat)
    (table : Value) :
    Mirrors σ (fun done => done) (writeField call key value steps table)
      (writeField call (key.renumber σ) (value.renumber σ) steps (table.renumber σ)) := by
  induction steps generalizing table with
  | zero => exact mirrored_raiseText _
  | succ steps ih =>
    cases table with
    | table id =>
      rw [writeField, Value.renumber_table, writeField]
      refine Mirrors.get.bind fun m => ?_
      rw [Machine.table_renumber, Table.get_renumber, Machine.metafield_renumber]
      cases (m.table id).get key with
      | nil =>
        cases m.metafield id "__newindex" with
        | nil => exact mirrored_writeEntry id key value
        | function f => exact (hcall (.function f) [.table id, key, value]).discard
        | _ => exact ih _
      | _ => exact mirrored_writeEntry id key value
    | _ => exact mirrored_raiseText _

theorem mirrored_readGlobal (hcall : call.Mirrored σ) (name : ByteArray) :
    Mirrors σ (Value.renumber σ) (readGlobal call name) (readGlobal call name) :=
  mirrored_readField hcall (.string name) _ (.table Machine.globals)

theorem mirrored_writeGlobal (hcall : call.Mirrored σ) (name : ByteArray) (value : Value) :
    Mirrors σ (fun done => done) (writeGlobal call name value)
      (writeGlobal call name (value.renumber σ)) :=
  mirrored_writeField hcall (.string name) value _ (.table Machine.globals)

/-! ### Calls and texts -/

theorem mirrored_invoke {run : Callable → List Value → Eval (List Value)}
    (hrun : ∀ callable args, Mirrors σ (List.map (Value.renumber σ)) (run callable args)
      (run (callable.renumber σ) (args.map (Value.renumber σ))))
    (steps : Nat) (callee : Value) (args : List Value) :
    Mirrors σ (List.map (Value.renumber σ)) (invoke run steps callee args)
      (invoke run steps (callee.renumber σ) (args.map (Value.renumber σ))) := by
  induction steps generalizing callee args with
  | zero => exact mirrored_raiseText _
  | succ steps ih =>
    cases callee with
    | function id =>
      rw [invoke, Value.renumber_function, invoke]
      refine Mirrors.get.bind fun m => ?_
      rw [Machine.function_renumber]
      exact hrun _ args
    | table id =>
      rw [invoke, Value.renumber_table, invoke]
      refine Mirrors.get.bind fun m => ?_
      rw [Machine.metafield_renumber]
      cases m.metafield id "__call" with
      | nil => exact mirrored_raiseText _
      | _ => exact ih _ (.table id :: args)
    | _ => exact mirrored_raiseText _

theorem mirrored_display (hcall : call.Mirrored σ) (value : Value) :
    Mirrors σ (fun text => text) (display call value) (display call (value.renumber σ)) := by
  cases value with
  | table id =>
    rw [display, Value.renumber_table, display]
    refine Mirrors.get.bind fun m => ?_
    rw [Machine.metafield_renumber]
    cases m.metafield id "__tostring" with
    | nil => exact .pure rfl
    | _ =>
      refine (hcall _ [.table id]).bind fun results => ?_
      rw [firstOf_renumber]
      -- What the metatable says is taken if it is a string or a number.
      cases firstOf results with
      | string | integer | float => exact .pure rfl
      | _ => exact mirrored_raiseText _
  | _ => exact .pure rfl

/-! ### Arguments -/

theorem mirrored_tableArgument (n : Nat) (function : String) (args : List Value) :
    Mirrors σ (fun id => id) (tableArgument n function args)
      (tableArgument n function (args.map (Value.renumber σ))) := by
  unfold tableArgument
  rw [List.getElem?_map]
  rcases args[n - 1]? with _ | value
  · exact mirrored_raiseText _
  · cases value with
    | table id => exact .pure rfl
    | _ => exact mirrored_raiseText _

theorem mirrored_anyArgument (n : Nat) (function : String) (args : List Value) :
    Mirrors σ (Value.renumber σ) (anyArgument n function args)
      (anyArgument n function (args.map (Value.renumber σ))) := by
  unfold anyArgument
  rw [List.getElem?_map]
  rcases args[n - 1]? with _ | value
  · exact mirrored_raiseText _
  · exact .pure rfl

theorem mirrored_metatableArgument (arg : Option Value) :
    Mirrors σ (fun id => id) (metatableArgument arg)
      (metatableArgument (arg.map (Value.renumber σ))) := by
  rcases arg with _ | value
  · exact mirrored_raiseText _
  · cases value with
    | nil | table => exact .pure rfl
    | _ => exact mirrored_raiseText _

/-! ### Built-in functions -/

theorem mirrored_setMetatable (args : List Value) :
    Mirrors σ (List.map (Value.renumber σ)) (setMetatable args)
      (setMetatable (args.map (Value.renumber σ))) := by
  refine (mirrored_tableArgument 1 _ args).bind fun id => ?_
  rw [List.getElem?_map]
  refine (mirrored_metatableArgument args[1]?).bind fun other => ?_
  refine Mirrors.get.bind fun m => ?_
  have hset : (m.renumber σ).setTable id { (m.renumber σ).table id with metatable := other } =
      (m.setTable id { m.table id with metatable := other }).renumber σ := by
    rw [Machine.table_renumber]
    exact m.setTable_renumber id { m.table id with metatable := other }
  have hchange : Mirrors σ (List.map (Value.renumber σ))
      (do set (m.setTable id { m.table id with metatable := other }); return [.table id])
      (do set ((m.setTable id { m.table id with metatable := other }).renumber σ)
          return [.table id]) :=
    (Mirrors.set _).bind fun _ => .pure rfl
  rw [hset]
  simp only [Machine.metafield_renumber, ne_eq, Value.renumber_eq_nil]
  by_cases hprotected : m.metafield id "__metatable" = .nil
  · simp only [hprotected, not_true_eq_false, if_false]
    exact hchange
  · simp only [hprotected, not_false_eq_true, if_true]
    exact (mirrored_raiseText (f := fun done => done) _).bind fun _ => hchange

theorem mirrored_getMetatable (args : List Value) :
    Mirrors σ (List.map (Value.renumber σ)) (getMetatable args)
      (getMetatable (args.map (Value.renumber σ))) := by
  refine (mirrored_anyArgument 1 _ args).bind fun value => ?_
  cases value with
  | table id =>
    refine Mirrors.get.bind fun m => ?_
    have hmetatable : ((m.renumber σ).table id).metatable = (m.table id).metatable := by
      rw [Machine.table_renumber]
      rfl
    rw [Machine.metafield_renumber, hmetatable]
    cases m.metafield id "__metatable" with
    | nil => cases (m.table id).metatable <;> exact .pure rfl
    | _ => exact .pure rfl
  | _ => exact .pure rfl

theorem entryAfter_renumber (table : Table) (key : Value) :
    entryAfter (table.renumber σ) (key.renumber σ) =
      (entryAfter table key).map (List.map (Value.renumber σ)) := by
  have hdrop : ∀ entries : List (Value × Value),
      (entries.map (renumberEntry σ)).dropWhile (fun entry => entry.1 != key.key.renumber σ) =
        (entries.dropWhile fun entry => entry.1 != key.key).map (renumberEntry σ) := by
    intro entries
    have hkept : ((fun entry : Value × Value => entry.1 != key.key.renumber σ) ∘ renumberEntry σ) =
        fun entry => entry.1 != key.key :=
      funext fun entry => congrArg not (Value.beq_renumber entry.1 key.key)
    rw [List.dropWhile_map, hkept]
  have hentries : (table.renumber σ).entries = table.entries.map (renumberEntry σ) := rfl
  unfold entryAfter
  simp only [Value.key_renumber, Value.renumber_eq_nil, hentries, hdrop]
  by_cases hkey : key = .nil
  · simp only [if_pos hkey, Option.map_some]
    cases table.entries <;> rfl
  · simp only [if_neg hkey]
    cases table.entries.dropWhile (fun entry => entry.1 != key.key) with
    | nil => rfl
    | cons first rest => cases rest <;> rfl

theorem mirrored_builtin (hcall : call.Mirrored σ) (args : List Value) (builtin : Builtin) :
    Mirrors σ (List.map (Value.renumber σ)) (builtin.run call args)
      (builtin.run call (args.map (Value.renumber σ))) := by
  cases builtin with
  | rawget =>
    refine (mirrored_tableArgument 1 _ args).bind fun id => ?_
    refine (mirrored_anyArgument 2 _ args).bind fun key => ?_
    refine Mirrors.get.bind fun m => .pure ?_
    rw [Machine.table_renumber, Table.get_renumber]
    rfl
  | rawset =>
    refine (mirrored_tableArgument 1 _ args).bind fun id => ?_
    refine (mirrored_anyArgument 2 _ args).bind fun key => ?_
    refine (mirrored_anyArgument 3 _ args).bind fun value => ?_
    exact (mirrored_writeEntry id key value).bind fun _ => .pure rfl
  | setmetatable => exact mirrored_setMetatable args
  | getmetatable => exact mirrored_getMetatable args
  | error =>
    unfold Builtin.run
    rw [firstOf_renumber]
    exact .throw _
  | next =>
    refine (mirrored_tableArgument 1 _ args).bind fun id => ?_
    refine Mirrors.get.bind fun m => ?_
    rw [Machine.table_renumber, getD_renumber, entryAfter_renumber]
    cases entryAfter (m.table id) (args.getD 1 .nil) with
    | none => exact mirrored_raiseText _
    | some results => exact .pure rfl
  | tostring =>
    refine (mirrored_anyArgument 1 _ args).bind fun value => ?_
    exact (mirrored_display hcall value).bind fun text => .pure rfl

/-! ### Questions to the engine -/

/-- The answers of the engine are texts, or nil. -/
theorem Native.renumber_of_reply {native : Native} {contexts : Contexts} {subject : Value}
    {results : List Value} (h : native.reply contexts subject = .ok results) :
    results.map (Value.renumber σ) = results := by
  unfold Native.reply at h
  split at h
  · cases h
  · next live _ =>
    cases native with
    | networkInfo =>
      simp only [Native.answer, bind, Except.bind] at h
      split at h <;> cases h
      rfl
    | triggerInfo =>
      simp only [Native.answer] at h
      split at h <;> cases h <;> rfl
    | _ =>
      cases h
      rfl

theorem mirrored_native (args : List Value) (native : Native) :
    Mirrors σ (List.map (Value.renumber σ)) (native.run args)
      (native.run (args.map (Value.renumber σ))) := by
  refine Mirrors.read.bind fun contexts => ?_
  simp only [firstOf_renumber, Native.reply_renumber]
  refine (Mirrors.modify fun m => ?_).bind fun _ => ?_
  · simp only [Machine.renumber, Array.map_push]
    rfl
  · cases hreply : native.reply contexts (firstOf args) with
    | error cause => exact mirrored_refuse cause
    | ok results => exact .pure (Native.renumber_of_reply hreply).symm

end EventBridge.Script
