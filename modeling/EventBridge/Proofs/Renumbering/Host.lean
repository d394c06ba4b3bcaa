import EventBridge.Interpreter.Module
import EventBridge.Proofs.Interpreter.Exec
import EventBridge.Proofs.Renumbering.Evaluator

/-! # The host does not see the numbers of tables

  The operations of the host on an interpreter whose table of contexts has another number do what
  they did. They fail with the same failures and report the same lines.

  The rules are those for scripts, one level further out. There is one exception: what is reported
  when a table has gone shows a handle with its number, so `leave` is left to those who know that
  there is a table.
-/

namespace EventBridge

open Script (Callable Contexts Table Value)

variable {σ : Renumbering} {α β : Type}

/-- An interpreter with the new numbers in all that it holds. -/
def Interpreter.renumber (σ : Renumbering) (i : Interpreter) : Interpreter :=
  { i with
    machine := i.machine.renumber σ
    contexts := Contexts.renumber σ i.contexts
    stack := i.stack.map (Value.renumber σ) }

namespace Interpreter

variable (i : Interpreter)

@[simp] theorem machine_renumber : (i.renumber σ).machine = i.machine.renumber σ := rfl

@[simp] theorem contexts_renumber :
    (i.renumber σ).contexts = Contexts.renumber σ i.contexts := rfl

@[simp] theorem stack_renumber : (i.renumber σ).stack = i.stack.map (Value.renumber σ) := rfl

theorem renumber_unchanged : i.renumber .unchanged = i := by
  unfold renumber
  rw [Script.Machine.renumber_unchanged, Contexts.renumber_unchanged,
    Script.map_renumber_unchanged]

end Interpreter

namespace Host

/-- A computation that does with the new numbers what another does. -/
def Mirrors (σ : Renumbering) (f : α → α) (computation mirrored : Host α) : Prop :=
  ∀ i : Interpreter, exec mirrored (i.renumber σ) =
    ((exec computation i).1.map f, (exec computation i).2.renumber σ)

/-! ### Rules -/

theorem Mirrors.pure {f : α → α} {a b : α} (h : b = f a) :
    Mirrors σ f (Pure.pure a) (Pure.pure b) := by
  intro i
  rw [h]
  rfl

theorem Mirrors.throw {f : α → α} (e : BridgeError) :
    Mirrors σ f (MonadExcept.throw e) (MonadExcept.throw e) := fun _ => rfl

theorem Mirrors.get : Mirrors σ (Interpreter.renumber σ) MonadState.get MonadState.get :=
  fun _ => rfl

theorem Mirrors.set (i : Interpreter) :
    Mirrors σ (fun done => done) (MonadStateOf.set i : Host PUnit)
      (MonadStateOf.set (i.renumber σ)) := fun _ => rfl

theorem Mirrors.modify {change change' : Interpreter → Interpreter}
    (h : ∀ i, change' (i.renumber σ) = (change i).renumber σ) :
    Mirrors σ (fun done => done) (modify change : Host PUnit) (modify change') := by
  intro i
  rw [exec_modify, exec_modify, h]
  rfl

theorem Mirrors.bind {f : α → α} {g : β → β} {computation mirrored : Host α}
    {next next' : α → Host β} (h : Mirrors σ f computation mirrored)
    (hnext : ∀ a, Mirrors σ g (next a) (next' (f a))) :
    Mirrors σ g (computation >>= next) (mirrored >>= next') := by
  intro i
  rw [exec_bind, exec_bind, h i]
  rcases exec computation i with ⟨e | a, i'⟩
  · rfl
  · exact hnext a i'

theorem Mirrors.attempt {f : α → α} {computation mirrored : Host α}
    (h : Mirrors σ f computation mirrored) :
    Mirrors σ (Except.map f) (attempt computation) (attempt mirrored) := by
  intro i
  rw [exec_attempt, exec_attempt, h i]
  rfl

theorem Mirrors.discard {f : α → α} {computation mirrored : Host α}
    (h : Mirrors σ f computation mirrored) :
    Mirrors σ (fun done => done) (Functor.discard computation) (Functor.discard mirrored) :=
  h.bind fun _ => .pure rfl

theorem mirrored_report (line : Log.Line) :
    Mirrors σ (fun done => done) (report line) (report line) := fun _ => rfl

/-- Script code does what it does, and faults do not show numbers. -/
theorem Mirrors.script {f : α → α} (wrap : Script.Fault → BridgeError)
    {computation mirrored : Script.Eval α} (h : Script.Eval.Mirrors σ f computation mirrored) :
    Mirrors σ f (script wrap computation) (script wrap mirrored) := by
  intro i
  rw [exec_script, exec_script, Interpreter.contexts_renumber, Interpreter.machine_renumber,
    Script.toHost_renumber h]
  rcases computation.toHost i.contexts i.machine with ⟨fault | a, machine⟩ <;> rfl

/-! ### The stack -/

theorem mirrored_push (value : Value) :
    Mirrors σ (fun done => done) (push value) (push (value.renumber σ)) := by
  refine .modify fun i => ?_
  simp only [Interpreter.renumber, List.map_append, List.map_cons, List.map_nil]

theorem mirrored_checkBytes (bytes : ByteArray) :
    Mirrors σ (fun done => done) (checkBytes bytes) (checkBytes bytes) := by
  intro i
  rw [exec_checkBytes, exec_checkBytes]
  show (if i.limits.payloadBytes < bytes.size then _ else _, _) = _
  split <;> rfl

theorem mirrored_checkHeaders (headers : Http.Headers) :
    Mirrors σ (fun done => done) (checkHeaders headers) (checkHeaders headers) := by
  intro i
  rw [exec_checkHeaders, exec_checkHeaders]
  show (if i.limits.tableEntries < headers.size then _ else _, _) = _
  split <;> rfl

/-- A table of header fields has no handles. -/
theorem headerTable_renumber (headers : Http.Headers) :
    (headerTable headers).renumber σ = headerTable headers := by
  simp only [headerTable, Table.renumber, List.map_map]
  rfl

theorem mirrored_pushTable (table : Table) :
    Mirrors σ (fun done => done) (pushTable table) (pushTable (table.renumber σ)) := by
  refine Mirrors.get.bind fun i => ?_
  rw [Interpreter.machine_renumber, Script.Machine.newTable_renumber]
  exact (Mirrors.set { i with machine := (i.machine.newTable table).2 }).bind fun _ =>
    mirrored_push (.table _)

theorem mirrored_pushHandle (handle : Handle) :
    Mirrors σ (fun done => done) (pushHandle handle) (pushHandle (handle.renumber σ)) := by
  refine Mirrors.get.bind fun i => ?_
  exact (Mirrors.set { i with machine := i.machine.newObject.2 }).bind fun _ =>
    mirrored_push (.handle _ handle)

theorem mirrored_depth : Mirrors σ (fun depth => depth) depth depth := by
  intro i
  rw [exec_depth, exec_depth]
  show (Except.ok (i.stack.map (Value.renumber σ)).length, _) = _
  rw [List.length_map]
  rfl

theorem mirrored_truncate (depth : Nat) :
    Mirrors σ (fun done => done) (truncate depth) (truncate depth) := by
  refine .modify fun i => ?_
  simp only [Interpreter.renumber, List.map_take]

theorem mirrored_pop (n : Nat) : Mirrors σ (fun done => done) (pop n) (pop n) := by
  refine mirrored_depth.bind fun depth => ?_
  split
  · exact (Mirrors.throw (f := fun done => done) _).bind fun _ => mirrored_truncate _
  · exact mirrored_truncate _

theorem mirrored_place (index : Int32) :
    Mirrors σ (fun place => place) (place index) (place index) := by
  refine mirrored_depth.bind fun depth => ?_
  split
  · exact .pure rfl
  · exact .throw _

theorem mirrored_peek (index : Int32) : Mirrors σ (Value.renumber σ) (peek index) (peek index) :=
  (mirrored_place index).bind fun place => Mirrors.get.bind fun i =>
    .pure (Script.getD_renumber i.stack place)

theorem mirrored_isNil (index : Int32) :
    Mirrors σ (fun missing => missing) (isNil index) (isNil index) :=
  (mirrored_peek index).bind fun value => .pure (Value.beq_renumber value .nil)

theorem mirrored_remove (index : Int32) :
    Mirrors σ (Value.renumber σ) (remove index) (remove index) := by
  refine (mirrored_place index).bind fun place => Mirrors.get.bind fun i => ?_
  have herase : { i.renumber σ with stack := (i.renumber σ).stack.eraseIdx place } =
      ({ i with stack := i.stack.eraseIdx place } : Interpreter).renumber σ := by
    simp only [Interpreter.renumber, List.eraseIdx_eq_take_drop_succ, List.map_append,
      List.map_take, List.map_drop]
  rw [herase]
  exact (Mirrors.set _).bind fun _ => .pure (Script.getD_renumber i.stack place)

theorem mirrored_popValue : Mirrors σ (Value.renumber σ) popValue popValue := by
  refine Mirrors.get.bind fun i => ?_
  have hlast : (i.renumber σ).stack.getLast? = i.stack.getLast?.map (Value.renumber σ) :=
    List.getLast?_map
  have hrest : { i.renumber σ with stack := (i.renumber σ).stack.dropLast } =
      ({ i with stack := i.stack.dropLast } : Interpreter).renumber σ := by
    simp only [Interpreter.renumber, List.map_dropLast]
  rw [hlast, hrest]
  cases i.stack.getLast? with
  | none => exact .throw _
  | some value => exact (Mirrors.set _).bind fun _ => .pure rfl

/-! ### Variables, fields and calls -/

theorem mirrored_getGlobal (name : String) :
    Mirrors σ (fun done => done) (getGlobal name) (getGlobal name) :=
  (Mirrors.script _ (Script.mirrored_readGlobal Script.mirrored_call _)).bind mirrored_push

theorem mirrored_setGlobal (name : String) :
    Mirrors σ (fun done => done) (setGlobal name) (setGlobal name) :=
  mirrored_popValue.bind fun value =>
    .script _ (Script.mirrored_writeGlobal Script.mirrored_call _ value)

theorem mirrored_getField (index : Int32) (name : String) :
    Mirrors σ (fun done => done) (getField index name) (getField index name) := by
  refine (mirrored_peek index).bind fun value => ?_
  cases value with
  | table id =>
    refine (Mirrors.script _ ?_).bind mirrored_push
    exact Script.mirrored_readField Script.mirrored_call (Value.ofText name) _ (.table id)
  | _ => exact .throw _

theorem take_renumber (returned : List Value) (results : ResultCount) :
    results.take (returned.map (Value.renumber σ)) =
      (results.take returned).map (Value.renumber σ) := by
  cases results with
  | all => rfl
  | fixed count =>
    simp only [ResultCount.take, List.map_append, List.map_take, List.length_map,
      List.map_replicate]
    rfl

theorem getLastD_renumber (values : List Value) :
    (values.map (Value.renumber σ)).getLastD .nil = (values.getLastD .nil).renumber σ := by
  rw [List.getLastD_eq_getLast?, List.getLastD_eq_getLast?, List.getLast?_map]
  cases values.getLast? <;> rfl

theorem mirrored_calling (results : ResultCount) (callee : Value) (values : List Value) :
    Mirrors σ (fun done => done) (calling results callee values)
      (calling results (callee.renumber σ) (values.map (Value.renumber σ))) := by
  have hreturn : ∀ returned : List Value, Mirrors σ (fun done => done)
      (modify fun i => { i with stack := i.stack ++ results.take returned } : Host Unit)
      (modify fun i => { i with
        stack := i.stack ++ results.take (returned.map (Value.renumber σ)) }) := by
    intro returned
    refine .modify fun i => ?_
    simp only [Interpreter.renumber, take_renumber, List.map_append]
  cases callee with
  | function id =>
    exact (Mirrors.script _ (Script.mirrored_call (.function id) values)).bind hreturn
  | table id => exact (Mirrors.script _ (Script.mirrored_call (.table id) values)).bind hreturn
  | _ => exact (Mirrors.throw _).bind hreturn

theorem mirrored_call (arguments : UInt64) (results : ResultCount) :
    Mirrors σ (fun done => done) (call arguments results) (call arguments results) := by
  intro i
  have hlength : (i.renumber σ).stack.length = i.stack.length := List.length_map _
  rw [exec_call, exec_call, hlength]
  by_cases hneeded : i.stack.length < (arguments + 1).toNat
  · rw [if_pos hneeded, if_pos hneeded]
    rfl
  · by_cases hdepth : i.stack.length < arguments.toNat
    · rw [if_neg hneeded, if_neg hneeded, if_pos hdepth, if_pos hdepth]
      rfl
    · rw [if_neg hneeded, if_neg hneeded, if_neg hdepth, if_neg hdepth]
      have hcalling := mirrored_calling (σ := σ) results
        ((i.stack.take (i.stack.length - arguments.toNat)).getLastD .nil)
        (i.stack.drop (i.stack.length - arguments.toNat))
        { i with stack := (i.stack.take (i.stack.length - arguments.toNat)).dropLast }
      rw [← getLastD_renumber] at hcalling
      simp only [Interpreter.renumber, List.map_dropLast, List.map_take, List.map_drop]
        at hcalling ⊢
      exact hcalling

/-! ### Registration and loading -/

theorem mirrored_newFunction (callable : Callable) :
    Mirrors σ (Value.renumber σ) (newFunction callable) (newFunction (callable.renumber σ)) := by
  refine Mirrors.get.bind fun i => ?_
  rw [Interpreter.machine_renumber, Script.Machine.newFunction_renumber]
  exact (Mirrors.set { i with machine := (i.machine.newFunction callable).2 }).bind fun _ =>
    .pure rfl

theorem mirrored_newTable (table : Table) :
    Mirrors σ (fun id => id) (newTable table) (newTable (table.renumber σ)) := by
  refine Mirrors.get.bind fun i => ?_
  rw [Interpreter.machine_renumber, Script.Machine.newTable_renumber]
  exact (Mirrors.set { i with machine := (i.machine.newTable table).2 }).bind fun _ => .pure rfl

theorem mirrored_nativeTable (natives : List NativeEntry) :
    Mirrors σ (Table.renumber σ) (nativeTable natives) (nativeTable natives) := by
  induction natives with
  | nil => exact .pure rfl
  | cons entry rest ih =>
    exact (mirrored_newFunction (.native entry.native)).bind fun function =>
      ih.bind fun others => .pure rfl

theorem mirrored_readOnlyView (namespaceName : String) (entries : Nat) :
    Mirrors σ (fun id => id) (readOnlyView namespaceName entries)
      (readOnlyView namespaceName entries) := by
  refine (Mirrors.script _ (Script.mirrored_readGlobal Script.mirrored_call _)).bind fun next => ?_
  cases next with
  | function id =>
    simp only [Value.renumber_function, functionOf, pure_bind]
    refine (mirrored_newFunction (.walk (.function id) entries)).bind fun pairs => ?_
    refine (mirrored_newFunction (.refuseWrite namespaceName)).bind fun refuseWrite => ?_
    refine (mirrored_newTable _).bind fun metatable => ?_
    exact mirrored_newTable ⟨[], some metatable⟩
  | _ => exact .throw _

theorem mirrored_register (namespaceName : String) (natives : List NativeEntry) :
    Mirrors σ (fun done => done) (register namespaceName natives)
      (register namespaceName natives) := by
  unfold register
  split
  · exact .throw _
  · refine (mirrored_nativeTable natives).bind fun table => ?_
    refine (mirrored_newTable table).bind fun entries => ?_
    refine (mirrored_readOnlyView namespaceName entries).bind fun view => ?_
    have hbind := Script.mirrored_writeGlobal (σ := σ) Script.mirrored_call
      namespaceName.toUTF8 (.table view)
    exact (Mirrors.script _ hbind).bind fun _ => mirrored_report _

theorem mirrored_loadSource (source : List UInt8) :
    Mirrors σ (fun count => count) (loadSource source) (loadSource source) := by
  unfold loadSource
  split
  · exact .throw _
  · next block _ =>
    refine (Mirrors.script _ (Script.mirrored_runBlock block)).bind fun values => ?_
    refine (Mirrors.modify fun i => ?_).bind fun _ => .pure (List.length_map _)
    simp only [Interpreter.renumber, List.map_append]

theorem mirrored_loadModule (tree : FileTree) (path : String) :
    Mirrors σ (fun count => count) (loadModule tree path) (loadModule tree path) := by
  refine (mirrored_report _).bind fun _ => ?_
  split
  · exact .throw _
  · exact (mirrored_loadSource _).bind fun count => (mirrored_report _).bind fun _ => .pure rfl

end Host

end EventBridge
