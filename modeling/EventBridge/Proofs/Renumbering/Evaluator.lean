import EventBridge.Proofs.Renumbering.Script
import EventBridge.Script.Fault

/-! # Running scripts with other numbers for the tables of contexts

  Scripts run as before whatever the numbers are: `mirrored_evalExpr` and `mirrored_execBlock` go by
  the form of the script, for one level of calls, and `mirrored_apply` ties the levels together by
  induction on the depth that is left.

  `toHost_renumber` is what the host relies on. A fault has no numbers in it, so it is the same
  fault.
-/

namespace EventBridge.Script

open Eval (Mirrors)

variable {σ : Renumbering} {α : Type} {call : Call}

/-! ### Parts of expressions -/

theorem numbered_renumber (values : List Value) :
    numbered (values.map (Value.renumber σ)) = (numbered values).renumber σ := by
  -- The table grows with each value, so the induction is about any table to start from.
  have hfold : ∀ (pairs : List (Value × Nat)) (table : Table),
      (pairs.map fun pair => (pair.1.renumber σ, pair.2)).foldl (fun table pair =>
        table.set (.integer (Int64.ofNat (pair.2 + 1))) pair.1) (table.renumber σ) =
      (pairs.foldl (fun table pair =>
        table.set (.integer (Int64.ofNat (pair.2 + 1))) pair.1) table).renumber σ := by
    intro pairs
    induction pairs with
    | nil => exact fun table => rfl
    | cons pair pairs ih =>
      intro table
      have hset := table.set_renumber (σ := σ) (.integer (Int64.ofNat (pair.2 + 1))) pair.1
      rw [List.map_cons, List.foldl_cons, List.foldl_cons, ← ih]
      exact congrArg (List.foldl _ · _) hset
  unfold numbered
  rw [List.zipIdx_map]
  exact hfold values.zipIdx default

theorem packed_renumber (values : List Value) :
    packed (values.map (Value.renumber σ)) = (packed values).renumber σ := by
  unfold packed
  rw [numbered_renumber, List.length_map]
  exact (numbered values).set_renumber (Value.ofText "n") (.integer (Int64.ofNat values.length))

theorem caught_renumber (raised : Value) :
    caught (raised.renumber σ) = (caught raised).renumber σ := by
  cases raised <;> rfl

theorem stringKeys_renumber (table : Table) : stringKeys (table.renumber σ) = stringKeys table := by
  show (table.entries.map (renumberEntry σ)).filterMap _ = _
  rw [List.filterMap_map]
  refine congrArg (List.filterMap · table.entries) (funext fun entry => ?_)
  obtain ⟨key, value⟩ := entry
  cases key <;> rfl

theorem mirrored_walkKeys (hcall : call.Mirrored σ) (step state : Value) (fuel : Nat)
    (control : Value) :
    Mirrors σ (fun keys => keys) (walkKeys call step state fuel control)
      (walkKeys call (step.renumber σ) (state.renumber σ) fuel (control.renumber σ)) := by
  induction fuel generalizing control with
  | zero => exact mirrored_raiseText _
  | succ fuel ih =>
    rw [walkKeys, walkKeys]
    refine (hcall step [state, control]).bind fun results => ?_
    rw [firstOf_renumber]
    cases firstOf results with
    | nil => exact .pure rfl
    | string bytes => exact (ih (.string bytes)).bind fun _ => .pure rfl
    | _ => exact ih _

theorem walkSteps_renumber (m : Machine) (state : Value) :
    walkSteps (m.renumber σ) (state.renumber σ) = walkSteps m state := by
  cases state with
  | table id =>
    simp only [walkSteps, Value.renumber, Machine.table_renumber, Table.renumber, List.length_map]
  | _ => rfl

theorem mirrored_keysOf (hcall : call.Mirrored σ) (value : Value) :
    Mirrors σ (fun keys => keys) (keysOf call value) (keysOf call (value.renumber σ)) := by
  have hsorted : ∀ keys : List ByteArray,
      Mirrors σ (fun keys => keys) (pure (keys.mergeSort bytesBefore))
        (pure (keys.mergeSort bytesBefore)) := fun keys => .pure rfl
  cases value with
  | table id =>
    refine Mirrors.get.bind fun m => ?_
    rw [Machine.metafield_renumber, Machine.table_renumber, stringKeys_renumber]
    cases m.metafield id "__pairs" with
    | nil => exact hsorted _
    | _ =>
      refine (hcall _ [.table id]).bind fun results => ?_
      refine Mirrors.get.bind fun m => ?_
      simp only [getD_renumber, walkSteps_renumber]
      exact (mirrored_walkKeys hcall _ _ _ _).bind hsorted
  | _ => exact (mirrored_raiseText _).bind hsorted

theorem mirrored_lengthOf (value : Value) :
    Mirrors σ (Value.renumber σ) (lengthOf value) (lengthOf (value.renumber σ)) := by
  cases value with
  | string bytes => exact .pure rfl
  | table id =>
    refine Mirrors.get.bind fun m => .pure ?_
    rw [Machine.table_renumber, Table.length_renumber]
    rfl
  | _ => exact mirrored_raiseText _

theorem mirrored_chunkOf (value : Value) :
    Mirrors σ (fun bytes => bytes) (chunkOf value) (chunkOf (value.renumber σ)) := by
  unfold chunkOf
  rw [Value.chunk_renumber, Value.objectName_renumber]
  split
  · exact .pure rfl
  · exact mirrored_raiseText _

theorem mirrored_concatAll : ∀ values : List Value,
    Mirrors σ (fun bytes => bytes) (concatAll values) (concatAll (values.map (Value.renumber σ)))
  | [] => .pure rfl
  | [value] => mirrored_chunkOf value
  | [left, right] =>
    (mirrored_chunkOf left).bind fun _ => (mirrored_chunkOf right).bind fun _ => .pure rfl
  | value :: second :: third :: rest =>
    (mirrored_concatAll (second :: third :: rest)).bind fun _ =>
      (mirrored_chunkOf value).bind fun _ => .pure rfl

theorem mirrored_fill (table : Value) (entries : List (Value × Value)) :
    Mirrors σ (fun done => done) (fill table entries)
      (fill (table.renumber σ) (entries.map (renumberEntry σ))) := by
  induction entries with
  | nil => exact .pure rfl
  | cons entry rest ih =>
    cases table with
    | table id => exact (mirrored_writeEntry id entry.1 entry.2).bind fun _ => ih
    | _ => exact .pure rfl

theorem mirrored_deliver (form : CallForm) {result result' : Eval (List Value)}
    (h : Mirrors σ (List.map (Value.renumber σ)) result result') :
    Mirrors σ (Value.renumber σ) (deliver form result) (deliver form result') := by
  have hpacked : ∀ values : List Value, Mirrors σ (Value.renumber σ) (allocate (packed values))
      (allocate (packed (values.map (Value.renumber σ)))) := by
    intro values
    rw [packed_renumber]
    exact mirrored_allocate _
  cases form with
  | first => exact h.bind fun results => .pure (firstOf_renumber results)
  | packed => exact h.bind hpacked
  | guarded =>
    refine .bind (f := List.map (Value.renumber σ)) (.tryCatch ?_ fun raised => ?_) hpacked
    · exact h.bind fun results => .pure rfl
    · refine .pure ?_
      rw [caught_renumber]
      rfl

/-! ### Expressions and statements -/

theorem argument_renumber (scope : Scope) (level index : Nat) :
    (scope.renumber σ).argument level index = (scope.argument level index).renumber σ := by
  have hlevel : (scope.renumber σ).getD level [] =
      (scope.getD level []).map (Value.renumber σ) := by
    unfold Scope.renumber
    rw [List.getD_eq_getElem?_getD, List.getD_eq_getElem?_getD, List.getElem?_map]
    cases scope[level]? <;> rfl
  unfold Scope.argument
  split
  · rfl
  · rw [hlevel, getD_renumber]

mutual

theorem mirrored_evalExpr (hcall : call.Mirrored σ) (scope : Scope) :
    ∀ expr, Mirrors σ (Value.renumber σ) (evalExpr call scope expr)
      (evalExpr call (scope.renumber σ) expr)
  | .nil | .boolean _ | .integer _ | .float _ | .string _ | .stream => by
    unfold evalExpr
    exact .pure rfl
  | .argumentCount => by
    unfold evalExpr
    refine .pure ?_
    cases scope with
    | nil => rfl
    | cons args rest =>
      show Value.integer (Int64.ofNat (args.map (Value.renumber σ)).length) = _
      rw [List.length_map]
      rfl
  | .global name => by
    unfold evalExpr
    exact mirrored_readGlobal hcall name
  | .argument index => by
    unfold evalExpr
    exact .pure (argument_renumber scope 0 index)
  | .outer level index => by
    unfold evalExpr
    exact .pure (argument_renumber scope level index)
  | .field table key => by
    unfold evalExpr
    refine (mirrored_evalExpr hcall scope table).bind fun table => ?_
    refine (mirrored_evalExpr hcall scope key).bind fun key => ?_
    exact mirrored_readField hcall key _ table
  | .call form callee arguments => by
    unfold evalExpr
    refine (mirrored_evalExpr hcall scope callee).bind fun callee => ?_
    refine (mirrored_evalExprs hcall scope arguments).bind fun values => ?_
    exact mirrored_deliver form (hcall callee values)
  | .function body => by
    unfold evalExpr
    refine Mirrors.get.bind fun m => ?_
    have hnew := m.newFunction_renumber (σ := σ) (.closure scope body)
    rw [Callable.renumber] at hnew
    rw [hnew]
    exact (Mirrors.set _).bind fun _ => .pure rfl
  | .table entries metatable => by
    unfold evalExpr
    refine (mirrored_evalEntries hcall scope entries).bind fun entries => ?_
    refine (mirrored_evalExpr hcall scope metatable).bind fun metatable => ?_
    refine (mirrored_allocate default).bind fun table => ?_
    refine (mirrored_fill table entries).bind fun _ => ?_
    cases metatable with
    | nil => exact .pure rfl
    | _ => exact (mirrored_setMetatable [table, _]).discard.bind fun _ => .pure rfl
  | .length operand => by
    unfold evalExpr
    exact (mirrored_evalExpr hcall scope operand).bind fun value => mirrored_lengthOf value
  | .typeName operand => by
    unfold evalExpr
    refine (mirrored_evalExpr hcall scope operand).bind fun value => .pure ?_
    rw [Value.typeName_renumber, Value.renumber_ofText]
  | .numberKind operand => by
    unfold evalExpr
    refine (mirrored_evalExpr hcall scope operand).bind fun value => .pure ?_
    cases value <;> rfl
  | .equal left right => by
    unfold evalExpr
    refine (mirrored_evalExpr hcall scope left).bind fun left => ?_
    refine (mirrored_evalExpr hcall scope right).bind fun right => .pure ?_
    rw [Value.same_renumber]
    rfl
  | .add left right => by
    unfold evalExpr
    refine (mirrored_evalExpr hcall scope left).bind fun left => ?_
    refine (mirrored_evalExpr hcall scope right).bind fun right => ?_
    rw [Value.plus_renumber, Value.plusError_renumber]
    split
    · next sum hsum => exact .pure (Value.renumber_of_plus hsum).symm
    · exact mirrored_raiseText _
  | .concat parts => by
    unfold evalExpr
    refine (mirrored_evalExprs hcall scope parts).bind fun values => ?_
    exact (mirrored_concatAll values).bind fun _ => .pure rfl
  | .not operand => by
    unfold evalExpr
    refine (mirrored_evalExpr hcall scope operand).bind fun value => .pure ?_
    rw [Value.isTrue_renumber]
    rfl
  | .keys operand => by
    unfold evalExpr
    refine (mirrored_evalExpr hcall scope operand).bind fun value => ?_
    refine (mirrored_keysOf hcall value).bind fun keys => ?_
    have hkeys : numbered (keys.map Value.string) =
        (numbered (keys.map Value.string)).renumber σ := by
      rw [← numbered_renumber, List.map_map]
      rfl
    have hallocate := mirrored_allocate (σ := σ) (numbered (keys.map Value.string))
    rwa [← hkeys] at hallocate
  | .thread => by
    unfold evalExpr
    refine Mirrors.get.bind fun m => ?_
    exact (Mirrors.set m.newObject.2).bind fun _ => .pure rfl

theorem mirrored_evalExprs (hcall : call.Mirrored σ) (scope : Scope) :
    ∀ exprs, Mirrors σ (List.map (Value.renumber σ)) (evalExprs call scope exprs)
      (evalExprs call (scope.renumber σ) exprs)
  | .nil => by
    unfold evalExprs
    exact .pure rfl
  | .cons head tail => by
    unfold evalExprs
    refine (mirrored_evalExpr hcall scope head).bind fun value => ?_
    exact (mirrored_evalExprs hcall scope tail).bind fun values => .pure rfl

theorem mirrored_evalEntries (hcall : call.Mirrored σ) (scope : Scope) :
    ∀ entries, Mirrors σ (List.map (renumberEntry σ)) (evalEntries call scope entries)
      (evalEntries call (scope.renumber σ) entries)
  | .nil => by
    unfold evalEntries
    exact .pure rfl
  | .cons key value tail => by
    unfold evalEntries
    refine (mirrored_evalExpr hcall scope key).bind fun key => ?_
    refine (mirrored_evalExpr hcall scope value).bind fun value => ?_
    exact (mirrored_evalEntries hcall scope tail).bind fun entries => .pure rfl

end

mutual

theorem mirrored_execStmt (hcall : call.Mirrored σ) (scope : Scope) :
    ∀ stmt, Mirrors σ (Option.map (List.map (Value.renumber σ))) (execStmt call scope stmt)
      (execStmt call (scope.renumber σ) stmt)
  | .setGlobal name value => by
    unfold execStmt
    refine (mirrored_evalExpr hcall scope value).bind fun value => ?_
    exact (mirrored_writeGlobal hcall name value).bind fun _ => .pure rfl
  | .setField table key value => by
    unfold execStmt
    refine (mirrored_evalExpr hcall scope table).bind fun table => ?_
    refine (mirrored_evalExpr hcall scope key).bind fun key => ?_
    refine (mirrored_evalExpr hcall scope value).bind fun value => ?_
    exact (mirrored_writeField hcall key value _ table).bind fun _ => .pure rfl
  | .record values => by
    unfold execStmt
    refine (mirrored_evalExprs hcall scope values).bind fun values => ?_
    refine (Mirrors.modify fun m => ?_).bind fun _ => .pure rfl
    -- What is noted are snapshots, and they show no numbers.
    rw [Machine.snapshots_renumber]
    rfl
  | .perform callee arguments => by
    unfold execStmt
    refine (mirrored_evalExpr hcall scope callee).bind fun callee => ?_
    refine (mirrored_evalExprs hcall scope arguments).bind fun values => ?_
    exact (hcall callee values).discard.bind fun _ => .pure rfl
  | .return values => by
    unfold execStmt
    exact (mirrored_evalExprs hcall scope values).bind fun values => .pure rfl
  | .raise value => by
    unfold execStmt
    exact (mirrored_evalExpr hcall scope value).bind fun value => .throw value
  | .cond test thenBlock elseBlock => by
    unfold execStmt
    refine (mirrored_evalExpr hcall scope test).bind fun value => ?_
    rw [Value.isTrue_renumber]
    split
    · exact mirrored_execBlock hcall scope thenBlock
    · exact mirrored_execBlock hcall scope elseBlock

theorem mirrored_execBlock (hcall : call.Mirrored σ) (scope : Scope) :
    ∀ block, Mirrors σ (Option.map (List.map (Value.renumber σ))) (execBlock call scope block)
      (execBlock call (scope.renumber σ) block)
  | .nil => by
    unfold execBlock
    exact .pure rfl
  | .cons head tail => by
    unfold execBlock
    refine (mirrored_execStmt hcall scope head).bind fun returned => ?_
    cases returned with
    | some results => exact .pure rfl
    | none => exact mirrored_execBlock hcall scope tail

end

/-! ### Calls -/

theorem getD_map_renumber (returned : Option (List Value)) :
    (returned.map (List.map (Value.renumber σ))).getD [] =
      (returned.getD []).map (Value.renumber σ) := by
  cases returned <;> rfl

theorem mirrored_runCallable (hcall : call.Mirrored σ) (callable : Callable) (args : List Value) :
    Mirrors σ (List.map (Value.renumber σ)) (runCallable call callable args)
      (runCallable call (callable.renumber σ) (args.map (Value.renumber σ))) := by
  cases callable with
  | closure scope body =>
    exact (mirrored_execBlock hcall (args :: scope) body).bind fun returned =>
      .pure (getD_map_renumber returned)
  | builtin builtin => exact mirrored_builtin hcall args builtin
  | native native => exact mirrored_native args native
  | refuseWrite name => exact mirrored_refuse _
  | walk step entries => exact .pure rfl

/-- However deep the calls go that are left, they do what they did. -/
theorem mirrored_apply (depth : Nat) : Call.Mirrored σ (apply depth) := by
  induction depth with
  | zero => exact fun _ _ => mirrored_raiseText _
  | succ depth ih =>
    exact fun callee args => mirrored_invoke (mirrored_runCallable ih) chainLimit callee args

theorem mirrored_call : Call.Mirrored σ Script.call := mirrored_apply callDepth

theorem mirrored_runBlock (block : Block) :
    Mirrors σ (List.map (Value.renumber σ)) (runBlock block) (runBlock block) :=
  (mirrored_execBlock mirrored_call [[]] block).bind fun returned =>
    .pure (getD_map_renumber returned)

/-! ### What the host starts -/

/-- The text of anything but a refusal is found out by showing it. -/
theorem faultOf_succ (contexts : Contexts) (limit : Nat) {raised : Value}
    (h : ∀ id cause, raised ≠ .failure id cause) (m : Machine) :
    faultOf contexts (limit + 1) raised m =
      match Eval.start (display Script.call raised) contexts m with
      | (.ok bytes, m) => (.raised (Text.Utf8.decodeLossy bytes.data.toList) true, m)
      | (.error other, m) => faultOf contexts limit other m := by
  cases raised with
  | failure id cause => exact absurd rfl (h id cause)
  | _ => rfl

/-- Finding out what a raised value is to the host runs script code, too. -/
theorem faultOf_renumber (contexts : Contexts) (limit : Nat) (raised : Value) (m : Machine) :
    faultOf (Contexts.renumber σ contexts) limit (raised.renumber σ) (m.renumber σ) =
      ((faultOf contexts limit raised m).1, (faultOf contexts limit raised m).2.renumber σ) := by
  induction limit generalizing raised m with
  | zero => cases raised <;> rfl
  | succ limit ih =>
    by_cases h : ∃ id cause, raised = .failure id cause
    · obtain ⟨id, cause, rfl⟩ := h
      rfl
    · have hdisplay : Mirrors σ (fun text => text) _ _ := mirrored_display mirrored_call raised
      rw [faultOf_succ contexts limit fun id cause heq => h ⟨id, cause, heq⟩,
        faultOf_succ _ limit fun id cause heq =>
          h ⟨id, cause, Value.renumber_inj (σ := σ) (w := .failure id cause) heq⟩,
        hdisplay contexts m]
      rcases Eval.start (display Script.call raised) contexts m with ⟨other | bytes, m'⟩
      · exact ih other m'
      · rfl

/-- A computation of a script does for the host what it did: with the same faults, and what it gives
    and leaves has the new numbers. -/
theorem toHost_renumber {f : α → α} {computation mirrored : Eval α}
    (h : Mirrors σ f computation mirrored) (contexts : Contexts) (m : Machine) :
    mirrored.toHost (Contexts.renumber σ contexts) (m.renumber σ) =
      ((computation.toHost contexts m).1.map f, (computation.toHost contexts m).2.renumber σ) := by
  unfold Eval.toHost
  rw [h contexts m]
  rcases computation.start contexts m with ⟨raised | a, m'⟩
  · simp only [Eval.renumbered, faultOf_renumber]
    rfl
  · rfl

end EventBridge.Script
