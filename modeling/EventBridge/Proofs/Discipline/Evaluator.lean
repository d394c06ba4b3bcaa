import EventBridge.Proofs.Discipline.Library
import EventBridge.Script.Fault

/-! # Scripts keep to a discipline

  Whatever a script does, it keeps to a discipline that its machine is sound for:
  `keeps_evalExpr` and `keeps_execBlock` go by the form of the script, for one level of calls, and
  `keepsCalls_apply` ties the levels together by induction on the depth that is left.

  `keeps_toHost` is what the host relies on: the machine after script code is sound, and if a
  refusal is what the code fails with, then it is one that the script may have come by.
-/

namespace EventBridge.Script

/-- A piece of code, with the arguments around it, and so many levels of calls left. -/
inductive Piece where
  | expression (depth : Nat) (scope : Scope) (expr : Expr)
  | statement (depth : Nat) (scope : Scope) (stmt : Stmt)
  | block (depth : Nat) (scope : Scope) (body : Block)
  | call (depth : Nat) (callee : Value) (args : List Value)

namespace Piece

/-- The values that a piece of code gives. -/
def values : Piece → Eval (List Value)
  | expression depth scope expr => do return [← evalExpr (apply depth) scope expr]
  | statement depth scope stmt => do return (← execStmt (apply depth) scope stmt).getD []
  | block depth scope body => do return (← execBlock (apply depth) scope body).getD []
  | call depth callee args => apply depth callee args

/-- What a piece of code has to work with. -/
def Has (allows : Value → Prop) : Piece → Prop
  | expression _ scope _ | statement _ scope _ | block _ scope _ =>
    ∀ args ∈ scope, ∀ value ∈ args, allows value
  | call _ callee args => allows callee ∧ ∀ value ∈ args, allows value

end Piece

namespace Discipline

variable {D : Discipline} {w w' : D.World} {contexts : Contexts} {m : Machine} {call : Call}
  {α : Type}

/-! ### Parts of expressions -/

/-- What a guarded call shows is what was raised, or a text. -/
theorem allows_caught {raised : Value} (h : D.Allows w raised) : D.Allows w (caught raised) := by
  cases raised with
  | string bytes => exact allows_string w _
  | _ => exact h

theorem plain_of_plus {left right sum : Value} (h : left.plus? right = some sum) : sum.Plain := by
  unfold Value.plus? at h
  split at h <;> cases h <;> trivial

theorem keeps_walkKeys (hcall : D.KeepsCalls call) {step state : Value} (hstep : D.Allows w step)
    (hstate : D.Allows w state) (fuel : Nat) {control : Value} (hcontrol : D.Allows w control) :
    D.Keeps w anything (walkKeys call step state fuel control) := by
  induction fuel generalizing control w with
  | zero => exact keeps_raiseText _
  | succ fuel ih =>
    rw [walkKeys]
    have hargs : D.AllowsAll w [state, control] := allowsAll_cons.2 ⟨hstate, .single hcontrol⟩
    refine (hcall.keeps hstep hargs).bind fun w₁ h₁ results hresults => ?_
    have hstep₁ := D.later h₁ hstep
    have hstate₁ := D.later h₁ hstate
    have hfirst := hresults.firstOf
    split
    · exact .done
    · exact (ih hstep₁ hstate₁ (allows_string w₁ _)).bind fun _ _ _ _ => .done
    · exact ih hstep₁ hstate₁ hfirst

theorem keeps_keysOf (hcall : D.KeepsCalls call) {value : Value} (hvalue : D.Allows w value) :
    D.Keeps w anything (keysOf call value) := by
  cases value with
  | table id =>
    intro w₁ h₁ contexts m hcontexts hm
    have hid := D.later h₁ hvalue
    rcases metafield_pairs hm hid with hhandler | ⟨walk, step, entries, hwalk, hwalks, hstep, -⟩
    · refine .get ?_
      split
      · exact Keeps.done.at hcontexts hm
      · refine Keeps.at ?_ hcontexts hm
        refine (hcall.keeps hhandler (.single hid)).bind fun w₂ _ results hresults => ?_
        refine .get fun w₃ h₃ contexts m hcontexts hm => ?_
        have hresults := hresults.later h₃
        have hkeys := keeps_walkKeys hcall (hresults.getD 0) (hresults.getD 1)
          (walkSteps m (results.getD 1 .nil)) (hresults.getD 2)
        exact (hkeys.bind fun _ _ _ _ => .done).at hcontexts hm
    · -- The walk is over a table that the script does not get hold of.
      obtain ⟨result, hkeys, hplain⟩ : ∃ result, (walkKeys call (.function step) (.table entries)
          (walkSteps m (.table entries)) .nil).start contexts m = (result, m) ∧
            ∀ raised, result = .error raised → raised.Plain :=
        start_walkKeys_of_bare hcall.runs hstep entries _ .nil
      rcases hcall.runs walk [.table id] contexts m with hover | ⟨inner, hruns⟩
      · have hstart : (keysOf call (.table id)).start contexts m =
            (.error (Value.ofText "stack overflow"), m) := by
          rw [start_keysOf hwalk, hover]
        exact .of_error hstart (D.refl w₁) hm (allows_ofText w₁ _)
      · have hresults : (call (.function walk) [.table id]).start contexts m =
            (.ok [.function step, .table entries, .nil], m) := by
          rw [hruns, hwalks]
          rfl
        have hstart := start_keysOf_of_walk hwalk hresults
        rw [hkeys] at hstart
        cases result with
        | ok keys => exact .of_ok hstart (D.refl w₁) hm trivial
        | error raised => exact .of_error hstart (D.refl w₁) hm (D.plain w₁ (hplain raised rfl))
  | _ => exact (keeps_raiseText _).bind fun _ _ _ (_ : True) => .done

theorem keeps_lengthOf (value : Value) : D.Keeps w D.Allows (lengthOf value) := by
  cases value with
  | string bytes => exact .value (allows_integer w _)
  | table id =>
    exact .get fun w₁ _ contexts m hcontexts hm =>
      (Keeps.value (allows_integer w₁ _)).at hcontexts hm
  | _ => exact keeps_badArgument _ _ _

theorem keeps_chunkOf (value : Value) : D.Keeps w anything (chunkOf value) := by
  unfold chunkOf
  split
  · exact .done
  · exact keeps_raiseText _

theorem keeps_concatAll : ∀ {w : D.World} (values : List Value),
    D.Keeps w anything (concatAll values)
  | _, [] => .done
  | _, [value] => keeps_chunkOf value
  | _, [left, right] =>
    (keeps_chunkOf left).bind fun _ _ _ _ => (keeps_chunkOf right).bind fun _ _ _ _ => .done
  | _, value :: second :: third :: rest =>
    (keeps_concatAll (second :: third :: rest)).bind fun _ _ _ _ =>
      (keeps_chunkOf value).bind fun _ _ _ _ => .done

/-- Entries that are all allowed, by key and value. -/
def AllowsEntries (D : Discipline) (w : D.World) (entries : List (Value × Value)) : Prop :=
  ∀ entry ∈ entries, D.Allows w entry.1 ∧ D.Allows w entry.2

theorem AllowsEntries.later {entries : List (Value × Value)} (h : D.AllowsEntries w entries)
    (hw : D.Later w w') : D.AllowsEntries w' entries :=
  fun entry hmem => ⟨D.later hw (h entry hmem).1, D.later hw (h entry hmem).2⟩

theorem keeps_fill {table : Value} (htable : D.Allows w table) {entries : List (Value × Value)}
    (hentries : D.AllowsEntries w entries) : D.Keeps w anything (fill table entries) := by
  induction entries generalizing w with
  | nil => exact .done
  | cons entry rest ih =>
    obtain ⟨hkey, hvalue⟩ := hentries entry List.mem_cons_self
    have hrest : D.AllowsEntries w rest := fun other hmem =>
      hentries other (List.mem_cons_of_mem _ hmem)
    cases table with
    | table id =>
      exact (keeps_writeEntry htable hkey hvalue).bind fun _ h₁ _ _ =>
        ih (D.later h₁ htable) (hrest.later h₁)
    | _ => exact .done

theorem metatable_numbered (values : List Value) : (numbered values).metatable = none := by
  have hfold : ∀ (pairs : List (Value × Nat)) (table : Table),
      (pairs.foldl (fun table pair =>
        table.set (.integer (Int64.ofNat (pair.2 + 1))) pair.1) table).metatable =
          table.metatable := by
    intro pairs
    induction pairs with
    | nil => exact fun _ => rfl
    | cons pair pairs ih => exact fun table => ih _
  exact hfold _ _

theorem keeps_deliver (form : CallForm) {result : Eval (List Value)}
    (hresult : D.Keeps w D.AllowsAll result) : D.Keeps w D.Allows (deliver form result) := by
  have hpack : ∀ (w : D.World) (values : List Value), D.AllowsAll w values →
      D.Keeps w D.Allows (allocate (packed values)) := fun w values hvalues =>
    keeps_allocate (holds_packed hvalues) (metatable_numbered values)
  cases form with
  | first => exact hresult.bind fun _ _ results hresults => .value hresults.firstOf
  | packed => exact hresult.bind fun w₁ _ results hresults => hpack w₁ results hresults
  | guarded =>
    refine Keeps.bind (?_ : D.Keeps w D.AllowsAll _) fun w₁ _ values hvalues =>
      hpack w₁ values hvalues
    refine .tryCatch ?_ fun w₁ _ raised hraised => ?_
    · refine hresult.bind fun w₁ _ results hresults => ?_
      exact .values (allowsAll_cons.2 ⟨allows_boolean w₁ true, hresults⟩)
    · exact .values (allowsAll_cons.2 ⟨allows_boolean w₁ false, .single (allows_caught hraised)⟩)

/-! ### Expressions and statements -/

mutual

theorem keeps_evalExpr (hcall : D.KeepsCalls call) {w : D.World} {scope : Scope}
    (hscope : D.AllowsScope w scope) :
    ∀ expr, D.Keeps w D.Allows (evalExpr call scope expr)
  | .nil | .boolean _ | .integer _ | .float _ | .string _ | .stream | .argumentCount => by
    unfold evalExpr
    exact .value (D.plain w trivial)
  | .global name => by
    unfold evalExpr
    exact keeps_readGlobal hcall name
  | .argument index => by
    unfold evalExpr
    exact .value (hscope.argument 0 index)
  | .outer level index => by
    unfold evalExpr
    exact .value (hscope.argument level index)
  | .field table key => by
    unfold evalExpr
    refine (keeps_evalExpr hcall hscope table).bind fun w₁ h₁ table htable => ?_
    refine (keeps_evalExpr hcall (hscope.later h₁) key).bind fun w₂ h₂ key hkey => ?_
    -- The table was allowed when the key was still to come, and stays so.
    exact keeps_readField hcall hkey _ (D.later h₂ htable)
  | .call form callee arguments => by
    unfold evalExpr
    refine (keeps_evalExpr hcall hscope callee).bind fun w₁ h₁ callee hcallee => ?_
    refine (keeps_evalExprs hcall (hscope.later h₁) arguments).bind fun w₂ h₂ values hvalues => ?_
    exact keeps_deliver form (hcall.keeps (D.later h₂ hcallee) hvalues)
  | .function body => by
    unfold evalExpr
    refine .get fun w₁ h₁ contexts m hcontexts hm => ?_
    -- The function takes the arguments around it along.
    have hcallable : (Callable.closure scope body).Holds (D.Allows w₁) := hscope.later h₁
    obtain ⟨hsound, hid⟩ := D.newFunction hm hcallable
    exact .of_ok rfl (D.refl w₁) hsound hid
  | .table entries metatable => by
    unfold evalExpr
    refine (keeps_evalEntries hcall hscope entries).bind fun w₁ h₁ entries hentries => ?_
    refine (keeps_evalExpr hcall (hscope.later h₁) metatable).bind
      fun w₂ h₂ metatable hmetatable => ?_
    refine (keeps_allocate Table.holds_default rfl).bind fun w₃ h₃ table htable => ?_
    refine (keeps_fill htable ((hentries.later h₂).later h₃)).bind fun w₄ h₄ _ _ => ?_
    have htable' := D.later h₄ htable
    have hmetatable' := D.later h₄ (D.later h₃ hmetatable)
    split
    · exact .value htable'
    · have hargs := allowsAll_cons.2 ⟨htable', AllowsAll.single hmetatable'⟩
      exact (keeps_setMetatable hargs).discard.bind fun _ h₅ _ _ => .value (D.later h₅ htable')
  | .length operand => by
    unfold evalExpr
    exact (keeps_evalExpr hcall hscope operand).bind fun _ _ value _ => keeps_lengthOf value
  | .typeName operand => by
    unfold evalExpr
    exact (keeps_evalExpr hcall hscope operand).bind fun w₁ _ _ _ =>
      .value (allows_ofText w₁ _)
  | .numberKind operand => by
    unfold evalExpr
    refine (keeps_evalExpr hcall hscope operand).bind fun w₁ _ value _ =>
      .value (D.plain w₁ ?_)
    cases value <;> trivial
  | .equal left right => by
    unfold evalExpr
    refine (keeps_evalExpr hcall hscope left).bind fun w₁ h₁ _ _ => ?_
    exact (keeps_evalExpr hcall (hscope.later h₁) right).bind
      fun w₂ _ _ _ => .value (allows_boolean w₂ _)
  | .add left right => by
    unfold evalExpr
    refine (keeps_evalExpr hcall hscope left).bind fun w₁ h₁ left _ => ?_
    refine (keeps_evalExpr hcall (hscope.later h₁) right).bind fun w₂ _ right _ => ?_
    split
    · next sum hsum => exact .value (D.plain w₂ (plain_of_plus hsum))
    · exact keeps_raiseText _
  | .concat parts => by
    unfold evalExpr
    refine (keeps_evalExprs hcall hscope parts).bind fun w₁ _ values _ => ?_
    exact (keeps_concatAll values).bind fun w₂ _ bytes _ => .value (allows_string w₂ bytes)
  | .not operand => by
    unfold evalExpr
    exact (keeps_evalExpr hcall hscope operand).bind fun w₁ _ _ _ =>
      .value (allows_boolean w₁ _)
  | .keys operand => by
    unfold evalExpr
    refine (keeps_evalExpr hcall hscope operand).bind fun w₁ _ value hvalue => ?_
    refine (keeps_keysOf hcall hvalue).bind fun w₂ _ keys _ => ?_
    refine keeps_allocate (holds_numbered (.of_plain fun value hmem => ?_)) (metatable_numbered _)
    obtain ⟨key, -, rfl⟩ := List.mem_map.1 hmem
    trivial
  | .thread => by
    unfold evalExpr
    exact .get fun w₁ _ contexts m _ hm =>
      .of_ok rfl (D.refl w₁) (D.newObject hm) (D.plain w₁ trivial)

theorem keeps_evalExprs (hcall : D.KeepsCalls call) {w : D.World} {scope : Scope}
    (hscope : D.AllowsScope w scope) :
    ∀ exprs, D.Keeps w D.AllowsAll (evalExprs call scope exprs)
  | .nil => by
    unfold evalExprs
    exact .values allowsAll_nil
  | .cons head tail => by
    unfold evalExprs
    refine (keeps_evalExpr hcall hscope head).bind fun w₁ h₁ value hvalue => ?_
    refine (keeps_evalExprs hcall (hscope.later h₁) tail).bind
      fun w₂ h₂ values hvalues => ?_
    exact .values (allowsAll_cons.2 ⟨D.later h₂ hvalue, hvalues⟩)

theorem keeps_evalEntries (hcall : D.KeepsCalls call) {w : D.World} {scope : Scope}
    (hscope : D.AllowsScope w scope) :
    ∀ entries, D.Keeps w D.AllowsEntries (evalEntries call scope entries)
  | .nil => by
    unfold evalEntries
    exact .pure fun _ _ => by simp [AllowsEntries]
  | .cons key value tail => by
    unfold evalEntries
    refine (keeps_evalExpr hcall hscope key).bind fun w₁ h₁ key hkey => ?_
    refine (keeps_evalExpr hcall (hscope.later h₁) value).bind fun w₂ h₂ value hvalue => ?_
    refine (keeps_evalEntries hcall ((hscope.later h₁).later h₂) tail).bind
      fun w₃ h₃ entries hentries => .pure fun w₄ h₄ => ?_
    have hfirst : D.Allows w₃ key ∧ D.Allows w₃ value :=
      ⟨D.later h₃ (D.later h₂ hkey), D.later h₃ hvalue⟩
    refine AllowsEntries.later ?_ h₄
    intro entry hmem
    rcases List.mem_cons.1 hmem with rfl | hmem
    · exact hfirst
    · exact hentries entry hmem

end

/-- What a body of statements returns, if it returns. -/
def AllowsReturn (D : Discipline) (w : D.World) (returned : Option (List Value)) : Prop :=
  ∀ results, returned = some results → D.AllowsAll w results

theorem AllowsReturn.getD {returned : Option (List Value)} (h : D.AllowsReturn w returned) :
    D.AllowsAll w (returned.getD []) := by
  cases returned with
  | none => exact allowsAll_nil
  | some results => exact h results rfl

/-- Going on without a return. -/
theorem keeps_none : D.Keeps w D.AllowsReturn (pure none : Eval (Option (List Value))) :=
  .pure fun _ _ => by rintro _ ⟨⟩

theorem keeps_some {values : List Value} (h : D.AllowsAll w values) :
    D.Keeps w D.AllowsReturn (pure (some values) : Eval (Option (List Value))) :=
  .pure fun _ hw => by
    rintro _ ⟨⟩
    exact h.later hw

mutual

theorem keeps_execStmt (hcall : D.KeepsCalls call) {w : D.World} {scope : Scope}
    (hscope : D.AllowsScope w scope) :
    ∀ stmt, D.Keeps w D.AllowsReturn (execStmt call scope stmt)
  | .setGlobal name value => by
    unfold execStmt
    refine (keeps_evalExpr hcall hscope value).bind fun w₁ h₁ value hvalue => ?_
    exact (keeps_writeGlobal hcall name hvalue).bind fun _ _ _ _ => keeps_none
  | .setField table key value => by
    unfold execStmt
    refine (keeps_evalExpr hcall hscope table).bind fun w₁ h₁ table htable => ?_
    have hscope₁ := hscope.later h₁
    refine (keeps_evalExpr hcall hscope₁ key).bind fun w₂ h₂ key hkey => ?_
    refine (keeps_evalExpr hcall (hscope₁.later h₂) value).bind
      fun w₃ h₃ value hvalue => ?_
    have htable₃ := D.later h₃ (D.later h₂ htable)
    exact (keeps_writeField hcall (D.later h₃ hkey) hvalue _ htable₃).bind fun _ _ _ _ => keeps_none
  | .record values => by
    unfold execStmt
    refine (keeps_evalExprs hcall hscope values).bind fun w₁ _ values _ => ?_
    exact (Keeps.modify fun _ _ m hm => D.record _ hm).bind fun _ _ _ _ => keeps_none
  | .perform callee arguments => by
    unfold execStmt
    refine (keeps_evalExpr hcall hscope callee).bind fun w₁ h₁ callee hcallee => ?_
    refine (keeps_evalExprs hcall (hscope.later h₁) arguments).bind fun w₂ h₂ values hvalues => ?_
    exact (hcall.keeps (D.later h₂ hcallee) hvalues).discard.bind fun _ _ _ _ => keeps_none
  | .return values => by
    unfold execStmt
    exact (keeps_evalExprs hcall hscope values).bind fun _ _ values hvalues =>
      keeps_some hvalues
  | .raise value => by
    unfold execStmt
    exact (keeps_evalExpr hcall hscope value).bind fun _ _ value hvalue => .throw hvalue
  | .cond test thenBlock elseBlock => by
    unfold execStmt
    refine (keeps_evalExpr hcall hscope test).bind fun w₁ h₁ value _ => ?_
    split
    · exact keeps_execBlock hcall (hscope.later h₁) thenBlock
    · exact keeps_execBlock hcall (hscope.later h₁) elseBlock

theorem keeps_execBlock (hcall : D.KeepsCalls call) {w : D.World} {scope : Scope}
    (hscope : D.AllowsScope w scope) :
    ∀ block, D.Keeps w D.AllowsReturn (execBlock call scope block)
  | .nil => by
    unfold execBlock
    exact keeps_none
  | .cons head tail => by
    unfold execBlock
    refine (keeps_execStmt hcall hscope head).bind fun w₁ h₁ returned hreturned => ?_
    split
    · next results => exact keeps_some (hreturned results rfl)
    · exact keeps_execBlock hcall (hscope.later h₁) tail

end

/-! ### Calls -/

theorem keeps_runCallable (hcall : D.KeepsCalls call) {callable : Callable} {args : List Value}
    (hcallable : callable.Holds (D.Allows w)) (hargs : D.AllowsAll w args) :
    D.Keeps w D.AllowsAll (runCallable call callable args) := by
  cases callable with
  | closure scope body =>
    have hscope : D.AllowsScope w (args :: scope) := AllowsScope.cons hcallable hargs
    exact (keeps_execBlock hcall hscope body).bind fun _ _ returned hreturned =>
      .values hreturned.getD
  | builtin builtin => exact keeps_builtin hcall hargs builtin
  | native native => exact keeps_native hargs native
  | refuseWrite name => exact keeps_readOnly name
  | walk step entries =>
    obtain ⟨hstep, hentries⟩ := hcallable
    exact .values (allowsAll_cons.2 ⟨hstep, allowsAll_cons.2 ⟨hentries, .single (allows_nil w)⟩⟩)

/-- However deep the calls go that are left, they keep to the discipline. -/
theorem keepsCalls_apply (depth : Nat) : D.KeepsCalls (apply depth) := by
  refine ⟨?_, runs_apply depth⟩
  induction depth with
  | zero => exact fun _ _ => keeps_raiseText _
  | succ depth ih =>
    intro w callee args hcallee hargs
    -- A chain of values to call is followed on this level; the code at its end calls on the next.
    exact keeps_invoke (fun hcallable hargs => keeps_runCallable ⟨ih, runs_apply depth⟩ hcallable
      hargs) chainLimit hcallee hargs

theorem keepsCalls_call : D.KeepsCalls Script.call := keepsCalls_apply callDepth

theorem keeps_runBlock (block : Block) : D.Keeps w D.AllowsAll (runBlock block) := by
  have hscope : D.AllowsScope w [[]] := by
    intro args hmem
    rw [List.mem_singleton.1 hmem]
    exact allowsAll_nil
  exact (keeps_execBlock keepsCalls_call hscope block).bind fun _ _ _ hreturned =>
    .values hreturned.getD

/-- A piece of code that has allowed values keeps to the discipline. -/
theorem keeps_values {piece : Piece} (h : piece.Has (D.Allows w)) :
    D.Keeps w D.AllowsAll piece.values := by
  cases piece with
  | expression depth scope expr =>
    exact (keeps_evalExpr (keepsCalls_apply depth) h expr).bind fun _ _ value hvalue =>
      .values (.single hvalue)
  | statement depth scope stmt =>
    exact (keeps_execStmt (keepsCalls_apply depth) h stmt).bind fun _ _ returned hreturned =>
      .values hreturned.getD
  | block depth scope body =>
    exact (keeps_execBlock (keepsCalls_apply depth) h body).bind fun _ _ returned hreturned =>
      .values hreturned.getD
  | call depth callee args => exact (keepsCalls_apply depth).keeps h.1 h.2

/-! ### What the host starts -/

/-- A refusal that the host is shown is one that the script may have come by. -/
def AllowsFault (D : Discipline) (w : D.World) : Fault → Prop
  | .refused cause => ∃ id, D.Allows w (.failure id cause)
  | _ => True

/-- A result that is `ok`, or a fault that is allowed. -/
def Shows (D : Discipline) (w : D.World) (ok : D.World → α → Prop) : Except Fault α → Prop
  | .ok a => ok w a
  | .error fault => D.AllowsFault w fault

/-- Finding out what a raised value is to the host runs script code, too. -/
theorem keeps_faultOf (limit : Nat) {raised : Value} (hraised : D.Allows w raised)
    (hcontexts : D.Admits contexts) (hm : D.Sound w m) :
    ∃ w', D.Later w w' ∧ D.Sound w' (faultOf contexts limit raised m).2 ∧
      D.AllowsFault w' (faultOf contexts limit raised m).1 := by
  induction limit generalizing raised m w with
  | zero =>
    cases raised with
    | failure id cause => exact ⟨w, D.refl w, hm, id, hraised⟩
    | _ => exact ⟨w, D.refl w, hm, trivial⟩
  | succ limit ih =>
    -- To show a value can raise another one, which is then shown in its place.
    obtain ⟨w₁, h₁, hsound, hgives⟩ := (keeps_display keepsCalls_call hraised).at hcontexts hm
    cases hstart : Eval.start (display Script.call raised) contexts m with
    | mk result m' =>
      rw [hstart] at hsound hgives
      cases raised with
      | failure id cause => exact ⟨w, D.refl w, hm, id, hraised⟩
      | _ =>
        simp only [faultOf, hstart]
        cases result with
        | ok bytes => exact ⟨w₁, h₁, hsound, trivial⟩
        | error other =>
          obtain ⟨w₂, h₂, hrest⟩ := ih hgives hsound
          exact ⟨w₂, D.trans h₁ h₂, hrest⟩

theorem keeps_toHost {ok : D.World → α → Prop} {computation : Eval α}
    (h : D.Keeps w ok computation) (hcontexts : D.Admits contexts) (hm : D.Sound w m) :
    ∃ w', D.Later w w' ∧ D.Sound w' (computation.toHost contexts m).2 ∧
      D.Shows w' ok (computation.toHost contexts m).1 := by
  obtain ⟨w₁, h₁, hsound, hgives⟩ := h.at hcontexts hm
  unfold Eval.toHost
  cases hstart : computation.start contexts m with
  | mk result m' =>
    rw [hstart] at hsound hgives
    cases result with
    | ok a => exact ⟨w₁, h₁, hsound, hgives⟩
    | error raised =>
      obtain ⟨w₂, h₂, hafter, hfault⟩ := keeps_faultOf faultLimit hgives hcontexts hsound
      exact ⟨w₂, D.trans h₁ h₂, hafter, hfault⟩

end Discipline

end EventBridge.Script
