import EventBridge.Interpreter.Module
import EventBridge.Proofs.Discipline.Evaluator
import EventBridge.Proofs.Interpreter.Positions

/-! # The host keeps to a discipline

  What `Discipline.Keeps` is for a script, `Host.Keeps` is for the host: started in an interpreter
  whose machine is sound and whose stack is allowed, a computation leaves it so, and what it fails
  with shows no refusal but one that the script may have come by.

  Each operation on the stack, the registration of native functions and the loading of a script are
  of this kind. `Host.enter` and `Host.leave` change the contexts: they keep to a discipline that
  admits any (`Host.keeps_during`).
-/

namespace EventBridge

open Script (Callable Contexts Discipline Fault Table Value)
open Script.Discipline (anything)

variable {D : Discipline} {w w' : D.World} {α β : Type}

/-- An interpreter in which a discipline is kept. -/
structure Interpreter.Holds (D : Discipline) (w : D.World) (i : Interpreter) : Prop where
  contexts : D.Admits i.contexts
  machine : D.Sound w i.machine
  stack : D.AllowsAll w i.stack

/-- A failure that shows no refusal but one that the script may have come by. -/
def Script.Discipline.AllowsError (D : Discipline) (w : D.World) : BridgeError → Prop
  | .module (.fault fault) | .call _ fault | .stack (.interpreter fault) | .interpreter fault =>
    D.AllowsFault w fault
  | _ => True

theorem Script.Discipline.AllowsFault.later {fault : Fault} (h : D.AllowsFault w fault)
    (hw : D.Later w w') : D.AllowsFault w' fault := by
  cases fault with
  | refused cause =>
    obtain ⟨id, hid⟩ := h
    exact ⟨id, D.later hw hid⟩
  | _ => trivial

theorem Script.Discipline.AllowsError.later {e : BridgeError} (h : D.AllowsError w e)
    (hw : D.Later w w') : D.AllowsError w' e := by
  unfold AllowsError at h ⊢
  split at h <;> first | exact h.later hw | trivial

/-- Ways to wrap a fault that add none. -/
def Script.Discipline.Wraps (D : Discipline) (wrap : Fault → BridgeError) : Prop :=
  ∀ w fault, D.AllowsFault w fault → D.AllowsError w (wrap fault)

namespace Host

/-- A result that is `ok`, or a failure that is allowed. -/
def Gives (D : Discipline) (w : D.World) (ok : D.World → α → Prop) : Except BridgeError α → Prop
  | .ok a => ok w a
  | .error e => D.AllowsError w e

/-- What a computation does when it is started in one interpreter. -/
def KeepsAt (D : Discipline) (w : D.World) (ok : D.World → α → Prop) (computation : Host α)
    (i : Interpreter) : Prop :=
  ∃ w', D.Later w w' ∧ (exec computation i).2.Holds D w' ∧
    Gives D w' ok (exec computation i).1

/-- What a computation does whenever it is started. -/
def Keeps (D : Discipline) (w : D.World) (ok : D.World → α → Prop) (computation : Host α) : Prop :=
  ∀ w', D.Later w w' → ∀ i : Interpreter, i.Holds D w' → KeepsAt D w' ok computation i

/-! ### Rules -/

variable {i i' : Interpreter}

theorem KeepsAt.of_exec {ok : D.World → α → Prop} {computation : Host α}
    {result : Except BridgeError α} (hexec : exec computation i = (result, i'))
    (hw : D.Later w w') (hi : i'.Holds D w') (hresult : Gives D w' ok result) :
    KeepsAt D w ok computation i := ⟨w', hw, by rwa [hexec], by rwa [hexec]⟩

/-- A computation that comes to the same as another keeps to what that one keeps to. -/
theorem KeepsAt.after {ok : D.World → α → Prop} {computation next : Host α}
    (hexec : exec computation i = exec next i') (hw : D.Later w w')
    (hnext : KeepsAt D w' ok next i') : KeepsAt D w ok computation i := by
  obtain ⟨w'', hw', hi, hresult⟩ := hnext
  exact ⟨w'', D.trans hw hw', by rwa [hexec], by rwa [hexec]⟩

theorem Keeps.at {ok : D.World → α → Prop} {computation : Host α} (h : Keeps D w ok computation)
    (hi : i.Holds D w) : KeepsAt D w ok computation i := h w (D.refl w) i hi

theorem Keeps.later {ok : D.World → α → Prop} {computation : Host α} (h : Keeps D w ok computation)
    (hw : D.Later w w') : Keeps D w' ok computation := fun w'' hw' => h w'' (D.trans hw hw')

theorem Keeps.pure {ok : D.World → α → Prop} {a : α} (ha : ∀ w', D.Later w w' → ok w' a) :
    Keeps D w ok (Pure.pure a) := fun w' hw _ hi => .of_exec rfl (D.refl w') hi (ha w' hw)

theorem Keeps.done {a : α} : Keeps D w anything (Pure.pure a) := .pure fun _ _ => trivial

theorem Keeps.throw {ok : D.World → α → Prop} {e : BridgeError} (he : D.AllowsError w e) :
    Keeps D w ok (MonadExcept.throw e) :=
  fun w' hw _ hi => .of_exec rfl (D.refl w') hi (he.later hw)

theorem Keeps.bind {ok : D.World → α → Prop} {ok' : D.World → β → Prop} {computation : Host α}
    {next : α → Host β} (h : Keeps D w ok computation)
    (hnext : ∀ w', D.Later w w' → ∀ a, ok w' a → Keeps D w' ok' (next a)) :
    Keeps D w ok' (computation >>= next) := by
  intro w₁ h₁ i hi
  obtain ⟨w₂, h₂, hi', hresult⟩ := h w₁ h₁ i hi
  cases hexec : exec computation i with
  | mk result i' =>
    rw [hexec] at hi' hresult
    cases result with
    | ok a =>
      refine .after ?_ h₂ ((hnext w₂ (D.trans h₁ h₂) a hresult).at hi')
      rw [exec_bind, hexec]
    | error e =>
      have hfailed : exec (computation >>= next) i = (.error e, i') := by rw [exec_bind, hexec]
      exact .of_exec hfailed h₂ hi' hresult

/-- A guarded computation shows its failure in its result. -/
theorem Keeps.attempt {ok : D.World → α → Prop} {computation : Host α}
    (h : Keeps D w ok computation) :
    Keeps D w (fun w result => Gives D w ok result) (Host.attempt computation) := by
  intro w₁ h₁ i hi
  obtain ⟨w₂, h₂, hi', hresult⟩ := h w₁ h₁ i hi
  exact .of_exec (exec_attempt computation i) h₂ hi' hresult

theorem Keeps.deliver {result : Except BridgeError α} (hresult : Gives D w anything result) :
    Keeps D w anything (Host.deliver result) := by
  cases result with
  | ok a => exact .done
  | error e => exact .throw hresult

/-- Changing the interpreter apart from its machine and its contexts. -/
theorem Keeps.modify {change : Interpreter → Interpreter}
    (hcontexts : ∀ i, (change i).contexts = i.contexts)
    (hmachine : ∀ i, (change i).machine = i.machine)
    (hstack : ∀ w', D.Later w w' → ∀ i : Interpreter, D.AllowsAll w' i.stack →
      D.AllowsAll w' (change i).stack) :
    Keeps D w anything (modify change) := by
  intro w' hw i hi
  refine .of_exec (exec_modify change i) (D.refl w') ⟨?_, ?_, hstack w' hw i hi.stack⟩ trivial
  · rw [hcontexts]
    exact hi.contexts
  · rw [hmachine]
    exact hi.machine

/-- A computation that changes nothing but the stack. -/
theorem Keeps.of_stack {ok : D.World → α → Prop} {computation : Host α}
    (h : ∀ w', D.Later w w' → ∀ i : Interpreter, D.AllowsAll w' i.stack →
      ∃ stack result, exec computation i = (result, { i with stack := stack }) ∧
        D.AllowsAll w' stack ∧ Gives D w' ok result) :
    Keeps D w ok computation := by
  intro w' hw i hi
  obtain ⟨stack, result, hexec, hstack, hresult⟩ := h w' hw i hi.stack
  exact .of_exec hexec (D.refl w') ⟨hi.contexts, hi.machine, hstack⟩ hresult

theorem keeps_report (line : Log.Line) : Keeps D w anything (report line) :=
  .modify (fun _ => rfl) (fun _ => rfl) fun _ _ _ h => h

/-- Script code of the host keeps to what it keeps to as a script. -/
theorem Keeps.script {ok : D.World → α → Prop} {wrap : Fault → BridgeError} (hwrap : D.Wraps wrap)
    {computation : Script.Eval α} (h : D.Keeps w ok computation) :
    Keeps D w ok (Host.script wrap computation) := by
  intro w₁ h₁ i hi
  obtain ⟨w₂, h₂, hsound, hshows⟩ := D.keeps_toHost (h.later h₁) hi.contexts hi.machine
  refine .of_exec (exec_script wrap computation i) h₂ ⟨hi.contexts, hsound, hi.stack.later h₂⟩ ?_
  cases hrun : (computation.toHost i.contexts i.machine).1 with
  | ok a =>
    rw [hrun] at hshows
    exact hshows
  | error fault =>
    rw [hrun] at hshows
    exact hwrap w₂ fault hshows

/-! ### Putting values on the stack -/

theorem wraps_onStack : D.Wraps onStack := fun _ _ h => h

theorem wraps_inCall : D.Wraps inCall := fun _ _ h => h

theorem wraps_inModule : D.Wraps inModule := fun _ _ h => h

theorem wraps_interpreter : D.Wraps .interpreter := fun _ _ h => h

theorem keeps_push {value : Value} (hvalue : D.Allows w value) : Keeps D w anything (push value) :=
  .modify (fun _ => rfl) (fun _ => rfl) fun _ hw _ hstack =>
    hstack.append (.single (D.later hw hvalue))

theorem keeps_pushNil : Keeps D w anything pushNil := keeps_push (D.allows_nil w)

theorem keeps_pushText (text : String) : Keeps D w anything (pushText text) :=
  keeps_push (D.allows_ofText w text)

theorem keeps_pushInteger (n : Int64) : Keeps D w anything (pushInteger n) :=
  keeps_push (D.allows_integer w n)

theorem keeps_checkBytes (bytes : ByteArray) : Keeps D w anything (checkBytes bytes) := by
  refine .of_stack fun w' _ i hstack => ⟨i.stack, _, exec_checkBytes bytes i, hstack, ?_⟩
  split <;> trivial

theorem keeps_pushBytes (bytes : ByteArray) : Keeps D w anything (pushBytes bytes) :=
  (keeps_checkBytes bytes).bind fun w₁ _ _ _ => keeps_push (D.allows_string w₁ bytes)

theorem keeps_checkHeaders (headers : Http.Headers) :
    Keeps D w anything (checkHeaders headers) := by
  refine .of_stack fun w' _ i hstack => ⟨i.stack, _, exec_checkHeaders headers i, hstack, ?_⟩
  split <;> trivial

/-- Header fields are texts. -/
theorem holds_headerTable (headers : Http.Headers) : (headerTable headers).Holds (D.Allows w) := by
  intro entry hmem
  obtain ⟨field, -, rfl⟩ := List.mem_map.1 hmem
  exact ⟨D.allows_ofText w _, D.allows_ofText w _⟩

theorem keeps_pushTable {table : Table} (htable : ∀ w, table.Holds (D.Allows w))
    (hbare : table.metatable = none) : Keeps D w anything (pushTable table) := by
  intro w' _ i hi
  have hnone : ∀ other, table.metatable = some other → D.Allows w' (.table other) := by
    rw [hbare]
    exact nofun
  obtain ⟨hsound, hid⟩ := D.newTable hi.machine (htable w') hnone
  exact .of_exec (exec_pushTable table i) (D.refl w')
    ⟨hi.contexts, hsound, hi.stack.append (.single hid)⟩ trivial

theorem keeps_pushHeaders (headers : Http.Headers) : Keeps D w anything (pushHeaders headers) :=
  (keeps_checkHeaders headers).bind fun _ _ _ _ =>
    keeps_pushTable (fun _ => holds_headerTable headers) rfl

theorem keeps_pushHandle {handle : Handle} (h : ∀ id, D.Allows w (.handle id handle)) :
    Keeps D w anything (pushHandle handle) := by
  intro w' hw i hi
  have hvalue := D.later hw (h i.machine.nextObject)
  exact .of_exec (exec_pushHandle handle i) (D.refl w')
    ⟨hi.contexts, D.newObject hi.machine, hi.stack.append (.single hvalue)⟩ trivial

/-! ### Taking values off the stack -/

theorem keeps_truncate (depth : Nat) : Keeps D w anything (truncate depth) :=
  .modify (fun _ => rfl) (fun _ => rfl) fun _ _ _ hstack =>
    hstack.of_subset (List.take_subset _ _)

theorem keeps_depth : Keeps D w anything depth :=
  .of_stack fun _ _ i hstack => ⟨i.stack, _, exec_depth i, hstack, trivial⟩

theorem keeps_pop (n : Nat) : Keeps D w anything (pop n) := by
  refine .of_stack fun w' _ i hstack => ?_
  rw [exec_pop]
  split
  · exact ⟨i.stack, _, rfl, hstack, trivial⟩
  · exact ⟨_, _, rfl, hstack.of_subset (List.take_subset _ _), trivial⟩

theorem keeps_peek (index : Int32) : Keeps D w D.Allows (peek index) := by
  refine .of_stack fun w' _ i hstack => ?_
  by_cases hindex : OutOfRange index i.stack
  · exact ⟨_, _, exec_peek_of_outOfRange hindex, hstack, trivial⟩
  · obtain ⟨below, value, above, hnames⟩ := exists_names hindex
    exact ⟨_, _, exec_peek_of_names hnames, hstack, hstack value (by simp [hnames.stack])⟩

theorem keeps_isNil (index : Int32) : Keeps D w anything (isNil index) :=
  (keeps_peek index).bind fun _ _ _ _ => .done

theorem keeps_remove (index : Int32) : Keeps D w D.Allows (remove index) := by
  refine .of_stack fun w' _ i hstack => ?_
  by_cases hindex : OutOfRange index i.stack
  · refine ⟨i.stack, .error (.stack (.badIndex index)), ?_, hstack, trivial⟩
    rw [exec_remove, stackPlace_of_outOfRange hindex]
  · obtain ⟨below, value, above, hnames⟩ := exists_names hindex
    have hrest : below ++ above ⊆ i.stack := by
      intro other hmem
      rw [hnames.stack]
      rcases List.mem_append.1 hmem with hmem | hmem
      · exact List.mem_append_left _ hmem
      · exact List.mem_append_right _ (List.mem_cons_of_mem _ hmem)
    exact ⟨_, _, exec_remove_of_names hnames, hstack.of_subset hrest,
      hstack value (by simp [hnames.stack])⟩

theorem keeps_popValue : Keeps D w D.Allows popValue := by
  refine .of_stack fun w' _ i hstack => ?_
  rw [exec_popValue]
  split
  · next value hlast =>
    exact ⟨_, _, rfl, hstack.of_subset (List.dropLast_subset _),
      hstack value (List.mem_of_getLast? hlast)⟩
  · exact ⟨i.stack, _, rfl, hstack, trivial⟩

/-! ### Variables, fields and calls -/

theorem keeps_getGlobal (name : String) : Keeps D w anything (getGlobal name) :=
  (Keeps.script wraps_onStack (D.keeps_readGlobal D.keepsCalls_call _)).bind fun _ _ _ hvalue =>
    keeps_push hvalue

theorem keeps_setGlobal (name : String) : Keeps D w anything (setGlobal name) :=
  keeps_popValue.bind fun _ _ _ hvalue =>
    .script wraps_onStack (D.keeps_writeGlobal D.keepsCalls_call _ hvalue)

theorem keeps_getField (index : Int32) (name : String) :
    Keeps D w anything (getField index name) := by
  refine (keeps_peek index).bind fun w₁ _ value hvalue => ?_
  cases value with
  | table id =>
    have hread :=
      D.keeps_readField D.keepsCalls_call (D.allows_ofText w₁ name) Script.chainLimit hvalue
    exact (Keeps.script wraps_onStack hread).bind fun _ _ _ hfield => keeps_push hfield
  | _ => exact .throw trivial

/-- Results that are filled up or cut are allowed if they were. -/
theorem allowsAll_take {returned : List Value} (h : D.AllowsAll w returned)
    (results : ResultCount) : D.AllowsAll w (results.take returned) := by
  cases results with
  | all => exact h
  | fixed count =>
    refine (h.of_subset (List.take_subset count returned)).append fun value hmem => ?_
    rw [(List.mem_replicate.1 hmem).2]
    exact D.allows_nil w

theorem keeps_calling (results : ResultCount) {callee : Value} (hcallee : D.Allows w callee)
    {values : List Value} (hvalues : D.AllowsAll w values) :
    Keeps D w anything (calling results callee values) := by
  have hcall : Keeps D w D.AllowsAll (script inCall (Script.call callee values)) :=
    .script wraps_inCall (D.keepsCalls_call.keeps hcallee hvalues)
  have hreturn : ∀ (w : D.World) returned, D.AllowsAll w returned → Keeps D w anything
      (modify fun i => { i with stack := i.stack ++ results.take returned } : Host Unit) :=
    fun w returned hreturned => .modify (fun _ => rfl) (fun _ => rfl) fun _ hw _ hstack =>
      hstack.append ((allowsAll_take hreturned results).later hw)
  cases callee with
  | function id => exact hcall.bind fun w _ returned => hreturn w returned
  | table id => exact hcall.bind fun w _ returned => hreturn w returned
  | _ =>
    refine Keeps.bind (Keeps.throw ?_) fun w _ returned => hreturn w returned
    trivial

/-- What is called and its arguments come from the stack, and the results go there. -/
theorem keeps_call (arguments : UInt64) (results : ResultCount) :
    Keeps D w anything (call arguments results) := by
  intro w' _ i hi
  have hbelow : D.AllowsAll w' (i.stack.take (i.stack.length - arguments.toNat)) :=
    hi.stack.of_subset (List.take_subset _ _)
  by_cases hneeded : i.stack.length < (arguments + 1).toNat
  · have hexec := exec_call arguments results i
    rw [if_pos hneeded] at hexec
    exact .of_exec hexec (D.refl w') hi trivial
  · -- The greatest number of arguments has no successor, so it passes the first test.
    by_cases hdepth : i.stack.length < arguments.toNat
    · have hexec := exec_call arguments results i
      rw [if_neg hneeded, if_pos hdepth] at hexec
      exact .of_exec hexec (D.refl w') hi trivial
    · have htaken : Interpreter.Holds D w'
          { i with stack := (i.stack.take (i.stack.length - arguments.toNat)).dropLast } :=
        ⟨hi.contexts, hi.machine, hbelow.of_subset (List.dropLast_subset _)⟩
      have hvalues := hi.stack.of_subset (List.drop_subset (i.stack.length - arguments.toNat) _)
      have hexec := exec_call arguments results i
      rw [if_neg hneeded, if_neg hdepth] at hexec
      exact .after hexec (D.refl w') ((keeps_calling results hbelow.getLastD hvalues).at htaken)

/-! ### Registration and loading -/

theorem keeps_newFunction {callable : Callable} (hcallable : callable.Holds (D.Allows w)) :
    Keeps D w D.Allows (newFunction callable) := by
  intro w' hw i hi
  have hholds : callable.Holds (D.Allows w') := by
    cases callable with
    | closure scope body =>
      exact fun args hargs value hvalue => D.later hw (hcallable args hargs value hvalue)
    | walk step entries => exact ⟨D.later hw hcallable.1, D.later hw hcallable.2⟩
    | _ => trivial
  obtain ⟨hsound, hid⟩ := D.newFunction hi.machine hholds
  exact .of_exec rfl (D.refl w') ⟨hi.contexts, hsound, hi.stack⟩ hid

theorem keeps_newTable {table : Table} (htable : table.Holds (D.Allows w))
    (hmeta : ∀ other, table.metatable = some other → D.Allows w (.table other)) :
    Keeps D w (fun w id => D.Allows w (.table id)) (newTable table) := by
  intro w' hw i hi
  have hholds : table.Holds (D.Allows w') := fun entry hmem =>
    ⟨D.later hw (htable entry hmem).1, D.later hw (htable entry hmem).2⟩
  obtain ⟨hsound, hid⟩ := D.newTable hi.machine hholds fun other heq => D.later hw (hmeta other heq)
  exact .of_exec rfl (D.refl w') ⟨hi.contexts, hsound, hi.stack⟩ hid

/-- A table that is built up by the host, and has no metatable yet. -/
def AllowsTable (D : Discipline) (w : D.World) (table : Table) : Prop :=
  table.Holds (D.Allows w) ∧ table.metatable = none

theorem keeps_nativeTable (natives : List NativeEntry) :
    Keeps D w (AllowsTable D) (nativeTable natives) := by
  induction natives generalizing w with
  | nil => exact .pure fun _ _ => ⟨Table.holds_default, rfl⟩
  | cons entry rest ih =>
    have hcallable : (Callable.native entry.native).Holds (D.Allows w) := trivial
    refine (keeps_newFunction hcallable).bind fun w₁ _ function hfunction => ?_
    refine ih.bind fun w₂ h₂ others hothers => .pure fun w₃ h₃ => ⟨?_, hothers.2⟩
    intro entry' hmem
    rcases List.mem_cons.1 hmem with rfl | hmem
    · exact ⟨D.allows_ofText w₃ _, D.later h₃ (D.later h₂ hfunction)⟩
    · exact ⟨D.later h₃ (hothers.1 entry' hmem).1, D.later h₃ (hothers.1 entry' hmem).2⟩

theorem keeps_readOnlyView (namespaceName : String) {entries : Nat}
    (hentries : D.Allows w (.table entries)) :
    Keeps D w (fun w id => D.Allows w (.table id)) (readOnlyView namespaceName entries) := by
  refine (Keeps.script wraps_interpreter (D.keeps_readGlobal D.keepsCalls_call _)).bind
    fun w₁ h₁ next hnext => ?_
  cases hfunction : functionOf next with
  | error fault =>
    refine .throw ?_
    unfold functionOf at hfunction
    split at hfunction <;> cases hfunction
    trivial
  | ok function =>
    have hentries₁ := D.later h₁ hentries
    -- The walk goes by what `next` is, and that is a function.
    have hwalk : (Callable.walk function entries).Holds (D.Allows w₁) := by
      unfold functionOf at hfunction
      split at hfunction <;> cases hfunction
      exact ⟨hnext, hentries₁⟩
    simp only [pure_bind]
    refine (keeps_newFunction hwalk).bind fun w₂ h₂ pairs hpairs => ?_
    have hrefuse : (Callable.refuseWrite namespaceName).Holds (D.Allows w₂) := trivial
    refine (keeps_newFunction hrefuse).bind fun w₃ h₃ refuseWrite hrefuseWrite => ?_
    refine (keeps_newTable ?_ (by rintro _ ⟨⟩)).bind fun w₄ _ metatable hmetatable => ?_
    · intro entry hmem
      simp only [List.map_cons, List.map_nil, List.mem_cons, List.not_mem_nil, or_false] at hmem
      rcases hmem with rfl | rfl | rfl | rfl
      · exact ⟨D.allows_ofText w₃ _, D.later h₃ (D.later h₂ hentries₁)⟩
      · exact ⟨D.allows_ofText w₃ _, hrefuseWrite⟩
      · exact ⟨D.allows_ofText w₃ _, D.later h₃ hpairs⟩
      · exact ⟨D.allows_ofText w₃ _, D.allows_boolean w₃ false⟩
    · refine keeps_newTable Table.holds_default ?_
      rintro _ ⟨⟩
      exact hmetatable

theorem keeps_register (namespaceName : String) (natives : List NativeEntry) :
    Keeps D w anything (register namespaceName natives) := by
  unfold register
  split
  · exact .throw trivial
  · refine (keeps_nativeTable natives).bind fun w₁ _ table htable => ?_
    refine (keeps_newTable htable.1 ?_).bind fun w₂ _ entries hentries => ?_
    · rw [htable.2]
      exact nofun
    refine (keeps_readOnlyView namespaceName hentries).bind fun w₃ _ view hview => ?_
    exact (Keeps.script wraps_interpreter (D.keeps_writeGlobal D.keepsCalls_call _ hview)).bind
      fun _ _ _ _ => keeps_report _

theorem keeps_loadSource (source : List UInt8) : Keeps D w anything (loadSource source) := by
  unfold loadSource
  split
  · exact .throw trivial
  · next block _ =>
    refine (Keeps.script wraps_inModule (D.keeps_runBlock block)).bind fun w₁ _ values hvalues => ?_
    have hpush : Keeps D w₁ anything
        (modify fun i => { i with stack := i.stack ++ values } : Host Unit) :=
      .modify (fun _ => rfl) (fun _ => rfl) fun _ hw _ hstack => hstack.append (hvalues.later hw)
    exact hpush.bind fun _ _ _ _ => .done

theorem keeps_loadModule (tree : FileTree) (path : String) :
    Keeps D w anything (loadModule tree path) := by
  refine (keeps_report _).bind fun _ _ _ _ => ?_
  split
  · exact .throw trivial
  · next source _ =>
    refine (keeps_loadSource source).bind fun _ _ count _ => ?_
    exact (keeps_report _).bind fun _ _ _ _ => .done

/-! ### Live contexts -/

section Contexts

variable (hadmits : ∀ contexts, D.Admits contexts)

include hadmits

/-- A computation that a context is live for keeps to a discipline if it does with any handle. -/
theorem keeps_during {ok : D.World → α → Prop} (live : Engine.Live)
    {computation : Handle → Host α} (h : ∀ handle, Keeps D w ok (computation handle)) :
    Keeps D w ok (during live computation) := by
  intro w₁ h₁ i hi
  cases hcontexts : i.contexts with
  | none =>
    exact .of_exec (exec_during_none live computation hcontexts) (D.refl w₁) hi trivial
  | some table =>
    -- Entering and leaving change the contexts alone, and any contexts are admitted.
    have hentered : Interpreter.Holds D w₁ { i with contexts := some (table.insert live).2 } :=
      ⟨hadmits _, hi.machine, hi.stack⟩
    obtain ⟨w₂, h₂, hi', hresult⟩ := h (table.insert live).1 w₁ h₁ _ hentered
    obtain ⟨-, lines, hleave⟩ := exec_leave (table.insert live).1
      (exec (computation (table.insert live).1) { i with contexts := some (table.insert live).2 }).2
    refine .of_exec (exec_during_some live computation hcontexts) h₂ ?_ hresult
    rw [hleave]
    exact ⟨hadmits _, hi'.machine, hi'.stack⟩

end Contexts

end Host

end EventBridge
