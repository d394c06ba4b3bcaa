import EventBridge.Proofs.Discipline.Rules

/-! # Access and the functions in place keep to a discipline

  Reading, writing and calling keep to a discipline if the calls they lead to do, and so do the
  functions that a script finds in place. Each of them comes down to the laws of `Discipline`.

  Where a window is in front of a table, the evaluator itself goes into that table: reading ends
  there (`start_readField_of_bare`), and a walk takes its keys and leaves everything as it is
  (`start_walkKeys_of_bare`).
-/

namespace EventBridge.Script

variable {contexts : Contexts} {m : Machine} {call : Call}

/-! ### Behind a window -/

/-- A call of a function runs what it does, unless no depth is left. -/
def Call.Runs (call : Call) : Prop :=
  ∀ id args contexts m,
    (call (.function id) args).start contexts m = (.error (Value.ofText "stack overflow"), m) ∨
      ∃ inner : Call, (call (.function id) args).start contexts m =
        (runCallable inner (m.functions[id]?.getD default) args).start contexts m

/-- With a level of calls left, a call of a function runs what it does with the levels below. -/
theorem start_apply_function (depth id : Nat) (args : List Value) (contexts : Contexts)
    (m : Machine) :
    (apply (depth + 1) (.function id) args).start contexts m =
      (runCallable (apply depth) (m.functions[id]?.getD default) args).start contexts m := by
  show (invoke (runCallable (apply depth)) chainLimit (.function id) args).start contexts m = _
  rw [chainLimit, invoke, Eval.start_bind, Eval.start_get]

theorem runs_apply (depth : Nat) : (apply depth).Runs := by
  intro id args contexts m
  cases depth with
  | zero => exact .inl rfl
  | succ depth => exact .inr ⟨apply depth, start_apply_function depth id args contexts m⟩

/-- A table without a metatable has what it has. -/
theorem start_readField_of_bare {id : Nat} (h : (m.table id).metatable = none) (key : Value)
    (steps : Nat) :
    (readField call key (steps + 1) (.table id)).start contexts m =
      (.ok ((m.table id).get key), m) := by
  have hindex : m.metafield id "__index" = .nil := by
    unfold Machine.metafield
    rw [h]
  rw [readField, Eval.start_bind, Eval.start_get]
  dsimp only
  cases hget : (m.table id).get key with
  | nil => simp only [hindex, Eval.start_pure]
  | _ => rfl

/-- The entry behind a key is looked up, and nothing is changed. -/
theorem start_next (call : Call) (id : Nat) (key : Value) (contexts : Contexts) (m : Machine) :
    (Builtin.next.run call [.table id, key]).start contexts m =
      match entryAfter (m.table id) key with
      | some results => (.ok results, m)
      | none => (.error (Value.ofText "invalid key to 'next'"), m) := by
  show ((tableArgument 1 "next" [.table id, key]) >>= _ : Eval _).start contexts m = _
  rw [Eval.start_bind]
  show Eval.start (get >>= _) contexts m = _
  rw [Eval.start_bind, Eval.start_get]
  show (match entryAfter (m.table id) key with
    | some results => pure results
    | none => raiseText "invalid key to 'next'" : Eval _).start contexts m = _
  cases entryAfter (m.table id) key <;> rfl

/-- A walk by the function in place reads the table that it goes over, and changes nothing. -/
theorem start_walkKeys_of_bare (hcall : call.Runs) {step : Nat}
    (hstep : m.functions[step]? = some (.builtin .next)) (entries fuel : Nat) (control : Value) :
    ∃ result, (walkKeys call (.function step) (.table entries) fuel control).start contexts m =
      (result, m) ∧ ∀ raised, result = .error raised → raised.Plain := by
  -- No step changes the machine, so the induction is about one machine and any control.
  induction fuel generalizing control with
  | zero => exact ⟨_, rfl, by rintro _ ⟨⟩; trivial⟩
  | succ fuel ih =>
    rw [walkKeys, Eval.start_bind]
    rcases hcall step [.table entries, control] contexts m with hover | ⟨inner, hruns⟩
    · rw [hover]
      exact ⟨_, rfl, by rintro _ ⟨⟩; trivial⟩
    · have hnext : (runCallable inner (m.functions[step]?.getD default)
          [.table entries, control]).start contexts m =
            (Builtin.next.run inner [.table entries, control]).start contexts m := by
        rw [hstep]
        rfl
      rw [hruns, hnext, start_next]
      cases entryAfter (m.table entries) control with
      | none => exact ⟨_, rfl, by rintro _ ⟨⟩; trivial⟩
      | some results =>
        dsimp only
        cases firstOf results with
        | nil => exact ⟨_, rfl, by rintro _ ⟨⟩⟩
        | string bytes =>
          obtain ⟨result, hrest, hplain⟩ := ih (.string bytes)
          dsimp only
          rw [Eval.start_bind, hrest]
          cases result with
          | ok keys => exact ⟨_, rfl, by rintro _ ⟨⟩⟩
          | error raised => exact ⟨_, rfl, hplain⟩
        | _ => exact ih _

/-- A walk over a table whose metatable says how it begins. -/
theorem start_keysOf {id walk : Nat} (hpairs : m.metafield id "__pairs" = .function walk) :
    (keysOf call (.table id)).start contexts m =
      match (call (.function walk) [.table id]).start contexts m with
      | (.ok results, m) =>
        ((·.mergeSort bytesBefore) <$> walkKeys call (results.getD 0 .nil) (results.getD 1 .nil)
          (walkSteps m (results.getD 1 .nil)) (results.getD 2 .nil)).start contexts m
      | (.error raised, m) => (.error raised, m) := by
  unfold keysOf
  dsimp only
  rw [Eval.start_bind, Eval.start_get]
  dsimp only
  rw [hpairs]
  dsimp only
  rw [Eval.start_bind]
  rcases (call (.function walk) [.table id]).start contexts m with ⟨_ | results, m'⟩
  · rfl
  · dsimp only
    rw [Eval.start_bind, Eval.start_get, map_eq_pure_bind]

theorem start_keysOf_of_walk {id walk entries : Nat} {step : Value}
    (hpairs : m.metafield id "__pairs" = .function walk)
    (hcall : (call (.function walk) [.table id]).start contexts m =
      (.ok [step, .table entries, .nil], m)) :
    (keysOf call (.table id)).start contexts m =
      match (walkKeys call step (.table entries) (walkSteps m (.table entries)) .nil).start
        contexts m with
      | (.ok keys, m) => (.ok (keys.mergeSort bytesBefore), m)
      | (.error raised, m) => (.error raised, m) := by
  rw [start_keysOf hpairs, hcall]
  simp only [List.getD_cons_zero, List.getD_cons_succ]
  rw [Eval.start_map]
  rcases (walkKeys call step (.table entries) (walkSteps m (.table entries)) .nil).start contexts m
    with ⟨_ | keys, m'⟩ <;> rfl

namespace Discipline

variable {D : Discipline} {w w' : D.World} {α : Type}

/-- Calls that keep to a discipline: one of an allowed value, with allowed arguments, gives allowed
    results. -/
structure KeepsCalls (D : Discipline) (call : Call) : Prop where
  keeps : ∀ {w callee args}, D.Allows w callee → D.AllowsAll w args →
    D.Keeps w D.AllowsAll (call callee args)
  runs : call.Runs

/-! ### Fields -/

/-- Behind a window reading ends with what the table there has. -/
theorem keepsAt_readField_of_bare (hm : D.Sound w m) {id : Nat} (hbare : m.Bare (D.Allows w) id)
    (key : Value) (steps : Nat) :
    D.KeepsAt w D.Allows contexts (readField call key steps (.table id)) m := by
  cases steps with
  | zero => exact .of_error rfl (D.refl w) hm (allows_ofText w _)
  | succ steps =>
    exact .of_ok (start_readField_of_bare hbare.metatable key steps) (D.refl w) hm
      (hbare.holds.get (D.plain w) key)

theorem keeps_readField (hcall : D.KeepsCalls call) {key : Value} (hkey : D.Allows w key)
    (steps : Nat) {table : Value} (htable : D.Allows w table) :
    D.Keeps w D.Allows (readField call key steps table) := by
  induction steps generalizing table w with
  | zero => exact keeps_raiseText _
  | succ steps ih =>
    cases table with
    | table id =>
      rw [readField]
      refine .get fun w' hw contexts m hcontexts hm => ?_
      have hid := D.later hw htable
      have hkey' := D.later hw hkey
      have hvalue := (D.table hm hid).get (D.plain w') key
      -- A field that is missing leads to the handler, if there is one: a function, or a table to
      -- go on with.
      split
      · rcases metafield_index hm hid with hhandler | ⟨entries, hentries, hbare⟩
        · split
          · exact (Keeps.value (allows_nil w')).at hcontexts hm
          · have hargs : D.AllowsAll w' [.table id, key] := allowsAll_cons.2 ⟨hid, .single hkey'⟩
            next f heq =>
            rw [heq] at hhandler
            have hkeeps := (hcall.keeps hhandler hargs).bind fun w'' _ results hresults =>
              .value hresults.firstOf
            exact hkeeps.at hcontexts hm
          · exact (ih hkey' hhandler).at hcontexts hm
        · -- The table behind a window is read by the evaluator, and is given to no code.
          rw [hentries]
          exact keepsAt_readField_of_bare hm hbare key steps
      · exact (Keeps.value hvalue).at hcontexts hm
    | _ => exact keeps_raiseText _

theorem keeps_writeEntry {id : Nat} (hid : D.Allows w (.table id)) {key value : Value}
    (hkey : D.Allows w key) (hvalue : D.Allows w value) :
    D.Keeps w anything (writeEntry id key value) := by
  unfold writeEntry
  split
  · exact keeps_raiseText _
  · exact .modify fun w' hw m hm =>
      D.setEntry hm (D.later hw hid) (D.later hw hkey) (D.later hw hvalue)

theorem keeps_writeField (hcall : D.KeepsCalls call) {key value : Value} (hkey : D.Allows w key)
    (hvalue : D.Allows w value) (steps : Nat) {table : Value} (htable : D.Allows w table) :
    D.Keeps w anything (writeField call key value steps table) := by
  induction steps generalizing table w with
  | zero => exact keeps_raiseText _
  | succ steps ih =>
    cases table with
    | table id =>
      rw [writeField]
      refine .get fun w' hw contexts m hcontexts hm => ?_
      have hid := D.later hw htable
      have hkey' := D.later hw hkey
      have hvalue' := D.later hw hvalue
      have hhandler : D.Allows w' (m.metafield id "__newindex") :=
        allows_metafield hm hid (by decide) (by decide)
      split
      · split
        · exact (keeps_writeEntry hid hkey' hvalue').at hcontexts hm
        · next f heq =>
          rw [heq] at hhandler
          have hargs : D.AllowsAll w' [.table id, key, value] :=
            allowsAll_cons.2 ⟨hid, allowsAll_cons.2 ⟨hkey', .single hvalue'⟩⟩
          exact (hcall.keeps hhandler hargs).discard.at hcontexts hm
        · exact (ih hkey' hvalue' hhandler).at hcontexts hm
      · exact (keeps_writeEntry hid hkey' hvalue').at hcontexts hm
    | _ => exact keeps_raiseText _

theorem keeps_readGlobal (hcall : D.KeepsCalls call) (name : ByteArray) :
    D.Keeps w D.Allows (readGlobal call name) :=
  keeps_readField hcall (allows_string w name) _ (D.globals w)

theorem keeps_writeGlobal (hcall : D.KeepsCalls call) (name : ByteArray) {value : Value}
    (hvalue : D.Allows w value) : D.Keeps w anything (writeGlobal call name value) :=
  keeps_writeField hcall (allows_string w name) hvalue _ (D.globals w)

/-! ### Calls and texts -/

theorem keeps_invoke {run : Callable → List Value → Eval (List Value)}
    (hrun : ∀ {w callable args}, callable.Holds (D.Allows w) → D.AllowsAll w args →
      D.Keeps w D.AllowsAll (run callable args))
    (steps : Nat) {callee : Value} (hcallee : D.Allows w callee) {args : List Value}
    (hargs : D.AllowsAll w args) : D.Keeps w D.AllowsAll (invoke run steps callee args) := by
  induction steps generalizing callee args w with
  | zero => exact keeps_raiseText _
  | succ steps ih =>
    cases callee with
    | function id =>
      rw [invoke]
      refine .get fun w' hw contexts m hcontexts hm => ?_
      have hcallable := D.function hm (D.later hw hcallee)
      exact (hrun hcallable (hargs.later hw)).at hcontexts hm
    | table id =>
      rw [invoke]
      refine .get fun w' hw contexts m hcontexts hm => ?_
      have hid := D.later hw hcallee
      have hhandler : D.Allows w' (m.metafield id "__call") :=
        allows_metafield hm hid (by decide) (by decide)
      -- The table goes first among the arguments of what is called in its place.
      have hargs' : D.AllowsAll w' (.table id :: args) := allowsAll_cons.2 ⟨hid, hargs.later hw⟩
      split
      · exact (keeps_raiseText _).at hcontexts hm
      · exact (ih hhandler hargs').at hcontexts hm
    | _ => exact keeps_raiseText _

theorem keeps_display (hcall : D.KeepsCalls call) {value : Value} (hvalue : D.Allows w value) :
    D.Keeps w anything (display call value) := by
  cases value with
  | table id =>
    rw [display]
    refine .get fun w' hw contexts m hcontexts hm => ?_
    have hid := D.later hw hvalue
    have hhandler : D.Allows w' (m.metafield id "__tostring") :=
      allows_metafield hm hid (by decide) (by decide)
    split
    · exact Keeps.done.at hcontexts hm
    · refine ((hcall.keeps hhandler (.single hid)).bind fun _ _ results _ => ?_).at hcontexts hm
      split
      · exact .done
      · split
        · exact .done
        · exact keeps_raiseText _
  | _ => exact .done

/-! ### Arguments -/

theorem keeps_badArgument {ok : D.World → α → Prop} (n : Nat) (function expected : String) :
    D.Keeps w ok (badArgument n function expected : Eval α) := keeps_raiseText _

/-- A table that is given as an argument is allowed. -/
theorem keeps_tableArgument (n : Nat) (function : String) {args : List Value}
    (hargs : D.AllowsAll w args) :
    D.Keeps w (fun w id => D.Allows w (.table id)) (tableArgument n function args) := by
  unfold tableArgument
  split
  · next id hid => exact .pure fun _ hw => D.later hw (hargs.getElem? hid)
  · exact keeps_badArgument _ _ _

theorem keeps_anyArgument (n : Nat) (function : String) {args : List Value}
    (hargs : D.AllowsAll w args) : D.Keeps w D.Allows (anyArgument n function args) := by
  unfold anyArgument
  split
  · next value hvalue => exact .value (hargs.getElem? hvalue)
  · exact keeps_badArgument _ _ _

theorem keeps_metatableArgument {arg : Option Value}
    (harg : ∀ value, arg = some value → D.Allows w value) :
    D.Keeps w (fun w other => ∀ id, other = some id → D.Allows w (.table id))
      (metatableArgument arg) := by
  unfold metatableArgument
  split
  · exact .pure fun _ _ _ => nofun
  · refine .pure fun _ hw id heq => ?_
    cases heq
    exact D.later hw (harg _ rfl)
  · exact keeps_badArgument _ _ _

/-! ### Built-in functions -/

theorem keeps_setMetatable {args : List Value} (hargs : D.AllowsAll w args) :
    D.Keeps w D.AllowsAll (setMetatable args) := by
  refine (keeps_tableArgument _ _ hargs).bind fun w₁ h₁ id hid => ?_
  have harg : ∀ value, args[1]? = some value → D.Allows w₁ value := fun value hvalue =>
    D.later h₁ (hargs.getElem? hvalue)
  refine (keeps_metatableArgument harg).bind fun w₂ h₂ other hother => ?_
  refine .get fun w₃ h₃ contexts m hcontexts hm => ?_
  have hid' := D.later h₃ (D.later h₂ hid)
  have hother' : ∀ o, other = some o → D.Allows w₃ (.table o) := fun o ho =>
    D.later h₃ (hother o ho)
  -- A table that is locked keeps the metatable that it has.
  by_cases hopen : m.metafield id "__metatable" = .nil
  · refine .of_ok ?_ (D.refl w₃) (D.setMeta hm hid' hopen hother') (.single hid')
    simp [Eval.start_map, hopen]
  · refine .of_error ?_ (D.refl w₃) hm (allows_ofText w₃ "cannot change a protected metatable")
    simp [Eval.start_bind, hopen, raiseText]

theorem keeps_getMetatable {args : List Value} (hargs : D.AllowsAll w args) :
    D.Keeps w D.AllowsAll (getMetatable args) := by
  refine (keeps_anyArgument _ _ hargs).bind fun w₁ h₁ value hvalue => ?_
  cases value with
  | table id =>
    refine .get fun w₂ h₂ contexts m hcontexts hm => ?_
    have hid := D.later h₂ hvalue
    have hshown : D.Allows w₂ (m.metafield id "__metatable") :=
      allows_metafield hm hid (by decide) (by decide)
    split
    · next other hopen hmeta =>
      exact (Keeps.values (.single (allows_metatable hm hid hmeta hopen))).at hcontexts hm
    · exact (Keeps.values (.single (allows_nil w₂))).at hcontexts hm
    · exact (Keeps.values (.single hshown)).at hcontexts hm
  | handle _ _ => exact .values (.single (allows_boolean w₁ false))
  | failure _ _ => exact .values (.single (allows_boolean w₁ false))
  | _ => exact .values (.single (allows_nil w₁))

theorem keeps_builtin (hcall : D.KeepsCalls call) {args : List Value} (hargs : D.AllowsAll w args)
    (builtin : Builtin) : D.Keeps w D.AllowsAll (builtin.run call args) := by
  cases builtin with
  | rawget =>
    refine (keeps_tableArgument _ _ hargs).bind fun w₁ h₁ id hid => ?_
    refine (keeps_anyArgument _ _ (hargs.later h₁)).bind fun w₂ h₂ key _ => ?_
    refine .get fun w₃ h₃ contexts m hcontexts hm => ?_
    have hid' := D.later h₃ (D.later h₂ hid)
    exact (Keeps.values (.single ((D.table hm hid').get (D.plain w₃) key))).at hcontexts hm
  | rawset =>
    refine (keeps_tableArgument _ _ hargs).bind fun w₁ h₁ id hid => ?_
    refine (keeps_anyArgument _ _ (hargs.later h₁)).bind fun w₂ h₂ key hkey => ?_
    have hargs₂ := (hargs.later h₁).later h₂
    refine (keeps_anyArgument _ _ hargs₂).bind fun w₃ h₃ value hvalue => ?_
    have hid' := D.later h₃ (D.later h₂ hid)
    refine (keeps_writeEntry hid' (D.later h₃ hkey) hvalue).bind fun w₄ h₄ _ _ => ?_
    exact .values (.single (D.later h₄ hid'))
  | setmetatable => exact keeps_setMetatable hargs
  | getmetatable => exact keeps_getMetatable hargs
  | error => exact .throw hargs.firstOf
  | next =>
    refine (keeps_tableArgument _ _ hargs).bind fun w₁ h₁ id hid => ?_
    refine .get fun w₂ h₂ contexts m hcontexts hm => ?_
    split
    · next results hresults =>
      have hholds := D.table hm (D.later h₂ hid)
      exact (Keeps.values (holds_entryAfter hholds hresults)).at hcontexts hm
    · exact (keeps_raiseText _).at hcontexts hm
  | tostring =>
    refine (keeps_anyArgument _ _ hargs).bind fun w₁ _ value hvalue => ?_
    refine (keeps_display hcall hvalue).bind fun w₂ _ text _ => ?_
    exact .values (.single (allows_string w₂ text))

/-! ### Questions to the engine -/

/-- The answers of the engine are texts, or nil. -/
theorem plain_of_answer {live : Engine.Live} {native : Native} {results : List Value}
    (h : native.answer live = .ok results) : ∀ value ∈ results, value.Plain := by
  cases native with
  | networkInfo =>
    simp only [Native.answer, bind, Except.bind] at h
    split at h
    · cases h
    · cases h
      simp [Value.Plain, Value.ofText]
  | triggerInfo =>
    simp only [Native.answer] at h
    split at h <;> cases h <;> simp [Value.Plain, Value.ofText]
  | _ =>
    cases h
    simp [Value.Plain, Value.ofText]

theorem plain_of_reply {native : Native} {subject : Value} {results : List Value}
    (h : native.reply contexts subject = .ok results) : ∀ value ∈ results, value.Plain := by
  unfold Native.reply at h
  split at h
  · cases h
  · next live _ =>
    cases hanswer : native.answer live with
    | error cause =>
      rw [hanswer] at h
      cases h
    | ok answer =>
      rw [hanswer] at h
      cases h
      exact plain_of_answer hanswer

/-- A question is noted, whether or not it is answered. -/
theorem keeps_native {args : List Value} (hargs : D.AllowsAll w args) (native : Native) :
    D.Keeps w D.AllowsAll (native.run args) := by
  intro w₁ h₁ contexts m hcontexts hm
  have hsubject := (hargs.later h₁).firstOf
  cases hreply : native.reply contexts (firstOf args) with
  | ok results =>
    obtain ⟨w₂, h₂, hsound⟩ := D.answered native hm hcontexts hsubject hreply
    exact .of_ok (Native.start_run_ok hreply m) h₂ hsound (.of_plain (plain_of_reply hreply))
  | error cause =>
    obtain ⟨w₂, h₂, hsound, hraised⟩ := D.refused native hm hcontexts hsubject hreply
    exact .of_error (Native.start_run_error hreply m) h₂ hsound hraised

end Discipline

end EventBridge.Script
