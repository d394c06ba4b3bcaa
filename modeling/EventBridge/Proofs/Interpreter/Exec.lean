import EventBridge.Interpreter.Natives

/-! # Running a computation of the host, step by step

  `Host.exec` as equations: first for the ways to put computations together, then for the
  operations. Script code is where the machine changes in more than one place; everything else
  about an interpreter is changed by the host alone (`exec_script`).
-/

namespace EventBridge

open Script (Value)

/-- A value that the host can call. A table may still have no function behind it; that is for the
    script to find out. -/
def Script.Value.isCallable : Value → Bool
  | .function _ | .table _ => true
  | _ => false

namespace Host

variable {α β : Type}

/-- What a computation comes to, and the interpreter after it. -/
def exec (computation : Host α) (i : Interpreter) : Except BridgeError α × Interpreter :=
  computation.run.run i

/-- A result that is there is what was computed. -/
theorem eq_ok_of_toOption {ε : Type} {result : Except ε α} {a : α}
    (h : result.toOption = some a) : result = .ok a := by
  cases result <;> cases h
  rfl

@[simp] theorem exec_pure (a : α) (i : Interpreter) : exec (pure a) i = (.ok a, i) := rfl

@[simp] theorem exec_throw (e : BridgeError) (i : Interpreter) :
    exec (throw e : Host α) i = (.error e, i) := rfl

@[simp] theorem exec_get (i : Interpreter) : exec (get : Host Interpreter) i = (.ok i, i) := rfl

@[simp] theorem exec_set (i i' : Interpreter) : exec (set i' : Host PUnit) i = (.ok (), i') := rfl

@[simp] theorem exec_modify (change : Interpreter → Interpreter) (i : Interpreter) :
    exec (modify change : Host PUnit) i = (.ok (), change i) := rfl

/-- A run takes the reports of a computation, and nothing else. -/
theorem run_eq (i : Interpreter) (computation : Host α) :
    i.run computation =
      ((exec computation { i with lines := [] }).1,
        { (exec computation { i with lines := [] }).2 with lines := [] },
        (exec computation { i with lines := [] }).2.lines) := by
  unfold Interpreter.run exec
  rcases computation.run.run { i with lines := [] }
  rfl

theorem run_interpreter (i : Interpreter) (computation : Host α) :
    (i.run computation).2.1 = { (exec computation { i with lines := [] }).2 with lines := [] } := by
  rw [run_eq]

/-- What follows a step goes on from its result, unless the step fails. -/
theorem exec_bind (computation : Host α) (next : α → Host β) (i : Interpreter) :
    exec (computation >>= next) i =
      match exec computation i with
      | (.ok a, i) => exec (next a) i
      | (.error e, i) => (.error e, i) := by
  cases hexec : exec computation i with
  | mk result i' =>
    unfold exec at hexec ⊢
    simp only [bind, ExceptT.bind, ExceptT.mk, ExceptT.run, StateT.bind, StateT.run] at hexec ⊢
    rw [hexec]
    cases result <;> rfl

/-- A guarded computation goes through, with the interpreter as it has left it. -/
@[simp] theorem exec_attempt (computation : Host α) (i : Interpreter) :
    exec (attempt computation) i = (.ok (exec computation i).1, (exec computation i).2) := rfl

@[simp] theorem exec_deliver (result : Except BridgeError α) (i : Interpreter) :
    exec (deliver result) i = (result, i) := by
  cases result <;> rfl

@[simp] theorem exec_report (line : Log.Line) (i : Interpreter) :
    exec (report line) i = (.ok (), { i with lines := i.lines ++ [line] }) := rfl

@[simp] theorem exec_failStack (cause : StackError) (i : Interpreter) :
    exec (failStack cause : Host α) i = (.error (.stack cause), i) := rfl

/-- Script code changes the machine and nothing else. -/
theorem exec_script (wrap : Script.Fault → BridgeError) (computation : Script.Eval α)
    (i : Interpreter) :
    exec (script wrap computation) i =
      ((computation.toHost i.contexts i.machine).1.mapError wrap,
        { i with machine := (computation.toHost i.contexts i.machine).2 }) := by
  unfold script
  simp only [exec_bind, exec_get]
  cases hrun : computation.toHost i.contexts i.machine with
  | mk result machine => cases result <;> rfl

/-! ### The stack -/

@[simp] theorem exec_push (value : Value) (i : Interpreter) :
    exec (push value) i = (.ok (), { i with stack := i.stack ++ [value] }) := rfl

@[simp] theorem exec_truncate (depth : Nat) (i : Interpreter) :
    exec (truncate depth) i = (.ok (), { i with stack := i.stack.take depth }) := rfl

@[simp] theorem exec_depth (i : Interpreter) : exec depth i = (.ok i.stack.length, i) := rfl

theorem exec_checkBytes (bytes : ByteArray) (i : Interpreter) :
    exec (checkBytes bytes) i =
      (if i.limits.payloadBytes < bytes.size then
        .error (.stack (.payloadTooLarge bytes.size i.limits.payloadBytes))
      else .ok (), i) := by
  unfold checkBytes
  by_cases h : i.limits.payloadBytes < bytes.size <;> simp [exec_bind, h]

theorem exec_checkHeaders (headers : Http.Headers) (i : Interpreter) :
    exec (checkHeaders headers) i =
      (if i.limits.tableEntries < headers.size then
        .error (.stack (.tableTooLarge headers.size i.limits.tableEntries))
      else .ok (), i) := by
  unfold checkHeaders
  by_cases h : i.limits.tableEntries < headers.size <;> simp [exec_bind, h]

theorem exec_pushBytes (bytes : ByteArray) (i : Interpreter) :
    exec (pushBytes bytes) i =
      if i.limits.payloadBytes < bytes.size then
        (.error (.stack (.payloadTooLarge bytes.size i.limits.payloadBytes)), i)
      else (.ok (), { i with stack := i.stack ++ [.string bytes] }) := by
  rw [pushBytes, exec_bind, exec_checkBytes]
  by_cases h : i.limits.payloadBytes < bytes.size <;> simp [h]

@[simp] theorem exec_pushTable (table : Script.Table) (i : Interpreter) :
    exec (pushTable table) i =
      (.ok (), { i with
        machine := (i.machine.newTable table).2
        stack := i.stack ++ [.table i.machine.tables.size] }) := rfl

theorem exec_pushHeaders (headers : Http.Headers) (i : Interpreter) :
    exec (pushHeaders headers) i =
      if i.limits.tableEntries < headers.size then
        (.error (.stack (.tableTooLarge headers.size i.limits.tableEntries)), i)
      else (.ok (), { i with
        machine := (i.machine.newTable (headerTable headers)).2
        stack := i.stack ++ [.table i.machine.tables.size] }) := by
  rw [pushHeaders, exec_bind, exec_checkHeaders]
  by_cases h : i.limits.tableEntries < headers.size <;> simp [h]

@[simp] theorem exec_pushHandle (handle : Handle) (i : Interpreter) :
    exec (pushHandle handle) i =
      (.ok (), { i with
        machine := i.machine.newObject.2
        stack := i.stack ++ [.handle i.machine.nextObject handle] }) := rfl

theorem exec_pop (n : Nat) (i : Interpreter) :
    exec (pop n) i =
      if i.stack.length < n then (.error (.stack (.underflow n i.stack.length)), i)
      else (.ok (), { i with stack := i.stack.take (i.stack.length - n) }) := by
  unfold pop
  by_cases h : i.stack.length < n <;> simp [exec_bind, h]

theorem exec_place (index : Int32) (i : Interpreter) :
    exec (place index) i = ((stackPlace i.stack.length index).mapError .stack, i) := by
  unfold place
  rw [exec_bind, exec_depth]
  dsimp only
  cases stackPlace i.stack.length index <;> rfl

theorem exec_peek (index : Int32) (i : Interpreter) :
    exec (peek index) i =
      (((stackPlace i.stack.length index).mapError .stack).map (i.stack.getD · .nil), i) := by
  unfold peek
  rw [exec_bind, exec_place]
  cases stackPlace i.stack.length index <;> rfl

theorem exec_remove (index : Int32) (i : Interpreter) :
    exec (remove index) i =
      match stackPlace i.stack.length index with
      | .ok place => (.ok (i.stack.getD place .nil), { i with stack := i.stack.eraseIdx place })
      | .error cause => (.error (.stack cause), i) := by
  unfold remove
  rw [exec_bind, exec_place]
  cases stackPlace i.stack.length index <;> rfl

theorem exec_popValue (i : Interpreter) :
    exec popValue i =
      match i.stack.getLast? with
      | some value => (.ok value, { i with stack := i.stack.dropLast })
      | none => (.error (.stack (.underflow 1 0)), i) := by
  unfold popValue
  rw [exec_bind, exec_get]
  cases hlast : i.stack.getLast? <;> simp only [hlast] <;> rfl

/-! ### Calls -/

/-- The part of a call that comes when the value called and its arguments are off the stack. -/
def calling (results : ResultCount) (callee : Value) (values : List Value) : Host Unit := do
  let returned ← match callee with
    | .function id => script inCall (Script.call (.function id) values)
    | .table id => script inCall (Script.call (.table id) values)
    | other => throw (inCall (.raised ("attempt to call a " ++ other.kind ++ " value") false))
  modify fun i => { i with stack := i.stack ++ results.take returned }

/-- What calling a value with arguments comes to, and the machine after it. What is neither a
    function nor a table is turned down without the script. -/
def callOf (callee : Value) (values : List Value) (contexts : Script.Contexts)
    (machine : Script.Machine) : Except Script.Fault (List Value) × Script.Machine :=
  if callee.isCallable then (Script.call callee values).toHost contexts machine
  else (.error (.raised ("attempt to call a " ++ callee.kind ++ " value") false), machine)

theorem callOf_of_callable {callee : Value} (h : callee.isCallable = true) (values : List Value)
    (contexts : Script.Contexts) (machine : Script.Machine) :
    callOf callee values contexts machine =
      (Script.call callee values).toHost contexts machine := if_pos h

theorem callOf_of_not_callable {callee : Value} (h : callee.isCallable = false)
    (values : List Value) (contexts : Script.Contexts) (machine : Script.Machine) :
    callOf callee values contexts machine =
      (.error (.raised ("attempt to call a " ++ callee.kind ++ " value") false), machine) := by
  unfold callOf
  rw [h]
  rfl

/-- The results of a call that are asked for come on top. -/
theorem exec_calling (results : ResultCount) (callee : Value) (values : List Value)
    (i : Interpreter) :
    exec (calling results callee values) i =
      match callOf callee values i.contexts i.machine with
      | (.ok returned, machine) =>
        (.ok (), { i with machine := machine, stack := i.stack ++ results.take returned })
      | (.error fault, machine) => (.error (inCall fault), { i with machine := machine }) := by
  by_cases hcallable : callee.isCallable = true
  · have hscript : exec (calling results callee values) i =
        exec (script inCall (Script.call callee values) >>= fun returned =>
          modify fun i => { i with stack := i.stack ++ results.take returned }) i := by
      cases callee with
      | function id => rfl
      | table id => rfl
      | _ => cases hcallable
    rw [hscript, exec_bind, exec_script, callOf_of_callable hcallable]
    cases (Script.call callee values).toHost i.contexts i.machine with
    | mk result machine => cases result <;> rfl
  · rw [callOf_of_not_callable (Bool.eq_false_iff.2 hcallable)]
    cases callee with
    | function id => exact absurd rfl hcallable
    | table id => exact absurd rfl hcallable
    | _ => rfl

/-- A call that finds too little on the stack changes nothing; any other takes off what it needs
    before it does anything else. -/
theorem exec_call (arguments : UInt64) (results : ResultCount) (i : Interpreter) :
    exec (call arguments results) i =
      if i.stack.length < (arguments + 1).toNat then
        (.error (.stack (.underflow (arguments + 1).toNat i.stack.length)), i)
      else if i.stack.length < arguments.toNat then (.error (.aborted arguments), i)
      else
        exec (calling results
            ((i.stack.take (i.stack.length - arguments.toNat)).getLastD .nil)
            (i.stack.drop (i.stack.length - arguments.toNat)))
          { i with stack := (i.stack.take (i.stack.length - arguments.toNat)).dropLast } := by
  unfold call
  by_cases hneeded : i.stack.length < (arguments + 1).toNat
  · simp only [exec_bind, exec_get, hneeded, if_true, exec_failStack]
  · by_cases hdepth : i.stack.length < arguments.toNat
    · simp only [exec_bind, exec_get, hneeded, hdepth, if_true, if_false, exec_throw]
    · simp only [exec_bind, exec_get, hneeded, hdepth, if_false, exec_set]
      rfl

theorem toNat_add_one {arguments : UInt64} (h : arguments.toNat + 1 < UInt64.size) :
    (arguments + 1).toNat = arguments.toNat + 1 := by
  rw [UInt64.toNat_add]
  exact Nat.mod_eq_of_lt h

/-- With a value and its arguments on top, a call is of that value with those arguments, and begins
    with what is below them on the stack. -/
theorem exec_call_of_stack {arguments : UInt64} (hwide : arguments.toNat + 1 < UInt64.size)
    (results : ResultCount) {i : Interpreter} {base : List Value} {callee : Value}
    {values : List Value} (hstack : i.stack = base ++ callee :: values)
    (hvalues : values.length = arguments.toNat) :
    exec (call arguments results) i =
      exec (calling results callee values) { i with stack := base } := by
  have hdepth : i.stack.length = base.length + (values.length + 1) := by
    rw [hstack, List.length_append, List.length_cons]
  have hbelow : i.stack.length - arguments.toNat = (base ++ [callee]).length := by
    rw [hdepth, List.length_append, List.length_singleton]
    omega
  have hsplit : i.stack = (base ++ [callee]) ++ values := by
    rw [hstack, List.append_assoc, List.singleton_append]
  rw [exec_call, toNat_add_one hwide, if_neg (by omega), if_neg (by omega), hbelow, hsplit,
    List.take_left, List.drop_left, List.getLastD_concat, List.dropLast_concat]

/-! ### Live contexts -/

/-- Ending a lifetime releases the handle, if there is a table to release it in. -/
theorem exec_leave (handle : Handle) (i : Interpreter) :
    (exec (leave handle) i).1 = .ok () ∧
      ∃ lines, (exec (leave handle) i).2 =
        { i with contexts := i.contexts.map (·.release handle |>.2), lines := lines } := by
  unfold leave
  simp only [exec_bind, exec_get]
  cases hcontexts : i.contexts with
  | none =>
    simp only [exec_report, hcontexts, Option.map_none, true_and]
    exact ⟨_, rfl⟩
  | some table =>
    simp only [exec_set, Option.map_some, true_and]
    exact ⟨i.lines, rfl⟩

/-- With a table, that is all there is to it. -/
theorem exec_leave_some (handle : Handle) {i : Interpreter} {table : HandleTable Engine.Live}
    (hcontexts : i.contexts = some table) :
    exec (leave handle) i = (.ok (), { i with contexts := some (table.release handle).2 }) := by
  simp only [leave, exec_bind, exec_get, hcontexts, exec_set]

/-- With a table, entering gives a new handle. -/
theorem exec_enter_some (live : Engine.Live) {i : Interpreter} {table : HandleTable Engine.Live}
    (hcontexts : i.contexts = some table) :
    exec (enter live) i =
      (.ok (table.insert live).1, { i with contexts := some (table.insert live).2 }) := by
  simp only [enter, exec_bind, exec_get, hcontexts, exec_set, exec_pure]

/-- Without a table nothing is made live, and the computation is not started. -/
theorem exec_during_none (live : Engine.Live) (computation : Handle → Host α) {i : Interpreter}
    (hcontexts : i.contexts = none) :
    exec (during live computation) i =
      (.error (.interpreter (.raised "context table not installed" false)), i) := by
  simp only [during, enter, exec_bind, exec_get, hcontexts, exec_throw]

/-- The computation runs with a new handle in the table. However it ends, that handle is released,
    and what it came to is what the whole comes to. -/
theorem exec_during_some (live : Engine.Live) (computation : Handle → Host α) {i : Interpreter}
    {table : HandleTable Engine.Live} (hcontexts : i.contexts = some table) :
    exec (during live computation) i =
      ((exec (computation (table.insert live).1)
          { i with contexts := some (table.insert live).2 }).1,
        (exec (leave (table.insert live).1) (exec (computation (table.insert live).1)
          { i with contexts := some (table.insert live).2 }).2).2) := by
  simp only [during, exec_bind, exec_enter_some live hcontexts, exec_attempt]
  obtain ⟨hok, -⟩ := exec_leave (table.insert live).1 (exec (computation (table.insert live).1)
    { i with contexts := some (table.insert live).2 }).2
  generalize hleave : exec (leave (table.insert live).1) _ = left at hok ⊢
  obtain ⟨result, after⟩ := left
  cases hok
  simp only [exec_deliver]

end Host

end EventBridge
