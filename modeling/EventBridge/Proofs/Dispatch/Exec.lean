import EventBridge.Dispatch.Dispatcher
import EventBridge.Proofs.Interpreter.Exec

/-! # Running a dispatch, step by step

  A dispatch is the look-up of the handler, what the handler is called for, and what the policy
  makes of the result. `exec_invoke` and `exec_dispatching` say how it is put together; what is
  shown about a dispatch goes by these parts.
-/

namespace EventBridge.Dispatch

open Host (exec)

/-! ### Parts -/

/-- What a look-up does after that in the table of handlers, if there is one. -/
def lookFurther (name : String) (found : Bool) : Host Bool := do
  if found then return true
  Host.pop 1
  Host.getGlobal name
  if ← Host.isNil (-1) then
    Host.pop 1
    return false
  return true

/-- Checks what a message carries. -/
def checkMessage (headers : Http.Headers) (body : ByteArray) : Host Unit := do
  Host.checkHeaders headers
  Host.checkBytes body

/-- Pushes what a message carries, as the last two of four arguments. -/
def pushMessage (headers : Http.Headers) (body : ByteArray) : Host Nat := do
  Host.pushTable (Host.headerTable headers)
  Host.push (.string body)
  return 4

/-- What a handler that is found leads to, given a handle that works. -/
def attend (occurrence : Occurrence) (handle : Handle) : Host Unit := do
  checkArguments occurrence
  Host.pushHandle handle
  let arguments ← pushArguments occurrence
  callHandler occurrence.handler (arguments + 1)

/-- What a handler that is found leads to. -/
def handling (occurrence : Occurrence) : Host Unit :=
  match occurrence.live? with
  | some live => Host.during live (attend occurrence)
  | none => do callHandler occurrence.handler (← pushArguments occurrence)

/-! ### Running them -/

/-- Nothing comes after the look-up unless it finds a handler. -/
theorem exec_invoke (occurrence : Occurrence) (i : Interpreter) :
    exec (invoke occurrence) i =
      match exec (pushHandler occurrence.handler) i with
      | (.ok true, i) =>
        ((exec (handling occurrence) i).1.map fun _ => .handled, (exec (handling occurrence) i).2)
      | (.ok false, i) =>
        (.ok .noHandler, { i with lines := i.lines ++ [⟨.debug, "bridge",
          "No handler for " ++ occurrence.handler ++ ", skipping"⟩] })
      | (.error e, i) => (.error e, i) := by
  unfold invoke
  simp only [Host.exec_bind]
  rcases exec (pushHandler occurrence.handler) i with ⟨_ | found, i₁⟩
  · rfl
  cases found with
  | false => rfl
  | true =>
    unfold handling attend
    cases hlive : occurrence.live? with
    | none =>
      simp only [Bool.not_true, Bool.false_eq_true, if_false, Host.exec_bind]
      rcases exec (pushArguments occurrence) i₁ with ⟨_ | arguments, i₂⟩
      · rfl
      · dsimp only
        rcases exec (callHandler occurrence.handler arguments) i₂ with ⟨_ | _, i₃⟩ <;> rfl
    | some live =>
      simp only [Bool.not_true, Bool.false_eq_true, if_false, Host.exec_bind]
      generalize exec (Host.during live _) i₁ = attended
      rcases attended with ⟨_ | _, i₂⟩ <;> rfl

theorem exec_invoke_of_found {occurrence : Occurrence} {i i₁ : Interpreter}
    (hlook : exec (pushHandler occurrence.handler) i = (.ok true, i₁)) :
    (exec (invoke occurrence) i).2 = (exec (handling occurrence) i₁).2 := by
  rw [exec_invoke, hlook]

/-- An event about a context: the call runs with a new handle in the table, and that handle is
    released after it. -/
theorem exec_handling_of_live {occurrence : Occurrence} {live : Engine.Live} {i : Interpreter}
    {table : HandleTable Engine.Live} (hlive : occurrence.live? = some live)
    (hcontexts : i.contexts = some table) :
    ∃ lines, (exec (handling occurrence) i).2 =
      { (exec (attend occurrence (table.insert live).1)
          { i with contexts := some (table.insert live).2 }).2 with
        contexts := (exec (attend occurrence (table.insert live).1)
          { i with contexts := some (table.insert live).2 }).2.contexts.map
            (·.release (table.insert live).1 |>.2)
        lines := lines } := by
  obtain ⟨-, lines, hleave⟩ := Host.exec_leave (table.insert live).1
    (exec (attend occurrence (table.insert live).1)
      { i with contexts := some (table.insert live).2 }).2
  refine ⟨lines, ?_⟩
  simp only [handling, hlive]
  rw [Host.exec_during_some live _ hcontexts, hleave]

/-- What the policy makes of a result is seen in the reports, and nowhere else. -/
theorem exec_settle (policy : ErrorPolicy) (name : String) (result : Except BridgeError Outcome)
    (i : Interpreter) :
    ∃ lines, (exec (settle policy name result) i).2 = { i with lines := lines } := by
  unfold settle
  split
  · exact ⟨i.lines, rfl⟩
  · split
    · exact ⟨_, rfl⟩
    · exact ⟨i.lines, rfl⟩

/-- A dispatch leaves what the calls leave, and takes off what lies above the stack it found. -/
theorem exec_dispatching (policy : ErrorPolicy) (occurrence : Occurrence) (i : Interpreter) :
    ∃ lines, (exec (dispatching policy occurrence) i).2 =
      { (exec (invoke occurrence) i).2 with
        stack := (exec (invoke occurrence) i).2.stack.take i.stack.length
        lines := lines } := by
  obtain ⟨lines, hsettle⟩ := exec_settle policy occurrence.handler (exec (invoke occurrence) i).1
    { (exec (invoke occurrence) i).2 with
      stack := (exec (invoke occurrence) i).2.stack.take i.stack.length }
  refine ⟨lines, ?_⟩
  simp only [dispatching, Host.exec_bind, Host.exec_depth, Host.exec_attempt, Host.exec_truncate]
  exact hsettle

/-- The interpreter after an event: what the calls leave, without what lies above the stack that
    the event found, and with the reports taken. -/
theorem dispatch_interpreter (d : Dispatcher) (occurrence : Occurrence) :
    (d.dispatch occurrence).2.1.interpreter =
      { (exec (invoke occurrence) { d.interpreter with lines := [] }).2 with
        stack := (exec (invoke occurrence) { d.interpreter with lines := [] }).2.stack.take
          d.interpreter.stack.length
        lines := [] } := by
  have hrun : (d.dispatch occurrence).2.1.interpreter =
      (d.interpreter.run (dispatching d.policy occurrence)).2.1 := by
    unfold Dispatcher.dispatch
    rcases d.interpreter.run (dispatching d.policy occurrence)
    rfl
  obtain ⟨lines, hdispatching⟩ :=
    exec_dispatching d.policy occurrence { d.interpreter with lines := [] }
  rw [hrun, Host.run_interpreter, hdispatching]

end EventBridge.Dispatch
