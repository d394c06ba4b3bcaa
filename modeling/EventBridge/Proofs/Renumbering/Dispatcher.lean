import EventBridge.Proofs.Dispatch.Balance
import EventBridge.Proofs.Renumbering.Host

/-! # Dispatchers do not show the numbers of their tables

  A dispatcher whose table of contexts has another number is built in the same way, calls the same
  handlers and has the same outcomes: `Dispatcher.build_renumber`, `Dispatcher.dispatch_renumber`
  and `Interpreter.evaluate_renumber` say so for each of the three things that are done with one.
-/

namespace EventBridge

open Host (Mirrors exec)
open Script (Contexts Value)

variable {σ : Renumbering} {α : Type}

/-! ### Whole runs -/

/-- A run of the host comes to what it came to, with the same reports. -/
theorem Interpreter.run_renumber {f : α → α} {computation mirrored : Host α}
    (h : Mirrors σ f computation mirrored) (i : Interpreter) :
    (i.renumber σ).run mirrored =
      ((i.run computation).1.map f, (i.run computation).2.1.renumber σ,
        (i.run computation).2.2) := by
  have hexec := h { i with lines := [] }
  rw [show Interpreter.renumber σ { i with lines := [] } = { i.renumber σ with lines := [] }
    from rfl] at hexec
  rw [Host.run_eq, Host.run_eq, hexec]
  rfl

namespace Dispatch

/-! ### The parts of a dispatch -/

theorem mirrored_lookFurther (name : String) (found : Bool) :
    Mirrors σ (fun found => found) (lookFurther name found) (lookFurther name found) := by
  unfold lookFurther
  split
  · exact .pure rfl
  · refine (Host.mirrored_pop 1).bind fun _ => ?_
    refine (Host.mirrored_getGlobal name).bind fun _ => ?_
    refine (Host.mirrored_isNil (-1)).bind fun missing => ?_
    split
    · exact (Host.mirrored_pop 1).bind fun _ => .pure rfl
    · exact .pure rfl

theorem mirrored_pushHandler (name : String) :
    Mirrors σ (fun found => found) (pushHandler name) (pushHandler name) := by
  refine (Host.mirrored_getGlobal configGlobal).bind fun _ => ?_
  refine (Host.mirrored_peek (-1)).bind fun value => ?_
  cases value with
  | table id =>
    refine (Host.mirrored_getField (-1) name).bind fun _ => ?_
    refine (Host.mirrored_remove (-2)).discard.bind fun _ => ?_
    exact (Host.mirrored_isNil (-1)).bind fun missing => mirrored_lookFurther name !missing
  | _ => exact mirrored_lookFurther name false

theorem mirrored_checkMessage (headers : Http.Headers) (body : ByteArray) :
    Mirrors σ (fun done => done) (checkMessage headers body) (checkMessage headers body) :=
  (Host.mirrored_checkHeaders headers).bind fun _ => Host.mirrored_checkBytes body

theorem mirrored_checkArguments (occurrence : Occurrence) :
    Mirrors σ (fun done => done) (checkArguments occurrence) (checkArguments occurrence) := by
  unfold checkArguments
  split
  · exact .pure rfl
  · exact .pure rfl
  · split
    · exact .pure rfl
    · exact .pure rfl
    · exact Host.mirrored_checkBytes _
    · exact Host.mirrored_checkBytes _
    · exact mirrored_checkMessage _ _
    · exact mirrored_checkMessage _ _

theorem mirrored_pushMessage (headers : Http.Headers) (body : ByteArray) :
    Mirrors σ (fun count => count) (pushMessage headers body) (pushMessage headers body) := by
  have htable := Host.mirrored_pushTable (σ := σ) (Host.headerTable headers)
  rw [Host.headerTable_renumber] at htable
  exact htable.bind fun _ => (Host.mirrored_push (.string body)).bind fun _ => .pure rfl

theorem mirrored_pushText (text : String) :
    Mirrors σ (fun done => done) (Host.pushText text) (Host.pushText text) :=
  Host.mirrored_push (Value.ofText text)

theorem mirrored_pushArguments (occurrence : Occurrence) :
    Mirrors σ (fun count => count) (pushArguments occurrence) (pushArguments occurrence) := by
  unfold pushArguments
  split
  · next liid address =>
    exact (mirrored_pushText liid).bind fun _ => (mirrored_pushText address.text).bind fun _ =>
      .pure rfl
  · next liid => exact (mirrored_pushText liid).bind fun _ => .pure rfl
  · split
    · exact .pure rfl
    · exact .pure rfl
    · next payload => exact (Host.mirrored_push (.string payload)).bind fun _ => .pure rfl
    · next payload => exact (Host.mirrored_push (.string payload)).bind fun _ => .pure rfl
    · next method url headers body =>
      exact (mirrored_pushText method).bind fun _ => (mirrored_pushText url).bind fun _ =>
        mirrored_pushMessage headers body
    · next code status headers body =>
      exact (Host.mirrored_push (.integer _)).bind fun _ => (mirrored_pushText status).bind fun _ =>
        mirrored_pushMessage headers body

theorem mirrored_callHandler (name : String) (arguments : Nat) :
    Mirrors σ (fun done => done) (callHandler name arguments) (callHandler name arguments) := by
  refine (Host.mirrored_report _).bind fun _ => ?_
  refine (Host.mirrored_call _ _).attempt.bind fun result => ?_
  cases result with
  | ok done => exact .pure rfl
  | error e => cases e <;> exact .throw _

theorem mirrored_attend (occurrence : Occurrence) (handle : Handle) :
    Mirrors σ (fun done => done) (attend occurrence handle)
      (attend occurrence (handle.renumber σ)) := by
  refine (mirrored_checkArguments occurrence).bind fun _ => ?_
  refine (Host.mirrored_pushHandle handle).bind fun _ => ?_
  exact (mirrored_pushArguments occurrence).bind fun arguments => mirrored_callHandler _ _

/-- With a table of contexts that what is done with a handle leaves in place, a context is live as
    long as before. -/
theorem exec_during_renumber (live : Engine.Live) {computation : Handle → Host Unit}
    (hmirrors : ∀ handle, Mirrors σ (fun done => done) (computation handle)
      (computation (handle.renumber σ)))
    {i : Interpreter} {table : HandleTable Engine.Live} (hcontexts : i.contexts = some table)
    (hkept : (exec (computation (table.insert live).1)
      { i with contexts := some (table.insert live).2 }).2.contexts =
        some (table.insert live).2) :
    exec (Host.during live computation) (i.renumber σ) =
      ((exec (Host.during live computation) i).1,
        (exec (Host.during live computation) i).2.renumber σ) := by
  have hmirrored := hmirrors (table.insert live).1 { i with contexts := some (table.insert live).2 }
  have hcontexts' : (i.renumber σ).contexts = some (table.renumber σ) := by
    rw [Interpreter.contexts_renumber, hcontexts]
    rfl
  rw [Host.exec_during_some live _ hcontexts, Host.exec_during_some live _ hcontexts',
    HandleTable.insert_renumber]
  change exec (computation ((table.insert live).1.renumber σ))
    { i.renumber σ with contexts := some ((table.insert live).2.renumber σ) } = _ at hmirrored
  dsimp only
  rw [hmirrored]
  generalize exec (computation (table.insert live).1) { i with
    contexts := some (table.insert live).2 } = after at hkept ⊢
  have hkept' : (after.2.renumber σ).contexts = some ((table.insert live).2.renumber σ) := by
    rw [Interpreter.contexts_renumber, hkept]
    rfl
  rw [Host.exec_leave_some _ hkept, Host.exec_leave_some _ hkept', HandleTable.release_renumber,
    Except.map_id]
  rfl

/-- With a handler on the stack, what follows is the same: a table that there is when the handler is
    called is there when the handle is released. -/
theorem exec_handling_renumber (occurrence : Occurrence) {i : Interpreter} {base : List Value}
    {handler : Value} (hstack : i.stack = base ++ [handler]) :
    exec (handling occurrence) (i.renumber σ) =
      ((exec (handling occurrence) i).1, (exec (handling occurrence) i).2.renumber σ) := by
  cases hlive : occurrence.live? with
  | none =>
    have hcall : Mirrors σ (fun done => done)
        (do callHandler occurrence.handler (← pushArguments occurrence))
        (do callHandler occurrence.handler (← pushArguments occurrence)) :=
      (mirrored_pushArguments occurrence).bind fun arguments => mirrored_callHandler _ arguments
    simp only [handling, hlive]
    rw [hcall i, Except.map_id]
    rfl
  | some live =>
    simp only [handling, hlive]
    cases hcontexts : i.contexts with
    | none =>
      have hcontexts' : (i.renumber σ).contexts = none := by
        rw [Interpreter.contexts_renumber, hcontexts]
        rfl
      rw [Host.exec_during_none live _ hcontexts, Host.exec_during_none live _ hcontexts']
    | some table =>
      obtain ⟨hkept, -⟩ := above_attend occurrence (table.insert live).1 handler
        { i with contexts := some (table.insert live).2 } hstack
      exact exec_during_renumber live (mirrored_attend occurrence) hcontexts hkept

theorem mirrored_invoke (occurrence : Occurrence) :
    Mirrors σ (fun outcome => outcome) (invoke occurrence) (invoke occurrence) := by
  intro i
  obtain ⟨-, extra', hstack, hfound⟩ :=
    above_pushHandler occurrence.handler i (List.append_nil _).symm
  rw [exec_invoke, exec_invoke, mirrored_pushHandler occurrence.handler i]
  revert hstack hfound
  rcases exec (pushHandler occurrence.handler) i with ⟨e | found, i₁⟩
  · exact fun _ _ => rfl
  intro hstack hfound
  cases found with
  | false => rfl
  | true =>
    obtain ⟨handler, rfl⟩ := List.length_eq_one_iff.1 (hfound true rfl)
    show ((exec (handling occurrence) (i₁.renumber σ)).1.map _,
      (exec (handling occurrence) (i₁.renumber σ)).2) = _
    rw [exec_handling_renumber occurrence hstack]
    dsimp only
    cases (exec (handling occurrence) i₁).1 <;> rfl

theorem mirrored_settle (policy : ErrorPolicy) (name : String)
    (result : Except BridgeError Outcome) :
    Mirrors σ (fun outcome => outcome) (settle policy name result)
      (settle policy name (result.map fun outcome => outcome)) := by
  cases result with
  | ok outcome => exact .pure rfl
  | error e =>
    simp only [settle, Except.map]
    split
    · exact (Host.mirrored_report _).bind fun _ => .pure rfl
    · exact .throw _

theorem mirrored_dispatching (policy : ErrorPolicy) (occurrence : Occurrence) :
    Mirrors σ (fun outcome => outcome) (dispatching policy occurrence)
      (dispatching policy occurrence) := by
  refine Host.mirrored_depth.bind fun base => ?_
  refine (mirrored_invoke occurrence).attempt.bind fun result => ?_
  exact (Host.mirrored_truncate base).bind fun _ => mirrored_settle policy _ result

/-! ### Loading -/

theorem mirrored_bindResult (returned : Nat) :
    Mirrors σ (fun done => done) (bindResult returned) (bindResult returned) := by
  unfold bindResult
  split
  · exact .pure rfl
  · refine (Host.mirrored_pop _).bind fun _ => ?_
    refine (Host.mirrored_peek (-1)).bind fun value => ?_
    cases value with
    | table id => exact (Host.mirrored_setGlobal _).bind fun _ => Host.mirrored_report _
    | _ => exact Host.mirrored_pop 1

theorem mirrored_load (scripting : Config.Scripting) (source : Source) :
    Mirrors σ (fun count => count) (source.load scripting) (source.load scripting) := by
  cases source with
  | file tree => exact Host.mirrored_loadModule tree _
  | text source => exact Host.mirrored_loadSource source

theorem mirrored_prepare (scripting : Config.Scripting) (source : Source) :
    Mirrors σ (fun done => done) (prepare scripting.namespaceName (source.load scripting))
      (prepare scripting.namespaceName (source.load scripting)) := by
  refine (Host.mirrored_register _ _).bind fun _ => ?_
  exact (mirrored_load scripting source).bind mirrored_bindResult

namespace Dispatcher

/-- A dispatcher with the new numbers in all that it holds. -/
def renumber (σ : Renumbering) (d : Dispatcher) : Dispatcher :=
  { d with interpreter := d.interpreter.renumber σ }

theorem renumber_unchanged (d : Dispatcher) : d.renumber .unchanged = d := by
  unfold renumber
  rw [Interpreter.renumber_unchanged]

/-- A dispatcher for a table with the new number is built as one for the old number. -/
theorem build_renumber (scripting : Config.Scripting) (source : Source) (contexts : Nat) :
    build scripting source (σ.number contexts) =
      ((build scripting source contexts).1.map (renumber σ),
        (build scripting source contexts).2) := by
  have hnew : Interpreter.new (Limits.of scripting) (σ.number contexts) =
      (Interpreter.new (Limits.of scripting) contexts).renumber σ := by
    unfold Interpreter.new Interpreter.renumber
    rw [Script.Machine.renumber_initial]
    rfl
  unfold build
  dsimp only
  rw [hnew, Interpreter.run_renumber (mirrored_prepare scripting source)]
  rcases (Interpreter.new (Limits.of scripting) contexts).run _ with ⟨e | done, i, lines⟩ <;> rfl

/-- An event has the same outcome and the same reports. -/
theorem dispatch_renumber (d : Dispatcher) (occurrence : Occurrence) :
    (d.renumber σ).dispatch occurrence =
      ((d.dispatch occurrence).1, (d.dispatch occurrence).2.1.renumber σ,
        (d.dispatch occurrence).2.2) := by
  have hrun := Interpreter.run_renumber (mirrored_dispatching (σ := σ) d.policy occurrence)
    d.interpreter
  unfold dispatch
  rw [show (d.renumber σ).interpreter = d.interpreter.renumber σ from rfl,
    show (d.renumber σ).policy = d.policy from rfl, hrun]
  rcases d.interpreter.run (dispatching d.policy occurrence) with ⟨e | outcome, i, lines⟩ <;> rfl

end Dispatcher

end Dispatch

/-- A script beside the stack gives what it gave, with the new numbers. -/
theorem Interpreter.evaluate_renumber (i : Interpreter) (source : List UInt8) :
    (i.renumber σ).evaluate source =
      ((i.evaluate source).1.map (List.map (Value.renumber σ)),
        (i.evaluate source).2.renumber σ) := by
  unfold Interpreter.evaluate
  cases Script.parse source with
  | none => rfl
  | some block =>
    dsimp only
    rw [Interpreter.contexts_renumber, Interpreter.machine_renumber,
      Script.toHost_renumber (Script.mirrored_runBlock block)]
    rfl

end EventBridge
