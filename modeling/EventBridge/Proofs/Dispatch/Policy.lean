import EventBridge.Proofs.Dispatch.Balance
import EventBridge.Proofs.Dispatch.Lifetime
import EventBridge.Proofs.Interpreter.Failures

/-! # What a policy decides

  A dispatch looks up a handler and calls it, and only then has the policy a say: it decides whether
  a failure is logged or returned. So two dispatchers that differ in their policy are in the same
  state for ever, and what one returns tells what the other returns.

  * `Dispatcher.attempt` is a dispatch without its policy. `dispatch_of_ok` and `dispatch_of_error`
    put the policy back.
  * `attempt_cases` classifies what it comes to. Of the ways in which the bridge can fail, a
    dispatch has two: the call of its handler, and the stack. The policy covers both.
  * `Dispatcher.Ready` is what a dispatch needs for that: a table of contexts to put its context in.
    A dispatcher that is built has one, and no dispatch takes it away.
-/

namespace EventBridge

open Host (FailsAs exec)
open Log (Line)

/-- A failure that a dispatch of a handler can have: of the call of that handler, or of the
    stack. -/
def BridgeError.OfHandler (name : String) : BridgeError → Prop
  | .call origin _ => origin = "handler '" ++ name ++ "'"
  | .stack _ => True
  | _ => False

theorem BridgeError.OfStack.ofHandler {e : BridgeError} (h : e.OfStack) (name : String) :
    e.OfHandler name := by
  cases e with
  | stack cause => trivial
  | _ => exact h.elim

namespace Dispatch

open BridgeError (OfCall OfHandler OfStack)

/-! ### What a dispatch can fail with -/

theorem failsAs_lookFurther (name : String) (found : Bool) :
    FailsAs OfStack (lookFurther name found) := by
  unfold lookFurther
  split
  · exact .pure true
  · refine (Host.failsAs_pop 1).bind fun _ => ?_
    refine (Host.failsAs_getGlobal name).bind fun _ => ?_
    refine (Host.failsAs_isNil (-1)).bind fun missing => ?_
    split
    · exact (Host.failsAs_pop 1).bind fun _ => .pure false
    · exact .pure true

/-- A look-up fails as reading from the script does, also where metatables have a hand in it. -/
theorem failsAs_pushHandler (name : String) : FailsAs OfStack (pushHandler name) := by
  refine (Host.failsAs_getGlobal configGlobal).bind fun _ => ?_
  refine (Host.failsAs_peek (-1)).bind fun value => ?_
  cases value with
  | table id =>
    refine (Host.failsAs_getField (-1) name).bind fun _ => ?_
    have hremove : FailsAs OfStack (discard (Host.remove (-2))) :=
      (Host.failsAs_remove (-2)).bind fun _ => .pure _
    refine hremove.bind fun _ => ?_
    exact (Host.failsAs_isNil (-1)).bind fun missing => failsAs_lookFurther name (!missing)
  | _ => exact failsAs_lookFurther name false

theorem failsAs_checkArguments (occurrence : Occurrence) :
    FailsAs OfStack (checkArguments occurrence) := by
  have hmessage : ∀ headers body, FailsAs OfStack (checkMessage headers body) := fun headers body =>
    (Host.failsAs_checkHeaders headers).bind fun _ => Host.failsAs_checkBytes body
  unfold checkArguments
  split
  · exact .pure ()
  · exact .pure ()
  · split
    · exact .pure ()
    · exact .pure ()
    · exact Host.failsAs_checkBytes _
    · exact Host.failsAs_checkBytes _
    · exact hmessage _ _
    · exact hmessage _ _

/-- What has been checked can be put on the stack. -/
theorem failsAs_pushArguments {ways : BridgeError → Prop} (occurrence : Occurrence) :
    FailsAs ways (pushArguments occurrence) := by
  have hmessage : ∀ headers body, FailsAs ways (pushMessage headers body) := fun headers body =>
    (Host.failsAs_pushTable _).bind fun _ => (Host.failsAs_push _).bind fun _ => .pure 4
  unfold pushArguments
  split
  · exact (Host.failsAs_push _).bind fun _ => (Host.failsAs_push _).bind fun _ => .pure 2
  · exact (Host.failsAs_push _).bind fun _ => .pure 1
  · split
    · exact .pure 0
    · exact .pure 0
    · exact (Host.failsAs_push _).bind fun _ => .pure 1
    · exact (Host.failsAs_push _).bind fun _ => .pure 1
    · exact (Host.failsAs_push _).bind fun _ => (Host.failsAs_push _).bind fun _ => hmessage _ _
    · exact (Host.failsAs_push _).bind fun _ => (Host.failsAs_push _).bind fun _ => hmessage _ _

theorem arguments_le_four (occurrence : Occurrence) (i : Interpreter) (arguments : Nat)
    (h : (exec (pushArguments occurrence) i).1 = .ok arguments) : arguments ≤ 4 := by
  obtain ⟨-, extra, -, hafter⟩ :=
    above_pushArguments occurrence i (List.append_nil i.stack).symm
  exact (hafter arguments h).2

/-- A call that fails names the handler. -/
theorem failsAs_callHandler (name : String) {arguments : Nat} (hsmall : arguments ≤ 5) :
    FailsAs (OfHandler name) (callHandler name arguments) := by
  have hwide : arguments < UInt64.size := Nat.lt_of_le_of_lt hsmall (by decide)
  have hcount : (UInt64.ofNat arguments).toNat + 1 < UInt64.size := by
    rw [UInt64.toNat_ofNat_of_lt' hwide]
    exact Nat.lt_of_le_of_lt (Nat.succ_le_succ hsmall) (by decide)
  refine (Host.failsAs_report _).bind fun _ => ?_
  refine FailsAs.attempt_bind (Host.failsAs_call hcount (.fixed 0)) fun result hresult => ?_
  split
  · exact .throw rfl
  · next hother =>
    refine .deliver fun e he => ?_
    -- Every call error was renamed before, so this one is of the stack.
    have hcall := hresult e he
    cases e with
    | stack cause => trivial
    | call origin fault => exact absurd he (hother origin fault)
    | _ => exact hcall.elim

theorem failsAs_attend (occurrence : Occurrence) (handle : Handle) :
    FailsAs (OfHandler occurrence.handler) (attend occurrence handle) := by
  have hcheck : FailsAs (OfHandler occurrence.handler) (checkArguments occurrence) :=
    (failsAs_checkArguments occurrence).mono fun _ he => he.ofHandler _
  refine hcheck.bind fun _ => ?_
  refine (Host.failsAs_pushHandle handle).bind fun _ => ?_
  refine (failsAs_pushArguments occurrence).bind_of (arguments_le_four occurrence) ?_
  intro arguments hsmall
  exact failsAs_callHandler occurrence.handler (by omega)

theorem failsAs_handling_of_none {occurrence : Occurrence} (hlive : occurrence.live? = none) :
    FailsAs (OfHandler occurrence.handler) (handling occurrence) := by
  unfold handling
  rw [hlive]
  refine (failsAs_pushArguments occurrence).bind_of (arguments_le_four occurrence) ?_
  intro arguments hsmall
  exact failsAs_callHandler occurrence.handler (by omega)

/-- With a table of contexts, making the context live is no way to fail. -/
theorem ofHandler_of_handling {occurrence : Occurrence} {i : Interpreter} {e : BridgeError}
    (hready : i.contexts.isSome) (he : (exec (handling occurrence) i).1 = .error e) :
    e.OfHandler occurrence.handler := by
  cases hlive : occurrence.live? with
  | none => exact failsAs_handling_of_none hlive i e he
  | some live =>
    obtain ⟨table, hcontexts⟩ := Option.isSome_iff_exists.1 hready
    simp only [handling, hlive] at he
    rw [Host.exec_during_some live _ hcontexts] at he
    exact failsAs_attend occurrence _ _ e he

/-- What the calls of a dispatch come to: one of two outcomes, or a failure of the handler. -/
theorem invoke_result (occurrence : Occurrence) {i : Interpreter} (hready : i.contexts.isSome) :
    (∃ outcome, outcome ≠ .failed ∧ (exec (invoke occurrence) i).1 = .ok outcome) ∨
      ∃ e, e.OfHandler occurrence.handler ∧ (exec (invoke occurrence) i).1 = .error e := by
  have hcontexts := (above_pushHandler occurrence.handler i (List.append_nil i.stack).symm).1
  rw [exec_invoke]
  cases hlook : exec (pushHandler occurrence.handler) i with
  | mk result i₁ =>
    rw [hlook] at hcontexts
    cases result with
    | error e =>
      have hstack : e.OfStack :=
        failsAs_pushHandler occurrence.handler i e (congrArg Prod.fst hlook)
      exact .inr ⟨e, hstack.ofHandler _, rfl⟩
    | ok found =>
      cases found with
      | false => exact .inl ⟨.noHandler, by decide, rfl⟩
      | true =>
        cases hhandling : (exec (handling occurrence) i₁).1 with
        | ok _ => exact .inl ⟨.handled, by decide, by simp only [hhandling, Except.map]⟩
        | error e =>
          have hready₁ : i₁.contexts.isSome := by rwa [hcontexts]
          have hof := ofHandler_of_handling hready₁ hhandling
          exact .inr ⟨e, hof, by simp only [hhandling, Except.map]⟩

/-! ### A dispatch without its policy -/

/-- A dispatch up to where the policy has its say: the stack is as it was found. -/
def unsettled (occurrence : Occurrence) : Host Outcome := do
  let base ← Host.depth
  let result ← Host.attempt (invoke occurrence)
  Host.truncate base
  Host.deliver result

theorem exec_unsettled (occurrence : Occurrence) (i : Interpreter) :
    exec (unsettled occurrence) i =
      ((exec (invoke occurrence) i).1,
        { (exec (invoke occurrence) i).2 with
          stack := (exec (invoke occurrence) i).2.stack.take i.stack.length }) := by
  simp only [unsettled, Host.exec_bind, Host.exec_depth, Host.exec_attempt, Host.exec_truncate,
    Host.exec_deliver]

/-- The policy comes last. -/
theorem exec_dispatching_eq (policy : ErrorPolicy) (occurrence : Occurrence) (i : Interpreter) :
    exec (dispatching policy occurrence) i =
      exec (settle policy occurrence.handler (exec (unsettled occurrence) i).1)
        (exec (unsettled occurrence) i).2 := by
  rw [exec_unsettled]
  simp only [dispatching, Host.exec_bind, Host.exec_depth, Host.exec_attempt, Host.exec_truncate]

/-- What is reported of a failure that is not returned. -/
def failureLine (name : String) (e : BridgeError) : Line :=
  ⟨.error, "bridge", "Dispatch of " ++ name ++ " failed: " ++ e.message⟩

namespace Dispatcher

/-- What a dispatch comes to without a policy. -/
def attempt (d : Dispatcher) (occurrence : Occurrence) :
    Except BridgeError Outcome × Interpreter × List Line :=
  d.interpreter.run (unsettled occurrence)

/-- The same dispatcher under a policy. -/
def under (d : Dispatcher) (policy : ErrorPolicy) : Dispatcher := { d with policy := policy }

variable {d : Dispatcher} {occurrence : Occurrence} {i : Interpreter} {lines : List Line}

theorem dispatch_of_ok {outcome : Outcome} (h : d.attempt occurrence = (.ok outcome, i, lines)) :
    d.dispatch occurrence = (.ok outcome, { d with interpreter := i }, lines) := by
  unfold attempt at h
  rw [Host.run_eq] at h
  unfold dispatch
  rw [Host.run_eq, exec_dispatching_eq]
  generalize exec (unsettled occurrence) { d.interpreter with lines := [] } = unsettled at h ⊢
  obtain ⟨result, i'⟩ := unsettled
  cases h
  rfl

theorem dispatch_of_error {e : BridgeError} (h : d.attempt occurrence = (.error e, i, lines)) :
    d.dispatch occurrence =
      if ErrorPolicy.logs d.policy e then
        (.ok .failed, { d with interpreter := i }, lines ++ [failureLine occurrence.handler e])
      else (.error e, { d with interpreter := i }, lines) := by
  unfold attempt at h
  rw [Host.run_eq] at h
  unfold dispatch
  rw [Host.run_eq, exec_dispatching_eq]
  generalize exec (unsettled occurrence) { d.interpreter with lines := [] } = unsettled at h ⊢
  obtain ⟨result, i'⟩ := unsettled
  cases h
  unfold settle
  by_cases hlogs : ErrorPolicy.logs d.policy e
  · simp only [hlogs, if_true]
    rfl
  · simp only [hlogs]
    rfl

/-! ### Dispatchers that are ready -/

/-- A dispatcher with a table of contexts. -/
def Ready (d : Dispatcher) : Prop := d.interpreter.contexts.isSome

/-- No dispatch takes the table of contexts away. -/
theorem Ready.dispatch (h : d.Ready) (occurrence : Occurrence) :
    (d.dispatch occurrence).2.1.Ready := by
  obtain ⟨-, hreverts⟩ := invoke_cases occurrence { d.interpreter with lines := [] }
  unfold Ready at h ⊢
  rw [dispatch_interpreter]
  generalize exec (invoke occurrence) { d.interpreter with lines := [] } = invoked at hreverts ⊢
  dsimp only at hreverts ⊢
  generalize d.interpreter.contexts = contexts at h hreverts
  generalize invoked.2.contexts = contexts' at hreverts ⊢
  cases hreverts with
  | same => exact h
  | released table live => rfl

/-- A dispatcher is built with a table of contexts. -/
theorem ready_of_build {scripting : Config.Scripting} {source : Source} {contexts : Nat}
    (h : (build scripting source contexts).1 = .ok d) : d.Ready := by
  obtain ⟨hkept, -⟩ := Life.kept_begin scripting source contexts
  have hcontexts := hkept.among.contexts
  rw [Life.dispatcher_begin h] at hcontexts
  unfold Ready
  rw [hcontexts]
  rfl

/-- A dispatch comes to one of two outcomes, or to a failure of its handler. -/
theorem Ready.attempt_cases (h : d.Ready) (occurrence : Occurrence) :
    (∃ outcome i lines, outcome ≠ .failed ∧ d.attempt occurrence = (.ok outcome, i, lines)) ∨
      ∃ e i lines, e.OfHandler occurrence.handler ∧
        d.attempt occurrence = (.error e, i, lines) := by
  unfold attempt
  rw [Host.run_eq, exec_unsettled]
  rcases invoke_result occurrence (i := { d.interpreter with lines := [] }) h with
    ⟨outcome, hne, hok⟩ | ⟨e, hof, herror⟩
  · exact .inl ⟨outcome, _, _, hne, by rw [hok]⟩
  · exact .inr ⟨e, _, _, hof, by rw [herror]⟩

/-! ### Two policies -/

/-- Both failures that a dispatch can have are for the policy to settle. -/
theorem logs_of_ofHandler {e : BridgeError} {name : String} (h : e.OfHandler name)
    (policy : ErrorPolicy) : ErrorPolicy.logs policy e = (policy == .log) := by
  cases e with
  | call origin fault => rfl
  | stack cause => rfl
  | _ => exact h.elim

/-- What one dispatch returns under the log policy, and what under the other. -/
inductive Settled (name : String) :
    Except BridgeError Outcome → Except BridgeError Outcome → Prop where
  | same (outcome : Outcome) : outcome ≠ .failed → Settled name (.ok outcome) (.ok outcome)
  /-- The one logs what the other returns. -/
  | failed (e : BridgeError) : e.OfHandler name → Settled name (.ok .failed) (.error e)

theorem settled_dispatch (h : d.Ready) (occurrence : Occurrence) :
    Settled occurrence.handler ((d.under .log).dispatch occurrence).1
      ((d.under .propagate).dispatch occurrence).1 := by
  rcases h.attempt_cases occurrence with ⟨outcome, i, lines, hne, hok⟩ | ⟨e, i, lines, hof, he⟩
  · rw [dispatch_of_ok (d := d.under .log) hok, dispatch_of_ok (d := d.under .propagate) hok]
    exact .same outcome hne
  · rw [dispatch_of_error (d := d.under .log) he, dispatch_of_error (d := d.under .propagate) he,
      logs_of_ofHandler hof, logs_of_ofHandler hof]
    exact .failed e hof

/-- After an event the dispatcher is the one of the attempt, whatever the policy. -/
theorem dispatch_dispatcher (d : Dispatcher) (occurrence : Occurrence) :
    (d.dispatch occurrence).2.1 = { d with interpreter := (d.attempt occurrence).2.1 } := by
  rcases hattempt : d.attempt occurrence with ⟨_ | outcome, i, lines⟩
  · rw [dispatch_of_error hattempt]
    split <;> rfl
  · rw [dispatch_of_ok hattempt]

theorem dispatch_under (d : Dispatcher) (policy : ErrorPolicy) (occurrence : Occurrence) :
    ((d.under policy).dispatch occurrence).2.1 = (d.dispatch occurrence).2.1.under policy := by
  rw [dispatch_dispatcher, dispatch_dispatcher]
  rfl

/-- The dispatcher after some events. -/
def after (d : Dispatcher) (occurrences : List Occurrence) : Dispatcher :=
  occurrences.foldl (fun d occurrence => (d.dispatch occurrence).2.1) d

theorem after_under (d : Dispatcher) (policy : ErrorPolicy) (occurrences : List Occurrence) :
    (d.under policy).after occurrences = (d.after occurrences).under policy := by
  induction occurrences generalizing d with
  | nil => rfl
  | cons occurrence occurrences ih =>
    have hstep := ih (d.dispatch occurrence).2.1
    rw [← dispatch_under] at hstep
    exact hstep

theorem Ready.after (h : d.Ready) (occurrences : List Occurrence) :
    (d.after occurrences).Ready := by
  induction occurrences generalizing d with
  | nil => exact h
  | cons occurrence occurrences ih => exact ih (h.dispatch occurrence)

/-- A script loads under every policy or under none, and to the same state. -/
theorem build_under (scripting : Config.Scripting) (source : Source) (contexts : Nat)
    (policy : ErrorPolicy) :
    build { scripting with errorPolicy := policy } source contexts =
      ((build scripting source contexts).1.map (·.under policy),
        (build scripting source contexts).2) := by
  have hload : source.load { scripting with errorPolicy := policy } = source.load scripting := by
    cases source <;> rfl
  have hlimits : Limits.of { scripting with errorPolicy := policy } = Limits.of scripting := rfl
  unfold build
  rw [hload, hlimits]
  dsimp only
  generalize (Interpreter.new (Limits.of scripting) contexts).run _ = prepared
  obtain ⟨result, i, lines⟩ := prepared
  cases result <;> rfl

theorem policy_of_build {scripting : Config.Scripting} {source : Source} {contexts : Nat}
    (h : (build scripting source contexts).1 = .ok d) : d.policy = scripting.errorPolicy := by
  have hunder := congrArg Prod.fst (build_under scripting source contexts scripting.errorPolicy)
  dsimp only at hunder
  rw [h] at hunder
  exact congrArg Dispatcher.policy (Except.ok.inj hunder)

/-- A script and its settings lead to one dispatcher for each policy. However many events both have
    had, they are in the same state, and of the next event they return the same outcome; or its
    handler fails, which one of them logs and the other returns. -/
theorem policies_agree_up_to_failures (scripting : Config.Scripting) (source : Source)
    (contexts : Nat) :
    (build { scripting with errorPolicy := .propagate } source contexts).1 =
        (build { scripting with errorPolicy := .log } source contexts).1.map (·.under .propagate) ∧
      ∀ d, (build { scripting with errorPolicy := .log } source contexts).1 = .ok d →
        ∀ (before : List Occurrence) (next : Occurrence),
          ((d.under .propagate).after before).interpreter = (d.after before).interpreter ∧
            Settled next.handler ((d.after before).dispatch next).1
              (((d.under .propagate).after before).dispatch next).1 := by
  constructor
  · have hunder := build_under { scripting with errorPolicy := .log } source contexts .propagate
    dsimp only at hunder
    rw [hunder]
  · intro d hbuild before next
    have hlog : d.policy = .log := policy_of_build hbuild
    have hunder : d.under .log = d := by rw [under, ← hlog]
    have hsettled := settled_dispatch ((ready_of_build hbuild).after before) next
    rw [← after_under d .log, hunder] at hsettled
    rw [after_under]
    exact ⟨rfl, hsettled⟩

/-- A handler that raises: the one policy logs what the other returns. -/
theorem policies_agree_on_raising_handler :
    let scripting : Config.Scripting := ⟨"monitor.lua", "cybermon", 16, 4, .log, false⟩
    let script := "[[\"set\",\"trigger_down\",\x7b\"fn\":[[\"err\",\"boom\"]]\x7d]]"
    let next : Occurrence := .triggerDown "a"
    ∃ d e, (build scripting (.text script.toUTF8.data.toList) 1).1 = .ok d ∧
      (d.dispatch next).1 = .ok .failed ∧ e.OfHandler next.handler ∧
      ((d.under .propagate).dispatch next).1 = .error e := by
  intro scripting script next
  have hlogged : (build scripting (.text script.toUTF8.data.toList) 1).1.toOption.any (fun d =>
      decide ((d.dispatch next).1.toOption = some .failed)) = true := by decide +kernel
  obtain ⟨d, hbuild, hfailed⟩ := (Option.any_eq_true _ _).mp hlogged
  have hbuild := Host.eq_ok_of_toOption hbuild
  have hfailed := Host.eq_ok_of_toOption (of_decide_eq_true hfailed)
  obtain ⟨-, hagree⟩ :=
    policies_agree_up_to_failures scripting (.text script.toUTF8.data.toList) 1
  obtain ⟨-, hsettled⟩ := hagree d hbuild [] next
  change Settled _ (d.dispatch next).1 ((d.under .propagate).dispatch next).1 at hsettled
  rw [hfailed] at hsettled
  generalize hreturned : ((d.under .propagate).dispatch next).1 = returned at hsettled
  cases hsettled with
  | same outcome hne => exact absurd rfl hne
  | failed e hof => exact ⟨d, e, hbuild, hfailed, hof, hreturned⟩

end Dispatcher

end Dispatch

end EventBridge
