import EventBridge.Proofs.Dispatch.Arguments
import EventBridge.Proofs.Interpreter.StackMachine
import EventBridge.Proofs.Script.Metatable

/-! # Which handler is called

  A handler is looked for twice: in the table that `config` is, if it is one, and then among the
  global variables. What is found can be anything but nil.

  * `Resolves` is the value that a name stands for, and the machine after finding that out: one
    constructor for each way in which the search can end. It reads what `Script.Reads` says, so that
    the metatables have their say.
  * `exec_pushHandler` says that the look-up finds this value: `Resolves.total` and
    `Resolves.unique` that there is one for each state of the script.
  * `Comes` has what comes of a dispatch by that value: nothing at all for nil, and for anything
    else a failure or a call.
-/

namespace EventBridge

open Engine (Live)
open Host (Names exec)
open Log (Line)
open Script (Contexts Fault HasFunction Machine Reads Value)

/-! ### Reading for the host -/

namespace Script

variable {contexts : Contexts} {key value : Value} {m : Machine}

theorem exists_reads (contexts : Contexts) (key value : Value) (m : Machine) :
    ∃ result m', Reads contexts key value m result m' :=
  ⟨_, _, toHost_readField_iff.1 rfl⟩

theorem Reads.toHost {result : Except Fault Value} {m' : Machine}
    (h : Reads contexts key value m result m') :
    (readField call key chainLimit value).toHost contexts m = (result, m') :=
  toHost_readField_iff.2 h

end Script

/-- Reading a global variable. -/
abbrev Script.ReadsGlobal (contexts : Contexts) (name : String) :
    Machine → Except Fault Value → Machine → Prop :=
  Reads contexts (Value.ofText name) (.table Machine.globals)

namespace Host

variable {name : String} {i : Interpreter} {value : Value} {fault : Fault} {m : Machine}

theorem exec_getGlobal_of_reads
    (h : Script.ReadsGlobal i.contexts name i.machine (.ok value) m) :
    exec (getGlobal name) i = (.ok (), { i with machine := m, stack := i.stack ++ [value] }) := by
  have hread : (Script.readGlobal Script.call name.toUTF8).toHost i.contexts i.machine =
      (.ok value, m) := h.toHost
  rw [getGlobal, exec_bind, exec_script, hread]
  rfl

theorem exec_getGlobal_of_raises
    (h : Script.ReadsGlobal i.contexts name i.machine (.error fault) m) :
    exec (getGlobal name) i = (.error (onStack fault), { i with machine := m }) := by
  have hread : (Script.readGlobal Script.call name.toUTF8).toHost i.contexts i.machine =
      (.error fault, m) := h.toHost
  rw [getGlobal, exec_bind, exec_script, hread]
  rfl

variable {index : Int32} {below above : List Value} {id : Nat}

theorem exec_getField_of_reads (hnames : Names index i.stack below (.table id) above)
    (h : Reads i.contexts (Value.ofText name) (.table id) i.machine (.ok value) m) :
    exec (getField index name) i =
      (.ok (), { i with machine := m, stack := i.stack ++ [value] }) := by
  rw [getField, exec_bind, exec_peek_of_names hnames]
  dsimp only
  rw [exec_bind, exec_script, h.toHost]
  rfl

theorem exec_getField_of_raises (hnames : Names index i.stack below (.table id) above)
    (h : Reads i.contexts (Value.ofText name) (.table id) i.machine (.error fault) m) :
    exec (getField index name) i = (.error (onStack fault), { i with machine := m }) := by
  rw [getField, exec_bind, exec_peek_of_names hnames]
  dsimp only
  rw [exec_bind, exec_script, h.toHost]
  rfl

end Host

namespace Dispatch

/-! ### Names of handlers -/

/-- What the name of a handler stands for, and the machine after finding that out. -/
inductive Resolves (contexts : Contexts) (name : String) (m : Machine) :
    Except Fault Value → Machine → Prop where
  | configRaises {fault : Fault} {m' : Machine} :
    Script.ReadsGlobal contexts configGlobal m (.error fault) m' →
    Resolves contexts name m (.error fault) m'
  | fieldRaises {id : Nat} {fault : Fault} {m₁ m' : Machine} :
    Script.ReadsGlobal contexts configGlobal m (.ok (.table id)) m₁ →
    Reads contexts (Value.ofText name) (.table id) m₁ (.error fault) m' →
    Resolves contexts name m (.error fault) m'
  /-- The table of handlers has it. The global variable is not read. -/
  | field {id : Nat} {value : Value} {m₁ m' : Machine} :
    Script.ReadsGlobal contexts configGlobal m (.ok (.table id)) m₁ →
    Reads contexts (Value.ofText name) (.table id) m₁ (.ok value) m' → value ≠ .nil →
    Resolves contexts name m (.ok value) m'
  /-- The table of handlers does not have it. -/
  | global {id : Nat} {result : Except Fault Value} {m₁ m₂ m' : Machine} :
    Script.ReadsGlobal contexts configGlobal m (.ok (.table id)) m₁ →
    Reads contexts (Value.ofText name) (.table id) m₁ (.ok .nil) m₂ →
    Script.ReadsGlobal contexts name m₂ result m' →
    Resolves contexts name m result m'
  /-- There is no table of handlers. -/
  | globalAlone {other : Value} {result : Except Fault Value} {m₁ m' : Machine} :
    Script.ReadsGlobal contexts configGlobal m (.ok other) m₁ → (∀ id, other ≠ .table id) →
    Script.ReadsGlobal contexts name m₁ result m' →
    Resolves contexts name m result m'

variable {contexts : Contexts} {name : String} {m m' : Machine} {result : Except Fault Value}

/-- A name always stands for something, or finding that out fails. -/
theorem Resolves.total (contexts : Contexts) (name : String) (m : Machine) :
    ∃ result m', Resolves contexts name m result m' := by
  obtain ⟨config, m₁, hconfig⟩ :=
    Script.exists_reads contexts (Value.ofText configGlobal) (.table Machine.globals) m
  cases config with
  | error fault => exact ⟨_, _, .configRaises hconfig⟩
  | ok c =>
    by_cases htable : ∃ id, c = .table id
    · obtain ⟨id, rfl⟩ := htable
      obtain ⟨field, m₂, hfield⟩ :=
        Script.exists_reads contexts (Value.ofText name) (.table id) m₁
      cases field with
      | error fault => exact ⟨_, _, .fieldRaises hconfig hfield⟩
      | ok value =>
        by_cases hnil : value = .nil
        · subst hnil
          obtain ⟨global, m₃, hglobal⟩ :=
            Script.exists_reads contexts (Value.ofText name) (.table Machine.globals) m₂
          exact ⟨_, _, .global hconfig hfield hglobal⟩
        · exact ⟨_, _, .field hconfig hfield hnil⟩
    · obtain ⟨global, m₂, hglobal⟩ :=
        Script.exists_reads contexts (Value.ofText name) (.table Machine.globals) m₁
      exact ⟨_, _, .globalAlone hconfig (not_exists.1 htable) hglobal⟩

/-- How a look-up that leads to a value ends, above a stack. -/
inductive LooksUp (i : Interpreter) (base : List Value) (m : Machine) :
    Except Fault Value → Except BridgeError Bool × Interpreter → Prop where
  /-- Something can be left behind. -/
  | raised {fault : Fault} (extra : List Value) :
    LooksUp i base m (.error fault)
      (.error (Host.onStack fault), { i with machine := m, stack := base ++ extra })
  | missing : LooksUp i base m (.ok .nil) (.ok false, { i with machine := m, stack := base })
  | found {value : Value} : value ≠ .nil →
    LooksUp i base m (.ok value) (.ok true, { i with machine := m, stack := base ++ [value] })

/-- A look-up that fails at once leaves nothing behind. -/
theorem LooksUp.raised_nil {i : Interpreter} {base : List Value} {fault : Fault} :
    LooksUp i base m (.error fault)
      (.error (Host.onStack fault), { i with machine := m, stack := base }) := by
  have hleft : LooksUp i base m (.error fault) (.error (Host.onStack fault),
      { i with machine := m, stack := base ++ [] }) := .raised []
  rwa [List.append_nil] at hleft

/-- Without a handler in a table, it is the global variable that counts. -/
theorem looksUp_lookFurther {i : Interpreter} {m₁ : Machine} (base : List Value) (top : Value)
    (h : Script.ReadsGlobal i.contexts name m₁ result m') :
    LooksUp i base m' result
      (exec (lookFurther name false) { i with machine := m₁, stack := base ++ [top] }) := by
  simp only [lookFurther, Bool.false_eq_true, if_false, Host.exec_bind]
  rw [Host.exec_pop_one rfl]
  cases result with
  | error fault =>
    dsimp only
    rw [Host.exec_getGlobal_of_raises (i := { i with machine := m₁, stack := base }) h]
    exact .raised_nil
  | ok value =>
    dsimp only
    rw [Host.exec_getGlobal_of_reads (i := { i with machine := m₁, stack := base }) h]
    dsimp only
    rw [Host.exec_isNil_top rfl]
    by_cases hvalue : value = .nil
    · subst hvalue
      simp only [decide_true, if_true, Host.exec_bind]
      rw [Host.exec_pop_one rfl]
      exact .missing
    · simp only [hvalue, decide_false, Bool.false_eq_true, if_false]
      exact .found hvalue

/-- What a look-up does with what `config` is. -/
def lookIn (name : String) : Value → Host Bool
  | .table _ => do
    Host.getField (-1) name
    discard (Host.remove (-2))
    lookFurther name !(← Host.isNil (-1))
  | _ => lookFurther name false

theorem exec_pushHandler {i : Interpreter} {config : Value} {m₁ : Machine}
    (h : Script.ReadsGlobal i.contexts configGlobal i.machine (.ok config) m₁) :
    exec (pushHandler name) i =
      exec (lookIn name config) { i with machine := m₁, stack := i.stack ++ [config] } := by
  rw [pushHandler, Host.exec_bind, Host.exec_getGlobal_of_reads h]
  dsimp only
  rw [Host.exec_bind, Host.exec_peek_top rfl]
  cases config with
  | table id => rfl
  | _ => rfl

/-- In a table, the look-up goes on from the field. -/
theorem exec_lookIn_of_reads {i : Interpreter} {base : List Value} {id : Nat} {value : Value}
    {m₁ : Machine} (hstack : i.stack = base ++ [.table id])
    (h : Reads i.contexts (Value.ofText name) (.table id) i.machine (.ok value) m₁) :
    exec (lookIn name (.table id)) i =
      exec (lookFurther name !(decide (value = .nil)))
        { i with machine := m₁, stack := base ++ [value] } := by
  have hnames : Names (-1) i.stack base (.table id) [] := hstack ▸ Host.names_top base _
  have hpair : i.stack ++ [value] = base ++ [.table id, value] := by
    rw [hstack, List.append_assoc]
    rfl
  rw [lookIn, Host.exec_bind, Host.exec_getField_of_reads hnames h]
  dsimp only
  have hdiscard : exec (discard (Host.remove (-2)))
      { i with machine := m₁, stack := i.stack ++ [value] } =
      (.ok (), { i with machine := m₁, stack := base ++ [value] }) := by
    show exec (Host.remove (-2) >>= fun _ => pure ()) _ = _
    rw [Host.exec_bind, Host.exec_remove_second hpair]
    rfl
  rw [Host.exec_bind, hdiscard]
  dsimp only
  rw [Host.exec_bind, Host.exec_isNil_top rfl]

/-- The look-up leads to what the name stands for. -/
theorem looksUp_pushHandler {i : Interpreter} (h : Resolves i.contexts name i.machine result m') :
    LooksUp i i.stack m' result (exec (pushHandler name) i) := by
  cases h with
  | configRaises hconfig =>
    rw [pushHandler, Host.exec_bind, Host.exec_getGlobal_of_raises hconfig]
    exact .raised_nil
  | @fieldRaises id fault m₁ m' hconfig hfield =>
    rw [exec_pushHandler hconfig, lookIn, Host.exec_bind,
      Host.exec_getField_of_raises (Host.names_top i.stack _) hfield]
    exact .raised [.table id]
  | field hconfig hfield hvalue =>
    rw [exec_pushHandler hconfig, exec_lookIn_of_reads rfl hfield, decide_eq_false hvalue]
    exact .found hvalue
  | global hconfig hfield hglobal =>
    rw [exec_pushHandler hconfig, exec_lookIn_of_reads rfl hfield]
    exact looksUp_lookFurther i.stack .nil hglobal
  | @globalAlone config result m₁ m' hconfig hother hglobal =>
    have hlook : lookIn name config = lookFurther name false := by
      cases config with
      | table id => exact absurd rfl (hother id)
      | _ => rfl
    rw [exec_pushHandler hconfig, hlook]
    exact looksUp_lookFurther i.stack config hglobal

/-- What a look-up ends in tells the value that it has led to. -/
theorem LooksUp.unique {i : Interpreter} {base : List Value} {result' : Except Fault Value}
    {m m' : Machine} {ending ending' : Except BridgeError Bool × Interpreter}
    (h : LooksUp i base m result ending) (h' : LooksUp i base m' result' ending')
    (hending : ending = ending') : result' = result ∧ m' = m := by
  obtain ⟨hresult, hi⟩ := Prod.mk.inj hending
  cases h with
  | raised extra =>
    cases h' with
    | raised extra' =>
      obtain ⟨hmachine, -⟩ := Interpreter.mk.inj hi
      cases hresult
      exact ⟨rfl, hmachine.symm⟩
    | missing => cases hresult
    | found => cases hresult
  | missing =>
    cases h' with
    | raised => cases hresult
    | missing => exact ⟨rfl, (Interpreter.mk.inj hi).1.symm⟩
    | found => cases hresult
  | found =>
    cases h' with
    | raised => cases hresult
    | missing => cases hresult
    | found =>
      obtain ⟨hmachine, -, hstack, -⟩ := Interpreter.mk.inj hi
      obtain ⟨-, hvalue⟩ := List.append_inj' hstack rfl
      cases hvalue
      exact ⟨rfl, hmachine.symm⟩

/-- A name stands for one value. -/
theorem Resolves.unique {result' : Except Fault Value} {m₁ m₂ : Machine}
    (h : Resolves contexts name m result m₁) (h' : Resolves contexts name m result' m₂) :
    result' = result ∧ m₂ = m₁ := by
  -- The look-up is a function, and any interpreter in this state will do to run it.
  let i : Interpreter := ⟨m, contexts, [], default, []⟩
  have hlook : LooksUp i [] m₁ result (exec (pushHandler name) i) :=
    looksUp_pushHandler (i := i) h
  have hlook' : LooksUp i [] m₂ result' (exec (pushHandler name) i) :=
    looksUp_pushHandler (i := i) h'
  exact hlook.unique hlook' rfl

/-! ### What comes of it -/

/-- What is reported where there is no handler. -/
def missingLine (name : String) : Line :=
  ⟨.debug, "bridge", "No handler for " ++ name ++ ", skipping"⟩

namespace Dispatcher

/-- The interpreter of a dispatch that has found a handler. -/
def holding (d : Dispatcher) (handler : Value) (m : Machine) : Interpreter :=
  { d.interpreter with
    machine := m
    stack := d.interpreter.stack ++ [handler]
    lines := [] }

/-- What a dispatch comes to without a policy, by the value that the name of its handler stands
    for. -/
inductive Comes (d : Dispatcher) (occurrence : Occurrence) (m : Machine) :
    Except Fault Value → Except BridgeError Outcome × Interpreter × List Line → Prop where
  /-- A failure of the host, not of a call. -/
  | raised {fault : Fault} :
    d.Comes occurrence m (.error fault)
      (.error (.stack (.interpreter fault)), { d.interpreter with machine := m, lines := [] }, [])
  /-- Nothing has changed but for what the script has done while it was read. -/
  | missing :
    d.Comes occurrence m (.ok .nil)
      (.ok .noHandler, { d.interpreter with machine := m, lines := [] },
        [missingLine occurrence.handler])
  | refused {handler : Value} {table : HandleTable Live} {cause : StackError} :
    handler ≠ .nil → d.interpreter.contexts = some table →
    occurrence.Exceeds d.interpreter.limits cause →
    d.Comes occurrence m (.ok handler)
      (d.refusedFor occurrence (d.holding handler m) table cause)
  /-- The arguments are made, and there is nothing that they could be passed to. -/
  | noFunction {handler : Value} {table : HandleTable Live} {fault : Fault} :
    handler ≠ .nil → d.interpreter.contexts = some table →
    occurrence.Fits d.interpreter.limits →
    ¬ HasFunction (occurrence.delivery table m).machine handler →
    d.Comes occurrence m (.ok handler)
      (.error (.call ("handler '" ++ occurrence.handler ++ "'") fault),
        { d.interpreter with
          machine := (occurrence.delivery table m).machine
          contexts := some (occurrence.released table)
          lines := [] },
        [callLine occurrence.handler (occurrence.delivery table m).arguments.length])
  | called {handler : Value} {table : HandleTable Live} :
    d.interpreter.contexts = some table → occurrence.Fits d.interpreter.limits →
    HasFunction (occurrence.delivery table m).machine handler →
    d.Comes occurrence m (.ok handler)
      (d.calledWith occurrence handler (d.holding handler m) table)

variable {d : Dispatcher} {occurrence : Occurrence} {handler : Value}

/-- A value without a function behind it is not called, whatever it is. -/
theorem callOf_of_no_function {machine : Machine} (contexts : Contexts)
    (h : ¬ HasFunction machine handler) (values : List Value) :
    ∃ fault, Host.callOf handler values contexts machine = (.error fault, machine) := by
  by_cases hcallable : handler.isCallable = true
  · obtain ⟨fault, hfault⟩ := Script.toHost_call_of_no_function contexts h values
    exact ⟨fault, (Host.callOf_of_callable hcallable values contexts machine).trans hfault⟩
  · exact ⟨_, Host.callOf_of_not_callable (Bool.eq_false_iff.2 hcallable) values contexts machine⟩

theorem isCallable_of_hasFunction {machine : Machine} (h : HasFunction machine handler) :
    handler.isCallable = true := by
  cases h <;> rfl

/-- With a handler at hand, what is called for is within the limits or not, and the handler is a
    function or not. -/
theorem comes_of_found (hready : d.Ready) (hhandler : handler ≠ .nil)
    (hfound : d.found? occurrence = some (handler, d.holding handler m)) :
    d.Comes occurrence m (.ok handler) (d.attempt occurrence) := by
  obtain ⟨table, hcontexts⟩ := Option.isSome_iff_exists.1 hready
  -- The limits come first: arguments that exceed them are refused whatever the handler is.
  by_cases hfits : occurrence.Fits d.interpreter.limits
  · by_cases hfunction : HasFunction (occurrence.delivery table m).machine handler
    · rw [attempt_of_fits hfound (isCallable_of_hasFunction hfunction) hcontexts hfits]
      exact .called hcontexts hfits hfunction
    · let delivery := occurrence.delivery table m
      obtain ⟨fault, hfault⟩ :=
        callOf_of_no_function delivery.contexts hfunction delivery.arguments
      have hattempt := attempt_eq_of_fits hfound hcontexts hfits
      have hmachine : (d.holding handler m).machine = m := rfl
      dsimp only at hattempt
      rw [hmachine, hfault] at hattempt
      rw [hattempt]
      exact .noFunction hhandler hcontexts hfits hfunction
  · obtain ⟨cause, hexceeds⟩ := Occurrence.exceeds_of_not_fits hfits
    rw [attempt_of_exceeds hfound hcontexts hexceeds]
    exact .refused hhandler hcontexts hexceeds

theorem comes_of_resolves (hready : d.Ready)
    (h : Resolves d.interpreter.contexts occurrence.handler d.interpreter.machine result m) :
    d.Comes occurrence m result (d.attempt occurrence) := by
  have hlook := looksUp_pushHandler (i := { d.interpreter with lines := [] }) h
  generalize hexec : exec (pushHandler occurrence.handler) { d.interpreter with lines := [] } =
    ending at hlook
  have hinvoke := exec_invoke occurrence { d.interpreter with lines := [] }
  rw [hexec] at hinvoke
  cases hlook with
  | raised extra =>
    rw [attempt, Host.run_eq, exec_unsettled, hinvoke]
    dsimp only
    rw [List.take_left]
    exact .raised
  | missing =>
    rw [attempt, Host.run_eq, exec_unsettled, hinvoke]
    dsimp only
    rw [List.take_length]
    exact .missing
  | found hvalue =>
    refine comes_of_found hready hvalue ?_
    unfold found? lookUp
    rw [hexec]
    dsimp only
    rw [List.getLastD_concat]
    rfl

/-- Only nil is taken for no handler. -/
theorem Comes.noHandler_iff {ending : Except BridgeError Outcome × Interpreter × List Line}
    (h : d.Comes occurrence m result ending) :
    (d.settled occurrence ending).1 = .ok .noHandler ↔ result = .ok .nil := by
  -- No policy makes a missing handler of a failure.
  have hfailed : ∀ e i lines, (d.settled occurrence (.error e, i, lines)).1 ≠ .ok .noHandler := by
    intro e i lines
    unfold settled
    cases d.policy <;> exact nofun
  cases h with
  | raised => exact iff_of_false (hfailed _ _ _) nofun
  | missing => exact iff_of_true rfl rfl
  | refused hhandler =>
    refine iff_of_false (hfailed _ _ _) ?_
    rintro ⟨⟩
    exact hhandler rfl
  | noFunction hhandler =>
    refine iff_of_false (hfailed _ _ _) ?_
    rintro ⟨⟩
    exact hhandler rfl
  | @called handler table _ _ hfunction =>
    refine iff_of_false ?_ ?_
    · unfold calledWith
      dsimp only
      cases ((Script.call handler _).toHost _ _).1 with
      | ok returned => exact nofun
      | error fault => exact hfailed _ _ _
    · rintro ⟨⟩
      cases hfunction

/-- The handler of an occurrence is what its name stands for in the script as it is: a field of the
    table `config`, or else the global variable. If that is nil, there is no handler and nothing is
    done; if it is anything else, it is called, or the dispatch fails. -/
theorem handlers_are_resolved (hready : d.Ready) (occurrence : Occurrence) :
    ∃ result m,
      Resolves d.interpreter.contexts occurrence.handler d.interpreter.machine result m ∧
      (∀ result' m',
        Resolves d.interpreter.contexts occurrence.handler d.interpreter.machine result' m' →
          result' = result ∧ m' = m) ∧
      d.Comes occurrence m result (d.attempt occurrence) ∧
      d.dispatch occurrence = d.settled occurrence (d.attempt occurrence) ∧
      ((d.dispatch occurrence).1 = .ok .noHandler ↔ result = .ok .nil) := by
  obtain ⟨result, m, hresolves⟩ :=
    Resolves.total d.interpreter.contexts occurrence.handler d.interpreter.machine
  have hcomes := comes_of_resolves hready hresolves
  have hsettled := hready.dispatch_eq_settled occurrence
  refine ⟨result, m, hresolves, fun _ _ => hresolves.unique, hcomes, hsettled, ?_⟩
  rw [hsettled]
  exact hcomes.noHandler_iff

/-- False in the table of handlers stands before a function of that name, and is no missing
    handler. -/
theorem false_is_a_handler :
    let scripting : Config.Scripting := ⟨"monitor.lua", "config", 16777216, 1024, .log, false⟩
    let script := "[[\"set\",\"data\",\x7b\"fn\":[]\x7d]," ++
      "[\"ret\",\x7b\"new\":[[\"data\",false]]\x7d]]"
    let live : Live := ⟨Engine.initial, ⟨⟨1, .application "dns"⟩, []⟩, Engine.Root.unknown⟩
    let next : Occurrence := .traffic live (.data "bytes".toUTF8)
    ∃ d result m, (build scripting (.text script.toUTF8.data.toList) 1).1 = .ok d ∧
      Resolves d.interpreter.contexts next.handler d.interpreter.machine result m ∧
      result ≠ .ok .nil ∧ (d.dispatch next).1 = .ok .failed := by
  intro scripting script live next
  have hbuilt : (build scripting (.text script.toUTF8.data.toList) 1).1.toOption.any (fun d =>
      decide ((d.dispatch next).1.toOption = some .failed)) = true := by decide +kernel
  obtain ⟨d, hbuild, hd⟩ := (Option.any_eq_true _ _).mp hbuilt
  have hbuild := Host.eq_ok_of_toOption hbuild
  have hfailed := Host.eq_ok_of_toOption (of_decide_eq_true hd)
  obtain ⟨result, m, hresolves, -, -, -, hiff⟩ :=
    handlers_are_resolved (ready_of_build hbuild) next
  refine ⟨d, result, m, hbuild, hresolves, ?_, hfailed⟩
  intro hnil
  rw [hiff.2 hnil] at hfailed
  cases hfailed

end Dispatcher

end Dispatch

end EventBridge
