import EventBridge.Proofs.Dispatch.Arguments
import EventBridge.Proofs.Dispatch.Loading
import EventBridge.Proofs.Script.Leaving

/-! # Misuse keeps its identity

  A call of a native function that is given no handle in use is refused, and what it raises can go
  any way through a script before it leaves: caught, kept, handed on and raised again. When it
  leaves, from a handler or from a script that is evaluated, the host learns for what that call was
  refused, and it learns of no misuse otherwise.

  * `Interpreter.Running` has the interpreters that come up, and `exists_ledger` the record that
    each of them has.
  * `misuse_keeps_identity` is about all that leaves from there. What it says about a table of which
    no text can be made is needed (`table_leaves_as_misuse`).
-/

namespace EventBridge

open Host (exec)
open Script (Leaves Ledger Listed Machine Piece Refused Value ledgers)

/-! ### The record of an interpreter -/

namespace Interpreter

/-- The interpreters that come up: fresh ones, those of dispatchers, and what is left of them by all
    that is done. -/
inductive Running : Interpreter → Prop where
  | fresh (limits : Limits) (own : Nat) : Running (new limits own)
  | built {scripting : Config.Scripting} {source : Dispatch.Source} {own : Nat}
    {d : Dispatch.Dispatcher} : (Dispatch.Dispatcher.build scripting source own).1 = .ok d →
    Running d.interpreter
  | perform {i : Interpreter} {activity : Activity} : Running i → activity.Fair →
    Running (activity.perform i)
  /-- What was reported is taken. -/
  | take {i : Interpreter} : Running i → Running { i with lines := [] }

/-- At first nothing was refused. -/
theorem ledger_initial : Ledger [] Machine.initial where
  record := by
    constructor
    · exact List.nodup_nil
    · exact fun refused hmem => absurd hmem List.not_mem_nil
    · rfl
    · exact fun refused hmem => absurd hmem List.not_mem_nil
    · exact fun refused hmem => absurd hmem List.not_mem_nil
  tables id := by
    intro entry hmem
    -- There is one table yet, that of the globals, and it names the functions in place.
    match id with
    | 0 =>
      rcases List.mem_cons.1 hmem with rfl | hmem
      · exact ⟨trivial, trivial⟩
      · obtain ⟨i, hi, rfl⟩ := List.mem_mapIdx.1 hmem
        exact ⟨trivial, trivial⟩
    | id + 1 => exact absurd hmem List.not_mem_nil
  callables id := by
    cases hcallable : Machine.initial.functions[id]? with
    | none => exact fun args hmem => absurd hmem List.not_mem_nil
    | some callable =>
      have hmem := Array.mem_of_getElem? hcallable
      obtain ⟨builtin, -, rfl⟩ := List.mem_map.1 (List.mem_toArray.1 hmem)
      trivial

theorem holds_new (limits : Limits) (own : Nat) : (new limits own).Holds ledgers [] :=
  ⟨trivial, ledger_initial, nofun⟩

theorem anyContexts_ledgers : ledgers.AnyContexts := ⟨fun _ => trivial, fun _ _ _ => trivial⟩

/-- Every interpreter that comes up has a record. -/
theorem exists_ledger {i : Interpreter} (h : i.Running) : ∃ log, i.Holds ledgers log := by
  -- By what was done with the interpreter: the record goes on from step to step.
  induction h with
  | fresh limits own => exact ⟨[], holds_new limits own⟩
  | @built scripting source own d hbuild =>
    have hkeeps := Dispatch.keeps_prepare (D := ledgers) (w := []) scripting.namespaceName
      (Dispatch.keeps_load scripting source)
    obtain ⟨log, -, hholds, -⟩ := hkeeps.at (holds_new (Limits.of scripting) own)
    cases hexec : exec (Dispatch.prepare scripting.namespaceName (source.load scripting))
        (new (Limits.of scripting) own) with
    | mk result i =>
      rw [hexec] at hholds
      rw [Dispatch.build_of_exec hexec] at hbuild
      cases result with
      | error e => cases hbuild
      | ok done =>
        cases hbuild
        exact ⟨log, hholds.contexts, hholds.machine, hholds.stack⟩
  | perform _ hfair ih =>
    obtain ⟨log, hholds⟩ := ih
    obtain ⟨log', -, hafter⟩ := holds_perform anyContexts_ledgers hholds hfair
    exact ⟨log', hafter⟩
  | take _ ih =>
    obtain ⟨log, hholds⟩ := ih
    exact ⟨log, hholds.contexts, hholds.machine, hholds.stack⟩

end Interpreter

namespace Dispatch

/-! ### Handlers -/

variable {D : Script.Discipline} {w : D.World}

/-- What a handler is called with keeps to a discipline. -/
theorem holds_delivery (hD : D.AnyContexts) {machine : Machine} (hm : D.Sound w machine)
    (occurrence : Occurrence) (table : HandleTable Engine.Live) :
    D.Sound w (occurrence.delivery table machine).machine ∧
      D.AllowsAll w (occurrence.delivery table machine).arguments := by
  have hplain : ∀ text, D.Allows w (Value.ofText text) := D.allows_ofText w
  have hnew : ∀ headers, D.Sound w (machine.newObject.2.newTable (Host.headerTable headers)).2 ∧
      D.Allows w (.table machine.newObject.2.tables.size) := fun headers =>
    D.newTable (D.newObject hm) (Host.holds_headerTable headers) nofun
  cases occurrence with
  | triggerUp liid address => exact ⟨hm, by simp [Occurrence.delivery, hplain]⟩
  | triggerDown liid => exact ⟨hm, by simp [Occurrence.delivery, hplain]⟩
  | traffic live what =>
    have hhandle := hD.handles w machine.nextObject (table.insert live).1
    cases what with
    | up | down => exact ⟨D.newObject hm, .single hhandle⟩
    | data payload | datagram payload =>
      exact ⟨D.newObject hm, Script.Discipline.allowsAll_cons.2
        ⟨hhandle, .single (D.allows_string w payload)⟩⟩
    | request method url headers body =>
      refine ⟨(hnew headers).1, ?_⟩
      simp [Occurrence.delivery, Traffic.delivery, hhandle, hplain, (hnew headers).2,
        D.allows_string w body]
    | response code status headers body =>
      refine ⟨(hnew headers).1, ?_⟩
      simp [Occurrence.delivery, Traffic.delivery, hhandle, hplain, (hnew headers).2,
        D.allows_string w body, D.allows_integer w]

/-- What the look-up finds keeps to a discipline. -/
theorem holds_found {d : Dispatcher} {occurrence : Occurrence} {handler : Value} {i : Interpreter}
    (hd : d.interpreter.Holds D w) (hfound : d.found? occurrence = some (handler, i)) :
    ∃ w', D.Later w w' ∧ i.Holds D w' ∧ D.Allows w' handler := by
  obtain ⟨hlook, hstack, -, -⟩ := Dispatcher.lookUp_of_found hfound
  have hstart : Interpreter.Holds D w { d.interpreter with lines := [] } :=
    ⟨hd.contexts, hd.machine, hd.stack⟩
  obtain ⟨w', hw, hi, -⟩ := (keeps_pushHandler occurrence.handler).at hstart
  rw [Dispatcher.lookUp] at hlook
  rw [hlook] at hi
  refine ⟨w', hw, hi, hi.stack handler ?_⟩
  rw [hstack]
  simp

/-- A handler that is called under the policy that returns failures: what leaves it is what the
    dispatch fails with. -/
theorem leaves_dispatch {i : Interpreter} {log : List Refused} (hi : i.Holds ledgers log)
    {occurrence : Occurrence} {handler : Value} {j : Interpreter}
    {table : HandleTable Engine.Live} (hcontexts : i.contexts = some table)
    (hfits : occurrence.Fits i.limits) (hcallable : handler.isCallable = true)
    (hfound : Dispatcher.found? ⟨i, .propagate⟩ occurrence = some (handler, j)) :
    let delivery := occurrence.delivery table j.machine
    let dispatched := Dispatcher.dispatch ⟨i, .propagate⟩ occurrence
    match (Script.call handler delivery.arguments).start delivery.contexts delivery.machine with
    | (.ok _, _) => dispatched.1 = .ok .handled
    | (.error raised, m) => ∃ log' fault, log <+: log' ∧
      dispatched.1 = .error (.call ("handler '" ++ occurrence.handler ++ "'") fault) ∧
      Leaves delivery.contexts log' raised m fault dispatched.2.1.interpreter.machine := by
  intro delivery dispatched
  let d : Dispatcher := ⟨i, .propagate⟩
  have hready : d.Ready := by
    unfold Dispatcher.Ready
    rw [hcontexts]
    rfl
  have hdispatched :
      dispatched = d.settled occurrence (d.calledWith occurrence handler j table) := by
    rw [← Dispatcher.attempt_of_fits hfound hcallable hcontexts hfits]
    exact hready.dispatch_eq_settled occurrence
  -- The look-up can run code, too, so that the record may have grown when the handler is called.
  obtain ⟨log₁, h₁, hj, hhandler⟩ := holds_found (D := ledgers) hi hfound
  obtain ⟨hsound, harguments⟩ :=
    holds_delivery Interpreter.anyContexts_ledgers hj.machine occurrence table
  have hkeeps := ledgers.keepsCalls_call.keeps hhandler harguments
  cases hstart :
    (Script.call handler delivery.arguments).start delivery.contexts delivery.machine with
  | mk result m =>
    cases result with
    | ok values =>
      have hhost := Script.Eval.toHost_of_ok hstart
      rw [hdispatched]
      unfold Dispatcher.calledWith
      dsimp only
      rw [hhost]
      rfl
    | error raised =>
      obtain ⟨log₂, fault, h₂, hfault, hleaves⟩ := Script.leaves_of_start hkeeps hsound hstart
      have hcalled : d.calledWith occurrence handler j table =
          (.error (.call ("handler '" ++ occurrence.handler ++ "'") fault), { i with
            machine := ((Script.call handler delivery.arguments).toHost delivery.contexts
              delivery.machine).2
            contexts := some (occurrence.released table)
            lines := [] },
          j.lines ++ [callLine occurrence.handler delivery.arguments.length]) := by
        unfold Dispatcher.calledWith
        dsimp only
        rw [hfault]
        rfl
      rw [hdispatched, hcalled]
      exact ⟨log₂, fault, List.IsPrefix.trans h₁ h₂, rfl, hleaves⟩

/-- What leaves a script that is evaluated is what the evaluation fails with. -/
theorem leaves_evaluate {i : Interpreter} {log : List Refused} (hi : i.Holds ledgers log)
    {source : List UInt8} {block : Script.Block} (hparse : Script.parse source = some block) :
    match (Script.runBlock block).start i.contexts i.machine with
    | (.ok values, m) => i.evaluate source = (.ok values, { i with machine := m })
    | (.error raised, m) => ∃ log' fault, log <+: log' ∧ (i.evaluate source).1 = .error fault ∧
      Leaves i.contexts log' raised m fault (i.evaluate source).2.machine := by
  have hevaluate : i.evaluate source =
      (((Script.runBlock block).toHost i.contexts i.machine).1,
        { i with machine := ((Script.runBlock block).toHost i.contexts i.machine).2 }) := by
    unfold Interpreter.evaluate
    rw [hparse]
  rw [hevaluate]
  cases hstart : (Script.runBlock block).start i.contexts i.machine with
  | mk result m =>
    cases result with
    | ok values =>
      have hhost := Script.Eval.toHost_of_ok hstart
      dsimp only
      rw [hhost]
    | error raised => exact Script.leaves_of_start (ledgers.keeps_runBlock block) hi.machine hstart

/-- A failure under any policy shows no misuse but that of a question that was refused. -/
theorem question_of_error {i : Interpreter} {log : List Refused} (hi : i.Holds ledgers log)
    {policy : ErrorPolicy} {occurrence : Occurrence} {e : BridgeError} {fault : Script.Fault}
    {cause : Misuse} (herror : (exec (dispatching policy occurrence) i).1 = .error e)
    (hfault : e.fault? = some fault) (hmisuse : fault.misuse? = some cause) :
    ∃ question ∈ (exec (dispatching policy occurrence) i).2.machine.questions,
      question.reply = .error (.misuse cause) := by
  obtain ⟨log', -, hafter, hresult⟩ :=
    (keeps_dispatching Interpreter.anyContexts_ledgers policy occurrence).at hi
  rw [herror] at hresult
  have hallowed : ledgers.AllowsFault log' fault := by
    unfold BridgeError.fault? at hfault
    split at hfault <;> cases hfault <;> exact hresult
  cases fault with
  | refused refusal =>
    obtain ⟨number, hlisted⟩ := hallowed
    rw [Script.Fault.misuse?_refused] at hmisuse
    cases refusal with
    | misuse found =>
      -- A misuse is in the record only as the answer to a question.
      cases hmisuse
      exact Ledger.question_of_misuse hafter.machine hlisted
    | _ => cases hmisuse
  | _ => cases hmisuse

/-- A call that is refused for a misuse raises an object of its own, which is added to the record.
    Whatever code runs from there, all such objects that it gives, raises or leaves behind are of
    the record, which only grows. What leaves an evaluated script or a handler then shows the misuse
    of the call that raised it; any other value shows none if a text can be made of it, and else
    what is raised for that takes its place. No failure shows a misuse for which no question was
    refused. However deep an error is wrapped, the misuse is found. -/
theorem misuse_keeps_identity :
    (∀ log m, Ledger log m → ∀ contexts (native : Script.Native) args cause,
      Script.liveAt contexts (Script.firstOf args) = .error cause → ∃ m',
        (native.run args).start contexts m =
          (.error (.failure m.nextObject (.misuse cause)), m') ∧
        Ledger (log ++ [⟨m.nextObject, .misuse cause,
          some ⟨native, Script.firstOf args, .error (.misuse cause)⟩⟩]) m') ∧
    (∀ log m, Ledger log m → ∀ contexts, ∀ piece : Piece, piece.Has (Listed log) →
      ∃ log', log <+: log' ∧ Ledger log' (piece.values.start contexts m).2 ∧
        match (piece.values.start contexts m).1 with
        | .ok values => ∀ value ∈ values, Listed log' value
        | .error raised => Listed log' raised) ∧
    (∀ i : Interpreter, i.Running → ∃ log, Ledger log i.machine ∧
      (∀ source block, Script.parse source = some block →
        match (Script.runBlock block).start i.contexts i.machine with
        | (.ok values, m) => i.evaluate source = (.ok values, { i with machine := m })
        | (.error raised, m) => ∃ log' fault, log <+: log' ∧
          (i.evaluate source).1 = .error fault ∧
          Leaves i.contexts log' raised m fault (i.evaluate source).2.machine) ∧
      (∀ occurrence handler j table, i.contexts = some table → occurrence.Fits i.limits →
        handler.isCallable = true →
        Dispatcher.found? ⟨i, .propagate⟩ occurrence = some (handler, j) →
        let delivery := occurrence.delivery table j.machine
        let dispatched := Dispatcher.dispatch ⟨i, .propagate⟩ occurrence
        match (Script.call handler delivery.arguments).start delivery.contexts
            delivery.machine with
        | (.ok _, _) => dispatched.1 = .ok .handled
        | (.error raised, m) => ∃ log' fault, log <+: log' ∧
          dispatched.1 = .error (.call ("handler '" ++ occurrence.handler ++ "'") fault) ∧
          Leaves delivery.contexts log' raised m fault dispatched.2.1.interpreter.machine) ∧
      (∀ policy occurrence e fault cause,
        (exec (dispatching policy occurrence) i).1 = .error e → e.fault? = some fault →
        fault.misuse? = some cause →
        ∃ question ∈ (exec (dispatching policy occurrence) i).2.machine.questions,
          question.reply = .error (.misuse cause))) ∧
    (∀ value, (∀ id, value ≠ .table id) → ∀ contexts m, ∃ bytes,
      (Script.display Script.call value).start contexts m = (.ok bytes, m)) ∧
    (∀ (m : Machine) id, m.metafield id "__tostring" = .nil → ∀ contexts, ∃ bytes,
      (Script.display Script.call (.table id)).start contexts m = (.ok bytes, m)) ∧
    (∀ e : Script.Layered, e.misuse? = e.refusal.misuse?) := by
  refine ⟨?_, ?_, ?_, fun value h => Script.start_display_of_not_table h _,
    fun m id h => Script.start_display_of_bare h _, Script.Layered.misuse?_eq⟩
  · intro log m hm contexts native args cause hlive
    have hreply : native.reply contexts (Script.firstOf args) = .error (.misuse cause) := by
      unfold Script.Native.reply
      rw [hlive]
    have hrecord := hm.record.push (.misuse cause)
      (some ⟨native, Script.firstOf args, .error (.misuse cause)⟩)
      (fun _ heq => by cases heq; rfl) nofun
    exact ⟨_, Script.Native.start_run_error hreply m,
      hm.later (List.prefix_append _ _) hrecord⟩
  · intro log m hm contexts piece hpiece
    have hadmits : ledgers.Admits contexts := trivial
    obtain ⟨log', hlog, hsound, hgives⟩ := (ledgers.keeps_values hpiece).at hadmits hm
    refine ⟨log', hlog, hsound, ?_⟩
    split
    · next values hvalues =>
      rw [hvalues] at hgives
      exact hgives
    · next raised hraised =>
      rw [hraised] at hgives
      exact hgives
  · intro i hrunning
    obtain ⟨log, hi⟩ := Interpreter.exists_ledger hrunning
    refine ⟨log, hi.machine, ?_, ?_, ?_⟩
    · exact fun source block hparse => leaves_evaluate hi hparse
    · intro occurrence handler j table hcontexts hfits hcallable hfound
      exact leaves_dispatch hi hcontexts hfits hcallable hfound
    · intro policy occurrence e fault cause
      exact question_of_error hi

/-- A table is raised. -/
def raisesTable : Except Value (List Value) × Machine → Bool
  | (.error (.table _), _) => true
  | _ => false

/-- A handler fails, and a misuse is shown for that. -/
def showsMisuse (origin : String) (cause : Misuse) : Except BridgeError Outcome → Bool
  | .error (.call found fault) => found == origin && fault.misuse? == some cause
  | _ => false

/-- A table of which no text can be made shows the misuse that is raised for that. -/
theorem table_leaves_as_misuse :
    let scripting : Config.Scripting := ⟨"monitor.lua", "cybermon", 16, 4, .propagate, false⟩
    let script := "[[\"set\",\"trigger_down\",\x7b\"fn\":[[\"err\",\x7b\"new\":[],\"meta\":" ++
      "\x7b\"new\":[[\"__tostring\",\x7b\"fn\":[[\"do\",\x7b\"get\":[\x7b\"g\":\"cybermon\"\x7d," ++
      "\"get_liid\"]\x7d,42]]\x7d]]\x7d\x7d]]\x7d]]"
    let next : Occurrence := .triggerDown "a"
    ∃ d handler i table id m fault,
      (Dispatcher.build scripting (.text script.toUTF8.data.toList) 1).1 = .ok d ∧
      d.found? next = some (handler, i) ∧
      (Script.call handler (next.delivery table i.machine).arguments).start
        (next.delivery table i.machine).contexts (next.delivery table i.machine).machine =
          (.error (.table id), m) ∧
      (d.dispatch next).1 = .error (.call "handler 'trigger_down'" fault) ∧
      fault.misuse? = some (.notAHandle "integer") := by
  intro scripting script next
  have hchecked : (Dispatcher.build scripting (.text script.toUTF8.data.toList) 1).1.toOption.any
      (fun d => (d.found? next).any fun found => d.interpreter.contexts.any fun table =>
        raisesTable ((Script.call found.1 (next.delivery table found.2.machine).arguments).start
          (next.delivery table found.2.machine).contexts
          (next.delivery table found.2.machine).machine) &&
        showsMisuse "handler 'trigger_down'" (.notAHandle "integer") (d.dispatch next).1) =
      true := by decide +kernel
  obtain ⟨d, hbuild, hd⟩ := (Option.any_eq_true _ _).mp hchecked
  obtain ⟨⟨handler, i⟩, hfound, hhandler⟩ := (Option.any_eq_true _ _).mp hd
  obtain ⟨table, -, htable⟩ := (Option.any_eq_true _ _).mp hhandler
  obtain ⟨hraises, hshows⟩ := (Bool.and_eq_true _ _).mp htable
  have hbuild := Host.eq_ok_of_toOption hbuild
  -- The two checks leave one way each for what is raised and for what the dispatch gives.
  unfold raisesTable at hraises
  split at hraises
  · next id m hstart =>
    unfold showsMisuse at hshows
    split at hshows
    · next origin fault hdispatch =>
      obtain ⟨horigin, hmisuse⟩ := (Bool.and_eq_true _ _).mp hshows
      rw [eq_of_beq horigin] at hdispatch
      exact ⟨d, handler, i, table, id, m, fault, hbuild, hfound, hstart, hdispatch,
        eq_of_beq hmisuse⟩
    · cases hshows
  · cases hraises

end Dispatch

end EventBridge
