import EventBridge.Dispatch.Dispatcher
import EventBridge.Proofs.Interpreter.Namespace

/-! # Loading a script

  A script that is loaded is evaluated beside the stack, and what it returns goes on top.

  * `Host.Loads` is what a load does to any interpreter, with whatever stack.
  * `Dispatch.Binds` is what becomes of the returned values: the first is kept as the global
    `config` if it is a table, and nothing is done with any others.
  * `Dispatch.Loaded` puts together what a dispatcher is made of. It is what `Dispatcher.build`
    makes, and nothing else (`build_eq_ok_iff`).
  * `modules_are_loaded`: all of this, and that it makes no difference where the text of a script
    comes from.
-/

namespace EventBridge

open Host (exec)
open Log (Line)
open Script (Contexts Machine Value)

/-! ### Evaluating -/

/-- Evaluating a text changes the machine and nothing else. -/
theorem Interpreter.evaluate_eq (i : Interpreter) (source : List UInt8) :
    i.evaluate source =
      ((i.evaluate source).1, { i with machine := (i.evaluate source).2.machine }) := by
  unfold evaluate
  cases Script.parse source <;> rfl

/-- It goes by the machine and the contexts alone. -/
theorem Interpreter.evaluate_report (i : Interpreter) (lines : List Line) (source : List UInt8) :
    { i with lines := lines }.evaluate source =
      ((i.evaluate source).1,
        { i with lines := lines, machine := (i.evaluate source).2.machine }) := by
  unfold evaluate
  cases Script.parse source <;> rfl

/-- The text is a script, and this is what it comes to when it is run from its top. -/
theorem Interpreter.evaluate_eq_ok_iff {i : Interpreter} {source : List UInt8} {values : List Value}
    {m : Machine} :
    i.evaluate source = (.ok values, { i with machine := m }) ↔ ∃ block,
      Script.parse source = some block ∧
        (Script.runBlock block).toHost i.contexts i.machine = (.ok values, m) := by
  unfold evaluate
  cases Script.parse source with
  | none => simp
  | some block =>
    simp [Prod.ext_iff]

namespace Host

/-! ### Loading -/

/-- What loading a text does to an interpreter, and what it gives: the values that the script
    returns come on top of the stack and are counted, and where there are none the stack stays as it
    is. -/
inductive Loads (source : List UInt8) (i : Interpreter) :
    Except BridgeError Nat → Interpreter → Prop where
  | returned {values : List Value} {m : Machine} (lines : List Line) :
    i.evaluate source = (.ok values, { i with machine := m }) →
    Loads source i (.ok values.length)
      { i with machine := m, stack := i.stack ++ values, lines := i.lines ++ lines }
  | failed {fault : Script.Fault} {m : Machine} (lines : List Line) :
    i.evaluate source = (.error fault, { i with machine := m }) →
    Loads source i (.error (inModule fault)) { i with machine := m, lines := i.lines ++ lines }

theorem exec_loadSource (source : List UInt8) (i : Interpreter) :
    exec (loadSource source) i =
      match i.evaluate source with
      | (.ok values, i) => (.ok values.length, { i with stack := i.stack ++ values })
      | (.error fault, i) => (.error (inModule fault), i) := by
  unfold loadSource Interpreter.evaluate
  cases Script.parse source with
  | none => rfl
  | some block =>
    dsimp only
    rw [exec_bind, exec_script]
    rcases (Script.runBlock block).toHost i.contexts i.machine with ⟨_ | values, m⟩ <;> rfl

/-- The lines about a load: one before the text is read, and one when the script has run. -/
def loadingLine (path : String) : Line := ⟨.debug, "bridge", "Loading module " ++ path⟩

def loadedLine (path : String) : Line := ⟨.info, "bridge", "Loaded module " ++ path⟩

theorem exec_loadModule_of_unreadable {tree : FileTree} {path : String} {cause : FileError}
    (h : tree.read path = .error cause) (i : Interpreter) :
    exec (loadModule tree path) i =
      (.error (.module (.unreadable path cause)),
        { i with lines := i.lines ++ [loadingLine path] }) := by
  unfold loadModule
  rw [exec_bind, exec_report]
  dsimp only
  rw [h]
  rfl

theorem exec_loadModule_of_readable {tree : FileTree} {path : String} {source : List UInt8}
    (h : tree.read path = .ok source) (i : Interpreter) :
    exec (loadModule tree path) i =
      match i.evaluate source with
      | (.ok values, after) => (.ok values.length, { after with
          stack := i.stack ++ values
          lines := i.lines ++ [loadingLine path, loadedLine path] })
      | (.error fault, after) =>
        (.error (inModule fault), { after with lines := i.lines ++ [loadingLine path] }) := by
  unfold loadModule
  rw [exec_bind, exec_report]
  dsimp only
  rw [h]
  dsimp only
  rw [exec_bind, exec_loadSource, Interpreter.evaluate_report, i.evaluate_eq]
  cases (i.evaluate source).1 with
  | error fault => rfl
  | ok values =>
    dsimp only
    rw [exec_bind, exec_report, List.append_assoc]
    rfl

theorem loads_loadSource (source : List UInt8) (i : Interpreter) :
    Loads source i (exec (loadSource source) i).1 (exec (loadSource source) i).2 := by
  have hevaluate := i.evaluate_eq source
  rw [exec_loadSource, hevaluate]
  cases hresult : (i.evaluate source).1 with
  | error fault =>
    rw [hresult] at hevaluate
    have hloads := Loads.failed [] hevaluate
    rwa [List.append_nil] at hloads
  | ok values =>
    rw [hresult] at hevaluate
    have hloads := Loads.returned [] hevaluate
    rwa [List.append_nil] at hloads

theorem loads_loadModule {tree : FileTree} {path : String} {source : List UInt8}
    (h : tree.read path = .ok source) (i : Interpreter) :
    Loads source i (exec (loadModule tree path) i).1 (exec (loadModule tree path) i).2 := by
  have hevaluate := i.evaluate_eq source
  rw [exec_loadModule_of_readable h, hevaluate]
  cases hresult : (i.evaluate source).1 with
  | error fault =>
    rw [hresult] at hevaluate
    exact .failed _ hevaluate
  | ok values =>
    rw [hresult] at hevaluate
    exact .returned _ hevaluate

end Host

namespace Dispatch

/-! ### What becomes of the returned values -/

/-- The bytes of the name under which a returned table is kept. -/
def configName : ByteArray := configGlobal.toUTF8

/-- What becomes of the values that a script has returned, by the machine before and after that. -/
inductive Binds (contexts : Contexts) : List Value → Machine → Machine → Prop where
  /-- Without a table in front nothing is done. -/
  | kept {values : List Value} {m : Machine} : (∀ id rest, values ≠ .table id :: rest) →
    Binds contexts values m m
  | bound {id : Nat} {rest : List Value} {m : Machine} : ¬ m.Intercepts configName →
    Binds contexts (.table id :: rest) m (m.setTable Machine.globals
      ((m.table Machine.globals).set (.string configName) (.table id)))
  /-- The metatable of the globals does with the table what it wants, as long as it does not
      raise. -/
  | intercepted {id : Nat} {rest : List Value} {m m' : Machine} : m.Intercepts configName →
    (Script.writeGlobal Script.call configName (.table id)).toHost contexts m = (.ok (), m') →
    Binds contexts (.table id :: rest) m m'

variable {i : Interpreter} {base : List Value}

/-- All values but the first are taken off. -/
theorem exec_pop_others {value : Value} {rest : List Value}
    (h : i.stack = base ++ value :: rest) :
    exec (Host.pop ((value :: rest).length - 1)) i =
      (.ok (), { i with stack := base ++ [value] }) := by
  have hlength : i.stack.length = (base ++ [value]).length + rest.length := by
    rw [h, List.length_append, List.length_append, List.length_cons, List.length_singleton]
    omega
  have hsplit : i.stack = (base ++ [value]) ++ rest := by
    rw [h, List.append_assoc, List.singleton_append]
  rw [List.length_cons, Nat.add_sub_cancel, Host.exec_pop, if_neg (by omega), hlength,
    Nat.add_sub_cancel, hsplit, List.take_left]

/-- The line about a table that is kept. -/
def boundLine : Line :=
  ⟨.debug, "bridge", "Module returned a table, bound as '" ++ configGlobal ++ "'"⟩

/-- What keeping the first of some values comes to: whether it goes through, the machine after it,
    and what is reported. -/
def keep (contexts : Contexts) (m : Machine) :
    List Value → Except BridgeError Unit × Machine × List Line
  | .table id :: _ =>
    match (Script.writeGlobal Script.call configName (.table id)).toHost contexts m with
    | (.ok (), m) => (.ok (), m, [boundLine])
    | (.error fault, m) => (.error (Host.onStack fault), m, [])
  | _ => (.ok (), m, [])

theorem exec_bindResult {values : List Value} (h : i.stack = base ++ values) :
    exec (bindResult values.length) i = ((keep i.contexts i.machine values).1, { i with
      machine := (keep i.contexts i.machine values).2.1
      stack := base
      lines := i.lines ++ (keep i.contexts i.machine values).2.2 }) := by
  cases values with
  | nil =>
    rw [List.append_nil] at h
    subst h
    simp [keep, bindResult]
  | cons value rest =>
    -- All but the first are taken off before anything is looked at.
    have hsome : (value :: rest).length ≠ 0 := Nat.succ_ne_zero _
    have htop : ({ i with stack := base ++ [value] } : Interpreter).stack = base ++ [value] := rfl
    unfold bindResult
    rw [if_neg hsome, Host.exec_bind, exec_pop_others h]
    dsimp only
    rw [Host.exec_bind, Host.exec_peek_top htop]
    cases value with
    | table id =>
      dsimp only [keep, configName]
      rw [Host.exec_bind, Host.setGlobal, Host.exec_bind, Host.exec_popValue]
      dsimp only
      rw [List.getLast?_concat, List.dropLast_concat]
      dsimp only
      rw [Host.exec_script]
      dsimp only
      rcases (Script.writeGlobal Script.call configGlobal.toUTF8 (.table id)).toHost i.contexts
        i.machine with ⟨_ | _, m⟩
      · simp [Except.mapError]
      · rfl
    | _ =>
      dsimp only [keep]
      rw [Host.exec_pop_one htop, List.append_nil]

/-- Keeping goes through where `Binds` says what it does. -/
theorem binds_iff {contexts : Contexts} {values : List Value} {m m' : Machine} :
    Binds contexts values m m' ↔
      (keep contexts m values).1 = .ok () ∧ (keep contexts m values).2.1 = m' := by
  constructor
  · intro h
    cases h with
    | kept hvalues =>
      cases values with
      | nil => exact ⟨rfl, rfl⟩
      | cons value rest =>
        cases value with
        | table id => exact absurd rfl (hvalues id rest)
        | _ => exact ⟨rfl, rfl⟩
    | bound hopen =>
      dsimp only [keep]
      rw [Script.toHost_writeGlobal_of_not_intercepts Script.call hopen]
      exact ⟨rfl, rfl⟩
    | intercepted _ hstore =>
      dsimp only [keep]
      rw [hstore]
      exact ⟨rfl, rfl⟩
  · -- The other way round it goes by the first value, and then by the metatable of the globals.
    intro ⟨hok, hm'⟩
    subst hm'
    by_cases htable : ∃ id rest, values = .table id :: rest
    · obtain ⟨id, rest, rfl⟩ := htable
      by_cases hintercepts : m.Intercepts configName
      · cases hstore :
          (Script.writeGlobal Script.call configName (.table id)).toHost contexts m with
        | mk result m' =>
          dsimp only [keep] at hok ⊢
          rw [hstore] at hok ⊢
          cases result with
          | ok done => exact .intercepted hintercepts hstore
          | error fault => cases hok
      · dsimp only [keep]
        rw [Script.toHost_writeGlobal_of_not_intercepts Script.call hintercepts]
        exact .bound hintercepts
    · have hvalues : ∀ id rest, values ≠ .table id :: rest := fun id rest heq =>
        htable ⟨id, rest, heq⟩
      have hkeep : keep contexts m values = (.ok (), m, []) := by
        unfold keep
        split
        · next id rest => exact absurd rfl (hvalues id rest)
        · rfl
      rw [hkeep]
      exact .kept hvalues

/-! ### Making a dispatcher -/

/-- The text of a script. -/
def Source.contents (scripting : Config.Scripting) : Source → Except FileError (List UInt8)
  | .file tree => tree.read scripting.script
  | .text source => .ok source

/-- What is reported before the text of a script is run. -/
def Source.before (scripting : Config.Scripting) : Source → List Line
  | .file _ => [Host.loadingLine scripting.script]
  | .text _ => []

/-- What is reported when it has been run. -/
def Source.after (scripting : Config.Scripting) : Source → List Line
  | .file _ => [Host.loadedLine scripting.script]
  | .text _ => []

theorem exec_load {scripting : Config.Scripting} {source : Source} {text : List UInt8}
    (h : source.contents scripting = .ok text) (i : Interpreter) :
    exec (source.load scripting) i =
      match i.evaluate text with
      | (.ok values, after) => (.ok values.length, { after with
          stack := i.stack ++ values
          lines := i.lines ++ (source.before scripting ++ source.after scripting) })
      | (.error fault, after) =>
        (.error (Host.inModule fault),
          { after with lines := i.lines ++ source.before scripting }) := by
  cases source with
  | file tree => exact Host.exec_loadModule_of_readable h i
  | text source =>
    cases h
    refine (Host.exec_loadSource text i).trans ?_
    rw [i.evaluate_eq]
    cases (i.evaluate text).1 <;> simp [Source.before, Source.after]

/-- The namespace of the settings. -/
def namespaceOf (scripting : Config.Scripting) : Namespace :=
  ⟨scripting.namespaceName, NativeEntry.all⟩

/-- An interpreter in which nothing is done but the namespace registered. -/
def registered (scripting : Config.Scripting) (own : Nat) : Interpreter :=
  { Interpreter.new (Limits.of scripting) own with machine := (namespaceOf scripting).machine }

theorem exec_prepare (scripting : Config.Scripting) (own : Nat) :
    ∃ lines, ∀ load, exec (prepare scripting.namespaceName load)
        (Interpreter.new (Limits.of scripting) own) =
      match exec load { registered scripting own with lines := lines } with
      | (.ok returned, i) => exec (bindResult returned) i
      | (.error e, i) => (.error e, i) := by
  obtain ⟨lines, hregister⟩ :=
    (namespaceOf scripting).exec_register rfl (Limits.of scripting) own
  refine ⟨lines, fun load => ?_⟩
  have hregistered : exec (Host.register scripting.namespaceName NativeEntry.all)
      (Interpreter.new (Limits.of scripting) own) =
        (.ok (), { registered scripting own with lines := lines }) := hregister
  unfold prepare
  rw [Host.exec_bind, hregistered]
  dsimp only
  rw [Host.exec_bind]
  generalize exec load _ = loaded
  rcases loaded with ⟨_ | _, _⟩ <;> rfl

/-- What preparing comes to if the text of the script can be read: `keep` decides once it has
    run. -/
theorem exec_prepare_of_contents (scripting : Config.Scripting) (own : Nat) :
    ∃ lines, ∀ (source : Source) {text : List UInt8}, source.contents scripting = .ok text →
      exec (prepare scripting.namespaceName (source.load scripting))
          (Interpreter.new (Limits.of scripting) own) =
        match (registered scripting own).evaluate text with
        | (.ok values, after) =>
          ((keep after.contexts after.machine values).1, { after with
            machine := (keep after.contexts after.machine values).2.1
            lines := lines ++ (source.before scripting ++ source.after scripting) ++
              (keep after.contexts after.machine values).2.2 })
        | (.error fault, after) =>
          (.error (Host.inModule fault),
            { after with lines := lines ++ source.before scripting }) := by
  obtain ⟨lines, hprepare⟩ := exec_prepare scripting own
  refine ⟨lines, fun source text htext => ?_⟩
  rw [hprepare, exec_load htext, Interpreter.evaluate_report,
    (registered scripting own).evaluate_eq]
  cases ((registered scripting own).evaluate text).1 with
  | error fault => rfl
  | ok values =>
    -- Nothing was on the stack before the script was run.
    have hstack : ∀ i : Interpreter, i.stack = (registered scripting own).stack ++ values →
        i.stack = [] ++ values := fun _ h => h
    dsimp only
    rw [exec_bindResult (hstack _ rfl)]
    rfl

/-- A dispatcher is prepared in an interpreter of its own. -/
theorem build_of_exec {scripting : Config.Scripting} {source : Source} {own : Nat}
    {result : Except BridgeError Unit} {i : Interpreter}
    (h : exec (prepare scripting.namespaceName (source.load scripting))
      (Interpreter.new (Limits.of scripting) own) = (result, i)) :
    Dispatcher.build scripting source own =
      (result.map fun _ => ⟨{ i with lines := [] }, scripting.errorPolicy⟩, i.lines) := by
  have hnew : { Interpreter.new (Limits.of scripting) own with lines := [] } =
      Interpreter.new (Limits.of scripting) own := rfl
  unfold Dispatcher.build
  dsimp only
  rw [Host.run_eq, hnew, h]

theorem build_of_unreadable {scripting : Config.Scripting} {source : Source} {cause : FileError}
    (h : source.contents scripting = .error cause) (own : Nat) :
    (Dispatcher.build scripting source own).1 =
      .error (.module (.unreadable scripting.script cause)) := by
  obtain ⟨lines, hprepare⟩ := exec_prepare scripting own
  cases source with
  | text text => cases h
  | file tree =>
    have hload : ∀ i, exec (Source.load scripting (.file tree)) i = _ :=
      Host.exec_loadModule_of_unreadable h
    have hexec := hprepare (Source.load scripting (.file tree))
    rw [hload] at hexec
    rw [build_of_exec hexec]
    rfl

/-- What a dispatcher is that has a script loaded: the script has returned some values, and what
    became of those is left in an interpreter that is fresh otherwise. -/
def Loaded (scripting : Config.Scripting) (own : Nat) (text : List UInt8) (values : List Value)
    (m : Machine) (d : Dispatcher) : Prop :=
  ∃ block m', Script.parse text = some block ∧
    (Script.runBlock block).toHost (some (HandleTable.empty own)) (namespaceOf scripting).machine =
      (.ok values, m) ∧
    Binds (some (HandleTable.empty own)) values m m' ∧
    d = ⟨⟨m', some (HandleTable.empty own), [], Limits.of scripting, []⟩, scripting.errorPolicy⟩

theorem loaded_iff {scripting : Config.Scripting} {own : Nat} {text : List UInt8}
    {values : List Value} {m : Machine} {d : Dispatcher} :
    Loaded scripting own text values m d ↔
      (registered scripting own).evaluate text =
        (.ok values, { registered scripting own with machine := m }) ∧
      (keep (some (HandleTable.empty own)) m values).1 = .ok () ∧
      d = ⟨{ registered scripting own with
        machine := (keep (some (HandleTable.empty own)) m values).2.1 },
        scripting.errorPolicy⟩ := by
  constructor
  · rintro ⟨block, m', hparse, hrun, hbinds, rfl⟩
    obtain ⟨hkeep, rfl⟩ := binds_iff.1 hbinds
    exact ⟨Interpreter.evaluate_eq_ok_iff.2 ⟨block, hparse, hrun⟩, hkeep, rfl⟩
  · rintro ⟨hevaluate, hkeep, rfl⟩
    obtain ⟨block, hparse, hrun⟩ := Interpreter.evaluate_eq_ok_iff.1 hevaluate
    exact ⟨block, _, hparse, hrun, binds_iff.2 ⟨hkeep, rfl⟩, rfl⟩

/-- A dispatcher is made if and only if a script can be loaded into it. -/
theorem build_eq_ok_iff {scripting : Config.Scripting} {source : Source} {own : Nat}
    {d : Dispatcher} :
    (Dispatcher.build scripting source own).1 = .ok d ↔ ∃ text values m,
      source.contents scripting = .ok text ∧ Loaded scripting own text values m d := by
  obtain ⟨lines, hprepare⟩ := exec_prepare_of_contents scripting own
  cases htext : source.contents scripting with
  | error cause =>
    rw [build_of_unreadable htext]
    simp
  | ok text =>
    have hexec := hprepare source htext
    constructor
    · -- There are two places to fail: in the script, and when what it returned is kept.
      intro hbuilt
      have hevaluate := (registered scripting own).evaluate_eq text
      generalize ((registered scripting own).evaluate text).2.machine = m at hevaluate
      cases hresult : ((registered scripting own).evaluate text).1 with
      | error fault =>
        rw [hresult] at hevaluate
        rw [hevaluate] at hexec
        rw [build_of_exec hexec] at hbuilt
        cases hbuilt
      | ok values =>
        rw [hresult] at hevaluate
        rw [hevaluate] at hexec
        rw [build_of_exec hexec] at hbuilt
        cases hkeep : (keep (registered scripting own).contexts m values).1 with
        | error e =>
          dsimp only at hbuilt
          rw [hkeep] at hbuilt
          cases hbuilt
        | ok done =>
          dsimp only at hbuilt
          rw [hkeep] at hbuilt
          cases hbuilt
          exact ⟨text, values, m, rfl, loaded_iff.2 ⟨hevaluate, hkeep, rfl⟩⟩
    · rintro ⟨_, values, m, heq, hloaded⟩
      cases heq
      obtain ⟨hevaluate, hkeep, rfl⟩ := loaded_iff.1 hloaded
      rw [hevaluate] at hexec
      rw [build_of_exec hexec]
      show Except.map _ (keep (some (HandleTable.empty own)) m values).1 = _
      rw [hkeep]
      rfl

/-! ### Where the text comes from -/

/-- Whether the text of a script is read from a file makes no difference to what is made. It is
    reported before the script is run and, unless that fails, behind it. -/
theorem build_file {scripting : Config.Scripting} {tree : FileTree} {text : List UInt8}
    (h : tree.read scripting.script = .ok text) (own : Nat) :
    (Dispatcher.build scripting (.file tree) own).1 =
        (Dispatcher.build scripting (.text text) own).1 ∧
      ∃ before after, (Dispatcher.build scripting (.text text) own).2 = before ++ after ∧
        ((Dispatcher.build scripting (.file tree) own).2 = before ++
            [Host.loadingLine scripting.script, Host.loadedLine scripting.script] ++ after ∨
          (∃ fault, (Dispatcher.build scripting (.text text) own).1 =
              .error (Host.inModule fault)) ∧ after = [] ∧
            (Dispatcher.build scripting (.file tree) own).2 =
              before ++ [Host.loadingLine scripting.script]) := by
  obtain ⟨lines, hprepare⟩ := exec_prepare_of_contents scripting own
  have hfile := hprepare (.file tree) h
  have htext := hprepare (.text text) rfl
  rw [(registered scripting own).evaluate_eq] at hfile htext
  cases hresult : ((registered scripting own).evaluate text).1 with
  | error fault =>
    rw [hresult] at hfile htext
    rw [build_of_exec hfile, build_of_exec htext]
    refine ⟨rfl, lines, [], rfl, .inr ⟨⟨fault, rfl⟩, rfl, rfl⟩⟩
  | ok values =>
    rw [hresult] at hfile htext
    rw [build_of_exec hfile, build_of_exec htext]
    refine ⟨rfl, lines, _, ?_, .inl rfl⟩
    exact congrArg (· ++ _) (List.append_nil lines)

/-! ### What is kept -/

/-- The machine that a script leaves has a table of globals. -/
theorem globals_there {scripting : Config.Scripting} {own : Nat} {text : List UInt8}
    {values : List Value} {m : Machine} {d : Dispatcher}
    (h : Loaded scripting own text values m d) : Machine.globals < m.tables.size := by
  obtain ⟨block, m', -, hrun, -⟩ := h
  -- The tables of a namespace are behind that of the globals, and they are still there.
  let D := (namespaceOf scripting).discipline
  have hadmits : D.Admits (some (HandleTable.empty own)) := trivial
  obtain ⟨_, _, hsealed, -⟩ := D.keeps_toHost (D.keeps_runBlock (w := ()) block) hadmits
    (namespaceOf scripting).sealed_machine
  rw [hrun] at hsealed
  exact Nat.lt_of_le_of_lt (Nat.zero_le _) hsealed.there

/-- Without a table in front the script is left as it was. -/
theorem machine_of_no_table {scripting : Config.Scripting} {own : Nat} {text : List UInt8}
    {values : List Value} {m : Machine} {d : Dispatcher} (h : Loaded scripting own text values m d)
    (hvalues : ∀ id rest, values ≠ .table id :: rest) : d.interpreter.machine = m := by
  obtain ⟨block, m', -, -, hbinds, rfl⟩ := h
  cases hbinds with
  | kept => rfl
  | bound => exact absurd rfl (hvalues _ _)
  | intercepted => exact absurd rfl (hvalues _ _)

/-- A table that the script returned first is what `config` is read as. -/
theorem readGlobal_config {scripting : Config.Scripting} {own : Nat} {text : List UInt8}
    {id : Nat} {rest : List Value} {m : Machine} {d : Dispatcher}
    (h : Loaded scripting own text (.table id :: rest) m d) (hopen : ¬ m.Intercepts configName) :
    (Script.readGlobal Script.call configName).toHost d.interpreter.contexts
      d.interpreter.machine = (.ok (.table id), d.interpreter.machine) := by
  have hthere := globals_there h
  obtain ⟨block, m', -, -, hbinds, rfl⟩ := h
  cases hbinds with
  | kept hvalues => exact absurd rfl (hvalues id rest)
  | intercepted hintercepts => exact absurd hintercepts hopen
  | bound =>
    refine Script.toHost_readGlobal_of_get ?_ nofun
    rw [m.table_setTable_self hthere, Script.Table.get_set]
    simp

/-- To load a script is to evaluate it beside the stack and to put what it returns on top.

    A dispatcher is made from a text if and only if the text is a script that runs to its end and
    what it returns can be kept. It then has nothing on its stack and nothing live, and has the
    first value as `config` if that is a table and nobody intercepts the store; without a table the
    script is as it was left. The text may as well be read from a file. -/
theorem modules_are_loaded :
    (∀ scripting own source d, (Dispatcher.build scripting source own).1 = .ok d ↔
      ∃ text values m, source.contents scripting = .ok text ∧
        Loaded scripting own text values m d) ∧
    (∀ scripting own text values m d, Loaded scripting own text values m d →
      d.interpreter.stack = [] ∧ d.interpreter.live = 0 ∧
      (∀ id rest, values = .table id :: rest → ¬ m.Intercepts configName →
        (Script.readGlobal Script.call configName).toHost d.interpreter.contexts
          d.interpreter.machine = (.ok (.table id), d.interpreter.machine)) ∧
      ((∀ id rest, values ≠ .table id :: rest) → d.interpreter.machine = m)) ∧
    (∀ scripting own tree text, tree.read scripting.script = .ok text →
      (Dispatcher.build scripting (.file tree) own).1 =
        (Dispatcher.build scripting (.text text) own).1 ∧
      ∃ before after, (Dispatcher.build scripting (.text text) own).2 = before ++ after ∧
        ((Dispatcher.build scripting (.file tree) own).2 = before ++
            [Host.loadingLine scripting.script, Host.loadedLine scripting.script] ++ after ∨
          (∃ fault, (Dispatcher.build scripting (.text text) own).1 =
              .error (Host.inModule fault)) ∧ after = [] ∧
            (Dispatcher.build scripting (.file tree) own).2 =
              before ++ [Host.loadingLine scripting.script])) ∧
    (∀ i : Interpreter, ∀ text,
      Host.Loads text i (exec (Host.loadSource text) i).1 (exec (Host.loadSource text) i).2) ∧
    (∀ (i : Interpreter) (tree : FileTree) path,
      match tree.read path with
      | .ok text => Host.Loads text i (exec (Host.loadModule tree path) i).1
          (exec (Host.loadModule tree path) i).2
      | .error cause => exec (Host.loadModule tree path) i =
          (.error (.module (.unreadable path cause)),
            { i with lines := i.lines ++ [Host.loadingLine path] })) := by
  refine ⟨fun _ _ _ _ => build_eq_ok_iff, fun scripting own text values m d hloaded => ?_,
    fun _ own _ _ h => build_file h own, fun i text => Host.loads_loadSource text i,
    fun i tree path => ?_⟩
  · refine ⟨?_, ?_, ?_, machine_of_no_table hloaded⟩
    · obtain ⟨block, m', -, -, -, rfl⟩ := hloaded
      rfl
    · obtain ⟨block, m', -, -, -, rfl⟩ := hloaded
      rfl
    · rintro id rest rfl hopen
      exact readGlobal_config hloaded hopen
  · split
    · next text htext => exact Host.loads_loadModule htext i
    · next cause hcause => exact Host.exec_loadModule_of_unreadable hcause i

end Dispatch

end EventBridge
