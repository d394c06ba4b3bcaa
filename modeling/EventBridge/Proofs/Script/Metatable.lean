import EventBridge.Proofs.Script.Start
import EventBridge.Script.Fault

/-! # What stands behind a table

  A field that a table does not have can be found through its metatable, and so can the function
  that is called in place of a table.

  * `Finds` is what reading a field comes to, one constructor for each way through the metatables;
    `Reads` is the same as the host sees it. `toHost_readField_iff` says that there is nothing else
    to reading a field.
  * `HasFunction` is what a value needs in order to be called. Calling one that lacks it raises a
    message and runs nothing (`toHost_call_of_no_function`).
-/

namespace EventBridge.Script

variable {contexts : Contexts} {key value : Value} {m m' : Machine} {steps : Nat}
  {result : Except Value Value}

/-! ### Fields -/

/-- What reading a field of a value comes to, and the machine after it. So many tables can hand on
    to one another. -/
inductive Finds (contexts : Contexts) (key : Value) :
    Nat → Value → Machine → Except Value Value → Machine → Prop where
  /-- The table has the field. -/
  | own {steps id : Nat} {m : Machine} : (m.table id).get key ≠ .nil →
    Finds contexts key (steps + 1) (.table id) m (.ok ((m.table id).get key)) m
  | absent {steps id : Nat} {m : Machine} : (m.table id).get key = .nil →
    m.metafield id "__index" = .nil → Finds contexts key (steps + 1) (.table id) m (.ok .nil) m
  /-- A function is asked for the field. -/
  | asked {steps id f : Nat} {m m' : Machine} {results : List Value} :
    (m.table id).get key = .nil → m.metafield id "__index" = .function f →
    (call (.function f) [.table id, key]).start contexts m = (.ok results, m') →
    Finds contexts key (steps + 1) (.table id) m (.ok (firstOf results)) m'
  | askedRaises {steps id f : Nat} {m m' : Machine} {raised : Value} :
    (m.table id).get key = .nil → m.metafield id "__index" = .function f →
    (call (.function f) [.table id, key]).start contexts m = (.error raised, m') →
    Finds contexts key (steps + 1) (.table id) m (.error raised) m'
  /-- The field is read of what the metatable names instead, as it would be by itself. -/
  | handedOn {steps id : Nat} {m m' : Machine} {result : Except Value Value} :
    (m.table id).get key = .nil → m.metafield id "__index" ≠ .nil →
    (∀ f, m.metafield id "__index" ≠ .function f) →
    Finds contexts key steps (m.metafield id "__index") m result m' →
    Finds contexts key (steps + 1) (.table id) m result m'
  | noTable {steps : Nat} {value : Value} {m : Machine} : (∀ id, value ≠ .table id) →
    Finds contexts key (steps + 1) value m
      (.error (Value.ofText ("attempt to index a " ++ value.typeName ++ " value"))) m
  | endless {value : Value} {m : Machine} :
    Finds contexts key 0 value m
      (.error (Value.ofText "'__index' chain too long; possibly a loop")) m

/-- What a table does not have is left to its metatable. -/
theorem start_readField_of_nil {id : Nat} (hget : (m.table id).get key = .nil) :
    (readField call key (steps + 1) (.table id)).start contexts m =
      match m.metafield id "__index" with
      | .nil => (.ok .nil, m)
      | .function f => (firstOf <$> call (.function f) [.table id, key]).start contexts m
      | handler => (readField call key steps handler).start contexts m := by
  rw [readField, Eval.start_bind, Eval.start_get]
  dsimp only
  rw [hget]
  dsimp only
  cases m.metafield id "__index" with
  | function f =>
    dsimp only
    rw [map_eq_pure_bind]
  | _ => rfl

/-- Reading goes by the metatables. -/
theorem Finds.start (h : Finds contexts key steps value m result m') :
    (readField call key steps value).start contexts m = (result, m') := by
  induction h with
  | @own steps id m hown =>
    rw [readField, Eval.start_bind, Eval.start_get]
    dsimp only
    cases hget : (m.table id).get key with
    | nil => exact absurd hget hown
    | _ => rfl
  | absent hget hmeta => rw [start_readField_of_nil hget, hmeta]
  | asked hget hmeta hcall | askedRaises hget hmeta hcall =>
    rw [start_readField_of_nil hget, hmeta]
    dsimp only
    rw [Eval.start_map, hcall]
  | @handedOn steps id m m' result hget hsome hother _ ih =>
    rw [start_readField_of_nil hget]
    -- What the metatable names is read in turn, as it is neither nil nor a function.
    cases hmeta : m.metafield id "__index" with
    | nil => exact absurd hmeta hsome
    | function f => exact absurd hmeta (hother f)
    | _ =>
      rw [hmeta] at ih
      exact ih
  | @noTable steps value m hother =>
    cases value with
    | table id => exact absurd rfl (hother id)
    | _ => rfl
  | endless => rfl

/-- Reading always comes to something. -/
theorem exists_finds (contexts : Contexts) (key : Value) (steps : Nat) (value : Value)
    (m : Machine) : ∃ result m', Finds contexts key steps value m result m' := by
  -- On the number of tables that can still hand on.
  induction steps generalizing value with
  | zero => exact ⟨_, _, .endless⟩
  | succ steps ih =>
    by_cases htable : ∃ id, value = .table id
    · obtain ⟨id, rfl⟩ := htable
      by_cases hget : (m.table id).get key = .nil
      · cases hmeta : m.metafield id "__index" with
        | nil => exact ⟨_, _, .absent hget hmeta⟩
        | function f =>
          cases hcall : (call (.function f) [.table id, key]).start contexts m with
          | mk result m' =>
            cases result with
            | ok results => exact ⟨_, _, .asked hget hmeta hcall⟩
            | error raised => exact ⟨_, _, .askedRaises hget hmeta hcall⟩
        | _ =>
          obtain ⟨result, m', h⟩ := ih (m.metafield id "__index")
          refine ⟨result, m', .handedOn hget ?_ ?_ h⟩
          · rw [hmeta]
            exact nofun
          · rw [hmeta]
            exact nofun
      · exact ⟨_, _, .own hget⟩
    · exact ⟨_, _, .noTable (not_exists.1 htable)⟩

theorem start_readField_iff :
    (readField call key steps value).start contexts m = (result, m') ↔
      Finds contexts key steps value m result m' := by
  constructor
  · intro h
    obtain ⟨result₀, m₀, hfinds⟩ := exists_finds contexts key steps value m
    cases hfinds.start.symm.trans h
    exact hfinds
  · exact Finds.start

/-- What reading a field comes to for the host. To find out what was raised can change the machine
    once more. -/
inductive Reads (contexts : Contexts) (key value : Value) (m : Machine) :
    Except Fault Value → Machine → Prop where
  | found {field : Value} {m' : Machine} :
    Finds contexts key chainLimit value m (.ok field) m' → Reads contexts key value m (.ok field) m'
  | raises {raised : Value} {fault : Fault} {m₁ m' : Machine} :
    Finds contexts key chainLimit value m (.error raised) m₁ →
    faultOf contexts faultLimit raised m₁ = (fault, m') →
    Reads contexts key value m (.error fault) m'

theorem toHost_readField_iff {result : Except Fault Value} :
    (readField call key chainLimit value).toHost contexts m = (result, m') ↔
      Reads contexts key value m result m' := by
  have hstart := @start_readField_iff contexts key value m
  unfold Eval.toHost
  cases hrun : (readField call key chainLimit value).start contexts m with
  | mk outcome m₁ =>
    have hfinds := hstart.1 hrun
    cases outcome with
    | ok field =>
      dsimp only
      constructor
      · rintro ⟨⟩
        exact .found hfinds
      · intro h
        cases h with
        | found h =>
          cases hrun.symm.trans h.start
          rfl
        | raises h => cases hrun.symm.trans h.start
    | error raised =>
      dsimp only
      constructor
      · rintro ⟨⟩
        exact .raises hfinds rfl
      · intro h
        cases h with
        | found h => cases hrun.symm.trans h.start
        | raises h hfault =>
          cases hrun.symm.trans h.start
          rw [hfault]

/-! ### Functions -/

/-- There is a function behind a value: it is one, or a table whose metatable names a value to call
    that has one behind it. -/
inductive HasFunction (m : Machine) : Value → Prop where
  | function (id : Nat) : HasFunction m (.function id)
  | table {id : Nat} : HasFunction m (m.metafield id "__call") → HasFunction m (.table id)

/-- Without a function behind it a value is not called: the way through the metatables ends in a
    message. -/
theorem start_invoke_of_no_function {run : Callable → List Value → Eval (List Value)}
    (contexts : Contexts) (h : ¬ HasFunction m value) (args : List Value) :
    ∃ text, (invoke run steps value args).start contexts m = (.error (Value.ofText text), m) := by
  induction steps generalizing value args with
  | zero => exact ⟨"stack overflow", rfl⟩
  | succ steps ih =>
    cases value with
    | function id => exact absurd (.function id) h
    | table id =>
      have hmeta : ¬ HasFunction m (m.metafield id "__call") := fun hbehind => h (.table hbehind)
      rw [invoke, Eval.start_bind, Eval.start_get]
      dsimp only
      cases heq : m.metafield id "__call" with
      | nil => exact ⟨"attempt to call a table value", rfl⟩
      | _ =>
        rw [heq] at hmeta
        exact ih hmeta _
    | _ => exact ⟨_, rfl⟩

theorem toHost_call_of_no_function (contexts : Contexts) (h : ¬ HasFunction m value)
    (args : List Value) :
    ∃ fault, (call value args).toHost contexts m = (.error fault, m) := by
  obtain ⟨text, hstart⟩ : ∃ text, (invoke (runCallable (apply 19999)) chainLimit value args).start
      contexts m = (.error (Value.ofText text), m) :=
    start_invoke_of_no_function contexts h args
  refine ⟨.raised (Text.Utf8.decodeLossy text.toUTF8.data.toList) true, ?_⟩
  have hcall : (call value args).start contexts m = (.error (Value.ofText text), m) := hstart
  unfold Eval.toHost
  rw [hcall]
  rfl

end EventBridge.Script
