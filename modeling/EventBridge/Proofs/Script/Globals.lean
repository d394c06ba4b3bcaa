import EventBridge.Proofs.Script.Metatable
import EventBridge.Proofs.Script.Store

/-! # Global variables

  A global variable that the table of globals has is read from there, and one that is written goes
  there, unless the metatable of that table says otherwise (`Machine.Intercepts`).
-/

namespace EventBridge.Script

variable {contexts : Contexts} {name : ByteArray} {value : Value} {m : Machine}

/-- Storing a global variable is left to the metatable of the globals: the table has no such entry,
    and the metatable has something in place of new ones. -/
def Machine.Intercepts (m : Machine) (name : ByteArray) : Prop :=
  (m.table globals).get (.string name) = .nil ∧ m.metafield globals "__newindex" ≠ .nil

/-- A global variable that is there is read without the metatable. -/
theorem toHost_readGlobal_of_get (hget : (m.table Machine.globals).get (.string name) = value)
    (hvalue : value ≠ .nil) : (readGlobal call name).toHost contexts m = (.ok value, m) := by
  have hown : (m.table Machine.globals).get (.string name) ≠ .nil := by rwa [hget]
  have hfinds : Finds contexts (.string name) chainLimit (.table Machine.globals) m
      (.ok ((m.table Machine.globals).get (.string name))) m := .own hown
  rw [← hget]
  exact toHost_readField_iff.2 (.found hfinds)

/-- A global variable is stored in the table of globals. -/
theorem start_writeGlobal_of_not_intercepts (call : Call) (h : ¬ m.Intercepts name) :
    (writeGlobal call name value).start contexts m =
      (.ok (),
        m.setTable Machine.globals ((m.table Machine.globals).set (.string name) value)) := by
  have hentry : (writeEntry Machine.globals (.string name) value).start contexts m =
      (.ok (),
        m.setTable Machine.globals ((m.table Machine.globals).set (.string name) value)) := rfl
  rw [writeGlobal, chainLimit, writeField, Eval.start_bind, Eval.start_get]
  dsimp only
  cases hget : (m.table Machine.globals).get (.string name) with
  | nil =>
    cases hmeta : m.metafield Machine.globals "__newindex" with
    | nil => exact hentry
    | _ =>
      -- Then the metatable would have a say.
      refine absurd ⟨hget, ?_⟩ h
      rw [hmeta]
      exact nofun
  | _ => exact hentry

theorem toHost_writeGlobal_of_not_intercepts (call : Call) (h : ¬ m.Intercepts name) :
    (writeGlobal call name value).toHost contexts m =
      (.ok (),
        m.setTable Machine.globals ((m.table Machine.globals).set (.string name) value)) :=
  Eval.toHost_of_ok (start_writeGlobal_of_not_intercepts call h)

end EventBridge.Script
