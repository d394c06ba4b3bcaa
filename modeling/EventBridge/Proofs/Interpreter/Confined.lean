import EventBridge.Proofs.Discipline.Dispatcher
import EventBridge.Proofs.Script.Confined

/-! # The host keeps to given handles

  Started in an interpreter whose machine and stack are among `S`, a computation of the host leaves
  it so if it keeps to the discipline `Script.handles S contexts`. It leaves the contexts alone, and
  what its script code asks is about values among `S` and is answered by those contexts.

  Two computations of a dispatch are not of this kind, since they change the contexts:
  `Host.enter` and `Host.leave`.
-/

namespace EventBridge

open Script (AllAmong Contexts)
open Script.Discipline (anything)

variable {S : Handle → Prop} {contexts : Contexts} {i i' : Interpreter} {α : Type}

namespace Interpreter

/-- An interpreter with given contexts, whose handles are all among `S`. -/
structure Among (S : Handle → Prop) (contexts : Contexts) (i : Interpreter) : Prop where
  contexts : i.contexts = contexts
  machine : i.machine.Among S
  stack : AllAmong S i.stack

/-- Every interpreter is among all handles, under the contexts that it has. -/
theorem among_true (i : Interpreter) : i.Among (fun _ => True) i.contexts :=
  ⟨rfl, i.machine.among_true, Script.allAmong_true i.stack⟩

/-- An interpreter among `S` whose script has asked more at most, and only about `S`. -/
structure Follows (S : Handle → Prop) (contexts : Contexts) (i i' : Interpreter) : Prop where
  among : i'.Among S contexts
  machine : i.machine.Follows S contexts i'.machine

/-- Where the machine stays, it is enough that the stack is among `S`. -/
theorem Among.follows (h : i.Among S contexts) (hcontexts : i'.contexts = i.contexts)
    (hmachine : i'.machine = i.machine) (hstack : AllAmong S i'.stack) :
    i.Follows S contexts i' where
  among := ⟨hcontexts.trans h.contexts, hmachine ▸ h.machine, hstack⟩
  machine := by
    rw [hmachine]
    exact h.machine.follows

theorem Among.holds (h : i.Among S contexts) :
    i.Holds (Script.handles S contexts) i.machine.questions.toList :=
  ⟨h.contexts, ⟨h.machine, rfl⟩, h.stack⟩

theorem Holds.follows {asked : List Script.Question}
    (hasks : Script.Asks S contexts i.machine.questions.toList asked)
    (h : i'.Holds (Script.handles S contexts) asked) : i.Follows S contexts i' := by
  obtain ⟨hcontexts, ⟨hamong, rfl⟩, hstack⟩ := h
  exact ⟨⟨hcontexts, hamong, hstack⟩, hamong, hasks⟩

/-- A script that is evaluated beside the stack. -/
theorem Among.follows_evaluate (h : i.Among S contexts) (source : List UInt8) :
    i.Follows S contexts (i.evaluate source).2 := by
  obtain ⟨asked, hasks, hafter, -⟩ := holds_evaluate h.holds source
  exact hafter.follows hasks

end Interpreter

namespace Host

/-- What a computation does when it is started in one interpreter. -/
structure ConfinedAt (S : Handle → Prop) (contexts : Contexts) (ok : α → Prop)
    (computation : Host α) (i : Interpreter) : Prop where
  follows : i.Follows S contexts (exec computation i).2
  result : ∀ a, (exec computation i).1 = .ok a → ok a

/-- What a computation does in every interpreter among `S`. -/
def Confined (S : Handle → Prop) (contexts : Contexts) (ok : α → Prop) (computation : Host α) :
    Prop := ∀ i, i.Among S contexts → ConfinedAt S contexts ok computation i

/-- A computation that keeps to the handles of a script is confined. -/
theorem Confined.of_keeps {computation : Host α}
    (h : ∀ asked, Keeps (Script.handles S contexts) asked anything computation) :
    Confined S contexts (fun _ => True) computation := by
  intro i hi
  obtain ⟨asked, hasks, hafter, -⟩ := (h _).at hi.holds
  exact ⟨hafter.follows hasks, fun _ _ => trivial⟩

/-- What was reported, and that it is taken, has nothing to do with handles. -/
theorem Confined.run {ok : α → Prop} {computation : Host α}
    (h : Confined S contexts ok computation) (hi : i.Among S contexts) :
    i.Follows S contexts (i.run computation).2.1 := by
  obtain ⟨⟨⟨hcontexts, hmachine, hstack⟩, hfollows⟩, -⟩ :=
    h { i with lines := [] } ⟨hi.contexts, hi.machine, hi.stack⟩
  rw [run_interpreter]
  exact ⟨⟨hcontexts, hmachine, hstack⟩, hfollows⟩

end Host

end EventBridge
