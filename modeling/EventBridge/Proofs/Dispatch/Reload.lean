import EventBridge.Dispatch.Shared
import EventBridge.Proofs.Renumbering.Dispatcher

/-! # Reading a script again

  To read a script again either puts a new dispatcher into use or changes nothing but the number
  that the next table of contexts takes. The numbers of tables do not show, so in neither case can
  it be told from what is seen later that there was something before.

  * A `Shared.Step` is one of the things that are done with the dispatcher in use, a `Sight` what is
    seen of it, and `Dispatcher.view` what can be looked at afterwards.
  * `Shared.Alike` holds between dispatchers in use that differ in numbers of tables only.
    `Alike.step` says that a step shows the same of both and keeps them alike, whatever the step is;
    `Alike.indistinct` has that for any number of steps.
-/

namespace EventBridge.Dispatch

open Log (Line)
open Script (Native Refusal Snapshot)

/-! ### What is seen -/

/-- What can be looked at in a dispatcher. Values are looked at down to a depth of tables. -/
structure Dispatcher.View where
  globals : Nat → Snapshot
  stack : Nat → List Snapshot
  /-- What the script has noted. -/
  records : Array (List Snapshot)
  /-- What the script has asked, and the replies. -/
  replies : Array (Native × Except Refusal (List Script.Value))
  /-- How many contexts handles reach. -/
  live : Nat
  limits : Limits
  policy : ErrorPolicy

/-- Looks at a dispatcher. -/
def Dispatcher.view (d : Dispatcher) : View :=
  let m := d.interpreter.machine
  { globals := fun depth => m.snapshot depth (.table Script.Machine.globals)
    stack := fun depth => d.interpreter.stack.map (m.snapshot depth)
    records := m.records
    replies := m.questions.map fun question => (question.native, question.reply)
    live := d.interpreter.live
    limits := d.interpreter.limits
    policy := d.policy }

/-- The numbers of tables of contexts do not show. -/
theorem Dispatcher.view_renumber (σ : Renumbering) (d : Dispatcher) :
    (d.renumber σ).view = d.view := by
  have hglobals : (fun depth => (d.renumber σ).interpreter.machine.snapshot depth
        (.table Script.Machine.globals)) =
      fun depth => d.interpreter.machine.snapshot depth (.table Script.Machine.globals) :=
    funext fun depth => d.interpreter.machine.snapshot_renumber depth (.table 0)
  have hstack : (fun depth => (d.renumber σ).interpreter.stack.map
        ((d.renumber σ).interpreter.machine.snapshot depth)) =
      fun depth => d.interpreter.stack.map (d.interpreter.machine.snapshot depth) :=
    funext fun depth => d.interpreter.machine.snapshots_renumber depth d.interpreter.stack
  have hreplies : (d.renumber σ).interpreter.machine.questions.map
        (fun question => (question.native, question.reply)) =
      d.interpreter.machine.questions.map fun question => (question.native, question.reply) := by
    show (d.interpreter.machine.questions.map (Script.Question.renumber σ)).map _ = _
    rw [Array.map_map]
    rfl
  have hlive : (d.renumber σ).interpreter.live = d.interpreter.live := by
    have hcontexts : (d.renumber σ).interpreter.contexts =
        Script.Contexts.renumber σ d.interpreter.contexts := rfl
    unfold Interpreter.live
    rw [hcontexts]
    cases d.interpreter.contexts <;> rfl
  unfold view
  dsimp only
  rw [hglobals, hstack, hreplies, hlive]
  rfl

namespace Shared

/-- What is done with the dispatcher in use. -/
inductive Step where
  | dispatch (occurrence : Occurrence)
  /-- A script is run beside the stack. -/
  | evaluate (source : List UInt8)
  /-- The script is read again, with the settings and the files of that moment. -/
  | reload (scripting : Config.Scripting) (tree : FileTree)

/-- What a step shows. -/
inductive Sight where
  | dispatched (result : Except BridgeError Outcome) (lines : List Line)
  /-- The results of a script, looked at down to a depth of tables. -/
  | evaluated (result : Except Script.Fault (Nat → List Snapshot))
  | reloaded (result : Except BridgeError Unit) (lines : List Line)

/-- What a step shows, and the dispatcher in use after it. -/
def step (shared : Shared) : Step → Sight × Shared
  | .dispatch occurrence =>
    let (result, after, lines) := shared.dispatch occurrence
    (.dispatched result lines, after)
  | .evaluate source =>
    let (result, i) := shared.dispatcher.interpreter.evaluate source
    (.evaluated (result.map fun values depth => values.map (i.machine.snapshot depth)),
      { shared with dispatcher := { shared.dispatcher with interpreter := i } })
  | .reload scripting tree =>
    let (result, after, lines) := shared.reload scripting tree
    (.reloaded result lines, after)

/-- What is seen of some steps, and of the dispatcher in use after each of them. -/
def seen (shared : Shared) : List Step → List (Sight × Dispatcher.View)
  | [] => []
  | step :: steps =>
    let (sight, after) := shared.step step
    (sight, after.dispatcher.view) :: seen after steps

/-- Whatever is done with them, the same is seen. -/
def Indistinct (shared shared' : Shared) : Prop := ∀ steps, shared.seen steps = shared'.seen steps

/-! ### What is alike -/

/-- They differ in the numbers of tables at most. -/
def Alike (shared shared' : Shared) : Prop :=
  ∃ σ, shared'.dispatcher = shared.dispatcher.renumber σ

variable {shared shared' : Shared}

theorem Alike.of_dispatcher_eq (h : shared'.dispatcher = shared.dispatcher) :
    shared.Alike shared' :=
  ⟨.unchanged, by rw [h, Dispatcher.renumber_unchanged]⟩

theorem Alike.view (h : shared.Alike shared') :
    shared'.dispatcher.view = shared.dispatcher.view := by
  obtain ⟨σ, hσ⟩ := h
  rw [hσ, Dispatcher.view_renumber]

theorem Alike.dispatch (h : shared.Alike shared') (occurrence : Occurrence) :
    ∃ after, (shared.dispatch occurrence).2.1.Alike after ∧
      shared'.dispatch occurrence =
        ((shared.dispatch occurrence).1, after, (shared.dispatch occurrence).2.2) := by
  obtain ⟨σ, hσ⟩ := h
  refine ⟨⟨(shared.dispatcher.dispatch occurrence).2.1.renumber σ, shared'.nextTable⟩,
    ⟨σ, rfl⟩, ?_⟩
  unfold Shared.dispatch
  rw [hσ, Dispatcher.dispatch_renumber]

/-- With one number a dispatcher is built exactly if it is built with another, and then the two
    differ in that. -/
theorem build_alike (scripting : Config.Scripting) (source : Source) (n n' : Nat) :
    ∃ σ, Dispatcher.build scripting source n' =
      ((Dispatcher.build scripting source n).1.map (Dispatcher.renumber σ),
        (Dispatcher.build scripting source n).2) := by
  refine ⟨.swap n n', ?_⟩
  rw [← Dispatcher.build_renumber, Renumbering.swap_left]

/-- What comes of reading a script again does not depend on the dispatcher in use. -/
theorem Alike.reload (h : shared.Alike shared') (scripting : Config.Scripting) (tree : FileTree) :
    ∃ after, (shared.reload scripting tree).2.1.Alike after ∧
      shared'.reload scripting tree =
        ((shared.reload scripting tree).1, after, (shared.reload scripting tree).2.2) := by
  obtain ⟨σ, hbuild⟩ := build_alike scripting (.file tree) shared.nextTable shared'.nextTable
  unfold Shared.reload renew
  rw [hbuild]
  rcases Dispatcher.build scripting (.file tree) shared.nextTable with ⟨e | d, lines⟩
  · exact ⟨{ shared' with nextTable := shared'.nextTable + 1 }, h, rfl⟩
  · exact ⟨⟨d.renumber σ, shared'.nextTable + 1⟩, ⟨σ, rfl⟩, rfl⟩

/-- What a script gives beside the stack looks the same down to every depth. -/
theorem Alike.evaluate (h : shared.Alike shared') (source : List UInt8) :
    (shared'.step (.evaluate source)).1 = (shared.step (.evaluate source)).1 ∧
      (shared.step (.evaluate source)).2.Alike (shared'.step (.evaluate source)).2 := by
  obtain ⟨σ, hσ⟩ := h
  have hevaluate : shared'.dispatcher.interpreter.evaluate source =
      ((shared.dispatcher.interpreter.evaluate source).1.map
          (List.map (Script.Value.renumber σ)),
        (shared.dispatcher.interpreter.evaluate source).2.renumber σ) := by
    rw [hσ]
    exact shared.dispatcher.interpreter.evaluate_renumber source
  have hpolicy : shared'.dispatcher.policy = shared.dispatcher.policy := by
    rw [hσ]
    rfl
  unfold step
  dsimp only
  rw [hevaluate, hpolicy]
  rcases shared.dispatcher.interpreter.evaluate source with ⟨fault | values, i⟩
  · exact ⟨rfl, σ, rfl⟩
  · refine ⟨?_, σ, rfl⟩
    exact congrArg (fun values => Sight.evaluated (.ok values))
      (funext fun depth => i.machine.snapshots_renumber depth values)

/-- A step shows the same of both, and they stay alike. -/
theorem Alike.step (h : shared.Alike shared') (step : Step) :
    (shared'.step step).1 = (shared.step step).1 ∧
      (shared.step step).2.Alike (shared'.step step).2 := by
  cases step with
  | dispatch occurrence =>
    obtain ⟨after, hafter, hdispatch⟩ := h.dispatch occurrence
    unfold Shared.step
    dsimp only
    rw [hdispatch]
    generalize shared.dispatch occurrence = dispatched at hafter ⊢
    exact ⟨rfl, hafter⟩
  | evaluate source => exact h.evaluate source
  | reload scripting tree =>
    obtain ⟨after, hafter, hreload⟩ := h.reload scripting tree
    unfold Shared.step
    dsimp only
    rw [hreload]
    generalize shared.reload scripting tree = reloaded at hafter ⊢
    exact ⟨rfl, hafter⟩

/-- So the same is seen of both. -/
theorem Alike.indistinct (h : shared.Alike shared') : shared.Indistinct shared' := by
  intro steps
  induction steps generalizing shared shared' with
  | nil => rfl
  | cons step steps ih =>
    obtain ⟨hsight, hafter⟩ := h.step step
    unfold seen
    dsimp only
    rw [hsight, hafter.view, ih hafter]

/-! ### What reading a script again comes to -/

variable {scripting : Config.Scripting} {tree : FileTree} {n : Nat}

/-- Where no dispatcher can be built, the one in use stays. -/
theorem reload_of_error (shared : Shared) {e : BridgeError}
    (h : (Dispatcher.build scripting (.file tree) n).1 = .error e) :
    (shared.reload scripting tree).1 = .error e ∧
      (shared.reload scripting tree).2.1.dispatcher = shared.dispatcher := by
  obtain ⟨σ, hbuild⟩ := build_alike scripting (.file tree) n shared.nextTable
  unfold Shared.reload renew
  rw [hbuild, h]
  exact ⟨rfl, rfl⟩

/-- Where one can be built, one like it is in use, whatever was in use before. -/
theorem reload_of_ok (shared : Shared) {fresh : Dispatcher}
    (h : (Dispatcher.build scripting (.file tree) n).1 = .ok fresh) :
    (shared.reload scripting tree).1 = .ok () ∧
      ∀ next, Alike ⟨fresh, next⟩ (shared.reload scripting tree).2.1 := by
  obtain ⟨σ, hbuild⟩ := build_alike scripting (.file tree) n shared.nextTable
  unfold Shared.reload renew
  rw [hbuild, h]
  exact ⟨rfl, fun next => ⟨σ, rfl⟩⟩

end Shared

end EventBridge.Dispatch
