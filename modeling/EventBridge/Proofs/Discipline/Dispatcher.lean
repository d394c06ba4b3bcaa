import EventBridge.Proofs.Discipline.Host
import EventBridge.Proofs.Dispatch.Exec
import EventBridge.Proofs.Interpreter.StackMachine

/-! # A dispatcher keeps to a discipline

  All that is done with an interpreter from outside keeps to a discipline that is not about the
  contexts: preparing it, running scripts, operations on the stack, and dispatching.

  `Activity` has the things that can be done, and `Interpreter.after` what is left of several done
  one after the other, also behind one that fails. `holds_after` is the run lemma.
-/

namespace EventBridge

open Script (Discipline)
open Script.Discipline (anything)

variable {D : Discipline} {w w' : D.World}

/-- A discipline that is not about the contexts: any are admitted, and every handle is allowed. -/
structure Script.Discipline.AnyContexts (D : Discipline) : Prop where
  admits : ∀ contexts, D.Admits contexts
  handles : ∀ w id handle, D.Allows w (.handle id handle)

namespace Dispatch

open Host (Keeps)

/-! ### Loading -/

theorem keeps_bindResult (returned : Nat) : Keeps D w anything (bindResult returned) := by
  unfold bindResult
  split
  · exact .done
  · refine (Host.keeps_pop _).bind fun _ _ _ _ => ?_
    refine (Host.keeps_peek _).bind fun _ _ value _ => ?_
    split
    · exact (Host.keeps_setGlobal _).bind fun _ _ _ _ => Host.keeps_report _
    · exact Host.keeps_pop _

theorem keeps_load (scripting : Config.Scripting) (source : Source) :
    Keeps D w anything (source.load scripting) := by
  cases source with
  | file tree => exact Host.keeps_loadModule tree scripting.script
  | text source => exact Host.keeps_loadSource source

theorem keeps_prepare (namespaceName : String) {load : Host Nat} (hload : Keeps D w anything load) :
    Keeps D w anything (prepare namespaceName load) :=
  (Host.keeps_register _ _).bind fun _ h₁ _ _ => (hload.later h₁).bind fun _ _ returned _ =>
    keeps_bindResult returned

/-! ### Handlers -/

theorem keeps_lookFurther (name : String) (found : Bool) :
    Keeps D w anything (lookFurther name found) := by
  unfold lookFurther
  split
  · exact .done
  · refine (Host.keeps_pop _).bind fun _ _ _ _ => ?_
    refine (Host.keeps_getGlobal _).bind fun _ _ _ _ => ?_
    refine (Host.keeps_isNil _).bind fun _ _ missing _ => ?_
    split
    · exact (Host.keeps_pop _).bind fun _ _ _ _ => .done
    · exact .done

theorem keeps_pushHandler (name : String) : Keeps D w anything (pushHandler name) := by
  refine (Host.keeps_getGlobal _).bind fun _ _ _ _ => ?_
  refine (Host.keeps_peek _).bind fun _ _ value _ => ?_
  cases value with
  | table id =>
    refine (Host.keeps_getField _ _).bind fun w₁ _ _ _ => ?_
    have hremove : Keeps D w₁ anything (discard (Host.remove (-2))) :=
      (Host.keeps_remove _).bind fun _ _ _ _ => .done
    refine hremove.bind fun _ _ _ _ => ?_
    exact (Host.keeps_isNil _).bind fun _ _ missing _ => keeps_lookFurther name !missing
  | _ => exact keeps_lookFurther name false

theorem keeps_checkArguments (occurrence : Occurrence) :
    Keeps D w anything (checkArguments occurrence) := by
  unfold checkArguments
  split
  · exact .done
  · exact .done
  · split
    · exact .done
    · exact .done
    · exact Host.keeps_checkBytes _
    · exact Host.keeps_checkBytes _
    · exact (Host.keeps_checkHeaders _).bind fun _ _ _ _ => Host.keeps_checkBytes _
    · exact (Host.keeps_checkHeaders _).bind fun _ _ _ _ => Host.keeps_checkBytes _

theorem keeps_pushMessage (headers : Http.Headers) (body : ByteArray) :
    Keeps D w anything (pushMessage headers body) := by
  refine (Host.keeps_pushTable (fun _ => Host.holds_headerTable headers) rfl).bind
    fun w₁ _ _ _ => ?_
  exact (Host.keeps_push (D.allows_string w₁ body)).bind fun _ _ _ _ => .done

theorem keeps_pushArguments (occurrence : Occurrence) :
    Keeps D w anything (pushArguments occurrence) := by
  have hpayload : ∀ payload,
      Keeps D w anything (do Host.push (.string payload); return 1 : Host Nat) := fun payload =>
    (Host.keeps_push (D.allows_string w payload)).bind fun _ _ _ _ => .done
  unfold pushArguments
  split
  · exact (Host.keeps_pushText _).bind fun _ _ _ _ =>
      (Host.keeps_pushText _).bind fun _ _ _ _ => .done
  · exact (Host.keeps_pushText _).bind fun _ _ _ _ => .done
  · split
    · exact .done
    · exact .done
    · exact hpayload _
    · exact hpayload _
    · exact (Host.keeps_pushText _).bind fun _ _ _ _ =>
        (Host.keeps_pushText _).bind fun _ _ _ _ => keeps_pushMessage _ _
    · exact (Host.keeps_pushInteger _).bind fun _ _ _ _ =>
        (Host.keeps_pushText _).bind fun _ _ _ _ => keeps_pushMessage _ _

theorem keeps_callHandler (name : String) (arguments : Nat) :
    Keeps D w anything (callHandler name arguments) := by
  refine (Host.keeps_report _).bind fun _ _ _ _ => ?_
  refine (Host.keeps_call _ _).attempt.bind fun w₁ _ result hresult => ?_
  split
  · exact .throw hresult
  · exact .deliver hresult

theorem keeps_attend (occurrence : Occurrence) {handle : Handle}
    (hhandle : ∀ id, D.Allows w (.handle id handle)) :
    Keeps D w anything (attend occurrence handle) :=
  (keeps_checkArguments occurrence).bind fun _ h₁ _ _ =>
    (Host.keeps_pushHandle fun id => D.later h₁ (hhandle id)).bind fun _ _ _ _ =>
      (keeps_pushArguments occurrence).bind fun _ _ _ _ => keeps_callHandler _ _

section Contexts

variable (hD : D.AnyContexts)

include hD

theorem keeps_handling (occurrence : Occurrence) : Keeps D w anything (handling occurrence) := by
  unfold handling
  cases occurrence.live? with
  | some live =>
    exact Host.keeps_during hD.admits live fun handle =>
      keeps_attend occurrence fun id => hD.handles w id handle
  | none => exact (keeps_pushArguments occurrence).bind fun _ _ _ _ => keeps_callHandler _ _

theorem keeps_invoke (occurrence : Occurrence) : Keeps D w anything (invoke occurrence) := by
  intro w₁ _ i hi
  obtain ⟨w₂, h₂, hlooked, hfound⟩ := (keeps_pushHandler occurrence.handler).at hi
  -- The look-up fails, finds nothing, or finds a handler that is called.
  have hexec := exec_invoke occurrence i
  cases hlook : Host.exec (pushHandler occurrence.handler) i with
  | mk result i₁ =>
    rw [hlook] at hlooked hfound hexec
    cases result with
    | error e => exact .of_exec hexec h₂ hlooked hfound
    | ok found =>
      cases found with
      | false => exact .of_exec hexec h₂ ⟨hlooked.contexts, hlooked.machine, hlooked.stack⟩ trivial
      | true =>
        obtain ⟨w₃, h₃, hhandled, hresult⟩ := (keeps_handling hD occurrence).at hlooked
        refine .of_exec hexec (D.trans h₂ h₃) hhandled ?_
        cases hend : (Host.exec (handling occurrence) i₁).1 with
        | ok done => trivial
        | error e =>
          rw [hend] at hresult
          exact hresult

theorem keeps_dispatching (policy : ErrorPolicy) (occurrence : Occurrence) :
    Keeps D w anything (dispatching policy occurrence) := by
  refine Host.keeps_depth.bind fun _ _ base _ => ?_
  refine (keeps_invoke hD occurrence).attempt.bind fun w₂ _ result hresult => ?_
  refine (Host.keeps_truncate base).bind fun w₃ h₃ _ _ => ?_
  cases result with
  | ok outcome => exact .done
  | error e =>
    unfold settle
    dsimp only
    split
    · exact (Host.keeps_report _).bind fun _ _ _ _ => .done
    · exact .throw (Script.Discipline.AllowsError.later hresult h₃)

end Contexts

end Dispatch

/-! ### Operations on the stack -/

theorem Host.Keeps.answer {α : Type} {ok : D.World → α → Prop} {computation : Host α}
    (h : Host.Keeps D w ok computation) (reply : α → Host.Reply) :
    Host.Keeps D w anything (do return reply (← computation)) := h.bind fun _ _ _ _ => .done

/-- An operation keeps to a discipline if the value that the host brings along is allowed. -/
theorem Host.keeps_operation (hD : D.AnyContexts) (op : Host.Operation)
    (hop : ∀ value, op = .push value → D.Allows w value) : Host.Keeps D w anything op.run := by
  cases op with
  | pushNil => exact Host.keeps_pushNil.bind fun _ _ _ _ => .done
  | pushInteger n => exact (Host.keeps_pushInteger n).bind fun _ _ _ _ => .done
  | pushText text => exact (Host.keeps_pushText text).bind fun _ _ _ _ => .done
  | pushBytes bytes => exact (Host.keeps_pushBytes bytes).bind fun _ _ _ _ => .done
  | pushHeaders headers => exact (Host.keeps_pushHeaders headers).bind fun _ _ _ _ => .done
  | pushHandle handle =>
    exact (Host.keeps_pushHandle fun id => hD.handles w id handle).bind fun _ _ _ _ => .done
  | push value => exact (Host.keeps_push (hop value rfl)).bind fun _ _ _ _ => .done
  | pop count => exact (Host.keeps_pop count).bind fun _ _ _ _ => .done
  | popValue => exact Host.keeps_popValue.answer _
  | truncate count => exact (Host.keeps_truncate count).bind fun _ _ _ _ => .done
  | depth => exact Host.keeps_depth.answer _
  | peek index => exact (Host.keeps_peek index).answer _
  | isNil index => exact (Host.keeps_isNil index).answer _
  | remove index => exact (Host.keeps_remove index).answer _
  | getField index name => exact (Host.keeps_getField index name).bind fun _ _ _ _ => .done
  | getGlobal name => exact (Host.keeps_getGlobal name).bind fun _ _ _ _ => .done
  | setGlobal name => exact (Host.keeps_setGlobal name).bind fun _ _ _ _ => .done
  | call arguments results => exact (Host.keeps_call arguments results).bind fun _ _ _ _ => .done

namespace Interpreter

/-! ### Activities -/

/-- Something that is done with an interpreter from outside. -/
inductive Activity where
  | register (namespaceName : String) (natives : List NativeEntry)
  | loadSource (source : List UInt8)
  | loadModule (tree : FileTree) (path : String)
  /-- Runs a script beside the stack. -/
  | evaluate (source : List UInt8)
  | operate (op : Host.Operation)
  | dispatch (policy : ErrorPolicy) (occurrence : Dispatch.Occurrence)

namespace Activity

/-- What is left of an interpreter. -/
def perform (i : Interpreter) : Activity → Interpreter
  | register namespaceName natives => (Host.exec (Host.register namespaceName natives) i).2
  | loadSource source => (Host.exec (Host.loadSource source) i).2
  | loadModule tree path => (Host.exec (Host.loadModule tree path) i).2
  | evaluate source => (i.evaluate source).2
  | operate op => (Host.exec op.run i).2
  | dispatch policy occurrence => (Host.exec (Dispatch.dispatching policy occurrence) i).2

/-- The host has no objects of a script but those that the script gives it. -/
def Fair (activity : Activity) : Prop :=
  ∀ value, activity = .operate (.push value) → value.Plain

end Activity

/-- What is left after several things are done. -/
def after (i : Interpreter) (activities : List Activity) : Interpreter :=
  activities.foldl Activity.perform i

theorem holds_evaluate {i : Interpreter} (hi : i.Holds D w) (source : List UInt8) :
    ∃ w', D.Later w w' ∧ (i.evaluate source).2.Holds D w' ∧
      D.Shows w' D.AllowsAll (i.evaluate source).1 := by
  unfold evaluate
  cases Script.parse source with
  | none => exact ⟨w, D.refl w, hi, trivial⟩
  | some block =>
    obtain ⟨w', hw, hsound, hshows⟩ :=
      D.keeps_toHost (D.keeps_runBlock block) hi.contexts hi.machine
    exact ⟨w', hw, ⟨hi.contexts, hsound, hi.stack.later hw⟩, hshows⟩

/-- One activity leaves an interpreter in which the discipline is kept. -/
theorem holds_perform (hD : D.AnyContexts) {i : Interpreter} (hi : i.Holds D w)
    {activity : Activity} (hfair : activity.Fair) :
    ∃ w', D.Later w w' ∧ (activity.perform i).Holds D w' := by
  have hleaves : ∀ {α : Type} {computation : Host α}, Host.Keeps D w anything computation →
      ∃ w', D.Later w w' ∧ (Host.exec computation i).2.Holds D w' := fun h =>
    let ⟨w', hw, hi', _⟩ := h.at hi
    ⟨w', hw, hi'⟩
  cases activity with
  | register namespaceName natives => exact hleaves (Host.keeps_register namespaceName natives)
  | loadSource source => exact hleaves (Host.keeps_loadSource source)
  | loadModule tree path => exact hleaves (Host.keeps_loadModule tree path)
  | evaluate source =>
    obtain ⟨w', hw, hi', -⟩ := holds_evaluate hi source
    exact ⟨w', hw, hi'⟩
  | operate op =>
    refine hleaves (Host.keeps_operation hD op fun value heq => ?_)
    exact D.plain w (hfair value (congrArg Activity.operate heq))
  | dispatch policy occurrence => exact hleaves (Dispatch.keeps_dispatching hD policy occurrence)

/-- So does one activity after the other. -/
theorem holds_after (hD : D.AnyContexts) {i : Interpreter} (hi : i.Holds D w)
    {activities : List Activity} (hfair : ∀ activity ∈ activities, activity.Fair) :
    ∃ w', D.Later w w' ∧ (i.after activities).Holds D w' := by
  -- Each activity leaves another interpreter, and possibly another time, to go on from.
  induction activities generalizing i w with
  | nil => exact ⟨w, D.refl w, hi⟩
  | cons activity rest ih =>
    obtain ⟨w₁, h₁, hi₁⟩ := holds_perform hD hi (hfair activity List.mem_cons_self)
    obtain ⟨w₂, h₂, hi₂⟩ := ih hi₁ fun other hmem => hfair other (List.mem_cons_of_mem _ hmem)
    exact ⟨w₂, D.trans h₁ h₂, hi₂⟩

end Interpreter

end EventBridge
