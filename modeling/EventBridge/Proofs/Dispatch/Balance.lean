import EventBridge.Proofs.Dispatch.Exec
import EventBridge.Proofs.Handle.Laws
import EventBridge.Proofs.Interpreter.Above

/-! # Dispatches leave no trace

  A dispatch puts the handler and its arguments on the stack and a context into the table of
  contexts, and can end at many points between. However it ends, the stack is the one that it found,
  and every handle stands for what it stood for before.

  * `above_pushHandler` and `above_attend` say what the parts of a dispatch leave on top of the
    stack that it found; none of them touches that stack.
  * `Dispatcher.Unmarked` is what is shown of a dispatch, and of any number of them.
-/

namespace EventBridge.Dispatch

open Engine (Live)
open Host (Above exec)
open Script (Value)

variable {base extra : List Value}

/-! ### The parts of a dispatch -/

/-- A value that is not the handler gives way to the global one, if there is that. -/
theorem above_lookFurther (name : String) (found : Bool) (value : Value) :
    Above base [value] (lookFurther name found) fun found extra' =>
      extra'.length = found.toNat := by
  unfold lookFurther
  split
  · exact .pure rfl
  · refine (Above.pop [] value).andThen fun _ => ?_
    refine (Above.getGlobal name).bind fun _ extra' h => ?_
    obtain ⟨handler, rfl⟩ := h
    refine (Above.isNil [] handler).andThen fun missing => ?_
    split
    · exact (Above.pop [] handler).andThen fun _ => .pure rfl
    · exact .pure rfl

/-- A look-up leaves the handler on the stack if it finds one, and nothing otherwise. -/
theorem above_pushHandler (name : String) :
    Above base [] (pushHandler name) fun found extra' => extra'.length = found.toNat := by
  refine (Above.getGlobal _).bind fun _ extra' h => ?_
  obtain ⟨config, rfl⟩ := h
  refine (Above.peek [] config).bind fun value extra' h => ?_
  obtain ⟨rfl, rfl⟩ := h
  cases value with
  | table id =>
    refine (Above.getField [] _ name).bind fun _ extra' h => ?_
    obtain ⟨handler, rfl⟩ := h
    -- The handler stays, and the table it was found in goes from below it.
    have hremove : Above base [.table id, handler] (discard (Host.remove (-2)))
        fun _ extra' => extra' = [handler] :=
      (Above.remove [] _ handler).andThen fun _ => .pure rfl
    exact hremove.andThen fun _ => (Above.isNil [] handler).andThen fun missing =>
      above_lookFurther name (!missing) handler
  | _ => exact above_lookFurther name false _

theorem above_checkMessage (headers : Http.Headers) (body : ByteArray) :
    Above base extra (checkMessage headers body) fun _ extra' => extra' = extra :=
  (Above.checkHeaders headers).andThen fun _ => .checkBytes body

theorem above_checkArguments (occurrence : Occurrence) :
    Above base extra (checkArguments occurrence) fun _ extra' => extra' = extra := by
  unfold checkArguments
  split
  · exact .pure rfl
  · exact .pure rfl
  · split
    · exact .pure rfl
    · exact .pure rfl
    · exact .checkBytes _
    · exact .checkBytes _
    · exact above_checkMessage _ _
    · exact above_checkMessage _ _

/-- What a message carries stands last of the four arguments. -/
theorem above_pushMessage (headers : Http.Headers) (body : ByteArray) (first second : Value) :
    Above base (extra ++ [first] ++ [second]) (pushMessage headers body) fun arguments extra' =>
      extra'.length = extra.length + arguments ∧ arguments ≤ 4 := by
  refine (Above.pushTable _).bind fun _ _ h => ?_
  obtain ⟨fields, rfl⟩ := h
  exact (Above.push _).andThen fun _ => .pure (by simp)

/-- As many arguments are put on the stack as are counted. -/
theorem above_pushArguments (occurrence : Occurrence) :
    Above base extra (pushArguments occurrence) fun arguments extra' =>
      extra'.length = extra.length + arguments ∧ arguments ≤ 4 := by
  unfold pushArguments
  split
  · exact (Above.push _).andThen fun _ => (Above.push _).andThen fun _ => .pure (by simp)
  · exact (Above.push _).andThen fun _ => .pure (by simp)
  · split
    · exact .pure (by simp)
    · exact .pure (by simp)
    · exact (Above.push _).andThen fun _ => .pure (by simp)
    · exact (Above.push _).andThen fun _ => .pure (by simp)
    · exact (Above.push _).andThen fun _ => (Above.push _).andThen fun _ =>
        above_pushMessage _ _ _ _
    · exact (Above.push _).andThen fun _ => (Above.push _).andThen fun _ =>
        above_pushMessage _ _ _ _

/-- A handler and its arguments are gone when the call is over, also if it failed. -/
theorem above_callHandler (name : String) {arguments : Nat}
    (hlength : extra.length = arguments + 1) (hsmall : arguments ≤ 5) :
    Above base extra (callHandler name arguments) fun _ extra' => extra' = [] := by
  refine (Above.report _).andThen fun _ => ?_
  have hfar : arguments + 1 < UInt64.size :=
    Nat.lt_of_le_of_lt (Nat.succ_le_succ hsmall) (by decide)
  refine (Above.call hlength hfar).attempt.bind fun result extra' h => ?_
  split
  · exact .throw _
  · exact .deliver h

theorem above_attend (occurrence : Occurrence) (handle : Handle) (handler : Value) :
    Above base [handler] (attend occurrence handle) fun _ extra' => extra' = [] := by
  refine (above_checkArguments occurrence).andThen fun _ => ?_
  refine (Above.pushHandle handle).bind fun _ extra' h => ?_
  obtain ⟨value, rfl⟩ := h
  refine (above_pushArguments occurrence).bind fun arguments extra' h => ?_
  obtain ⟨hlength, hsmall⟩ := h
  refine above_callHandler _ ?_ (by omega)
  rw [hlength]
  simp only [List.length_append, List.length_singleton]
  omega

/-! ### A whole dispatch -/

/-- What is the same outside of a dispatch, before it and after it. -/
structure Dispatcher.Unmarked (d d' : Dispatcher) : Prop where
  /-- The same values in the same order. -/
  stack : d'.interpreter.stack = d.interpreter.stack
  /-- The same handles work, and stand for the same. -/
  resolves : ∀ (handle : Handle) (live : Live),
    (∃ table, d'.interpreter.contexts = some table ∧ table.resolve handle = .ok live) ↔
      ∃ table, d.interpreter.contexts = some table ∧ table.resolve handle = .ok live
  /-- As many contexts are live. -/
  live : d'.interpreter.live = d.interpreter.live

namespace Dispatcher

theorem Unmarked.refl (d : Dispatcher) : d.Unmarked d := ⟨rfl, fun _ _ => Iff.rfl, rfl⟩

theorem Unmarked.trans {d₁ d₂ d₃ : Dispatcher} (h : d₁.Unmarked d₂) (h' : d₂.Unmarked d₃) :
    d₁.Unmarked d₃ where
  stack := h'.stack.trans h.stack
  resolves := fun handle live => (h'.resolves handle live).trans (h.resolves handle live)
  live := h'.live.trans h.live

end Dispatcher

/-- A table of contexts before a dispatch and after it: nothing was put in, or one context was put
    in and taken out. -/
inductive Reverts : Script.Contexts → Script.Contexts → Prop where
  | same (contexts : Script.Contexts) : Reverts contexts contexts
  | released (table : HandleTable Live) (live : Live) :
    Reverts (some table) (some ((table.insert live).2.release (table.insert live).1).2)

theorem Reverts.resolves {contexts contexts' : Script.Contexts} (h : Reverts contexts contexts')
    (handle : Handle) (live : Live) :
    (∃ table, contexts' = some table ∧ table.resolve handle = .ok live) ↔
      ∃ table, contexts = some table ∧ table.resolve handle = .ok live := by
  cases h with
  | same => rfl
  | released table a =>
    have hiff := table.resolve_release_insert_ok_iff a live handle
    constructor
    · rintro ⟨_, ⟨⟩, hresolve⟩
      exact ⟨table, rfl, hiff.1 hresolve⟩
    · rintro ⟨_, ⟨⟩, hresolve⟩
      exact ⟨_, rfl, hiff.2 hresolve⟩

theorem Reverts.live {i i' : Interpreter} (h : Reverts i.contexts i'.contexts) :
    i'.live = i.live := by
  unfold Interpreter.live
  generalize i.contexts = contexts at h ⊢
  generalize i'.contexts = contexts' at h ⊢
  cases h with
  | same => rfl
  | released table a =>
    have hreleased := HandleTable.live_release_of_resolve_ok (table.resolve_insert a)
    rw [HandleTable.live_insert] at hreleased
    exact Nat.succ.inj hreleased

/-- A call about no context leaves the table of contexts alone. -/
theorem above_handling_of_none {occurrence : Occurrence} (hlive : occurrence.live? = none)
    (handler : Value) :
    Above base [handler] (handling occurrence) fun _ extra' => extra' = [] := by
  unfold handling
  rw [hlive]
  refine (above_pushArguments occurrence).bind fun arguments extra' h => ?_
  obtain ⟨hlength, hsmall⟩ := h
  refine above_callHandler _ ?_ (by omega)
  rw [hlength, List.length_singleton]
  omega

/-- What a handler that is found leads to: the stack is untouched below it, and the table of
    contexts is as before or was used and cleared. -/
theorem handling_cases (occurrence : Occurrence) {i : Interpreter} {handler : Value}
    (hstack : i.stack = base ++ [handler]) :
    base <+: (exec (handling occurrence) i).2.stack ∧
      Reverts i.contexts (exec (handling occurrence) i).2.contexts := by
  cases hlive : occurrence.live? with
  | none =>
    obtain ⟨hcontexts, extra', hafter, -⟩ := above_handling_of_none hlive handler i hstack
    rw [hcontexts]
    exact ⟨⟨extra', hafter.symm⟩, .same _⟩
  | some live =>
    cases hcontexts : i.contexts with
    | none =>
      simp only [handling, hlive]
      rw [Host.exec_during_none live _ hcontexts]
      refine ⟨⟨[handler], hstack.symm⟩, ?_⟩
      rw [hcontexts]
      exact .same _
    | some table =>
      obtain ⟨hcontexts', extra', hafter, -⟩ :=
        above_attend occurrence (table.insert live).1 handler
          { i with contexts := some (table.insert live).2 } hstack
      obtain ⟨lines, hdone⟩ := exec_handling_of_live hlive hcontexts
      rw [hdone, hcontexts']
      exact ⟨⟨extra', hafter.symm⟩, .released table live⟩

/-- However the calls of a dispatch end: the stack is untouched below what they leave, and the
    table of contexts is as before or was used and cleared. -/
theorem invoke_cases (occurrence : Occurrence) (i : Interpreter) :
    i.stack <+: (exec (invoke occurrence) i).2.stack ∧
      Reverts i.contexts (exec (invoke occurrence) i).2.contexts := by
  -- The stack that the dispatch found is the base, with nothing on top of it as yet.
  obtain ⟨hcontexts, extra', hstack, hfound⟩ :=
    above_pushHandler occurrence.handler i (List.append_nil _).symm
  rw [exec_invoke]
  cases hlook : exec (pushHandler occurrence.handler) i with
  | mk result i₁ =>
    rw [hlook] at hcontexts hstack hfound
    rw [← hcontexts]
    cases result with
    | error e => exact ⟨⟨extra', hstack.symm⟩, .same _⟩
    | ok found =>
      cases found with
      | false => exact ⟨⟨extra', hstack.symm⟩, .same _⟩
      | true =>
        obtain ⟨handler, rfl⟩ := List.length_eq_one_iff.1 (hfound true rfl)
        exact handling_cases occurrence hstack

/-- One dispatch leaves no trace. -/
theorem Dispatcher.unmarked_dispatch (d : Dispatcher) (occurrence : Occurrence) :
    d.Unmarked (d.dispatch occurrence).2.1 := by
  obtain ⟨hstack, hcontexts⟩ := invoke_cases occurrence { d.interpreter with lines := [] }
  have hafter := dispatch_interpreter d occurrence
  refine ⟨?_, ?_, ?_⟩
  · rw [hafter]
    exact (List.prefix_iff_eq_take.1 hstack).symm
  · intro handle live
    rw [hafter]
    exact hcontexts.resolves handle live
  · rw [hafter]
    exact hcontexts.live

/-- However many events there are, and however the handlers of each end: the stack is the one from
    before, the handles that work are those from before, and nothing more is live. -/
theorem Dispatcher.dispatches_leave_no_trace (d : Dispatcher) (occurrences : List Occurrence) :
    d.Unmarked (occurrences.foldl (fun d occurrence => (d.dispatch occurrence).2.1) d) := by
  induction occurrences generalizing d with
  | nil => exact .refl d
  | cons occurrence occurrences ih => exact (d.unmarked_dispatch occurrence).trans (ih _)

end EventBridge.Dispatch
