import EventBridge.Proofs.Dispatch.Policy

/-! # What a handler finds out about its context

  Of the questions that a script asks while a handler runs, those about the context that the handler
  was called about are answered by the engine as it was when the event came. What the script has
  asked before, and what it asks during the look-up, is left out: the handle is not made yet.

  * `Dispatcher.inquiries` are these questions, read off the notes that the machine keeps.
  * `Dispatcher.Ready.reply_of_inquiry` has the reply to each of them, and
    `Dispatcher.Ready.questions_dispatch` says that no note is missed.
-/

namespace EventBridge.Dispatch

open Engine (Live)
open Host (exec)
open Script (Native Question)

namespace Dispatcher

/-- The look-up that a dispatch begins with. -/
def lookUp (d : Dispatcher) (occurrence : Occurrence) : Except BridgeError Bool × Interpreter :=
  exec (pushHandler occurrence.handler) { d.interpreter with lines := [] }

/-- The handle that the handler of an occurrence is called with, if there is a handler and the
    occurrence is about a context. -/
def handed? (d : Dispatcher) (occurrence : Occurrence) : Option Handle :=
  match d.lookUp occurrence, occurrence.live? with
  | (.ok true, i), some live => (exec (Host.enter live) i).1.toOption
  | _, _ => none

/-- What the script asks in a dispatch once the look-up is over. -/
def asked (d : Dispatcher) (occurrence : Occurrence) : List Question :=
  (d.dispatch occurrence).2.1.interpreter.machine.questions.toList.drop
    (d.lookUp occurrence).2.machine.questions.size

/-- A question is about what a handle stands for. -/
def isAbout (handle : Handle) (question : Question) : Bool :=
  match question.subject with
  | .handle _ other => other == handle
  | _ => false

/-- What a handler asks about the context that it is called about. -/
def inquiries (d : Dispatcher) (occurrence : Occurrence) : List Question :=
  match d.handed? occurrence with
  | some handle => (d.asked occurrence).filter (isAbout handle)
  | none => []

theorem subject_of_isAbout {handle : Handle} {question : Question}
    (h : isAbout handle question = true) : ∃ id, question.subject = .handle id handle := by
  unfold isAbout at h
  split at h
  · next id other hsubject => exact ⟨id, by rw [hsubject, eq_of_beq h]⟩
  · cases h

variable {d : Dispatcher} {occurrence : Occurrence}

/-- A handler that is found can be given a handle: one to what the occurrence is about. -/
theorem Ready.handed?_of_found (h : d.Ready) {live : Live} {i : Interpreter}
    (hlook : d.lookUp occurrence = (.ok true, i)) (hlive : occurrence.live? = some live) :
    ∃ table, i.contexts = some table ∧ d.handed? occurrence = some (table.insert live).1 := by
  have hcontexts := (above_pushHandler occurrence.handler { d.interpreter with lines := [] }
    (List.append_nil _).symm).1
  rw [← lookUp, hlook] at hcontexts
  obtain ⟨table, htable⟩ := Option.isSome_iff_exists.1 h
  have hi : i.contexts = some table := hcontexts.trans htable
  refine ⟨table, hi, ?_⟩
  simp only [handed?, hlook, hlive, Host.exec_enter_some live hi]
  rfl

/-- What is asked once the look-up is over comes behind what was asked before, and the contexts of
    the call answer it. -/
theorem asked_of_live {live : Live} {i : Interpreter} {table : HandleTable Live}
    (hlook : d.lookUp occurrence = (.ok true, i)) (hlive : occurrence.live? = some live)
    (hcontexts : i.contexts = some table) :
    (d.dispatch occurrence).2.1.interpreter.machine.questions.toList =
        i.machine.questions.toList ++ d.asked occurrence ∧
      ∀ question ∈ d.asked occurrence,
        question.reply =
          question.native.reply (some (table.insert live).2) question.subject := by
  -- All handles are allowed here: what the script holds has no part in the replies.
  have hattend : Host.Confined (fun _ => True) (some (table.insert live).2) (fun _ => True)
      (attend occurrence (table.insert live).1) :=
    .of_keeps fun _ => keeps_attend occurrence fun _ => trivial
  obtain ⟨called, hcalled, hreplies⟩ :=
    (hattend _ (Interpreter.among_true { i with contexts := some _ })).follows.machine.asked
  obtain ⟨lines, hafter⟩ := exec_handling_of_live hlive hcontexts
  rw [← exec_invoke_of_found hlook] at hafter
  have hasked : d.asked occurrence = called := by
    simp only [asked, dispatch_interpreter, hafter, hcalled, hlook, ← Array.length_toList,
      List.drop_left]
  rw [hasked, dispatch_interpreter, hafter]
  exact ⟨hcalled, fun question hmem => (hreplies question hmem).reply⟩

/-- Nothing that is noted gets lost: the notes after a dispatch are those of the look-up, and then
    what is asked in the call. -/
theorem Ready.questions_dispatch (h : d.Ready) (occurrence : Occurrence) :
    (d.dispatch occurrence).2.1.interpreter.machine.questions.toList =
      (d.lookUp occurrence).2.machine.questions.toList ++ d.asked occurrence := by
  -- Where no handler is called, the look-up is the last to ask.
  have hquiet : ∀ {i : Interpreter}, (d.lookUp occurrence).2 = i →
      (exec (invoke occurrence) { d.interpreter with lines := [] }).2.machine = i.machine →
      (d.dispatch occurrence).2.1.interpreter.machine.questions.toList =
        (d.lookUp occurrence).2.machine.questions.toList ++ d.asked occurrence := by
    rintro i rfl hmachine
    simp only [asked, dispatch_interpreter, hmachine, ← Array.length_toList, List.drop_length,
      List.append_nil]
  have hinvoke := exec_invoke occurrence { d.interpreter with lines := [] }
  rw [← lookUp] at hinvoke
  cases hlook : d.lookUp occurrence with
  | mk result i =>
    rw [hlook] at hinvoke
    cases result with
    | error e =>
      rw [← hlook]
      exact hquiet (congrArg Prod.snd hlook) (by rw [hinvoke])
    | ok found =>
      cases found with
      | false =>
        rw [← hlook]
        exact hquiet (congrArg Prod.snd hlook) (by rw [hinvoke])
      | true =>
        cases hlive : occurrence.live? with
        | some live =>
          obtain ⟨table, hcontexts, -⟩ := h.handed?_of_found hlook hlive
          exact (asked_of_live hlook hlive hcontexts).1
        | none =>
          have hhandling : Host.Confined (fun _ => True) i.contexts (fun _ => True)
              (handling occurrence) := by
            unfold handling
            rw [hlive]
            exact .of_keeps fun _ =>
              (keeps_pushArguments _).bind fun _ _ _ _ => keeps_callHandler _ _
          obtain ⟨called, hcalled, -⟩ := (hhandling i i.among_true).follows.machine.asked
          have hafter : (d.dispatch occurrence).2.1.interpreter.machine =
              (exec (handling occurrence) i).2.machine := by
            rw [dispatch_interpreter, hinvoke]
          simp only [asked, hafter, hcalled, hlook, ← Array.length_toList, List.drop_left]

/-- What a handler asks about its context is answered as the engine has it at the event. -/
theorem Ready.reply_of_inquiry (h : d.Ready) {live : Live} (hlive : occurrence.live? = some live)
    {question : Question} (hmem : question ∈ d.inquiries occurrence) :
    question.reply = (question.native.answer live).mapError .engine := by
  cases hlook : d.lookUp occurrence with
  | mk result i =>
    cases result with
    | error e => simp [inquiries, handed?, hlook] at hmem
    | ok found =>
      cases found with
      | false => simp [inquiries, handed?, hlook] at hmem
      | true =>
        obtain ⟨table, hcontexts, hhanded⟩ := h.handed?_of_found hlook hlive
        simp only [inquiries, hhanded, List.mem_filter] at hmem
        obtain ⟨hasked, habout⟩ := hmem
        obtain ⟨id, hsubject⟩ := subject_of_isAbout habout
        rw [(asked_of_live hlook hlive hcontexts).2 question hasked, hsubject]
        exact Native.reply_of_ok (table.resolve_insert live) _ id

end Dispatcher

end EventBridge.Dispatch
