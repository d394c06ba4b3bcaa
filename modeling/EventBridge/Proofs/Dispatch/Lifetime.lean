import EventBridge.Proofs.Dispatch.Exec
import EventBridge.Proofs.Handle.Laws
import EventBridge.Proofs.Interpreter.Confined

/-! # The lifetime of a handle

  A handler is given a handle to what the event is about. The script may keep it anywhere and use it
  whenever its code runs: in a later handler, in a metamethod during a look-up, or when more code is
  loaded. It works while the dispatch runs that it was made for, and never again.

  * A `Life` is a dispatcher from the loading of its script on, with all that a program does to it.
    The machine remembers every question that the script asks the engine.
  * A `Moment` is what decides about handles: those of earlier dispatches, and that of the dispatch
    that is running. `Moment.Answers` says what is right for a question at a moment.
  * `Life.Kept` is the invariant: between two steps nothing is live in the table of contexts, the
    table has given out all handles of earlier dispatches, and the script holds no other handle of
    that table. It makes all of them stale.
-/

namespace EventBridge.Dispatch

open Engine (Live)
open Host (exec)
open Script (Contexts Native Question Value)

/-! ### Moments -/

/-- What decides about handles at a moment of a run. -/
structure Moment where
  /-- The number of the table of contexts. -/
  own : Nat
  /-- The handles of the dispatches so far. -/
  earlier : List Handle
  /-- The handle of the dispatch that is running, and what that is about. -/
  running : Option (Handle × Live)

namespace Moment

/-- The handles that a script can have: those of dispatches, and those of other tables. -/
def Known (moment : Moment) (handle : Handle) : Prop :=
  handle ∈ moment.earlier ∨ handle.table ≠ moment.own ∨
    ∃ live, moment.running = some (handle, live)

/-- A question has the reply that is right at a moment. -/
structure Answers (moment : Moment) (question : Question) : Prop where
  /-- The check of the handle goes through exactly for the dispatch that is running. -/
  passes : (∀ cause, question.reply ≠ .error (.misuse cause)) ↔
    ∃ id handle live, question.subject = .handle id handle ∧
      moment.running = some (handle, live)
  /-- The engine then answers about what that dispatch is about. -/
  running : ∀ id handle live, question.subject = .handle id handle →
    moment.running = some (handle, live) →
    question.reply = (question.native.answer live).mapError .engine
  /-- The handle of an earlier dispatch is stale. -/
  stale : ∀ id handle, question.subject = .handle id handle → handle ∈ moment.earlier →
    question.reply = .error (.misuse .stale)
  /-- The handle of another table is foreign. -/
  foreign : ∀ id handle, question.subject = .handle id handle → handle.table ≠ moment.own →
    question.reply = .error (.misuse .foreign)
  /-- Any other value is no handle, and the reply names its type. -/
  notAHandle : (∀ id handle, question.subject ≠ .handle id handle) →
    question.reply = .error (.misuse (.notAHandle question.subject.kind))
  /-- There are no handles but these. -/
  known : ∀ id handle, question.subject = .handle id handle → moment.Known handle

/-- A table of contexts is as a moment has it. -/
structure Holds (moment : Moment) (table : HandleTable Live) : Prop where
  own : table.id = moment.own
  earlier : ∀ handle ∈ moment.earlier, table.resolve handle = .error .stale
  running : ∀ handle live, moment.running = some (handle, live) → table.resolve handle = .ok live

/-- What is asked about the handles that a script can have is answered as is right. -/
theorem Holds.answers {moment : Moment} {table : HandleTable Live} (h : moment.Holds table)
    {question : Question} (hquestion : question.Among moment.Known (some table)) :
    moment.Answers question := by
  obtain ⟨native, subject, reply⟩ := question
  obtain ⟨hsubject, hreply⟩ := hquestion
  dsimp only at hsubject hreply
  subst hreply
  have hstale : ∀ id handle, subject = .handle id handle → handle ∈ moment.earlier →
      native.reply (some table) subject = .error (.misuse .stale) := by
    rintro id handle rfl hearlier
    exact Native.reply_of_error (h.earlier handle hearlier) native id
  have hforeign : ∀ id handle, subject = .handle id handle → handle.table ≠ moment.own →
      native.reply (some table) subject = .error (.misuse .foreign) := by
    rintro id handle rfl hne
    refine Native.reply_of_error (HandleTable.resolve_of_table_ne ?_) native id
    rwa [h.own]
  have hrunning : ∀ id handle live, subject = .handle id handle →
      moment.running = some (handle, live) →
      native.reply (some table) subject = (native.answer live).mapError .engine := by
    rintro id handle live rfl hrunning
    exact Native.reply_of_ok (h.running handle live hrunning) native id
  have hother : (∀ id handle, subject ≠ .handle id handle) →
      native.reply (some table) subject = .error (.misuse (.notAHandle subject.kind)) :=
    fun hne => Native.reply_of_not_handle hne native
  have hknown : ∀ id handle, subject = .handle id handle → moment.Known handle := by
    rintro id handle rfl
    exact hsubject
  refine ⟨⟨?_, ?_⟩, hrunning, hstale, hforeign, hother, hknown⟩
  · -- A value that is not the running handle is one of the other three kinds.
    intro hpasses
    by_cases hhandle : ∃ id handle, subject = .handle id handle
    · obtain ⟨id, handle, hs⟩ := hhandle
      rcases hknown id handle hs with hearlier | hne | ⟨live, hsome⟩
      · exact absurd (hstale id handle hs hearlier) (hpasses _)
      · exact absurd (hforeign id handle hs hne) (hpasses _)
      · exact ⟨id, handle, live, hs, hsome⟩
    · have hnot : ∀ id handle, subject ≠ .handle id handle :=
        fun id handle hs => hhandle ⟨id, handle, hs⟩
      exact absurd (hother hnot) (hpasses _)
  · -- What the engine answers is no misuse, also where it has nothing to say.
    rintro ⟨id, handle, live, hs, hsome⟩ cause hmisuse
    rw [hrunning id handle live hs hsome] at hmisuse
    cases hanswer : native.answer live <;> rw [hanswer] at hmisuse <;> cases hmisuse

end Moment

/-! ### Lives -/

/-- What a program does with a dispatcher. -/
inductive Step where
  | dispatch (occurrence : Occurrence)
  /-- Runs more code beside the stack. -/
  | evaluate (source : List UInt8)
  /-- Gives the script a handle under a global name, if it is of an earlier dispatch or of another
      table: no program has any other. -/
  | give (name : String) (handle : Handle)

/-- A dispatcher in use, and the handles that its dispatches were given. -/
structure Life where
  own : Nat
  dispatcher : Dispatcher
  issued : List Handle

namespace Life

/-- A dispatcher when its script has run, whether or not that went through. -/
def begin (scripting : Config.Scripting) (source : Source) (own : Nat) : Life :=
  let fresh := Interpreter.new (Limits.of scripting) own
  let prepared := fresh.run (prepare scripting.namespaceName (source.load scripting))
  ⟨own, ⟨prepared.2.1, scripting.errorPolicy⟩, []⟩

/-- The look-up that a dispatch begins with. -/
def lookUp (life : Life) (occurrence : Occurrence) : Except BridgeError Bool × Interpreter :=
  exec (pushHandler occurrence.handler) { life.dispatcher.interpreter with lines := [] }

/-- The handle that a dispatch is given, if it comes to that, and what it is about. -/
def running? (life : Life) : Step → Option (Handle × Live)
  | .dispatch occurrence =>
    match life.lookUp occurrence, occurrence.live? with
    | (.ok true, i), some live =>
      (exec (Host.enter live) i).1.toOption.map fun handle => (handle, live)
    | _, _ => none
  | _ => none

/-- Between two steps no dispatch is running. -/
def resting (life : Life) : Moment := ⟨life.own, life.issued, none⟩

/-- The moment of a call that a step makes. -/
def calling (life : Life) (next : Step) : Moment :=
  ⟨life.own, life.issued, life.running? next⟩

/-- Takes a step. -/
def step (life : Life) (next : Step) : Life :=
  match next with
  | .dispatch occurrence =>
    { life with
      dispatcher := (life.dispatcher.dispatch occurrence).2.1
      issued := life.issued ++ ((life.running? next).map Prod.fst).toList }
  | .evaluate source =>
    { life with dispatcher.interpreter := (life.dispatcher.interpreter.evaluate source).2 }
  | .give name handle =>
    if handle ∈ life.issued ∨ handle.table ≠ life.own then
      { life with dispatcher.interpreter := (life.dispatcher.interpreter.run do
          Host.pushHandle handle
          Host.setGlobal name).2.1 }
    else life

/-- Takes steps, one after the other. -/
def run (life : Life) (steps : List Step) : Life := steps.foldl step life

/-- What the script has asked the engine so far. -/
def questions (life : Life) : List Question :=
  life.dispatcher.interpreter.machine.questions.toList

/-- What the script has asked when the look-up of a step is over, if it has one. -/
def questionsLookedUp (life : Life) : Step → List Question
  | .dispatch occurrence => (life.lookUp occurrence).2.machine.questions.toList
  | _ => life.questions

/-- What a step asks is answered as is right: during the look-up as between two steps, and after
    that as long as its own handle works. That handle is a new one, to what the step is about. -/
structure Answered (life : Life) (next : Step) : Prop where
  fresh : ∀ handle live, life.running? next = some (handle, live) →
    handle.table = life.own ∧ handle ∉ life.issued ∧
      ∃ occurrence, next = .dispatch occurrence ∧ occurrence.live? = some live
  asked : ∃ looked called, life.questionsLookedUp next = life.questions ++ looked ∧
    (life.step next).questions = life.questions ++ looked ++ called ∧
    (∀ question ∈ looked, life.resting.Answers question) ∧
    ∀ question ∈ called, (life.calling next).Answers question

/-! ### The invariant -/

/-- Between two steps: the table of contexts holds nothing, it has given out the handles of all
    dispatches, and the script has no handles of that table but these. -/
structure Kept (life : Life) (table : HandleTable Live) : Prop where
  own : table.id = life.own
  idle : table.live = 0
  issued : ∀ handle ∈ life.issued, table.Issued handle
  among : life.dispatcher.interpreter.Among life.resting.Known (some table)

theorem Kept.resting {life : Life} {table : HandleTable Live} (h : life.Kept table) :
    life.resting.Holds table where
  own := h.own
  earlier := fun handle hmem => (h.issued handle hmem).resolve_of_live_eq_zero h.idle
  running := by
    rintro handle live ⟨⟩

@[simp] theorem issued_begin (scripting : Config.Scripting) (source : Source) (own : Nat) :
    (begin scripting source own).issued = [] := rfl

theorem interpreter_begin (scripting : Config.Scripting) (source : Source) (own : Nat) :
    (begin scripting source own).dispatcher.interpreter =
      ((Interpreter.new (Limits.of scripting) own).run
        (prepare scripting.namespaceName (source.load scripting))).2.1 := by
  simp only [begin]

/-- A script is loaded before any handle is given out. -/
theorem kept_begin (scripting : Config.Scripting) (source : Source) (own : Nat) :
    (begin scripting source own).Kept (HandleTable.empty own) ∧
      ∀ question ∈ (begin scripting source own).questions,
        (begin scripting source own).resting.Answers question := by
  have hfresh : (Interpreter.new (Limits.of scripting) own).Among
      (begin scripting source own).resting.Known (some (HandleTable.empty own)) :=
    ⟨rfl, Script.Machine.among_initial, Script.allAmong_nil⟩
  have hprepare : Host.Confined (begin scripting source own).resting.Known
      (some (HandleTable.empty own)) (fun _ => True)
      (prepare scripting.namespaceName (source.load scripting)) :=
    .of_keeps fun _ => keeps_prepare scripting.namespaceName (keeps_load scripting source)
  have hfollows := hprepare.run hfresh
  rw [← interpreter_begin] at hfollows
  have hkept : (begin scripting source own).Kept (HandleTable.empty own) :=
    ⟨rfl, rfl, by simp, hfollows.among⟩
  refine ⟨hkept, ?_⟩
  obtain ⟨asked, hquestions, hasked⟩ := hfollows.machine.asked
  intro question hmem
  refine hkept.resting.answers (hasked question ?_)
  unfold questions at hmem
  rw [hquestions] at hmem
  exact hmem

/-- A step in which no dispatch begins: what it asks is asked between two steps. -/
theorem Kept.quiet {life : Life} {table : HandleTable Live} (h : life.Kept table) {next : Step}
    {i : Interpreter} (hstep : life.step next = { life with dispatcher.interpreter := i })
    (hrunning : life.running? next = none) (hlooked : life.questionsLookedUp next = life.questions)
    (hfollows : life.dispatcher.interpreter.Follows life.resting.Known (some table) i) :
    (life.step next).Kept table ∧ life.Answered next := by
  obtain ⟨asked, hquestions, hasked⟩ := hfollows.machine.asked
  refine ⟨?_, ?_, [], asked, ?_, ?_, ?_, ?_⟩
  · rw [hstep]
    exact ⟨h.own, h.idle, h.issued, hfollows.among⟩
  · intro handle live hsome
    rw [hrunning] at hsome
    cases hsome
  · rw [hlooked, List.append_nil]
  · rw [hstep, List.append_nil]
    exact hquestions
  · simp
  · intro question hmem
    rw [calling, hrunning]
    exact h.resting.answers (hasked question hmem)

theorem Kept.evaluate {life : Life} {table : HandleTable Live} (h : life.Kept table)
    (source : List UInt8) :
    (life.step (.evaluate source)).Kept table ∧ life.Answered (.evaluate source) := by
  exact h.quiet rfl rfl rfl (h.among.follows_evaluate source)

theorem Kept.give {life : Life} {table : HandleTable Live} (h : life.Kept table) (name : String)
    (handle : Handle) :
    (life.step (.give name handle)).Kept table ∧ life.Answered (.give name handle) := by
  by_cases hhandle : handle ∈ life.issued ∨ handle.table ≠ life.own
  · have hknown : life.resting.Known handle := hhandle.imp_right Or.inl
    have hgive : Host.Confined life.resting.Known (some table) (fun _ => True) (do
        Host.pushHandle handle
        Host.setGlobal name) :=
      .of_keeps fun _ => (Host.keeps_pushHandle fun _ => hknown).bind fun _ _ _ _ =>
        Host.keeps_setGlobal name
    exact h.quiet (by rw [step, if_pos hhandle]) rfl rfl (hgive.run h.among)
  · exact h.quiet (by rw [step, if_neg hhandle]) rfl rfl (h.among.follows rfl rfl h.among.stack)

/-- A dispatch begins with the look-up, during which nothing is live. -/
theorem Kept.lookUp {life : Life} {table : HandleTable Live} (h : life.Kept table)
    (occurrence : Occurrence) :
    life.dispatcher.interpreter.Follows life.resting.Known (some table)
      (life.lookUp occurrence).2 := by
  have hpush : Host.Confined life.resting.Known (some table) (fun _ => True)
      (pushHandler occurrence.handler) := .of_keeps fun _ => keeps_pushHandler occurrence.handler
  have hfollows := (hpush { life.dispatcher.interpreter with lines := [] }
    ⟨h.among.contexts, h.among.machine, h.among.stack⟩).follows
  exact ⟨hfollows.among, hfollows.machine⟩

/-- A dispatch in which nothing becomes live. -/
theorem Kept.dispatch_of_none {life : Life} {table : HandleTable Live} (h : life.Kept table)
    {occurrence : Occurrence} (hrunning : life.running? (.dispatch occurrence) = none)
    (hafter : (life.lookUp occurrence).2.Follows life.resting.Known (some table)
      (exec (invoke occurrence) { life.dispatcher.interpreter with lines := [] }).2) :
    (life.step (.dispatch occurrence)).Kept table ∧ life.Answered (.dispatch occurrence) := by
  obtain ⟨looked, hlooked, hlookedAmong⟩ := (h.lookUp occurrence).machine.asked
  obtain ⟨called, hcalled, hcalledAmong⟩ := hafter.machine.asked
  have hissued : (life.step (.dispatch occurrence)).issued = life.issued := by
    simp only [step, hrunning, Option.map_none, Option.toList_none, List.append_nil]
  have hresting : (life.step (.dispatch occurrence)).resting = life.resting := by
    simp only [Life.resting, hissued]
    rfl
  refine ⟨⟨h.own, h.idle, by rw [hissued]; exact h.issued, ?_⟩, ?_, looked, called, hlooked, ?_,
    ?_, ?_⟩
  · rw [hresting]
    simp only [step, dispatch_interpreter]
    exact ⟨hafter.among.contexts, hafter.among.machine,
      hafter.among.stack.of_subset (List.take_subset _ _)⟩
  · intro handle live hsome
    rw [hrunning] at hsome
    cases hsome
  · simp only [questions, step, dispatch_interpreter]
    rw [hcalled, hlooked]
  · exact fun question hmem => h.resting.answers (hlookedAmong question hmem)
  · intro question hmem
    rw [calling, hrunning]
    exact h.resting.answers (hcalledAmong question hmem)

/-- With a dispatch running, the table holds what that is about, and every earlier handle is as
    stale as before. -/
theorem Kept.calling {life : Life} {table : HandleTable Live} (h : life.Kept table) {next : Step}
    {live : Live} (hrunning : life.running? next = some ((table.insert live).1, live)) :
    (life.calling next).Holds (table.insert live).2 where
  own := by
    rw [HandleTable.id_insert]
    exact h.own
  earlier := by
    intro handle hmem
    rw [HandleTable.resolve_insert_of_issued (h.issued handle hmem)]
    exact (h.issued handle hmem).resolve_of_live_eq_zero h.idle
  running := by
    intro handle live' hsome
    rw [Life.calling, hrunning] at hsome
    cases hsome
    exact table.resolve_insert live

/-- A script that comes to know the handle of a dispatch knew the others before it. -/
theorem known_calling {life : Life} {next : Step} {handle : Handle}
    (h : life.resting.Known handle) : (life.calling next).Known handle := by
  rcases h with hmem | hne | ⟨_, ⟨⟩⟩
  · exact .inl hmem
  · exact .inr (.inl hne)

/-- When the dispatch is over, its handle is one of the earlier ones. -/
theorem known_step {life : Life} {occurrence : Occurrence} {handle : Handle}
    (h : (life.calling (.dispatch occurrence)).Known handle) :
    (life.step (.dispatch occurrence)).resting.Known handle := by
  rcases h with hmem | hne | ⟨live, hsome⟩
  · exact .inl (List.mem_append_left _ hmem)
  · exact .inr (.inl hne)
  · have hrunning : life.running? (.dispatch occurrence) = some (handle, live) := hsome
    left
    simp [Life.resting, step, hrunning]

/-- A dispatch whose handler is found, about a context: the table holds that context, and nothing
    else, until the call is over. -/
theorem Kept.dispatch_of_some {life : Life} {table : HandleTable Live} (h : life.Kept table)
    {occurrence : Occurrence} {live : Live} {i : Interpreter}
    (hlook : life.lookUp occurrence = (.ok true, i)) (hlive : occurrence.live? = some live) :
    (life.step (.dispatch occurrence)).Kept
        ((table.insert live).2.release (table.insert live).1).2 ∧
      life.Answered (.dispatch occurrence) := by
  have hlookUp := h.lookUp occurrence
  rw [hlook] at hlookUp
  obtain ⟨looked, hlooked, hlookedAmong⟩ := hlookUp.machine.asked
  have hrunning : life.running? (.dispatch occurrence) = some ((table.insert live).1, live) := by
    simp only [running?, hlook, hlive, Host.exec_enter_some live hlookUp.among.contexts]
    rfl
  have hissued : (life.step (.dispatch occurrence)).issued =
      life.issued ++ [(table.insert live).1] := by
    simp only [step, hrunning]
    rfl
  -- The call runs with the new handle in the table and in the hands of the script.
  have hi : Interpreter.Among (life.calling (.dispatch occurrence)).Known
      (some (table.insert live).2) { i with contexts := some (table.insert live).2 } :=
    ⟨rfl, hlookUp.among.machine.mono fun _ => known_calling,
      hlookUp.among.stack.mono fun _ => known_calling⟩
  have hnew : (life.calling (.dispatch occurrence)).Known (table.insert live).1 :=
    .inr (.inr ⟨live, hrunning⟩)
  have hconfined : Host.Confined (life.calling (.dispatch occurrence)).Known
      (some (table.insert live).2) (fun _ => True) (attend occurrence (table.insert live).1) :=
    .of_keeps fun _ => keeps_attend occurrence fun _ => hnew
  have hattend := (hconfined _ hi).follows
  obtain ⟨called, hcalled, hcalledAmong⟩ := hattend.machine.asked
  obtain ⟨lines, hafter⟩ := exec_handling_of_live hlive hlookUp.among.contexts
  rw [hattend.among.contexts, Option.map_some, ← exec_invoke_of_found hlook] at hafter
  refine ⟨⟨?_, ?_, ?_, ?_⟩, ?_, looked, called, ?_, ?_, ?_, ?_⟩
  · rw [HandleTable.id_release, HandleTable.id_insert]
    exact h.own
  · -- One context more, and one less.
    have hidle := HandleTable.live_release_of_resolve_ok (table.resolve_insert live)
    rw [HandleTable.live_insert, h.idle] at hidle
    omega
  · intro handle hmem
    rw [hissued, List.mem_append, List.mem_singleton] at hmem
    -- The handle of this dispatch is released, and counts as given out all the same.
    rcases hmem with hmem | rfl
    · exact ((h.issued handle hmem).insert live).release _
    · exact (table.issued_insert_self live).release _
  · simp only [step, dispatch_interpreter, hafter]
    exact ⟨rfl, hattend.among.machine.mono fun _ => known_step,
      (hattend.among.stack.mono fun _ => known_step).of_subset (List.take_subset _ _)⟩
  · intro handle live' hsome
    rw [hrunning] at hsome
    cases hsome
    refine ⟨(table.issued_insert_self live).ofTable.trans ?_, fun hmem => ?_, _, rfl, hlive⟩
    · rw [HandleTable.id_insert]
      exact h.own
    · exact (h.issued _ hmem).ne_insert live rfl
  · simp only [questionsLookedUp, hlook]
    exact hlooked
  · simp only [questions, step, dispatch_interpreter, hafter]
    rw [hcalled, hlooked]
  · exact fun question hmem => h.resting.answers (hlookedAmong question hmem)
  · exact fun question hmem => (h.calling hrunning).answers (hcalledAmong question hmem)

/-- Whatever the look-up finds and whatever comes of the call, the table is empty after it. -/
theorem Kept.dispatch {life : Life} {table : HandleTable Live} (h : life.Kept table)
    (occurrence : Occurrence) :
    (∃ table', (life.step (.dispatch occurrence)).Kept table') ∧
      life.Answered (.dispatch occurrence) := by
  have hlookUp := (h.lookUp occurrence).among
  -- A context becomes live in one of the five cases only.
  have hinvoke := exec_invoke occurrence { life.dispatcher.interpreter with lines := [] }
  rw [← Life.lookUp] at hinvoke
  cases hlook : life.lookUp occurrence with
  | mk result i =>
    rw [hlook] at hlookUp hinvoke
    cases result with
    | error e =>
      refine (h.dispatch_of_none ?_ ?_).imp_left fun h' => ⟨table, h'⟩
      · simp only [running?, hlook]
      · rw [hlook, hinvoke]
        exact hlookUp.follows rfl rfl hlookUp.stack
    | ok found =>
      cases found with
      | false =>
        refine (h.dispatch_of_none ?_ ?_).imp_left fun h' => ⟨table, h'⟩
        · simp only [running?, hlook]
        · rw [hlook, hinvoke]
          exact hlookUp.follows rfl rfl hlookUp.stack
      | true =>
        cases hlive : occurrence.live? with
        | none =>
          have hhandling : Host.Confined life.resting.Known (some table) (fun _ => True)
              (handling occurrence) := by
            unfold handling
            rw [hlive]
            exact .of_keeps fun _ =>
              (keeps_pushArguments _).bind fun _ _ _ _ => keeps_callHandler _ _
          refine (h.dispatch_of_none ?_ ?_).imp_left fun h' => ⟨table, h'⟩
          · simp only [running?, hlook, hlive]
          · rw [hlook, hinvoke]
            exact (hhandling i hlookUp).follows
        | some live => exact (h.dispatch_of_some hlook hlive).imp_left fun h' => ⟨_, h'⟩

/-- One step keeps the invariant, and what it asks is answered as is right. -/
theorem Kept.step {life : Life} {table : HandleTable Live} (h : life.Kept table) (next : Step) :
    (∃ table', (life.step next).Kept table') ∧ life.Answered next := by
  cases next with
  | dispatch occurrence => exact h.dispatch occurrence
  | evaluate source => exact (h.evaluate source).imp_left fun h' => ⟨table, h'⟩
  | give name handle => exact (h.give name handle).imp_left fun h' => ⟨table, h'⟩

/-- So does any number of steps. -/
theorem Kept.run {life : Life} {table : HandleTable Live} (h : life.Kept table)
    (steps : List Step) : ∃ table', (life.run steps).Kept table' := by
  induction steps generalizing life table with
  | nil => exact ⟨table, h⟩
  | cons next steps ih =>
    obtain ⟨⟨table', h'⟩, -⟩ := h.step next
    exact ih h'

/-- The dispatcher of a life is the one that is built, if its script loads. -/
theorem dispatcher_begin {scripting : Config.Scripting} {source : Source} {own : Nat}
    {d : Dispatcher} (h : (Dispatcher.build scripting source own).1 = .ok d) :
    (begin scripting source own).dispatcher = d := by
  unfold Dispatcher.build at h
  unfold begin
  cases hrun : (Interpreter.new (Limits.of scripting) own).run
      (prepare scripting.namespaceName (source.load scripting)) with
  | mk result rest =>
    dsimp only at h ⊢
    rw [hrun] at h ⊢
    cases result with
    | error e => cases h
    | ok _ => exact Except.ok.inj h

/-- Whatever a script does with the handles it has come by, from its loading through any number of
    events: every question that it asks the engine has the reply that is right at that moment. -/
theorem run_answered (scripting : Config.Scripting) (source : Source) (own : Nat) :
    (∀ (native : Native) (args : List Value) (contexts : Contexts) (m : Script.Machine),
      native.Noted args contexts m) ∧
    (∀ d, (Dispatcher.build scripting source own).1 = .ok d →
      (begin scripting source own).dispatcher = d) ∧
    (∀ question ∈ (begin scripting source own).questions,
      (begin scripting source own).resting.Answers question) ∧
    ∀ (steps : List Step) (next : Step),
      ((begin scripting source own).run steps).Answered next := by
  obtain ⟨hkept, hloading⟩ := kept_begin scripting source own
  refine ⟨Native.noted, fun d => dispatcher_begin, hloading, ?_⟩
  intro steps next
  obtain ⟨table, hrun⟩ := hkept.run steps
  exact (hrun.step next).2

end Life

end EventBridge.Dispatch
