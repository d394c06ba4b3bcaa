import EventBridge.Proofs.Discipline.Dispatcher
import EventBridge.Proofs.Script.Store
import Mathlib.Data.List.Nodup

/-! # The refusals of a run

  A call that is refused raises an object of its own. A script can keep it, hand it on and raise it
  again, and can neither change it nor make another one that passes for it.

  * `Record` says of a list of refusals that it has every question that was refused, in order, each
    with the number of the object that was raised.
  * `Ledger` adds that every such object that a script holds is one of the list.
  * `ledgers`: a question that is refused and a write to a namespace add an entry, and nothing else
    does, nor takes one away.
-/

namespace EventBridge.Script

/-- A refusal: the number of the object that was raised, why, and the question that was refused,
    unless it was a write to a namespace. -/
structure Refused where
  number : Nat
  cause : Refusal
  question : Option Question

/-- Whether a question was refused. -/
def Question.isRefused (question : Question) : Bool :=
  match question.reply with
  | .error _ => true
  | .ok _ => false

/-- An object that was raised is in the list, with its number and its cause. -/
def Listed (log : List Refused) : Value → Prop
  | .failure number cause => ∃ refused ∈ log, refused.number = number ∧ refused.cause = cause
  | _ => True

/-- A list of refusals, by the number that the next object has and by what was asked. -/
structure Record (log : List Refused) (next : Nat) (questions : Array Question) : Prop where
  distinct : (log.map Refused.number).Nodup
  old : ∀ refused ∈ log, refused.number < next
  asked : log.filterMap Refused.question = questions.toList.filter Question.isRefused
  told : ∀ refused ∈ log, ∀ question, refused.question = some question →
    question.reply = .error refused.cause
  written : ∀ refused ∈ log, refused.question = none → ∃ name, refused.cause = .readOnly name

/-- A list of refusals is the record of a machine, and the machine holds nothing that passes for
    another one. -/
structure Ledger (log : List Refused) (m : Machine) : Prop where
  record : Record log m.nextObject m.questions
  tables : ∀ id, (m.table id).Holds (Listed log)
  callables : ∀ id : Nat, (m.functions[id]?.getD default).Holds (Listed log)

variable {log log' : List Refused} {m : Machine}

theorem listed_of_plain {value : Value} (h : value.Plain) : Listed log value := by
  cases value with
  | failure => exact absurd h id
  | _ => trivial

theorem Listed.later {value : Value} (h : Listed log value) (hlog : log <+: log') :
    Listed log' value := by
  cases value with
  | failure number cause =>
    obtain ⟨refused, hmem, heq⟩ := h
    exact ⟨refused, hlog.subset hmem, heq⟩
  | _ => trivial

/-- An object has one cause. -/
theorem Ledger.cause_eq (h : Ledger log m) {number : Nat} {cause cause' : Refusal}
    (hlisted : Listed log (.failure number cause))
    (hlisted' : Listed log (.failure number cause')) : cause = cause' := by
  obtain ⟨refused, hmem, hnumber, rfl⟩ := hlisted
  obtain ⟨refused', hmem', hnumber', rfl⟩ := hlisted'
  have hsame : refused = refused' :=
    List.inj_on_of_nodup_map h.record.distinct hmem hmem' (hnumber.trans hnumber'.symm)
  rw [hsame]

/-- A misuse comes from a question that was refused for it. -/
theorem Ledger.question_of_misuse (h : Ledger log m) {number : Nat} {cause : Misuse}
    (hlisted : Listed log (.failure number (.misuse cause))) :
    ∃ question ∈ m.questions, question.reply = .error (.misuse cause) := by
  obtain ⟨refused, hmem, -, hcause⟩ := hlisted
  cases hquestion : refused.question with
  | none =>
    obtain ⟨name, hname⟩ := h.record.written refused hmem hquestion
    rw [hcause] at hname
    cases hname
  | some question =>
    have hreply := h.record.told refused hmem question hquestion
    rw [hcause] at hreply
    have hasked : question ∈ log.filterMap Refused.question :=
      List.mem_filterMap.2 ⟨refused, hmem, hquestion⟩
    rw [h.record.asked] at hasked
    exact ⟨question, Array.mem_toList_iff.1 (List.mem_filter.1 hasked).1, hreply⟩

/-! ### What keeps the record -/

theorem Record.next (h : Record log m.nextObject m.questions) :
    Record log (m.nextObject + 1) m.questions :=
  { h with old := fun refused hmem => Nat.lt_succ_of_lt (h.old refused hmem) }

/-- The object that a refusal raises is a new one. -/
theorem Record.push {next : Nat} {questions : Array Question} (h : Record log next questions)
    (cause : Refusal) (question : Option Question)
    (htold : ∀ asked, question = some asked → asked.reply = .error cause)
    (hwritten : question = none → ∃ name, cause = .readOnly name) :
    Record (log ++ [⟨next, cause, question⟩]) (next + 1) (questions ++ question.toArray) where
  distinct := by
    -- The number is new, since those of the record are all lower.
    rw [List.map_append, List.nodup_append]
    refine ⟨h.distinct, List.nodup_singleton _, fun number hmem other hother => ?_⟩
    obtain ⟨refused, hrefused, rfl⟩ := List.mem_map.1 hmem
    rw [List.mem_singleton.1 hother]
    exact Nat.ne_of_lt (h.old refused hrefused)
  old := by
    intro refused hmem
    rcases List.mem_append.1 hmem with hmem | hmem
    · exact Nat.lt_succ_of_lt (h.old refused hmem)
    · rw [List.mem_singleton.1 hmem]
      exact Nat.lt_succ_self next
  asked := by
    rw [List.filterMap_append, h.asked, Array.toList_append, List.filter_append]
    cases question with
    | none => rfl
    | some asked =>
      have hrefused : asked.isRefused = true := by
        unfold Question.isRefused
        rw [htold asked rfl]
      simp [hrefused]
  told := by
    intro refused hmem
    rcases List.mem_append.1 hmem with hmem | hmem
    · exact h.told refused hmem
    · rw [List.mem_singleton.1 hmem]
      exact htold
  written := by
    intro refused hmem
    rcases List.mem_append.1 hmem with hmem | hmem
    · exact h.written refused hmem
    · rw [List.mem_singleton.1 hmem]
      exact hwritten

/-- A question that is answered is no entry. -/
theorem Record.answered {next : Nat} {questions : Array Question} (h : Record log next questions)
    (native : Native) (subject : Value) (results : List Value) :
    Record log next (questions.push ⟨native, subject, .ok results⟩) :=
  { h with
    asked := by
      rw [Array.toList_push, List.filter_append, ← h.asked]
      exact (List.append_nil _).symm }

theorem Ledger.setTable (h : Ledger log m) (id : Nat) {table : Table}
    (hholds : table.Holds (Listed log)) : Ledger log (m.setTable id table) where
  record := h.record
  tables other := by
    rw [Machine.table_setTable]
    split
    · exact hholds
    · exact h.tables other
  callables := h.callables

theorem Ledger.newTable (h : Ledger log m) {table : Table} (hholds : table.Holds (Listed log)) :
    Ledger log (m.newTable table).2 where
  record := h.record
  tables other := by
    rw [Machine.table_newTable]
    split
    · exact hholds
    · exact h.tables other
  callables := h.callables

theorem Ledger.newFunction (h : Ledger log m) {callable : Callable}
    (hholds : callable.Holds (Listed log)) : Ledger log (m.newFunction callable).2 where
  record := h.record
  tables := h.tables
  callables id := by
    rw [Machine.functions_newFunction]
    split
    · exact hholds
    · exact h.callables id

theorem Ledger.later (h : Ledger log m) (hlog : log <+: log') {next : Nat}
    {questions : Array Question} (hrecord : Record log' next questions) :
    Ledger log' { m with nextObject := next, questions := questions } where
  record := hrecord
  tables id entry hmem :=
    ⟨(h.tables id entry hmem).1.later hlog, (h.tables id entry hmem).2.later hlog⟩
  callables id := (h.callables id).imp fun _ hlisted => hlisted.later hlog

/-- What scripts do keeps the record. -/
def ledgers : Discipline where
  World := List Refused
  Later := (· <+: ·)
  Sound := Ledger
  Allows := Listed
  Admits _ := True
  refl := List.prefix_refl
  trans := List.IsPrefix.trans
  later hlog h := h.later hlog
  plain _ _ h := listed_of_plain h
  globals _ := trivial
  table h _ := h.tables _
  metatable _ _ _ := .inl trivial
  function h _ := h.callables _
  setEntry h _ hkey hvalue := h.setTable _ ((h.tables _).set listed_of_plain hkey hvalue)
  setMeta h _ _ _ := h.setTable _ (h.tables _)
  newTable h hholds _ := ⟨h.newTable hholds, trivial⟩
  newFunction h hholds := ⟨h.newFunction hholds, trivial⟩
  newObject h := ⟨h.record.next, h.tables, h.callables⟩
  record _ h := ⟨h.record, h.tables, h.callables⟩
  readOnly := by
    intro log m name h
    -- A write is no question: what was asked stays as it is.
    have hrecord := h.record.push (.readOnly name) none nofun fun _ => ⟨name, rfl⟩
    rw [Option.toArray_none, Array.append_empty] at hrecord
    exact ⟨_, List.prefix_append _ _, h.later (List.prefix_append _ _) hrecord, _,
      List.mem_append_right _ List.mem_cons_self, rfl, rfl⟩
  answered := by
    intro log m contexts subject native results h _ _ _
    exact ⟨log, List.prefix_refl _, h.record.answered _ _ _, h.tables, h.callables⟩
  refused := by
    intro log m contexts subject native cause h _ _ _
    have hrecord := h.record.push cause (some ⟨native, subject, .error cause⟩)
      (fun _ heq => by cases heq; rfl) nofun
    exact ⟨_, List.prefix_append _ _, h.later (List.prefix_append _ _) hrecord, _,
      List.mem_append_right _ List.mem_cons_self, rfl, rfl⟩

end EventBridge.Script
