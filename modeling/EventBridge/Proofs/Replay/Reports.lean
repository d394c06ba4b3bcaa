import EventBridge.Proofs.Dispatch.Reports
import EventBridge.Proofs.Replay.Accounting
import Mathlib.Data.List.Basic

/-! # What a run reports

  The counts of a replay and its reports arise in different places. They tell the same story all the
  same, line by line of the trace.

  * `Passage.Tells` has the report for each thing that is counted. `Passage.Told` puts it behind the
    call that the line has led to, and both behind the reports of no `Mark` that come first.
  * `Passage.told` says that every line is told so. `reports_runLines` strings the lines together.
  * `Story` is what follows for a whole run, and `runs_tell_their_story` the statement about all
    runs.
-/

namespace EventBridge.Replay

open Dispatch (Call Dispatcher Occurrence Outcome Shared failureLine missingLine)
open Log (Line)
open Trace (Event)

/-! ### Reports that stand for nothing -/

/-- A report of none of the kinds. -/
def Unmarked (line : Line) : Prop := ∀ mark : Mark, mark.marks line = false

theorem unmarked_engine (text : String) : Unmarked (Engine.report text) := by
  intro mark
  cases mark <;> rfl

theorem unmarked_connection (text : String) :
    Unmarked ⟨.debug, "replay", "Connection " ++ text⟩ := by
  intro mark
  cases mark <;> rfl

/-- The reports of an event itself, before the dispatcher is called. -/
def Course.lines : Course → List Line
  | .rejected _ => []
  | .silent _ lines => lines
  | .call _ _ _ lines => lines

theorem unmarked_makeContext {engine after : Engine} {source destination : Net.Endpoint}
    {protocol : Engine.Protocol} {liid : Option String} {trigger : Option Net.Ip}
    {layer : Option String} {context : Engine.Context} {lines : List Line}
    (h : makeContext engine source destination protocol liid trigger layer =
      (context, after, lines)) : ∀ line ∈ lines, Unmarked line := by
  cases liid <;> cases layer <;> cases h <;> exact List.forall_mem_singleton.2 (unmarked_engine _)

/-- They stand for nothing. -/
theorem unmarked_course (scene : Scene) (event : Event) :
    ∀ line ∈ (scene.course event).lines, Unmarked line := by
  have htakes := scene.takes_course event
  generalize scene.course event = course at htakes ⊢
  cases htakes with
  | rejected _ => exact nofun
  | target liid address => exact List.forall_mem_singleton.2 (unmarked_engine _)
  | trigger _ _ => exact nofun
  | exchange _ _ _ _ => exact nofun
  | up hname hmade =>
    refine List.forall_mem_append.2 ⟨unmarked_makeContext hmade, List.forall_mem_singleton.2 ?_⟩
    rw [String.append_assoc, String.append_assoc]
    exact unmarked_connection _
  | down _ => exact nofun

theorem Course.result_follow (replay : Replay) (occurrence : Occurrence) (through failed : Scene)
    (lines : List Line) :
    ((Course.call occurrence through failed lines).follow replay).1 =
      match (replay.shared.dispatch occurrence).1 with
      | .ok outcome => .ok (some outcome)
      | .error cause => .error (.bridge cause) := by
  unfold follow
  dsimp only
  rcases replay.shared.dispatch occurrence with ⟨_ | outcome, shared, more⟩ <;> rfl

theorem Course.lines_follow (replay : Replay) (occurrence : Occurrence) (through failed : Scene)
    (lines : List Line) :
    ((Course.call occurrence through failed lines).follow replay).2.2 =
      lines ++ (replay.shared.dispatch occurrence).2.2 := by
  unfold follow
  dsimp only
  rcases replay.shared.dispatch occurrence with ⟨_ | outcome, shared, more⟩ <;> rfl

/-! ### Counts by counter -/

/-- What a counter says. -/
def Stats.count (stats : Stats) : Counter → Nat
  | .handled => stats.handled
  | .noHandler => stats.noHandler
  | .failed => stats.failed
  | .skipped => stats.skipped

@[simp] theorem Stats.count_readLine (stats : Stats) (counter : Counter) :
    stats.readLine.count counter = stats.count counter := by
  cases counter <;> rfl

/-- The report that goes with a counter. What is handled is not reported once more. -/
def Counter.mark? : Counter → Option Mark
  | .handled => none
  | .noHandler => some .noHandler
  | .failed => some .failed
  | .skipped => some .skipped

/-- What the counters say behind a line, by the one that has gone up. -/
inductive Stats.Moves (stats : Stats) : Option Counter → Stats → Prop where
  | still : Moves stats none stats
  | line : Moves stats none stats.readLine
  | raised (counter : Counter) : Moves stats (some counter) (stats.readLine.raise counter)

theorem Stats.Moves.count {stats after : Stats} {moved : Option Counter}
    (h : stats.Moves moved after) (counter : Counter) :
    after.count counter = stats.count counter + if moved = some counter then 1 else 0 := by
  cases h with
  | still => rfl
  | line => exact stats.count_readLine counter
  | raised raised => cases raised <;> cases counter <;> rfl

/-! ### One line -/

theorem runLine_of_event {line : List UInt8} {event : Event} (h : Reading.of line = .event event)
    (replay : Replay) (number : Nat) :
    replay.runLine number line = replay.counting.runEvent number event := by
  rw [runLine_eq, h]

/-- What is reported at the line of an event that is not turned down: what applying it reports. -/
theorem reports_runEvent {replay : Replay} {event : Event}
    (h : ∀ cause, (replay.apply event).1 = .error cause → ¬ cause.IsRejection) (number : Nat) :
    (replay.runEvent number event).2.2 = (replay.apply event).2.2 := by
  unfold runEvent
  generalize replay.apply event = applied at h ⊢
  obtain ⟨result, after, lines⟩ := applied
  cases result with
  | ok outcome => cases outcome <;> rfl
  | error cause =>
    cases cause with
    | bridge cause => rfl
    | _ => exact absurd trivial (h _ rfl)

/-- An event that is turned down is reported and counted. Nothing else is different. -/
theorem runEvent_of_rejection {replay : Replay} {event : Event} {cause : EventError}
    (happly : (replay.apply event).1 = .error cause) (hcause : cause.IsRejection) (number : Nat) :
    replay.runEvent number event = (.ok (), replay.missing,
      [Mark.skipped.line
        (event.name ++ " on line " ++ toString number ++ ": " ++ cause.message)]) := by
  have hsame : replay.apply event = (.error cause, replay, []) :=
    apply_of_rejection happly hcause replay.shared
  unfold runEvent
  rw [hsame]
  cases cause with
  | bridge cause => exact hcause.elim
  | _ => rfl

namespace Passage

/-- What is reported at the line. -/
def reports (passage : Passage) : List Line :=
  (passage.before.runLine passage.number passage.line).2.2

/-- What the dispatcher is called for at the line. -/
def occurrence? (passage : Passage) : Option Occurrence :=
  match Reading.of passage.line with
  | .event event => (passage.before.scene.course event).occurrence?
  | _ => none

/-- The call that the line leads to. -/
def call? (passage : Passage) : Option Call :=
  passage.occurrence?.bind passage.before.shared.dispatcher.call?

/-- What is reported of what is counted. -/
inductive Tells (passage : Passage) : Option Counter → List Line → Prop where
  /-- Nothing is counted, or the line only. -/
  | nothing : Tells passage none []
  | handled : passage.call?.isSome → Tells passage (some .handled) []
  | noHandler {occurrence : Occurrence} : passage.occurrence? = some occurrence →
    Tells passage (some .noHandler) [missingLine occurrence.handler]
  | failed {occurrence : Occurrence} (cause : BridgeError) :
    passage.occurrence? = some occurrence →
    Tells passage (some .failed) [failureLine occurrence.handler cause]
  /-- The line is no event. -/
  | malformed {cause : Trace.ReadError} : Reading.of passage.line = .noEvent cause →
    Tells passage (some .skipped)
      [Mark.skipped.line
        ("malformed line " ++ toString passage.number ++ ": " ++ cause.message)]
  /-- The event is turned down. -/
  | rejected {event : Event} (cause : EventError) : Reading.of passage.line = .event event →
    Tells passage (some .skipped)
      [Mark.skipped.line
        (event.name ++ " on line " ++ toString passage.number ++ ": " ++ cause.message)]

/-- What is reported at a line: what stands for nothing, then the call that the line leads to, then
the report of what is counted. -/
structure Told (passage : Passage) (counter : Option Counter) (others verdict : List Line) :
    Prop where
  reports : passage.reports = others ++ passage.call?.toList.map Call.line ++ verdict
  unmarked : ∀ line ∈ others, Unmarked line
  tells : passage.Tells counter verdict
  moves : passage.before.stats.Moves counter passage.after.stats

variable {passage : Passage}

/-- A line that leads to a dispatch is told by what that reports. -/
theorem told_of_dispatch (hready : passage.before.shared.Ready) {occurrence : Occurrence}
    (hoccurrence : passage.occurrence? = some occurrence) {lines : List Line}
    (hmarks : ∀ line ∈ lines, Unmarked line)
    (hreports : passage.reports = lines ++ (passage.before.shared.dispatch occurrence).2.2)
    (hstats : passage.after.stats =
      match (passage.before.shared.dispatch occurrence).1 with
      | .ok outcome => passage.before.stats.readLine.raise (.ofOutcome outcome)
      | .error _ => passage.before.stats.readLine) :
    ∃ counter others verdict, passage.Told counter others verdict := by
  obtain ⟨verdict, htold, hverdict⟩ := Dispatcher.reports_dispatch hready occurrence
  have hcall : passage.call? = passage.before.shared.dispatcher.call? occurrence := by
    rw [call?, hoccurrence]
    rfl
  rw [← hcall] at htold hverdict
  rw [show (passage.before.shared.dispatch occurrence).2.2 =
    (passage.before.shared.dispatcher.dispatch occurrence).2.2 from rfl, htold,
    ← List.append_assoc] at hreports
  rw [show (passage.before.shared.dispatch occurrence).1 =
    (passage.before.shared.dispatcher.dispatch occurrence).1 from rfl] at hstats
  generalize (passage.before.shared.dispatcher.dispatch occurrence).1 = result at hverdict hstats
  have hintro : ∀ counter, passage.Tells counter verdict →
      passage.before.stats.Moves counter passage.after.stats →
      ∃ counter others verdict, passage.Told counter others verdict :=
    fun counter htells hmoves => ⟨counter, lines, verdict, ⟨hreports, hmarks, htells, hmoves⟩⟩
  generalize hcalled : passage.call? = called at hverdict
  cases hverdict with
  | handled call =>
    refine hintro (some .handled) (.handled (by rw [hcalled]; rfl)) ?_
    rw [hstats]
    exact .raised .handled
  | noHandler =>
    refine hintro (some .noHandler) (.noHandler hoccurrence) ?_
    rw [hstats]
    exact .raised .noHandler
  | failed called cause =>
    refine hintro (some .failed) (.failed cause hoccurrence) ?_
    rw [hstats]
    exact .raised .failed
  | returned called cause =>
    refine hintro none .nothing ?_
    rw [hstats]
    exact .line

/-- The line of an event is told by the course of the event. -/
theorem told_of_event (hready : passage.before.shared.Ready) {event : Event}
    (hreading : Reading.of passage.line = .event event) :
    ∃ counter others verdict, passage.Told counter others verdict := by
  have hline := runLine_of_event hreading passage.before passage.number
  have hstats : passage.after.stats = _ :=
    (congrArg (·.2.1.stats) hline).trans
      (congrArg Prod.snd (passage.before.counting.result_runEvent passage.number event))
  have hoccurrence : passage.occurrence? = (passage.before.scene.course event).occurrence? := by
    rw [occurrence?, hreading]
  have hmarks := unmarked_course passage.before.scene event
  have htakes := passage.before.scene.takes_course event
  have happly := passage.before.counting.apply_eq_follow event
  rw [show passage.before.counting.scene = passage.before.scene from rfl] at happly
  generalize passage.before.scene.course event = course at hoccurrence hmarks htakes happly
  cases course with
  | rejected cause =>
    have hcall : passage.call? = none := by
      rw [call?, hoccurrence]
      rfl
    have hcause : cause.IsRejection := by
      cases htakes with
      | rejected hcause => exact hcause
    have hskipped := hline.trans
      (runEvent_of_rejection (congrArg Prod.fst happly) hcause passage.number)
    refine ⟨some .skipped, [], _, ⟨?_, List.forall_mem_nil _, .rejected cause hreading, ?_⟩⟩
    · rw [reports, hskipped, hcall]
      rfl
    · rw [after, hskipped]
      exact .raised .skipped
  | silent after lines =>
    have hcall : passage.call? = none := by
      rw [call?, hoccurrence]
      rfl
    have hgoes : ∀ cause, (passage.before.counting.apply event).1 = .error cause →
        ¬ cause.IsRejection := by
      intro cause hcause
      rw [happly] at hcause
      cases hcause
    have hreports : passage.reports = lines := by
      rw [reports, hline, reports_runEvent hgoes, happly]
      rfl
    rw [happly] at hstats
    refine ⟨none, lines, [], ⟨?_, hmarks, .nothing, ?_⟩⟩
    · rw [hreports, hcall, Option.toList_none, List.map_nil, List.append_nil, List.append_nil]
    · rw [hstats]
      exact .line
  | call occurrence through failed lines =>
    have hresult := Course.result_follow passage.before.counting occurrence through failed lines
    rw [show passage.before.counting.shared = passage.before.shared from rfl] at hresult
    rw [happly, hresult] at hstats
    refine told_of_dispatch hready hoccurrence hmarks ?_ (hstats.trans ?_)
    · rw [reports, hline, reports_runEvent, happly, Course.lines_follow]
      · rfl
      · rw [happly, hresult]
        intro cause hcause
        -- What a dispatch returns is a failure of the bridge.
        cases hdispatch : (passage.before.shared.dispatch occurrence).1 with
        | ok outcome =>
          rw [hdispatch] at hcause
          cases hcause
        | error cause =>
          rw [hdispatch] at hcause
          cases hcause
          exact id
    · cases (passage.before.shared.dispatch occurrence).1 <;> rfl

/-- Every line is told. -/
theorem told (passage : Passage) (hready : passage.before.shared.Ready) :
    ∃ counter others verdict, passage.Told counter others verdict := by
  have hline := passage.before.runLine_eq passage.number passage.line
  have hcall : (∀ event, Reading.of passage.line ≠ .event event) → passage.call? = none := by
    intro hnone
    rw [call?, occurrence?]
    cases hreading : Reading.of passage.line with
    | event event => exact absurd hreading (hnone event)
    | _ => rfl
  cases hreading : Reading.of passage.line with
  | noText =>
    rw [hreading] at hline
    refine ⟨none, [], [], ⟨?_, List.forall_mem_nil _, .nothing, ?_⟩⟩
    · rw [reports, hline, hcall (by simp [hreading])]
      rfl
    · rw [after, hline]
      exact .still
  | blank =>
    rw [hreading] at hline
    refine ⟨none, [], [], ⟨?_, List.forall_mem_nil _, .nothing, ?_⟩⟩
    · rw [reports, hline, hcall (by simp [hreading])]
      rfl
    · rw [after, hline]
      exact .still
  | noEvent cause =>
    rw [hreading] at hline
    refine ⟨some .skipped, [], _, ⟨?_, List.forall_mem_nil _, .malformed hreading, ?_⟩⟩
    · rw [reports, hline, hcall (by simp [hreading])]
      rfl
    · rw [after, hline]
      exact .raised .skipped
  | event event => exact told_of_event hready hreading

/-! ### Reports of one kind -/

theorem filter_unmarked {lines : List Line} (h : ∀ line ∈ lines, Unmarked line) (mark : Mark) :
    lines.filter mark.marks = [] :=
  List.filter_eq_nil_iff.2 fun line hline => by rw [h line hline mark]; exact Bool.false_ne_true

theorem marks_call (mark : Mark) (call : Call) :
    mark.marks call.line = decide (mark = .called) := by
  rw [Call.line, Dispatch.callLine_eq, Mark.marks_line]

/-- Of each kind there is one report if its counter has gone up, and none if it has not. -/
theorem Tells.countP {counter : Option Counter} {verdict : List Line}
    (h : passage.Tells counter verdict) (mark : Mark) :
    verdict.countP mark.marks = if counter.bind Counter.mark? = some mark then 1 else 0 := by
  cases h with
  | nothing => rfl
  | handled _ => rfl
  | noHandler _ =>
    rw [List.countP_singleton, Dispatch.missingLine_eq, Mark.marks_line]
    cases mark <;> rfl
  | failed cause _ =>
    rw [List.countP_singleton, Dispatch.failureLine_eq, Mark.marks_line]
    cases mark <;> rfl
  | malformed _ =>
    rw [List.countP_singleton, Mark.marks_line]
    cases mark <;> rfl
  | rejected cause _ =>
    rw [List.countP_singleton, Mark.marks_line]
    cases mark <;> rfl

/-- Calls and ends are not among what is reported of what is counted. -/
theorem Tells.filter_eq_nil {counter : Option Counter} {verdict : List Line}
    (h : passage.Tells counter verdict) {mark : Mark}
    (hmark : ∀ counter, Counter.mark? counter ≠ some mark) : verdict.filter mark.marks = [] := by
  have hnone : counter.bind Counter.mark? ≠ some mark := by
    cases counter with
    | none => exact nofun
    | some counter => exact hmark counter
  rw [List.filter_eq_nil_iff, ← List.countP_eq_zero, h.countP, if_neg hnone]

namespace Told

variable {counter : Option Counter} {others verdict : List Line}

/-- The reports of one kind at a line are among those of the call and of what is counted. -/
theorem filter_reports (h : passage.Told counter others verdict) (mark : Mark) :
    passage.reports.filter mark.marks =
      (if mark = .called then passage.call?.toList.map Call.line else []) ++
        verdict.filter mark.marks := by
  have hcalls : (passage.call?.toList.map Call.line).filter mark.marks =
      if mark = .called then passage.call?.toList.map Call.line else [] := by
    split
    · next hmark =>
      refine List.filter_eq_self.2 (List.forall_mem_map.2 fun call _ => ?_)
      rw [marks_call, decide_eq_true hmark]
    · next hmark =>
      refine List.filter_eq_nil_iff.2 (List.forall_mem_map.2 fun call _ => ?_)
      rw [marks_call, decide_eq_false hmark]
      exact Bool.false_ne_true
  rw [h.reports, List.filter_append, List.filter_append, filter_unmarked h.unmarked, hcalls,
    List.nil_append]

/-- A counter goes up by the reports that go with it. -/
theorem count_after (h : passage.Told counter others verdict) {c : Counter} {mark : Mark}
    (hmark : c.mark? = some mark) :
    passage.after.stats.count c =
      passage.before.stats.count c + passage.reports.countP mark.marks := by
  have hnone : mark ≠ .called := by
    rintro rfl
    cases c <;> cases hmark
  have hsame : counter.bind Counter.mark? = some mark ↔ counter = some c := by
    cases counter with
    | none => exact iff_of_false nofun nofun
    | some counter => cases c <;> cases hmark <;> cases counter <;> simp [Counter.mark?]
  rw [h.moves.count, List.countP_eq_length_filter, h.filter_reports, if_neg hnone, List.nil_append,
    ← List.countP_eq_length_filter, h.tells.countP]
  simp only [hsame]

theorem filter_called (h : passage.Told counter others verdict) :
    passage.reports.filter Mark.called.marks = passage.call?.toList.map Call.line := by
  have hverdict : verdict.filter Mark.called.marks = [] :=
    h.tells.filter_eq_nil fun counter => by cases counter <;> decide
  rw [h.filter_reports, if_pos rfl, hverdict, List.append_nil]

theorem filter_finished (h : passage.Told counter others verdict) :
    passage.reports.filter Mark.finished.marks = [] := by
  have hverdict : verdict.filter Mark.finished.marks = [] :=
    h.tells.filter_eq_nil fun counter => by cases counter <;> decide
  rw [h.filter_reports, if_neg (by decide), hverdict, List.nil_append]

end Told

end Passage

/-! ### One run -/

/-- What a run reports at its end. -/
def ending : Except RunError Stats → List Line
  | .ok stats => [Mark.finished.line stats.text]
  | .error _ => []

/-- Until then it reports what its lines report, in their order. -/
theorem reports_runLines (replay : Replay) (number : Nat) (lines : List (List UInt8)) :
    (replay.runLines number lines).2.2 =
      (replay.passages number lines).flatMap Passage.reports := by
  induction lines generalizing replay number with
  | nil => rfl
  | cons line lines ih =>
    rw [runLines, passages, List.flatMap_cons, Passage.reports]
    dsimp only
    rcases replay.runLine number line with ⟨_ | _, after, reports⟩
    · exact (List.append_nil reports).symm
    · dsimp only
      rw [ih]

theorem reports_run (replay : Replay) (trace : List UInt8) :
    (replay.run trace).2.2 =
      (replay.passages 1 (traceLines trace)).flatMap Passage.reports ++
        ending (replay.run trace).1 := by
  rw [← reports_runLines]
  unfold run
  rcases replay.runLines 1 (traceLines trace) with ⟨_ | _, after, reports⟩
  · exact (List.append_nil reports).symm
  · rfl

/-- The end is reported, and nothing else with it. -/
theorem filter_ending (result : Except RunError Stats) (mark : Mark) :
    (ending result).filter mark.marks = if mark = .finished then ending result else [] := by
  cases result with
  | error e => exact (ite_self _).symm
  | ok stats =>
    rw [ending, List.filter_cons, List.filter_nil, Mark.marks_line]
    cases mark <;> rfl

/-- What a dispatch keeps of the dispatcher in use, all lines of a run find. -/
theorem shared_passages {P : Shared → Prop}
    (hdispatch : ∀ shared occurrence, P shared → P (shared.dispatch occurrence).2.1)
    {replay : Replay} (h : P replay.shared) (number : Nat) (lines : List (List UInt8)) :
    ∀ passage ∈ replay.passages number lines, P passage.before.shared := by
  induction lines generalizing replay number with
  | nil => exact List.forall_mem_nil _
  | cons line lines ih =>
    have hafter := shared_runLine hdispatch replay number line h
    rw [passages]
    refine List.forall_mem_cons.2 ⟨h, ?_⟩
    generalize replay.runLine number line = first at hafter ⊢
    obtain ⟨_ | _, after, reports⟩ := first
    · exact List.forall_mem_nil _
    · exact ih hafter (number + 1)

theorem ready_passages {replay : Replay} (hready : replay.shared.Ready) (number : Nat)
    (lines : List (List UInt8)) :
    ∀ passage ∈ replay.passages number lines, passage.before.shared.Ready :=
  shared_passages (P := Shared.Ready) (fun _ occurrence h => h.dispatch occurrence) hready number
    lines

/-- A counter goes up along a run by what its lines report of the kind that goes with it. -/
theorem count_runLines {replay : Replay} (hready : replay.shared.Ready) (number : Nat)
    (lines : List (List UInt8)) {counter : Counter} {mark : Mark}
    (hmark : counter.mark? = some mark) :
    (replay.runLines number lines).2.1.stats.count counter =
      replay.stats.count counter + (replay.runLines number lines).2.2.countP mark.marks := by
  induction lines generalizing replay number with
  | nil => rfl
  | cons line lines ih =>
    obtain ⟨_, _, _, htold⟩ := Passage.told ⟨replay, number, line⟩ hready
    have hline := htold.count_after hmark
    have hafter := shared_runLine (P := Shared.Ready) (fun _ occurrence h => h.dispatch occurrence)
      replay number line hready
    simp only [Passage.after, Passage.reports] at hline
    rw [runLines]
    generalize replay.runLine number line = first at hline hafter ⊢
    obtain ⟨_ | _, after, reports⟩ := first
    · exact hline
    · dsimp only at hline ⊢
      rw [ih hafter, hline, List.countP_append, Nat.add_assoc]

/-- The story of a run, as its reports and its counts tell it. -/
structure Story (replay : Replay) (trace : List UInt8) : Prop where
  /-- The reports are those of the lines that the run comes to, one after the other, and one at the
  end. -/
  reports : (replay.run trace).2.2 =
    (replay.passages 1 (traceLines trace)).flatMap Passage.reports ++ ending (replay.run trace).1
  /-- Each line is told by the call that it leads to and by what is counted of it. -/
  told : ∀ passage ∈ replay.passages 1 (traceLines trace),
    ∃ counter others verdict, passage.Told counter others verdict
  /-- The call that a line leads to is the one that its dispatch makes. -/
  made : ∀ passage ∈ replay.passages 1 (traceLines trace), ∀ occurrence,
    passage.occurrence? = some occurrence →
      passage.before.shared.dispatcher.Reaches occurrence passage.call?
        (passage.before.shared.dispatcher.attempt occurrence)
  /-- Every counter that a kind of reports goes with has gone up by the reports of that kind. -/
  counted : ∀ counter mark, Counter.mark? counter = some mark →
    (replay.run trace).2.1.stats.count counter =
      replay.stats.count counter + (replay.run trace).2.2.countP mark.marks
  /-- Every call is reported, and no other. -/
  called : (replay.run trace).2.2.filter Mark.called.marks =
    ((replay.passages 1 (traceLines trace)).filterMap Passage.call?).map Call.line
  /-- The end is reported if the run goes through. -/
  finished : (replay.run trace).2.2.filter Mark.finished.marks = ending (replay.run trace).1
  returned : ∀ stats, (replay.run trace).1 = .ok stats → stats = (replay.run trace).2.1.stats

/-- Whatever the trace, the script and the policy, the reports of a run and its counts tell the same
story. -/
theorem runs_tell_their_story (replay : Replay) (hready : replay.shared.Ready)
    (trace : List UInt8) : Story replay trace := by
  have htold : ∀ passage ∈ replay.passages 1 (traceLines trace),
      ∃ counter others verdict, passage.Told counter others verdict :=
    fun passage hpassage => passage.told (ready_passages hready 1 _ passage hpassage)
  constructor
  case reports => exact reports_run replay trace
  case told => exact htold
  case made =>
    intro passage hpassage occurrence hoccurrence
    rw [Passage.call?, hoccurrence]
    exact Dispatcher.reaches_attempt (ready_passages hready 1 _ passage hpassage) occurrence
  case counted =>
    intro counter mark hmark
    have hend : mark ≠ .finished := by
      rintro rfl
      cases counter <;> cases hmark
    have hafter : (replay.run trace).2.1 = (replay.runLines 1 (traceLines trace)).2.1 :=
      after_round ⟨replay, trace⟩
    have hending : (ending (replay.run trace).1).countP mark.marks = 0 := by
      rw [List.countP_eq_length_filter, filter_ending, if_neg hend, List.length_nil]
    rw [hafter, count_runLines hready 1 _ hmark, reports_run, reports_runLines,
      List.countP_append, hending, Nat.add_zero]
  case called =>
    rw [reports_run, List.filter_append, filter_ending, if_neg (by decide), List.append_nil,
      List.filter_flatMap, List.filterMap_eq_flatMap_toList, List.map_flatMap]
    refine List.flatMap_congr fun passage hpassage => ?_
    obtain ⟨_, _, _, h⟩ := htold passage hpassage
    exact h.filter_called
  case finished =>
    have hlines : ((replay.passages 1 (traceLines trace)).flatMap Passage.reports).filter
        Mark.finished.marks = [] := by
      rw [List.filter_flatMap, List.flatMap_eq_nil_iff]
      intro passage hpassage
      obtain ⟨_, _, _, h⟩ := htold passage hpassage
      exact h.filter_finished
    rw [reports_run, List.filter_append, filter_ending, if_pos rfl, hlines, List.nil_append]
  case returned =>
    intro stats hstats
    have hresult := result_round ⟨replay, trace⟩
    rw [Round.result, hstats] at hresult
    cases hended : (replay.runLines 1 (traceLines trace)).1 with
    | error e =>
      rw [hended] at hresult
      cases hresult
    | ok _ =>
      rw [hended] at hresult
      exact Except.ok.inj hresult

/-- A line that is no event and a handler that raises: each is counted once, and reported once. -/
theorem reports_of_two_lines :
    let scripting : Config.Scripting := ⟨"monitor.lua", "cybermon", 16, 4, .log, false⟩
    let script := "[[\"set\",\"trigger_down\",\x7b\"fn\":[[\"err\",\"boom\"]]\x7d]]"
    let down := "\x7b\"event\":\"trigger_down\",\"liid\":\"a\"\x7d"
    let trace := ("nonsense\n" ++ down).toUTF8.data.toList
    ∃ shared, (Shared.start scripting (.text script.toUTF8.data.toList)).1 = .ok shared ∧
      ((new shared).run trace).2.2.countP Mark.skipped.marks = 1 ∧
      ((new shared).run trace).2.2.countP Mark.failed.marks = 1 ∧
      ((new shared).run trace).2.2.filter Mark.finished.marks =
        [Mark.finished.line "2 line(s): 0 handled, 0 without handler, 1 failed, 1 skipped"] := by
  intro scripting script down trace
  have hran : (Shared.start scripting (.text script.toUTF8.data.toList)).1.toOption.any
      (fun shared => decide (((new shared).run trace).1.toOption = some ⟨2, 0, 0, 1, 1⟩)) =
      true := by decide +kernel
  obtain ⟨shared, hstart, hshared⟩ := (Option.any_eq_true _ _).mp hran
  have hstart := Host.eq_ok_of_toOption hstart
  have hresult := Host.eq_ok_of_toOption (of_decide_eq_true hshared)
  have hstory : Story (new shared) trace :=
    runs_tell_their_story (new shared) (Shared.ready_of_start hstart).1 trace
  have hstats := hstory.returned _ hresult
  have hskipped := hstory.counted .skipped .skipped rfl
  have hfailed := hstory.counted .failed .failed rfl
  have hfinished := hstory.finished
  rw [← hstats] at hskipped hfailed
  rw [hresult] at hfinished
  refine ⟨shared, hstart, ?_, ?_, hfinished⟩
  · exact (hskipped.trans (Nat.zero_add _)).symm
  · exact (hfailed.trans (Nat.zero_add _)).symm

end EventBridge.Replay
