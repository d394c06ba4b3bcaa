import EventBridge.Proofs.Replay.Independence
import EventBridge.Proofs.Replay.Reports

/-! # Which runs reach the end of their trace

  Under the policy that logs failures no event ends a run, whatever it says and whatever its handler
  does, and what is no event is reported and skipped. A line that is no text ends the run all the
  same.

  * `Passage.Completed` has what becomes of a line that is counted, in four cases.
    `Passage.completed` says that there are no others.
  * `result_runLine` has behind which lines a run goes on, and `ends_runLines` what ends it.
  * `Completion` is what follows for a whole run, and `completion_of_logs` the statement about all
    traces. `not_run_of_notText` is a trace that is not run to its end.
-/

namespace EventBridge.Replay

open Dispatch (Occurrence Outcome Shared failureLine)
open Trace (Event)

/-- A line that is text. -/
def IsText (line : List UInt8) : Prop := Text.Utf8.decode? line ≠ none

instance : DecidablePred IsText := fun line =>
  inferInstanceAs (Decidable (Text.Utf8.decode? line ≠ none))

/-! ### One line -/

namespace Passage

/-- What becomes of a line that is counted, where failures are logged. -/
inductive Completed (passage : Passage) : Prop where
  /-- It adds a target. -/
  | target : passage.isTarget = true → passage.after.stats = passage.before.stats.readLine →
    Completed passage
  /-- Its event is applied. -/
  | applied {event : Event} {outcome : Outcome} : Reading.of passage.line = .event event →
    (passage.before.counting.apply event).1 = .ok (some outcome) → outcome ≠ .failed →
    passage.after.stats = passage.before.stats.readLine.raise (.ofOutcome outcome) →
    Completed passage
  /-- Its handler fails, which is reported. -/
  | failed {occurrence : Occurrence} (cause : BridgeError) :
    passage.occurrence? = some occurrence →
    failureLine occurrence.handler cause ∈ passage.reports →
    passage.after.stats = passage.before.stats.readLine.raise .failed → Completed passage
  /-- It is reported and skipped. Everything but the counts is as it was. -/
  | skipped (why : String) : Mark.skipped.line why ∈ passage.reports →
    passage.after = passage.before.counting.missing → Completed passage

variable {passage : Passage}

/-- Where a failure has been counted, it has been reported. -/
theorem completed_of_failed (hready : passage.before.shared.Ready)
    (hstats : passage.after.stats = passage.before.stats.readLine.raise .failed) :
    passage.Completed := by
  obtain ⟨counter, others, verdict, htold⟩ := passage.told hready
  have hmoved : counter = some .failed := by
    have hcount := htold.moves.count .failed
    rw [hstats] at hcount
    by_contra hother
    rw [if_neg hother] at hcount
    exact Nat.succ_ne_self _ hcount
  have hreports := htold.reports
  have htells := htold.tells
  rw [hmoved] at htells
  cases htells with
  | failed cause hoccurrence =>
    refine .failed cause hoccurrence ?_ hstats
    rw [hreports]
    exact List.mem_append_right _ (List.mem_singleton_self _)

/-- An event that is turned down leaves everything but the counts. -/
theorem completed_of_rejected {event : Event} {cause : EventError}
    (hreading : Reading.of passage.line = .event event)
    (happly : (passage.before.counting.apply event).1 = .error cause)
    (hcause : cause.IsRejection) : passage.Completed := by
  have hline := runLine_of_event hreading passage.before passage.number
  have hskipped := hline.trans (runEvent_of_rejection happly hcause passage.number)
  have hreported : Mark.skipped.line (event.name ++ " on line " ++ toString passage.number ++
      ": " ++ cause.message) ∈ passage.reports := by
    rw [reports, hskipped]
    exact List.mem_singleton_self _
  exact .skipped _ hreported (congrArg (·.2.1) hskipped)

/-- The line of an event is completed by what applying the event comes to. -/
theorem completed_of_event (h : passage.before.shared.Logs) {event : Event}
    (hreading : Reading.of passage.line = .event event) : passage.Completed := by
  have hstats := congrArg Prod.snd
    (passage.before.counting.result_runEvent passage.number event)
  have hline := runLine_of_event hreading passage.before passage.number
  rw [← hline] at hstats
  cases happly : (passage.before.counting.apply event).1 with
  | ok outcome =>
    rw [happly] at hstats
    match outcome with
    | none =>
      have htarget := (passage.before.counting.apply_eq_none_iff event).1 happly
      exact .target (by rwa [isTarget, hreading]) hstats
    | some .handled => exact .applied hreading happly (by decide) hstats
    | some .noHandler => exact .applied hreading happly (by decide) hstats
    | some .failed => exact completed_of_failed h.1 hstats
  | error cause =>
    refine completed_of_rejected hreading happly ?_
    cases cause with
    | bridge cause =>
      -- Such a failure would have been logged.
      have hlogs : passage.before.counting.shared.Logs := h
      have hfate := (apply_of_logs hlogs event).1
      rw [happly] at hfate
      exact absurd hfate.symm (Course.fate_goes_on _).2
    | _ => trivial

/-- Where failures are logged, every line that is counted is completed. -/
theorem completed (h : passage.before.shared.Logs) (hcounts : passage.counts = true) :
    passage.Completed := by
  have hline := passage.before.runLine_eq passage.number passage.line
  cases hreading : Reading.of passage.line with
  | noText =>
    rw [counts, hreading] at hcounts
    cases hcounts
  | blank =>
    rw [counts, hreading] at hcounts
    cases hcounts
  | noEvent cause =>
    rw [hreading] at hline
    have hreported : Mark.skipped.line ("malformed line " ++ toString passage.number ++ ": " ++
        cause.message) ∈ passage.reports := by
      rw [reports, hline]
      exact List.mem_singleton_self _
    exact .skipped _ hreported (congrArg (·.2.1) hline)
  | event event => exact completed_of_event h hreading

end Passage

theorem isText_iff (line : List UInt8) : IsText line ↔ Reading.of line ≠ .noText := by
  unfold IsText Reading.of
  cases Text.Utf8.decode? line with
  | none => exact iff_of_false (absurd rfl) (absurd rfl)
  | some text =>
    refine iff_of_true nofun ?_
    dsimp only
    split
    · exact nofun
    · split <;> exact nofun

/-- What a line says does not end a run. -/
theorem Scene.fate_eq_unreadable_iff (scene : Scene) (line : List UInt8) :
    scene.fate line = .unreadable ↔ ¬ IsText line := by
  rw [isText_iff, not_not]
  unfold fate
  cases Reading.of line with
  | noText => exact iff_of_true rfl rfl
  | event event => exact iff_of_false (scene.course event).fate_goes_on.1 nofun
  | _ => exact iff_of_false nofun nofun

/-- Where failures are logged, a run goes on behind every line of text, and behind no other. -/
theorem result_runLine {replay : Replay} (h : replay.shared.Logs) (number : Nat)
    (line : List UInt8) :
    IsText line ∧ (replay.runLine number line).1 = .ok () ∨
      ¬ IsText line ∧ (replay.runLine number line).1 = .error (.unreadable number .notText) := by
  have hread : (replay.runLine number line).1 = (replay.outline.read number line).1 :=
    congrArg Prod.fst (runLine_of_logs h number line)
  rw [hread]
  unfold Outline.read
  dsimp only
  split
  · next hfate => exact .inr ⟨(Scene.fate_eq_unreadable_iff _ line).1 hfate, rfl⟩
  · next hfate =>
    exact .inl ⟨not_not.1 fun hother => hfate ((Scene.fate_eq_unreadable_iff _ line).2 hother), rfl⟩

/-! ### One run -/

/-- What a run of some lines comes to: all of them are text, or the first that is none ends it. -/
inductive Ends (number : Nat) (lines : List (List UInt8)) : Except RunError Unit → Prop where
  | through : (∀ line ∈ lines, IsText line) → Ends number lines (.ok ())
  | broken (before : List (List UInt8)) (line : List UInt8) (rest : List (List UInt8)) :
    lines = before ++ line :: rest → (∀ earlier ∈ before, IsText earlier) → ¬ IsText line →
    Ends number lines (.error (.unreadable (number + before.length) .notText))

theorem ends_runLines {replay : Replay} (h : replay.shared.Logs) (number : Nat)
    (lines : List (List UInt8)) : Ends number lines (replay.runLines number lines).1 := by
  induction lines generalizing replay number with
  | nil => exact .through nofun
  | cons line lines ih =>
    have hafter := shared_runLine (P := Shared.Logs) (fun _ occurrence h => h.dispatch occurrence)
      replay number line h
    have hresult := result_runLine h number line
    rw [runLines]
    generalize replay.runLine number line = first at hafter hresult ⊢
    obtain ⟨result, after, reports⟩ := first
    rcases hresult with ⟨htext, rfl⟩ | ⟨hother, rfl⟩
    · dsimp only
      have hrest := ih hafter (number + 1)
      generalize after.runLines (number + 1) lines = ran at hrest ⊢
      obtain ⟨result, final, more⟩ := ran
      cases hrest with
      | through hall => exact .through (List.forall_mem_cons.2 ⟨htext, hall⟩)
      | broken before last rest hlines hbefore hother =>
        rw [show number + 1 + before.length = number + (line :: before).length by
          rw [List.length_cons]; omega]
        exact .broken (line :: before) last rest (by rw [hlines]; rfl)
          (List.forall_mem_cons.2 ⟨htext, hbefore⟩) hother
    · exact .broken [] line lines rfl nofun hother

/-- What a run of a trace comes to where failures are logged. -/
structure Completion (replay : Replay) (trace : List UInt8) : Prop where
  /-- The run goes through exactly if every line of the trace is text. -/
  through : (∃ stats, (replay.run trace).1 = .ok stats) ↔ ∀ line ∈ traceLines trace, IsText line
  /-- Otherwise the first line that is none ends it, and it returns just that. -/
  broken : ∀ e, (replay.run trace).1 = .error e → ∃ before line rest,
    traceLines trace = before ++ line :: rest ∧ (∀ earlier ∈ before, IsText earlier) ∧
      ¬ IsText line ∧ e = .unreadable (before.length + 1) .notText
  /-- It comes to all lines up to its end, be it that of the trace. -/
  consumed : (replay.passages 1 (traceLines trace)).map Passage.line =
    Round.consumed ⟨replay, trace⟩
  /-- What is counted of them is completed. -/
  completed : ∀ passage ∈ replay.passages 1 (traceLines trace), passage.counts = true →
    passage.Completed

/-- Where failures are logged, nothing but a line that is no text keeps a run from the end of its
trace, whatever the trace and the script. -/
theorem completion_of_logs (replay : Replay) (hlogs : replay.shared.Logs) (trace : List UInt8) :
    Completion replay trace := by
  have hresult : (replay.run trace).1 =
      (replay.runLines 1 (traceLines trace)).1.map fun () => (replay.run trace).2.1.stats :=
    result_round ⟨replay, trace⟩
  have hends := ends_runLines hlogs 1 (traceLines trace)
  generalize (replay.runLines 1 (traceLines trace)).1 = result at hresult hends
  constructor
  case through =>
    rw [hresult]
    cases hends with
    | through hall => exact iff_of_true ⟨_, rfl⟩ hall
    | broken before line rest hlines _ hother =>
      refine iff_of_false nofun fun hall => hother (hall line ?_)
      rw [hlines]
      exact List.mem_append_right _ List.mem_cons_self
  case broken =>
    intro e he
    rw [hresult] at he
    cases hends with
    | through _ => cases he
    | broken before line rest hlines hbefore hother =>
      cases he
      exact ⟨before, line, rest, hlines, hbefore, hother, by rw [Nat.add_comm]⟩
  case consumed => exact line_passages_round ⟨replay, trace⟩
  case completed =>
    intro passage hpassage hcounts
    have hbefore := shared_passages (P := Shared.Logs) (fun _ occurrence h => h.dispatch occurrence)
      hlogs 1 (traceLines trace) passage hpassage
    exact passage.completed hbefore hcounts

/-- A line that is no event and a handler that raises: the run goes on behind both. -/
theorem completion_of_two_lines :
    let scripting : Config.Scripting := ⟨"monitor.lua", "cybermon", 16, 4, .log, false⟩
    let script := "[[\"set\",\"trigger_down\",\x7b\"fn\":[[\"err\",\"boom\"]]\x7d]]"
    let down := "\x7b\"event\":\"trigger_down\",\"liid\":\"a\"\x7d"
    let trace := ("nonsense\n" ++ down).toUTF8.data.toList
    ∃ shared, (Shared.start scripting (.text script.toUTF8.data.toList)).1 = .ok shared ∧
      shared.Logs ∧ (∃ stats, ((new shared).run trace).1 = .ok stats) ∧
      ∀ passage ∈ (new shared).passages 1 (traceLines trace), passage.counts = true →
        passage.Completed := by
  intro scripting script down trace
  have hstarts : (Shared.start scripting (.text script.toUTF8.data.toList)).1.toOption.isSome :=
    by decide +kernel
  obtain ⟨shared, hstart⟩ := Option.isSome_iff_exists.1 hstarts
  have hstart := Host.eq_ok_of_toOption hstart
  have hlogs : shared.Logs := Shared.ready_of_start hstart
  have hcompletion := completion_of_logs (new shared) hlogs trace
  have htext : ∀ line ∈ traceLines trace, IsText line := by decide +kernel
  exact ⟨shared, hstart, hlogs, hcompletion.through.2 htext, hcompletion.completed⟩

/-- One byte that is no text, and the run is not completed, although the policy is to log. -/
theorem not_run_of_notText :
    let scripting : Config.Scripting := ⟨"monitor.lua", "cybermon", 16, 4, .log, false⟩
    ∃ shared, (Shared.start scripting (.text "[]".toUTF8.data.toList)).1 = .ok shared ∧
      shared.Logs ∧ ((new shared).run [0xff]).1 = .error (.unreadable 1 .notText) ∧
      ¬ ∃ stats, ((new shared).run [0xff]).1 = .ok stats := by
  intro scripting
  have hstarts : (Shared.start scripting (.text "[]".toUTF8.data.toList)).1.toOption.isSome := by
    decide +kernel
  obtain ⟨shared, hstart⟩ := Option.isSome_iff_exists.1 hstarts
  have hstart := Host.eq_ok_of_toOption hstart
  have hended : ((new shared).run [0xff]).1 = .error (.unreadable 1 .notText) := rfl
  refine ⟨shared, hstart, Shared.ready_of_start hstart, hended, ?_⟩
  rw [hended]
  exact nofun

end EventBridge.Replay
