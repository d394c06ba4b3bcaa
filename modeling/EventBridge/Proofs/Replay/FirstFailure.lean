import EventBridge.Proofs.Replay.Stages

/-! # The first failure

  Two runs of a trace with one script, the one logging the failures of handlers and the other
  returning them, are the same run as long as no handler fails. At the first failure the second one
  ends, and the first goes on.

  * `runLine_under` is the step: on a line the two runs agree, or they part there, and `Parting` is
    what then still holds between them.
  * How often a handler has failed only grows in a run, so a run that has counted no failure agreed
    with the other at each of its lines (`runLines_under`).
-/

namespace EventBridge

open Dispatch (Dispatcher Occurrence Outcome Shared Source failureLine)
open Log (Line)
open Trace (Event)

/-! ### Dispatchers under both policies -/

namespace Dispatch.Shared

/-- The policy has no part in loading a script. -/
theorem start_under (scripting : Config.Scripting) (source : Source) (policy : ErrorPolicy) :
    start { scripting with errorPolicy := policy } source =
      ((start scripting source).1.map (·.under policy), (start scripting source).2) := by
  unfold start
  rw [Dispatcher.build_under]
  generalize Dispatcher.build scripting source 1 = built
  obtain ⟨_ | dispatcher, lines⟩ := built
  · rfl
  · rfl

end Dispatch.Shared

namespace Replay

/-- The same replay under another policy. -/
def under (replay : Replay) (policy : ErrorPolicy) : Replay :=
  { replay with shared := replay.shared.under policy }

@[simp] theorem scene_under (replay : Replay) (policy : ErrorPolicy) :
    (replay.under policy).scene = replay.scene := rfl

@[simp] theorem counting_under (replay : Replay) (policy : ErrorPolicy) :
    (replay.under policy).counting = replay.counting.under policy := rfl

/-! ### Where two runs part -/

/-- A scene without the connection that an event opens. -/
def Scene.without (scene : Scene) : Event → Scene
  | .connectionUp name .. => scene.closeConnection name
  | _ => scene

/-- Two runs have been the same up to the line of an event, and part there. The handler that the
    event is for fails, which one of them logs before it goes on and the other returns. What the
    line has left is the same in both, but for the connection that it opens. -/
structure Parting {α : Type} (before : Replay) (number : Nat) (event : Event)
    (occurrence : Occurrence) (cause : BridgeError) (logged : LineResult)
    (returned : Except RunError α × Replay × List Line) : Prop where
  occurs : (before.scene.course event).occurrence? = some occurrence
  /-- The failure is the one that a dispatch of the handler runs into. -/
  fails : (before.shared.dispatcher.attempt occurrence).1 = .error cause
  goesOn : logged.1 = .ok ()
  stops : returned.1 = .error (.bridge event.name number cause)
  shared : returned.2.1.shared = logged.2.1.shared.under .propagate
  scene : returned.2.1.scene = logged.2.1.scene.without event
  /-- A connection that the event opens or closes is not open. -/
  turned : TurnsConnection event → ∀ name, about? event = some name →
    returned.2.1.connection? name = none
  stats : logged.2.1.stats = returned.2.1.stats.record .failed
  reports : logged.2.2 = returned.2.2 ++ [failureLine occurrence.handler cause]

theorem Scene.without_eq_self {event : Event} (h : ¬ TurnsConnection event) (scene : Scene) :
    scene.without event = scene := by
  cases event with
  | connectionUp => exact absurd trivial h
  | _ => rfl

theorem Scene.closeConnection_openConnection {scene : Scene} {name : String}
    (h : scene.connection? name = none) (context : Engine.Context) :
    (scene.openConnection name context).closeConnection name = scene := by
  unfold openConnection closeConnection
  dsimp only
  rw [Keyed.erase_put, Keyed.erase_of_lookup_eq_none h]

/-- Of the two scenes that a call leads to, the one after a failure has no connection that the event
    opens or closes, and is the other one but for that. -/
theorem Scene.Takes.failed_eq {scene through failed : Scene} {event : Event}
    {occurrence : Occurrence} {lines : List Line}
    (h : scene.Takes event (.call occurrence through failed lines)) :
    failed = through.without event ∧
      (TurnsConnection event → ∀ name, about? event = some name →
        failed.connection? name = none) := by
  cases h with
  | trigger hturns _ => exact ⟨(without_eq_self hturns _).symm, fun h => absurd h hturns⟩
  | exchange hturns _ _ _ => exact ⟨(without_eq_self hturns _).symm, fun h => absurd h hturns⟩
  | @up name _ _ _ _ _ _ context engine _ hname _ =>
    have hfresh : connection? { scene with engine := engine } name = none := hname
    refine ⟨(closeConnection_openConnection hfresh context).symm, ?_⟩
    rintro - name ⟨⟩
    exact hname
  | down hname =>
    refine ⟨rfl, ?_⟩
    rintro - name ⟨⟩
    simp only [connection?_closeConnection, beq_self_eq_true, if_true]

/-- An event under the two policies. -/
theorem apply_under {replay : Replay} (h : replay.shared.Logs) (event : Event) :
    ((replay.apply event).1 ≠ .ok (some .failed) ∧
      (replay.under .propagate).apply event =
        ((replay.apply event).1, (replay.apply event).2.1.under .propagate,
          (replay.apply event).2.2)) ∨
    ∃ occurrence through failed lines cause after more,
      replay.scene.course event = .call occurrence through failed lines ∧
      (replay.shared.dispatcher.attempt occurrence).1 = .error cause ∧
      replay.apply event =
        (.ok (some .failed), { replay.move through with shared := after },
          lines ++ (more ++ [failureLine occurrence.handler cause])) ∧
      (replay.under .propagate).apply event =
        (.error (.bridge cause),
          { replay.move failed with shared := after.under .propagate }, lines ++ more) := by
  rw [apply_eq_follow, apply_eq_follow, scene_under]
  cases replay.scene.course event with
  | rejected cause => exact .inl ⟨nofun, rfl⟩
  | silent after lines => exact .inl ⟨nofun, rfl⟩
  | call occurrence through failed lines =>
    unfold Course.follow
    dsimp only
    rcases h.dispatch_cases occurrence with
      ⟨outcome, after, more, hne, hlog, hreturn⟩ | ⟨cause, after, more, hfails, hlog, hreturn⟩
    · refine .inl ?_
      rw [hlog, show (replay.under .propagate).shared = replay.shared.under .propagate from rfl,
        hreturn]
      exact ⟨fun h => hne (Option.some.inj (Except.ok.inj h)), rfl⟩
    · refine .inr ⟨occurrence, through, failed, lines, cause, after, more, rfl, hfails, ?_, ?_⟩
      · rw [hlog]
      · rw [show (replay.under .propagate).shared = replay.shared.under .propagate from rfl,
          hreturn]
        rfl

/-! ### One line -/

/-- Of what an event comes to, only a failure that is logged is counted as one. -/
theorem failed_runEvent (replay : Replay) (number : Nat) (event : Event) :
    (replay.runEvent number event).2.1.stats.failed =
      match (replay.apply event).1 with
      | .ok (some .failed) => replay.stats.failed + 1
      | _ => replay.stats.failed := by
  have hstats := congrArg Stats.failed (replay.stats_apply event)
  unfold runEvent
  generalize replay.apply event = applied at hstats ⊢
  obtain ⟨result, after, lines⟩ := applied
  rw [← hstats]
  cases result with
  | ok outcome =>
    cases outcome with
    | none => rfl
    | some outcome => cases outcome <;> rfl
  | error e => cases e <;> rfl

/-- How often a handler has failed only grows. -/
theorem failed_le_runLine (replay : Replay) (number : Nat) (line : List UInt8) :
    replay.stats.failed ≤ (replay.runLine number line).2.1.stats.failed := by
  rw [runLine_eq]
  cases Reading.of line with
  | event event =>
    dsimp only
    rw [failed_runEvent]
    split
    · exact Nat.le_succ _
    · exact Nat.le_refl _
  | _ => exact Nat.le_refl _

theorem failed_le_runLines (replay : Replay) (number : Nat) (lines : List (List UInt8)) :
    replay.stats.failed ≤ (replay.runLines number lines).2.1.stats.failed := by
  induction lines generalizing replay number with
  | nil => exact Nat.le_refl _
  | cons line lines ih =>
    have hline := failed_le_runLine replay number line
    rw [runLines]
    generalize replay.runLine number line = first at hline ⊢
    obtain ⟨_ | _, after, reports⟩ := first
    · exact hline
    · exact Nat.le_trans hline (ih after (number + 1))

/-- A line under the two policies: it comes to the same, or the runs part at it. -/
theorem runLine_under {replay : Replay} (h : replay.shared.Logs) (number : Nat)
    (line : List UInt8) :
    ((replay.runLine number line).2.1.stats.failed = replay.stats.failed ∧
      (replay.under .propagate).runLine number line =
        ((replay.runLine number line).1, (replay.runLine number line).2.1.under .propagate,
          (replay.runLine number line).2.2)) ∨
    ((replay.runLine number line).2.1.stats.failed = replay.stats.failed + 1 ∧
      ∃ event occurrence cause, Reading.of line = .event event ∧
        Parting replay number event occurrence cause (replay.runLine number line)
          ((replay.under .propagate).runLine number line)) := by
  rw [runLine_eq, runLine_eq]
  cases Reading.of line with
  | noText => exact .inl ⟨rfl, rfl⟩
  | blank => exact .inl ⟨rfl, rfl⟩
  | noEvent cause => exact .inl ⟨rfl, rfl⟩
  | event event =>
    dsimp only
    rw [counting_under]
    have hlogs : replay.counting.shared.Logs := h
    rcases apply_under hlogs event with ⟨hne, hreturn⟩ |
      ⟨occurrence, through, failed, lines, cause, after, more, hcourse, hfails, hlog, hreturn⟩
    · refine .inl ⟨?_, ?_⟩
      · rw [failed_runEvent]
        split
        · next hfailed => exact absurd hfailed hne
        · rfl
      · unfold runEvent
        rw [hreturn]
        generalize replay.counting.apply event = applied
        obtain ⟨(_ | _ | _ | _) | (_ | _), after, lines⟩ := applied <;> rfl
    · refine .inr ?_
      unfold runEvent
      rw [hreturn, hlog]
      obtain ⟨hfailed, hturned⟩ := Scene.Takes.failed_eq (hcourse ▸ replay.scene.takes_course event)
      refine ⟨rfl, event, occurrence, cause, rfl, ?_⟩
      exact {
        occurs := congrArg Course.occurrence? hcourse
        fails := hfails
        goesOn := rfl
        stops := rfl
        shared := rfl
        scene := hfailed
        turned := hturned
        stats := rfl
        reports := (List.append_assoc _ _ _).symm }

/-! ### A whole trace -/

/-- A run that counts no further failure is the same under the two policies. -/
theorem runLines_under {replay : Replay} (h : replay.shared.Logs) (number : Nat)
    {lines : List (List UInt8)}
    (hsame : (replay.runLines number lines).2.1.stats.failed = replay.stats.failed) :
    (replay.under .propagate).runLines number lines =
      ((replay.runLines number lines).1, (replay.runLines number lines).2.1.under .propagate,
        (replay.runLines number lines).2.2) := by
  induction lines generalizing replay number with
  | nil => rfl
  | cons line lines ih =>
    have hlogs := shared_runLine (P := Shared.Logs) (fun _ occurrence h => h.dispatch occurrence)
      replay number line h
    have hline := failed_le_runLine replay number line
    have hstep := runLine_under h number line
    rw [runLines] at hsame ⊢
    rw [runLines]
    generalize replay.runLine number line = first at hlogs hline hstep hsame ⊢
    generalize (replay.under .propagate).runLine number line = first' at hstep ⊢
    obtain ⟨_ | _, after, reports⟩ := first
    · rcases hstep with ⟨-, hstep⟩ | ⟨hfailed, -⟩
      · rw [hstep]
      · exact absurd (hsame.symm.trans hfailed) (Nat.ne_of_lt (Nat.lt_succ_self _))
    · dsimp only at hsame hline hstep ⊢
      -- The lines after this one cannot take back what it has counted.
      have hrest : after.stats.failed ≤ replay.stats.failed :=
        Nat.le_trans (failed_le_runLines after (number + 1) lines) (Nat.le_of_eq hsame)
      rcases hstep with ⟨hkept, hstep⟩ | ⟨hfailed, -⟩
      · rw [hstep]
        dsimp only
        rw [ih hlogs (number + 1) (hsame.trans hkept.symm)]
      · omega

/-- The last of some lines, with what all before it have reported. -/
theorem runLines_concat {replay : Replay} {number : Nat} {lines : List (List UInt8)}
    (h : (replay.runLines number lines).1 = .ok ()) (line : List UInt8) :
    replay.runLines number (lines ++ [line]) =
      let last := (replay.runLines number lines).2.1.runLine (number + lines.length) line
      (last.1, last.2.1, (replay.runLines number lines).2.2 ++ last.2.2) := by
  rw [runLines_append]
  generalize replay.runLines number lines = ran at h ⊢
  obtain ⟨result, before, reports⟩ := ran
  cases h
  dsimp only
  rw [runLines]
  generalize before.runLine (number + lines.length) line = last
  obtain ⟨_ | _, after, more⟩ := last
  · rfl
  · simp only [runLines, List.append_nil]

/-- A run that ends at some of the lines ends there whatever comes after them. -/
theorem run_of_error {replay : Replay} {trace : List UInt8} {n : Nat} {e : RunError}
    (h : (replay.runLines 1 ((traceLines trace).take n)).1 = .error e) :
    replay.run trace =
      (.error e, (replay.runLines 1 ((traceLines trace).take n)).2.1,
        (replay.runLines 1 ((traceLines trace).take n)).2.2) := by
  unfold run
  rw [← List.take_append_drop n (traceLines trace), runLines_append, List.take_append_drop]
  generalize replay.runLines 1 ((traceLines trace).take n) = ran at h ⊢
  obtain ⟨result, after, reports⟩ := ran
  cases h
  rfl

/-- Where two runs part they have reported the same before. -/
theorem Parting.ofRuns {α : Type} {before : Replay} {number : Nat} {event : Event}
    {occurrence : Occurrence} {cause : BridgeError} {logged returned : LineResult}
    (h : Parting before number event occurrence cause logged returned) (reports : List Line) :
    Parting before number event occurrence cause
      (logged.1, logged.2.1, reports ++ logged.2.2)
      ((.error (.bridge event.name number cause) : Except RunError α), returned.2.1,
        reports ++ returned.2.2) where
  occurs := h.occurs
  fails := h.fails
  goesOn := h.goesOn
  stops := rfl
  shared := h.shared
  scene := h.scene
  turned := h.turned
  stats := h.stats
  reports := by rw [h.reports, List.append_assoc]

/-- A run that logs failures, and has counted none up to a line and one at it, parts there from the
    run that returns them. -/
theorem parting_of_failed {replay : Replay} (h : replay.shared.Logs) {trace : List UInt8} {n : Nat}
    (hnone : (replay.runLines 1 ((traceLines trace).take n)).2.1.stats.failed =
      replay.stats.failed)
    (hsome : (replay.runLines 1 ((traceLines trace).take (n + 1))).2.1.stats.failed ≠
      replay.stats.failed) :
    ∃ line event occurrence cause, (traceLines trace)[n]? = some line ∧
      Reading.of line = .event event ∧
      Parting (replay.runLines 1 ((traceLines trace).take n)).2.1 (n + 1) event occurrence cause
        (replay.runLines 1 ((traceLines trace).take (n + 1)))
        ((replay.under .propagate).run trace) := by
  cases hnext : (traceLines trace)[n]? with
  | none =>
    have hlength := List.getElem?_eq_none_iff.1 hnext
    rw [List.take_of_length_le hlength] at hnone
    rw [List.take_of_length_le (Nat.le_succ_of_le hlength)] at hsome
    exact absurd hnone hsome
  | some line =>
    obtain ⟨hn, -⟩ := List.getElem?_eq_some_iff.1 hnext
    have hlength : ((traceLines trace).take n).length = n :=
      List.length_take_of_le (Nat.le_of_lt hn)
    have htake : (traceLines trace).take (n + 1) = (traceLines trace).take n ++ [line] := by
      rw [List.take_add_one, hnext, Option.toList_some]
    cases hgoes : (replay.runLines 1 ((traceLines trace).take n)).1 with
    | error e =>
      -- Nothing is counted after the end of a run.
      rw [htake, runLines_append] at hsome
      generalize replay.runLines 1 ((traceLines trace).take n) = ran at hgoes hnone hsome
      obtain ⟨result, before, reports⟩ := ran
      cases hgoes
      exact absurd hnone hsome
    | ok _ =>
      have hlogs := shared_runLines (P := Shared.Logs)
        (fun _ occurrence h => h.dispatch occurrence) replay 1 ((traceLines trace).take n) h
      have hsame := runLines_under h 1 hnone
      have hgoes' : ((replay.under .propagate).runLines 1 ((traceLines trace).take n)).1 =
          .ok () := by
        rw [hsame]
        exact hgoes
      -- Both runs come to the line, with the same behind them.
      have hlogged := runLines_concat hgoes line
      have hreturned := runLines_concat hgoes' line
      rw [← htake, hlength, Nat.add_comm 1 n] at hlogged hreturned
      rw [hsame] at hreturned
      rw [hlogged] at hsome ⊢
      rcases runLine_under hlogs (n + 1) line with
        ⟨hkept, -⟩ | ⟨-, event, occurrence, cause, hreading, hparting⟩
      · -- A line that comes to the same in both runs has counted nothing.
        exact absurd (hkept.trans hnone) hsome
      · refine ⟨line, event, occurrence, cause, rfl, hreading, ?_⟩
        have hstops : ((replay.under .propagate).runLines 1 ((traceLines trace).take (n + 1))).1 =
            .error (.bridge event.name (n + 1) cause) := by
          rw [hreturned]
          exact hparting.stops
        rw [run_of_error hstops, hreturned]
        exact hparting.ofRuns _

/-- A script and its settings under the two policies, and a trace. If the run that logs failures
    counts none, then the run that returns them is the same. Otherwise the latter ends at the first
    line at which the former counts one, with the failure that the former reports there, and has
    left everything as the former has after that line. Only a connection that the line opens is not
    open. -/
theorem propagate_stops_at_first_failure (scripting : Config.Scripting) (source : Source) :
    (Shared.start { scripting with errorPolicy := .propagate } source).1 =
        (Shared.start { scripting with errorPolicy := .log } source).1.map (·.under .propagate) ∧
      ∀ shared, (Shared.start { scripting with errorPolicy := .log } source).1 = .ok shared →
        ∀ trace,
          let logging := Replay.new shared
          let returning := Replay.new (shared.under .propagate)
          ((logging.run trace).2.1.stats.failed = 0 →
            returning.run trace =
              ((logging.run trace).1, (logging.run trace).2.1.under .propagate,
                (logging.run trace).2.2)) ∧
          ∀ n, (logging.runLines 1 ((traceLines trace).take n)).2.1.stats.failed = 0 →
            (logging.runLines 1 ((traceLines trace).take (n + 1))).2.1.stats.failed ≠ 0 →
            ∃ line event occurrence cause, (traceLines trace)[n]? = some line ∧
              Reading.of line = .event event ∧
              Parting (logging.runLines 1 ((traceLines trace).take n)).2.1 (n + 1) event occurrence
                cause (logging.runLines 1 ((traceLines trace).take (n + 1)))
                (returning.run trace) := by
  constructor
  · have hunder := Shared.start_under { scripting with errorPolicy := .log } source .propagate
    dsimp only at hunder
    rw [hunder]
  · intro shared hstart trace logging returning
    have hlogs : logging.shared.Logs := Shared.ready_of_start hstart
    refine ⟨fun hnone => ?_, fun n hnone hsome => parting_of_failed hlogs hnone hsome⟩
    have hstats : (logging.run trace).2.1 = (logging.runLines 1 (traceLines trace)).2.1 := by
      unfold run
      generalize logging.runLines 1 (traceLines trace) = ran
      obtain ⟨_ | _, after, reports⟩ := ran
      · rfl
      · rfl
    rw [hstats] at hnone
    have hlines := runLines_under hlogs 1 hnone
    unfold run
    rw [show returning = logging.under .propagate from rfl, hlines]
    generalize logging.runLines 1 (traceLines trace) = ran
    obtain ⟨_ | _, after, reports⟩ := ran
    · rfl
    · rfl

/-- A handler for data that fails: with a blank line before it, the third line is where the run ends
    that returns failures. -/
theorem propagate_stops_at_third_line :
    let scripting : Config.Scripting := ⟨"monitor.lua", "cybermon", 16, 4, .log, false⟩
    let script := "[[\"set\",\"data\",\x7b\"fn\":[[\"err\",\"boom\"]]\x7d]]"
    let up := "\x7b\"event\":\"connection_up\",\"conn\":\"a\",\"src\":\"10.0.0.1:1\"," ++
      "\"dest\":\"10.0.0.2:2\"\x7d"
    let data := "\x7b\"event\":\"data\",\"conn\":\"a\"\x7d"
    let trace := (up ++ "\n\n" ++ data ++ "\n" ++ up).toUTF8.data.toList
    ∃ shared cause, (Shared.start scripting (.text script.toUTF8.data.toList)).1 = .ok shared ∧
      ((new shared).run trace).1 = .ok ⟨3, 0, 1, 1, 1⟩ ∧
      ((new (shared.under .propagate)).run trace).1 = .error (.bridge "data" 3 cause) := by
  intro scripting script up data trace
  have hlogged : (Shared.start scripting (.text script.toUTF8.data.toList)).1.toOption.any
      (fun shared =>
        decide (((new shared).run trace).1.toOption = some ⟨3, 0, 1, 1, 1⟩) &&
        decide (((new shared).runLines 1 ((traceLines trace).take 2)).2.1.stats.failed = 0) &&
        decide (((new shared).runLines 1 ((traceLines trace).take (2 + 1))).2.1.stats.failed ≠ 0)) =
      true := by decide +kernel
  have hthird : (traceLines trace)[2]?.bind (fun line => (Reading.of line).name?) =
      some "data" := by decide +kernel
  obtain ⟨shared, hstart, hshared⟩ := (Option.any_eq_true _ _).mp hlogged
  simp only [Bool.and_eq_true, decide_eq_true_eq] at hshared
  obtain ⟨⟨hrun, hnone⟩, hsome⟩ := hshared
  have hstart := Host.eq_ok_of_toOption hstart
  obtain ⟨-, htraces⟩ :=
    propagate_stops_at_first_failure scripting (.text script.toUTF8.data.toList)
  obtain ⟨line, event, occurrence, cause, hline, hreading, hparting⟩ :=
    (htraces shared hstart trace).2 2 hnone hsome
  have hname : event.name = "data" := by
    rw [hline, Option.bind_some, hreading] at hthird
    exact Option.some.inj hthird
  have hstops := hparting.stops
  rw [hname] at hstops
  exact ⟨shared, cause, hstart, Host.eq_ok_of_toOption hrun, hstops⟩

end Replay

end EventBridge
