import EventBridge.Proofs.Replay.Stages

/-! # What no script decides

  Under the log policy every dispatch returns an outcome, and of the outcome the replay only keeps
  count. So what a trace does to the engine and the connections, and what becomes of each line of
  it, is the same for all scripts.

  * `Outline` is what of a replay is the same, and `Fate` what becomes of a line. `tally_runLine`
    says that a line is counted by its fate, under both policies.
  * `Outline.read` has the next outline from the last one and the line. `runLine_of_logs` says that
    under the log policy there is nothing else to it.
  * A `Staging` is a script for a run, with the requests to read it again. Two of them are compared
    line by line.
-/

namespace EventBridge

open Dispatch (Dispatcher Occurrence Outcome Shared Source)
open Trace (Event)

namespace Replay

/-! ### Fates -/

/-- What becomes of a line. -/
inductive Fate where
  /-- It is no text and ends the run. -/
  | unreadable
  | blank
  /-- It is no event, or one that is turned down. -/
  | skipped
  /-- It adds a target. -/
  | target
  /-- A handler was looked up for it. -/
  | dispatched
  /-- The failure of its handler ends the run. -/
  | aborted
  deriving DecidableEq

/-- What becomes of a line, by what applying its event comes to. -/
def Fate.ofResult : Except EventError (Option Outcome) → Fate
  | .ok none => .target
  | .ok (some _) => .dispatched
  | .error (.bridge _) => .aborted
  | .error _ => .skipped

/-- What a replay does with a line. -/
def fate (replay : Replay) (line : List UInt8) : Fate :=
  match Reading.of line with
  | .noText => .unreadable
  | .blank => .blank
  | .noEvent _ => .skipped
  | .event event => .ofResult (replay.apply event).1

/-- The counts, with all dispatches in one. -/
structure Tally where
  lines : Nat
  skipped : Nat
  dispatched : Nat
  deriving DecidableEq

/-- The tally of some counts. -/
def Stats.tally (stats : Stats) : Tally :=
  ⟨stats.lines, stats.skipped, stats.handled + stats.noHandler + stats.failed⟩

/-- Counts a line by its fate. -/
def Tally.count (tally : Tally) : Fate → Tally
  | .unreadable | .blank => tally
  | .skipped => ⟨tally.lines + 1, tally.skipped + 1, tally.dispatched⟩
  | .target | .aborted => ⟨tally.lines + 1, tally.skipped, tally.dispatched⟩
  | .dispatched => ⟨tally.lines + 1, tally.skipped, tally.dispatched + 1⟩

theorem tally_record (stats : Stats) (outcome : Outcome) :
    (stats.record outcome).tally =
      ⟨stats.lines, stats.skipped, stats.handled + stats.noHandler + stats.failed + 1⟩ := by
  cases outcome <;> simp only [Stats.record, Stats.tally, Tally.mk.injEq, true_and] <;> omega

/-- What the line of an event comes to, with the line counted. -/
theorem runEvent_counting (replay : Replay) (number : Nat) (event : Event) :
    ((replay.counting.runEvent number event).2.1.scene = (replay.apply event).2.1.scene) ∧
      (replay.counting.runEvent number event).2.1.stats.tally =
        replay.stats.tally.count (.ofResult (replay.apply event).1) ∧
      (Fate.ofResult (replay.apply event).1 ≠ .aborted →
        (replay.counting.runEvent number event).1 = .ok ()) := by
  have hstats := replay.stats_apply event
  unfold runEvent
  rw [counting, apply_recount]
  generalize replay.apply event = applied at hstats ⊢
  obtain ⟨result, after, lines⟩ := applied
  rw [← hstats]
  cases result with
  | ok outcome =>
    cases outcome with
    | none => exact ⟨rfl, rfl, fun _ => rfl⟩
    | some outcome => exact ⟨rfl, tally_record _ outcome, fun _ => rfl⟩
  | error e =>
    cases e with
    | bridge cause => exact ⟨rfl, rfl, fun h => absurd rfl h⟩
    | _ => exact ⟨rfl, rfl, fun _ => rfl⟩

/-- A line is counted by its fate. -/
theorem tally_runLine (replay : Replay) (number : Nat) (line : List UInt8) :
    (replay.runLine number line).2.1.stats.tally = replay.stats.tally.count (replay.fate line) := by
  rw [runLine_eq, fate]
  cases Reading.of line with
  | event event => exact (replay.runEvent_counting number event).2.1
  | _ => rfl

/-! ### Outlines -/

/-- What of a replay no script decides. -/
structure Outline where
  scene : Scene
  tally : Tally

/-- The outline of a replay. -/
def outline (replay : Replay) : Outline := ⟨replay.scene, replay.stats.tally⟩

/-- Where a course leads if no handler fails. -/
def Course.reached (course : Course) (scene : Scene) : Scene :=
  match course with
  | .rejected _ => scene
  | .silent after _ => after
  | .call _ through _ _ => through

/-- What becomes of the line of an event, by its course, if no handler fails. -/
def Course.fate : Course → Fate
  | .rejected _ => .skipped
  | .silent .. => .target
  | .call .. => .dispatched

/-- No event by itself ends a run. -/
theorem Course.fate_goes_on (course : Course) :
    course.fate ≠ .unreadable ∧ course.fate ≠ .aborted := by
  cases course <;> exact ⟨nofun, nofun⟩

namespace Scene

/-- What becomes of a line if no handler fails. -/
def fate (scene : Scene) (line : List UInt8) : Fate :=
  match Reading.of line with
  | .noText => .unreadable
  | .blank => .blank
  | .noEvent _ => .skipped
  | .event event => (scene.course event).fate

/-- The scene after a line if no handler fails. -/
def past (scene : Scene) (line : List UInt8) : Scene :=
  match Reading.of line with
  | .event event => (scene.course event).reached scene
  | _ => scene

end Scene

/-- Reads a line: the run goes on or ends, and has another outline. -/
def Outline.read (outline : Outline) (number : Nat) (line : List UInt8) :
    Except RunError Unit × Outline :=
  (if outline.scene.fate line = .unreadable then .error (.unreadable number .notText) else .ok (),
    ⟨outline.scene.past line, outline.tally.count (outline.scene.fate line)⟩)

variable {replay : Replay}

/-- Where failures are logged, an event takes its course to the end. -/
theorem apply_of_logs (h : replay.shared.Logs) (event : Event) :
    Fate.ofResult (replay.apply event).1 = (replay.scene.course event).fate ∧
      (replay.apply event).2.1.scene = (replay.scene.course event).reached replay.scene := by
  rw [apply_eq_follow]
  have htakes := replay.scene.takes_course event
  generalize replay.scene.course event = course at htakes ⊢
  cases course with
  | rejected cause =>
    cases htakes with
    | rejected hcause =>
      cases cause with
      | bridge cause => exact hcause.elim
      | _ => exact ⟨rfl, rfl⟩
  | silent after lines => exact ⟨rfl, rfl⟩
  | call occurrence through failed lines =>
    obtain ⟨outcome, houtcome⟩ := h.dispatch_ok occurrence
    unfold Course.follow
    dsimp only
    generalize replay.shared.dispatch occurrence = dispatched at houtcome ⊢
    obtain ⟨result, shared, more⟩ := dispatched
    cases houtcome
    exact ⟨rfl, rfl⟩

theorem fate_of_logs (h : replay.shared.Logs) (line : List UInt8) :
    replay.fate line = replay.scene.fate line := by
  unfold fate Scene.fate
  cases Reading.of line with
  | event event => exact (apply_of_logs h event).1
  | _ => rfl

/-- Where failures are logged, the outline alone decides what a line comes to. -/
theorem runLine_of_logs (h : replay.shared.Logs) (number : Nat) (line : List UInt8) :
    ((replay.runLine number line).1, (replay.runLine number line).2.1.outline) =
      replay.outline.read number line := by
  have htally := replay.tally_runLine number line
  have hfate := fate_of_logs h line
  rw [hfate] at htally
  unfold outline Outline.read
  rw [htally]
  dsimp only
  rw [runLine_eq]
  unfold fate at hfate
  unfold Scene.fate at hfate ⊢
  unfold Scene.past
  generalize Reading.of line = reading at hfate ⊢
  cases reading with
  | noText => rfl
  | blank => rfl
  | noEvent cause => rfl
  | event event =>
    dsimp only at hfate ⊢
    obtain ⟨hreadable, hgoes⟩ := (replay.scene.course event).fate_goes_on
    obtain ⟨hscene, -, hresult⟩ := replay.runEvent_counting number event
    rw [hscene, (apply_of_logs h event).2, hresult (by rwa [hfate]), if_neg hreadable]

/-! ### Scripts for a run -/

/-- A script for a run: where it comes from, and the requests to read it again, for each line those
    that come before it. The script loads at the start; later ones can fail to. -/
structure Staging where
  scripting : Config.Scripting
  source : Source
  requests : Nat → List Request
  shared : Shared
  started : (Shared.start scripting source).1 = .ok shared

namespace Staging

/-- The run of a trace as far as some line. -/
def upTo (staging : Staging) (trace : List UInt8) (n : Nat) : Except RunError Unit × Replay :=
  Replay.upTo staging.requests (Replay.new staging.shared) trace n

/-- The replay that the next line finds. -/
def before (staging : Staging) (trace : List UInt8) (n : Nat) : Replay :=
  (staging.upTo trace n).2.reloading (staging.requests (n + 1))

/-- The run of a trace. -/
def run (staging : Staging) (trace : List UInt8) : Except RunError Stats × Replay :=
  runWith staging.requests (Replay.new staging.shared) trace

/-- Every line that is run finds a dispatcher with the log policy. -/
def LogsThroughout (staging : Staging) (trace : List UInt8) : Prop :=
  ∀ n line, (traceLines trace)[n]? = some line → (staging.upTo trace n).1 = .ok () →
    (staging.before trace n).shared.dispatcher.policy = .log

variable {staging first second : Staging} {trace : List UInt8}

/-- Settings with the log policy are enough for that. -/
theorem logsThroughout_of_settings (hscripting : staging.scripting.errorPolicy = .log)
    (hrequests : ∀ n, ∀ request ∈ staging.requests n, request.scripting.errorPolicy = .log)
    (trace : List UInt8) : staging.LogsThroughout trace := by
  have hserve : ∀ n shared, ∀ request ∈ staging.requests n, shared.dispatcher.policy = .log →
      (request.serve shared).dispatcher.policy = .log := by
    intro n shared request hmem hshared
    rcases request.policy_serve shared with hsame | hnew
    · rw [hsame]
      exact hshared
    · rw [hnew]
      exact hrequests n request hmem
  have hreload : ∀ (replay : Replay) n, replay.shared.dispatcher.policy = .log →
      (replay.reloading (staging.requests n)).shared.dispatcher.policy = .log :=
    fun _ n h =>
      reloaded_induction (P := fun shared => shared.dispatcher.policy = .log) (hserve n) h
  intro n line hline hgoes
  refine hreload _ (n + 1) ?_
  refine upTo_induction (P := fun replay => replay.shared.dispatcher.policy = .log) hreload ?_ ?_ n
  · exact shared_runLine (P := fun shared => shared.dispatcher.policy = .log) fun _ _ h => h
  · exact (Shared.ready_of_start staging.started).2.trans hscripting

theorem logs_before (h : staging.LogsThroughout trace) {n : Nat} {line : List UInt8}
    (hline : (traceLines trace)[n]? = some line) (hgoes : (staging.upTo trace n).1 = .ok ()) :
    (staging.before trace n).shared.Logs :=
  ⟨ready_reloaded (ready_upTo (Shared.ready_of_start staging.started).1 n) _,
    h n line hline hgoes⟩

/-- A run that goes on reads its next line as an outline does. -/
theorem upTo_succ_of_logs (h : staging.LogsThroughout trace) {n : Nat} {line : List UInt8}
    (hline : (traceLines trace)[n]? = some line) (hgoes : (staging.upTo trace n).1 = .ok ()) :
    ((staging.upTo trace (n + 1)).1, (staging.upTo trace (n + 1)).2.outline) =
      (staging.upTo trace n).2.outline.read (n + 1) line := by
  have hread := runLine_of_logs (logs_before h hline hgoes) (n + 1) line
  unfold before at hread
  unfold upTo at hread hgoes ⊢
  rw [upTo_succ hline]
  generalize Replay.upTo staging.requests (Replay.new staging.shared) trace n = stage
    at hread hgoes ⊢
  obtain ⟨result, before⟩ := stage
  cases hgoes
  exact hread

/-- Two runs that have come as far stand at the same outline. -/
theorem agree_upTo (hfirst : first.LogsThroughout trace) (hsecond : second.LogsThroughout trace)
    (n : Nat) :
    ((first.upTo trace n).1, (first.upTo trace n).2.outline) =
      ((second.upTo trace n).1, (second.upTo trace n).2.outline) := by
  induction n with
  | zero => rfl
  | succ n ih =>
    cases hline : (traceLines trace)[n]? with
    | none =>
      unfold upTo at ih ⊢
      rw [upTo_succ_of_none hline, upTo_succ_of_none hline]
      exact ih
    | some line =>
      -- Both go on or both have ended, and an outline is all that the next line is read with.
      obtain ⟨hresult, houtline⟩ := Prod.mk.inj ih
      cases hgoes : (first.upTo trace n).1 with
      | ok _ =>
        rw [upTo_succ_of_logs hfirst hline hgoes,
          upTo_succ_of_logs hsecond hline (hresult.symm.trans hgoes), houtline]
      | error e =>
        have hsame : first.upTo trace (n + 1) = first.upTo trace n := upTo_succ_of_error hgoes
        have hsame' : second.upTo trace (n + 1) = second.upTo trace n :=
          upTo_succ_of_error (hresult.symm.trans hgoes)
        rw [hsame, hsame']
        exact ih

/-- All that ends a run is a line that is no text. -/
theorem unreadable_of_error (h : staging.LogsThroughout trace) {n : Nat} {e : RunError}
    (he : (staging.upTo trace n).1 = .error e) : ∃ number, e = .unreadable number .notText := by
  induction n with
  | zero => cases he
  | succ n ih =>
    cases hgoes : (staging.upTo trace n).1 with
    | error e' =>
      have hsame : staging.upTo trace (n + 1) = staging.upTo trace n := upTo_succ_of_error hgoes
      exact ih (hsame ▸ he)
    | ok _ =>
      cases hline : (traceLines trace)[n]? with
      | none =>
        unfold upTo at he hgoes
        rw [upTo_succ_of_none hline, hgoes] at he
        cases he
      | some line =>
        have hread := congrArg Prod.fst (upTo_succ_of_logs h hline hgoes)
        dsimp only [Outline.read] at hread
        rw [he] at hread
        split at hread
        · exact ⟨n + 1, Except.error.inj hread⟩
        · cases hread

/-- A run is the run up to its last line. -/
theorem run_eq_upTo (staging : Staging) (trace : List UInt8) :
    staging.run trace =
      ((staging.upTo trace (traceLines trace).length).1.map
          fun () => (staging.upTo trace (traceLines trace).length).2.stats,
        (staging.upTo trace (traceLines trace).length).2) := by
  unfold upTo
  rw [upTo_of_length_le (Nat.le_refl _)]
  rfl

/-- Two scripts under the log policy, each with its own settings and each read again as often as may
    be: after every line the engine, the connections and the counts are the same in both runs, every
    line has the same fate, and the runs end alike. -/
theorem scripts_have_no_influence (first second : Staging) (trace : List UInt8)
    (hfirst : first.LogsThroughout trace) (hsecond : second.LogsThroughout trace) :
    (∀ n, (first.upTo trace n).1 = (second.upTo trace n).1 ∧
      (first.upTo trace n).2.outline = (second.upTo trace n).2.outline) ∧
    (∀ n line, (traceLines trace)[n]? = some line → (first.upTo trace n).1 = .ok () →
      (first.before trace n).fate line = (second.before trace n).fate line) ∧
    (first.run trace).1.map Stats.tally = (second.run trace).1.map Stats.tally ∧
    (first.run trace).2.outline = (second.run trace).2.outline ∧
    ∀ e, (first.run trace).1 = .error e → ∃ number, e = .unreadable number .notText := by
  have hagree := fun n => Prod.mk.inj (agree_upTo hfirst hsecond n)
  obtain ⟨hresult, houtline⟩ := hagree (traceLines trace).length
  refine ⟨hagree, ?_, ?_, ?_, ?_⟩
  · intro n line hline hgoes
    obtain ⟨hresult, houtline⟩ := hagree n
    rw [fate_of_logs (logs_before hfirst hline hgoes),
      fate_of_logs (logs_before hsecond hline (hresult.symm.trans hgoes))]
    exact congrArg (fun outline : Outline => outline.scene.fate line) houtline
  · have htally := congrArg Outline.tally houtline
    rw [run_eq_upTo, run_eq_upTo, hresult]
    cases (second.upTo trace (traceLines trace).length).1 with
    | error e => rfl
    | ok _ => exact congrArg Except.ok htally
  · rw [run_eq_upTo, run_eq_upTo]
    exact houtline
  · intro e he
    rw [run_eq_upTo] at he
    cases hended : (first.upTo trace (traceLines trace).length).1 with
    | ok _ =>
      rw [hended] at he
      cases he
    | error e' =>
      rw [hended] at he
      cases he
      exact unreadable_of_error hfirst hended

/-- A run without a handler, and one whose handler fails and is then replaced: only what is counted
    of the outcomes differs. -/
theorem scripts_differ_in_outcomes_only :
    let event := "\x7b\"event\":\"trigger_up\",\"liid\":\"a\",\"address\":\"10.0.0.1\"\x7d"
    let trace := (event ++ "\n" ++ event).toUTF8.data.toList
    ∃ first second : Staging,
      (first.run trace).1 = .ok ⟨2, 0, 2, 0, 0⟩ ∧ (second.run trace).1 = .ok ⟨2, 1, 0, 1, 0⟩ ∧
        (first.run trace).2.outline = (second.run trace).2.outline := by
  intro event trace
  let silent : Config.Scripting := ⟨"a.lua", "cybermon", 16, 4, .log, false⟩
  let watchful : Config.Scripting := ⟨"b.lua", "watch", 64, 8, .log, true⟩
  let failing := "[[\"set\",\"trigger_up\",\x7b\"fn\":[[\"err\",\"boom\"]]\x7d]]"
  let working := "[[\"set\",\"trigger_up\",\x7b\"fn\":[]\x7d]]"
  let tree := FileTree.empty.set ["work", "b.lua"] (.file working.toUTF8.data.toList)
  -- The first request finds no script, the second one does.
  let requests : Nat → List Request := fun n =>
    if n = 1 then [⟨watchful, FileTree.empty⟩] else if n = 2 then [⟨watchful, tree⟩] else []
  have hfirst : (Shared.start silent (.text "[]".toUTF8.data.toList)).1.toOption.any (fun shared =>
      decide ((runWith (fun _ => []) (Replay.new shared) trace).1.toOption =
        some ⟨2, 0, 2, 0, 0⟩)) = true := by decide +kernel
  have hsecond : (Shared.start watchful (.text failing.toUTF8.data.toList)).1.toOption.any
      (fun shared => decide ((runWith requests (Replay.new shared) trace).1.toOption =
        some ⟨2, 1, 0, 1, 0⟩)) = true := by decide +kernel
  obtain ⟨shared, hstart, hrun⟩ := (Option.any_eq_true _ _).mp hfirst
  obtain ⟨shared', hstart', hrun'⟩ := (Option.any_eq_true _ _).mp hsecond
  let first : Staging := ⟨silent, _, fun _ => [], shared, Host.eq_ok_of_toOption hstart⟩
  let second : Staging := ⟨watchful, _, requests, shared', Host.eq_ok_of_toOption hstart'⟩
  have hlogs : first.LogsThroughout trace :=
    logsThroughout_of_settings rfl (fun _ _ hmem => absurd hmem List.not_mem_nil) trace
  have hlogs' : second.LogsThroughout trace := by
    refine logsThroughout_of_settings rfl (fun n request hmem => ?_) trace
    dsimp only [second, requests] at hmem
    split at hmem
    · rw [List.mem_singleton.1 hmem]
    · split at hmem
      · rw [List.mem_singleton.1 hmem]
      · cases hmem
  refine ⟨first, second, ?_, ?_, ?_⟩
  · exact Host.eq_ok_of_toOption (of_decide_eq_true hrun)
  · exact Host.eq_ok_of_toOption (of_decide_eq_true hrun')
  · exact (scripts_have_no_influence first second trace hlogs hlogs').2.2.2.1

end Staging

end Replay

end EventBridge
