import EventBridge.Proofs.Dispatch.Policy
import EventBridge.Proofs.Replay.Course

/-! # A run, line by line

  While a trace is run, the script can be read again between two of its lines. Nothing in the trace
  asks for that, so the requests are given beside it, for each line those that come before it.

  * `runLinesWith` runs lines with requests between them. Without any it is `runLines`, and
    `runWith` is `run` (`runWith_none`): what is shown of runs with requests holds of plain runs.
  * `upTo` is the run as far as some line, and `upTo_succ` its next line. Inductions over a run go
    from the first line on with it, and so with the state that each line finds.
  * `Logs.dispatch_cases` has the two kinds of a dispatch under the log policy, beside the same
    dispatch under the other one.
  * A run only ever uses dispatchers that are ready: they are built so, and neither a dispatch nor a
    request leaves another one.
-/

namespace EventBridge

open Dispatch (Dispatcher Occurrence Outcome Shared Source failureLine)
open Trace (Event)

/-! ### Dispatchers in use -/

namespace Dispatch.Shared

/-- The dispatcher in use is ready. -/
def Ready (shared : Shared) : Prop := shared.dispatcher.Ready

/-- The dispatcher in use is ready and logs failures. -/
def Logs (shared : Shared) : Prop := shared.Ready ∧ shared.dispatcher.policy = .log

variable {shared : Shared}

theorem ready_of_start {scripting : Config.Scripting} {source : Source}
    (h : (start scripting source).1 = .ok shared) :
    shared.Ready ∧ shared.dispatcher.policy = scripting.errorPolicy := by
  unfold start at h
  dsimp only at h
  cases hbuild : (Dispatcher.build scripting source 1).1 with
  | error e =>
    rw [hbuild] at h
    cases h
  | ok dispatcher =>
    rw [hbuild] at h
    cases h
    exact ⟨Dispatcher.ready_of_build hbuild, Dispatcher.policy_of_build hbuild⟩

theorem Ready.dispatch (h : shared.Ready) (occurrence : Occurrence) :
    (shared.dispatch occurrence).2.1.Ready :=
  Dispatcher.Ready.dispatch h occurrence

theorem Logs.dispatch (h : shared.Logs) (occurrence : Occurrence) :
    (shared.dispatch occurrence).2.1.Logs :=
  ⟨h.1.dispatch occurrence, h.2⟩

/-- The same with the dispatcher in use under another policy. -/
def under (shared : Shared) (policy : ErrorPolicy) : Shared :=
  { shared with dispatcher := shared.dispatcher.under policy }

/-- A dispatch under the two policies: they come to the same, or a failure of the handler is logged
    by the one and returned by the other. -/
theorem Logs.dispatch_cases (h : shared.Logs) (occurrence : Occurrence) :
    (∃ outcome after lines, outcome ≠ .failed ∧
      shared.dispatch occurrence = (.ok outcome, after, lines) ∧
      (shared.under .propagate).dispatch occurrence =
        (.ok outcome, after.under .propagate, lines)) ∨
    ∃ cause after lines, (shared.dispatcher.attempt occurrence).1 = .error cause ∧
      shared.dispatch occurrence =
        (.ok .failed, after, lines ++ [failureLine occurrence.handler cause]) ∧
      (shared.under .propagate).dispatch occurrence =
        (.error cause, after.under .propagate, lines) := by
  obtain ⟨hready, hpolicy⟩ := h
  rcases hready.attempt_cases occurrence with ⟨outcome, i, lines, hne, hok⟩ | ⟨e, i, lines, hof, he⟩
  · refine .inl ⟨outcome, { shared with dispatcher := ⟨i, shared.dispatcher.policy⟩ }, lines, hne,
      ?_, ?_⟩
    · rw [Shared.dispatch, Dispatcher.dispatch_of_ok hok]
    · rw [Shared.dispatch, under,
        Dispatcher.dispatch_of_ok (d := shared.dispatcher.under .propagate) hok]
      rfl
  · refine .inr ⟨e, { shared with dispatcher := ⟨i, shared.dispatcher.policy⟩ }, lines, ?_, ?_, ?_⟩
    · rw [he]
    · rw [Shared.dispatch, Dispatcher.dispatch_of_error he, Dispatcher.logs_of_ofHandler hof,
        hpolicy]
      rfl
    · rw [Shared.dispatch, under,
        Dispatcher.dispatch_of_error (d := shared.dispatcher.under .propagate) he,
        Dispatcher.logs_of_ofHandler hof]
      rfl

/-- Where failures are logged, none is returned. -/
theorem Logs.dispatch_ok (h : shared.Logs) (occurrence : Occurrence) :
    ∃ outcome, (shared.dispatch occurrence).1 = .ok outcome := by
  rcases h.dispatch_cases occurrence with ⟨outcome, _, _, _, hlog, _⟩ | ⟨_, _, _, _, hlog, _⟩
  · exact ⟨outcome, congrArg Prod.fst hlog⟩
  · exact ⟨.failed, congrArg Prod.fst hlog⟩

/-- To read a script again puts a dispatcher that was built for it into use, or leaves the one in
    use. -/
theorem reload_cases (shared : Shared) (scripting : Config.Scripting) (tree : FileTree) :
    (shared.reload scripting tree).2.1.dispatcher = shared.dispatcher ∨
      (Dispatcher.build scripting (.file tree) shared.nextTable).1 =
        .ok (shared.reload scripting tree).2.1.dispatcher := by
  unfold reload renew
  generalize Dispatcher.build scripting (.file tree) shared.nextTable = built
  obtain ⟨_ | dispatcher, lines⟩ := built
  · exact .inl rfl
  · exact .inr rfl

theorem Ready.reload (h : shared.Ready) (scripting : Config.Scripting) (tree : FileTree) :
    (shared.reload scripting tree).2.1.Ready := by
  have hcases := shared.reload_cases scripting tree
  generalize (shared.reload scripting tree).2.1 = reloaded at hcases ⊢
  rcases hcases with hsame | hbuild
  · rw [Ready, hsame]
    exact h
  · exact Dispatcher.ready_of_build hbuild

/-- A dispatcher keeps its policy until one with other settings is put in its place. -/
theorem policy_reload (shared : Shared) (scripting : Config.Scripting) (tree : FileTree) :
    (shared.reload scripting tree).2.1.dispatcher.policy = shared.dispatcher.policy ∨
      (shared.reload scripting tree).2.1.dispatcher.policy = scripting.errorPolicy := by
  have hcases := shared.reload_cases scripting tree
  generalize (shared.reload scripting tree).2.1 = reloaded at hcases ⊢
  rcases hcases with hsame | hbuild
  · exact .inl (congrArg Dispatcher.policy hsame)
  · exact .inr (Dispatcher.policy_of_build hbuild)

end Dispatch.Shared

namespace Replay

/-! ### Requests between lines -/

/-- A request to read the script again, with the settings and the files of that moment. -/
structure Request where
  scripting : Config.Scripting
  tree : FileTree

/-- The dispatcher in use after a request, whether or not the script loads. -/
def Request.serve (request : Request) (shared : Shared) : Shared :=
  (shared.reload request.scripting request.tree).2.1

theorem Request.ready_serve (request : Request) {shared : Shared} (h : shared.Ready) :
    (request.serve shared).Ready := by
  unfold serve
  exact h.reload request.scripting request.tree

theorem Request.policy_serve (request : Request) (shared : Shared) :
    (request.serve shared).dispatcher.policy = shared.dispatcher.policy ∨
      (request.serve shared).dispatcher.policy = request.scripting.errorPolicy := by
  unfold serve
  exact shared.policy_reload request.scripting request.tree

/-- The dispatcher in use after some requests. -/
def reloaded (shared : Shared) (requests : List Request) : Shared :=
  requests.foldl (fun shared request => request.serve shared) shared

/-- The replay after some requests. -/
def reloading (replay : Replay) (requests : List Request) : Replay :=
  { replay with shared := reloaded replay.shared requests }

/-- What holds of the dispatcher in use and of each that is built for a request holds after the
    requests. -/
theorem reloaded_induction {P : Shared → Prop} {requests : List Request}
    (hstep : ∀ shared, ∀ request ∈ requests, P shared → P (request.serve shared))
    {shared : Shared} (h : P shared) : P (reloaded shared requests) := by
  unfold reloaded
  induction requests generalizing shared with
  | nil => exact h
  | cons request requests ih =>
    rw [List.foldl_cons]
    have hrest : ∀ shared, ∀ request ∈ requests, P shared → P (request.serve shared) :=
      fun shared request hmem => hstep shared request (List.mem_cons_of_mem _ hmem)
    exact ih hrest (hstep shared request List.mem_cons_self h)

theorem ready_reloaded {shared : Shared} (h : shared.Ready) (requests : List Request) :
    (reloaded shared requests).Ready :=
  reloaded_induction (fun _ request _ h => request.ready_serve h) h

/-! ### Runs with requests -/

/-- Runs lines from a number on, with the requests that come before each. -/
def runLinesWith (requests : Nat → List Request) (replay : Replay) (number : Nat) :
    List (List UInt8) → Except RunError Unit × Replay
  | [] => (.ok (), replay)
  | line :: rest =>
    let (result, replay, _) := (replay.reloading (requests number)).runLine number line
    match result with
    | .error e => (.error e, replay)
    | .ok () => runLinesWith requests replay (number + 1) rest

/-- Runs a trace to its end, or to what ends it, with the requests that come before each line. -/
def runWith (requests : Nat → List Request) (replay : Replay) (trace : List UInt8) :
    Except RunError Stats × Replay :=
  let (result, replay) := runLinesWith requests replay 1 (traceLines trace)
  (result.map fun () => replay.stats, replay)

/-- Without requests it is the run of the lines alone. -/
theorem runLinesWith_none (replay : Replay) (number : Nat) (lines : List (List UInt8)) :
    runLinesWith (fun _ => []) replay number lines =
      ((replay.runLines number lines).1, (replay.runLines number lines).2.1) := by
  induction lines generalizing replay number with
  | nil => rfl
  | cons line lines ih =>
    unfold runLinesWith runLines
    rw [show replay.reloading [] = replay from rfl]
    generalize replay.runLine number line = first
    obtain ⟨_ | _, after, reports⟩ := first
    · rfl
    · exact ih after (number + 1)

theorem runWith_none (replay : Replay) (trace : List UInt8) :
    runWith (fun _ => []) replay trace = ((replay.run trace).1, (replay.run trace).2.1) := by
  unfold runWith run
  rw [runLinesWith_none]
  generalize replay.runLines 1 (traceLines trace) = ran
  obtain ⟨_ | _, after, reports⟩ := ran
  · rfl
  · rfl

/-- The last line of a run is the only one that sees what all before it leave. -/
theorem runLinesWith_concat (requests : Nat → List Request) (replay : Replay) (number : Nat)
    (lines : List (List UInt8)) (line : List UInt8) :
    runLinesWith requests replay number (lines ++ [line]) =
      match runLinesWith requests replay number lines with
      | (.error e, replay) => (.error e, replay)
      | (.ok (), replay) =>
        let (result, replay, _) :=
          (replay.reloading (requests (number + lines.length))).runLine (number + lines.length) line
        (result, replay) := by
  induction lines generalizing replay number with
  | nil =>
    simp only [List.nil_append, runLinesWith, List.length_nil, Nat.add_zero]
    generalize (replay.reloading (requests number)).runLine number line = ran
    obtain ⟨_ | _, after, reports⟩ := ran
    · rfl
    · rfl
  | cons first lines ih =>
    rw [List.cons_append]
    unfold runLinesWith
    generalize (replay.reloading (requests number)).runLine number first = ran
    obtain ⟨_ | _, after, reports⟩ := ran
    · rfl
    · dsimp only
      rw [ih after (number + 1), List.length_cons,
        show number + 1 + lines.length = number + (lines.length + 1) by omega]

/-! ### Runs in parts -/

/-- A run of some lines and then others goes on to the others if the first do not end it. -/
theorem runLines_append (replay : Replay) (number : Nat) (lines others : List (List UInt8)) :
    replay.runLines number (lines ++ others) =
      match replay.runLines number lines with
      | (.error e, replay, reports) => (.error e, replay, reports)
      | (.ok (), replay, reports) =>
        let (result, replay, more) := replay.runLines (number + lines.length) others
        (result, replay, reports ++ more) := by
  induction lines generalizing replay number with
  | nil => rfl
  | cons line lines ih =>
    rw [List.cons_append, runLines, runLines]
    generalize replay.runLine number line = first
    obtain ⟨_ | _, after, reports⟩ := first
    · rfl
    · dsimp only
      rw [ih after (number + 1), List.length_cons,
        show number + 1 + lines.length = number + (lines.length + 1) by omega]
      generalize after.runLines (number + 1) lines = ran
      obtain ⟨_ | _, between, more⟩ := ran
      · rfl
      · simp only [List.append_assoc]

/-! ### Runs up to a line -/

/-- The run of so many lines of a trace. -/
def upTo (requests : Nat → List Request) (replay : Replay) (trace : List UInt8) (n : Nat) :
    Except RunError Unit × Replay :=
  runLinesWith requests replay 1 ((traceLines trace).take n)

variable {requests : Nat → List Request} {replay : Replay} {trace : List UInt8} {n : Nat}

/-- One more line: it is run if none before it has ended the run. -/
theorem upTo_succ {line : List UInt8} (h : (traceLines trace)[n]? = some line) :
    upTo requests replay trace (n + 1) =
      match upTo requests replay trace n with
      | (.error e, replay) => (.error e, replay)
      | (.ok (), replay) =>
        let (result, replay, _) := (replay.reloading (requests (n + 1))).runLine (n + 1) line
        (result, replay) := by
  obtain ⟨hn, -⟩ := List.getElem?_eq_some_iff.1 h
  have hlength : ((traceLines trace).take n).length = n := List.length_take_of_le (Nat.le_of_lt hn)
  unfold upTo
  rw [List.take_add_one, h, Option.toList_some, runLinesWith_concat, hlength, Nat.add_comm 1 n]

/-- There is nothing to run after the last line. -/
theorem upTo_of_length_le (h : (traceLines trace).length ≤ n) :
    upTo requests replay trace n = runLinesWith requests replay 1 (traceLines trace) := by
  unfold upTo
  rw [List.take_of_length_le h]

theorem upTo_succ_of_none (h : (traceLines trace)[n]? = none) :
    upTo requests replay trace (n + 1) = upTo requests replay trace n := by
  have hlength := List.getElem?_eq_none_iff.1 h
  rw [upTo_of_length_le hlength, upTo_of_length_le (Nat.le_succ_of_le hlength)]

/-- A run that has ended stays where it is. -/
theorem upTo_succ_of_error {e : RunError} (h : (upTo requests replay trace n).1 = .error e) :
    upTo requests replay trace (n + 1) = upTo requests replay trace n := by
  cases hnext : (traceLines trace)[n]? with
  | none => exact upTo_succ_of_none hnext
  | some line =>
    rw [upTo_succ hnext]
    generalize upTo requests replay trace n = stage at h ⊢
    obtain ⟨result, before⟩ := stage
    cases h
    rfl

/-- What holds of the first replay, and is kept by the requests and by the lines, holds all along a
    run. -/
theorem upTo_induction {P : Replay → Prop} (hreload : ∀ replay n, P replay →
      P (replay.reloading (requests n)))
    (hline : ∀ (replay : Replay) (number : Nat) (line : List UInt8), P replay →
      P (replay.runLine number line).2.1)
    (h : P replay) (n : Nat) : P (upTo requests replay trace n).2 := by
  induction n with
  | zero => exact h
  | succ n ih =>
    cases hnext : (traceLines trace)[n]? with
    | none =>
      rw [upTo_succ_of_none hnext]
      exact ih
    | some line =>
      rw [upTo_succ hnext]
      generalize upTo requests replay trace n = stage at ih ⊢
      obtain ⟨_ | _, before⟩ := stage
      · exact ih
      · exact hline _ _ _ (hreload before (n + 1) ih)

/-! ### The dispatcher and the counts along a run -/

/-- An event has to do with the dispatcher by one dispatch at the most. -/
theorem shared_apply (replay : Replay) (event : Event) :
    (replay.apply event).2.1.shared =
      match (replay.scene.course event).occurrence? with
      | none => replay.shared
      | some occurrence => (replay.shared.dispatch occurrence).2.1 := by
  rw [apply_eq_follow]
  generalize replay.scene.course event = course
  cases course with
  | rejected cause => rfl
  | silent after lines => rfl
  | call occurrence through failed lines =>
    unfold Course.follow Course.occurrence?
    dsimp only
    rcases replay.shared.dispatch occurrence with ⟨_ | outcome, shared, more⟩ <;> rfl

/-- An event itself changes no counts. -/
theorem stats_apply (replay : Replay) (event : Event) :
    (replay.apply event).2.1.stats = replay.stats := by
  rw [apply_eq_follow]
  cases replay.scene.course event with
  | rejected cause => rfl
  | silent after lines => rfl
  | call occurrence through failed lines =>
    unfold Course.follow
    dsimp only
    rcases replay.shared.dispatch occurrence with ⟨_ | outcome, shared, more⟩ <;> rfl

/-- A line leaves the dispatcher as it was, or as a dispatch leaves it. -/
theorem shared_runLine {P : Shared → Prop}
    (hdispatch : ∀ shared occurrence, P shared → P (shared.dispatch occurrence).2.1)
    (replay : Replay) (number : Nat) (line : List UInt8) (h : P replay.shared) :
    P (replay.runLine number line).2.1.shared := by
  rw [runLine_eq]
  cases Reading.of line with
  | noText => exact h
  | blank => exact h
  | noEvent cause => exact h
  | event event =>
    have happly : P (replay.counting.apply event).2.1.shared := by
      rw [shared_apply]
      cases (replay.counting.scene.course event).occurrence? with
      | none => exact h
      | some occurrence => exact hdispatch _ occurrence h
    unfold runEvent
    dsimp only
    generalize replay.counting.apply event = applied at happly ⊢
    obtain ⟨(_ | _ | _ | _) | (_ | _), after, lines⟩ := applied <;> exact happly

/-- So do lines. -/
theorem shared_runLines {P : Shared → Prop}
    (hdispatch : ∀ shared occurrence, P shared → P (shared.dispatch occurrence).2.1)
    (replay : Replay) (number : Nat) (lines : List (List UInt8)) (h : P replay.shared) :
    P (replay.runLines number lines).2.1.shared := by
  induction lines generalizing replay number with
  | nil => exact h
  | cons line lines ih =>
    have hline := shared_runLine hdispatch replay number line h
    rw [runLines]
    generalize replay.runLine number line = first at hline ⊢
    obtain ⟨_ | _, after, reports⟩ := first
    · exact hline
    · exact ih after (number + 1) hline

/-- Every line of a run finds a dispatcher that is ready. -/
theorem ready_upTo (h : replay.shared.Ready) (n : Nat) :
    (upTo requests replay trace n).2.shared.Ready :=
  upTo_induction (P := fun replay => replay.shared.Ready)
    (fun _ n h => ready_reloaded h (requests n))
    (shared_runLine fun _ occurrence h => h.dispatch occurrence) h n

end Replay

end EventBridge
