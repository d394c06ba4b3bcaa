import EventBridge.Proofs.Dispatch.Resolution

/-! # What a dispatch reports

  The reports of a dispatch say how far it has come: whether there is a handler, with how many
  arguments it is called, and that it has failed, where the policy is to log that.

  * `Mark` are the kinds of reports that stand for something: a line that is skipped, a handler that
    fails, is missing or is called, and the end of a run. `Mark.marks` tells them from all others by
    their level, the part that reports them and their first words.
  * A `Call` is a value that is called, with what it is called with. `Dispatcher.call?` is the one
    that a dispatch makes, and `makes_of_call?` that it makes no other.
  * `reports_dispatch`: what is reported is the call, and behind it what came of it.
-/

namespace EventBridge

open Engine (Live)
open Host (exec)
open Log (Level Line)
open Script (Value)

/-! ### Kinds of reports -/

/-- The reports that stand for something. -/
inductive Mark where
  | skipped
  | failed
  | noHandler
  | called
  | finished
  deriving DecidableEq

namespace Mark

/-- How severe the reports of a kind are. -/
def level : Mark → Level
  | .skipped => .warn
  | .failed => .error
  | .noHandler | .called => .debug
  | .finished => .info

/-- Which part reports them. -/
def target : Mark → String
  | .skipped | .finished => "replay"
  | .failed | .noHandler | .called => "bridge"

/-- How they begin. -/
def opening : Mark → String
  | .skipped => "Skipping "
  | .failed => "Dispatch of "
  | .noHandler => "No handler for "
  | .called => "Calling "
  | .finished => "Replay finished: "

/-- The report of a kind that goes on so. -/
def line (mark : Mark) (rest : String) : Line := ⟨mark.level, mark.target, mark.opening ++ rest⟩

/-- Whether a line is a report of a kind. -/
def marks (mark : Mark) (line : Line) : Bool :=
  line.level == mark.level && line.target == mark.target &&
    mark.opening.toList.isPrefixOf line.text.toList

/-- No report is of two kinds. -/
theorem marks_line (mark other : Mark) (rest : String) :
    mark.marks (other.line rest) = decide (mark = other) := by
  unfold marks line
  rw [String.toList_append]
  cases mark <;> cases other <;> rfl

end Mark

namespace Dispatch

theorem missingLine_eq (name : String) :
    missingLine name = Mark.noHandler.line (name ++ ", skipping") := by
  rw [missingLine, String.append_assoc]
  rfl

theorem failureLine_eq (name : String) (e : BridgeError) :
    failureLine name e = Mark.failed.line (name ++ " failed: " ++ e.message) := by
  simp only [failureLine, Mark.line, Mark.opening, String.append_assoc]
  rfl

theorem callLine_eq (name : String) (arguments : Nat) :
    callLine name arguments =
      Mark.called.line (name ++ " with " ++ toString arguments ++ " argument(s)") := by
  simp only [callLine, Mark.line, Mark.opening, String.append_assoc]
  rfl

/-! ### Calls -/

instance (occurrence : Occurrence) (limits : Limits) : Decidable (occurrence.Fits limits) :=
  decidable_of_iff
    ((∀ headers ∈ occurrence.headers?, headers.size ≤ limits.tableEntries) ∧
      ∀ body ∈ occurrence.body?, body.size ≤ limits.payloadBytes)
    ⟨fun h => ⟨h.1, h.2⟩, fun h => ⟨h.headers, h.body⟩⟩

/-- A value that is called by the name of a handler, with what it is called with. -/
structure Call where
  name : String
  handler : Value
  delivery : Delivery

namespace Call

/-- What comes of the call, and the machine after it. -/
def run (call : Call) : Except Script.Fault (List Value) × Script.Machine :=
  Host.callOf call.handler call.delivery.arguments call.delivery.contexts call.delivery.machine

/-- What is reported of it. -/
def line (call : Call) : Line := callLine call.name call.delivery.arguments.length

end Call

namespace Dispatcher

/-- The call that a dispatch makes. It makes none if there is no handler, or if what the handler is
called with is over a limit. -/
def call? (d : Dispatcher) (occurrence : Occurrence) : Option Call :=
  match d.found? occurrence, d.interpreter.contexts with
  | some (handler, i), some table =>
    if occurrence.Fits d.interpreter.limits then
      some ⟨occurrence.handler, handler, occurrence.delivery table i.machine⟩
    else none
  | _, _ => none

/-- How far a dispatch comes without its policy: the call that it makes, what it comes to, the
machine after it and what is reported. -/
inductive Reaches (d : Dispatcher) (occurrence : Occurrence) :
    Option Call → Except BridgeError Outcome × Interpreter × List Line → Prop where
  /-- There is no handler. -/
  | missing {i : Interpreter} : i.machine = (d.lookUp occurrence).2.machine →
    d.Reaches occurrence none (.ok .noHandler, i, [missingLine occurrence.handler])
  /-- The dispatch fails before the script is run for it. -/
  | stopped {e : BridgeError} {i : Interpreter} :
    i.machine = (d.lookUp occurrence).2.machine → d.Reaches occurrence none (.error e, i, [])
  | called {call : Call} {i : Interpreter} : call.name = occurrence.handler →
    i.machine = call.run.2 →
    d.Reaches occurrence (some call)
      ((callResult call.name call.run.1).map fun _ => .handled, i, [call.line])

variable {d : Dispatcher} {occurrence : Occurrence}

theorem call?_of_not_found (h : d.found? occurrence = none) : d.call? occurrence = none := by
  rw [call?, h]

/-- With a handler at hand, the limits decide whether it is called. -/
theorem reaches_of_found (hready : d.Ready) {handler : Value} {i : Interpreter}
    (hfound : d.found? occurrence = some (handler, i)) (hlines : i.lines = []) :
    d.Reaches occurrence (d.call? occurrence) (d.attempt occurrence) := by
  obtain ⟨table, hcontexts⟩ := Option.isSome_iff_exists.1 hready
  obtain ⟨hlook, -⟩ := lookUp_of_found hfound
  by_cases hfits : occurrence.Fits d.interpreter.limits
  · let call : Call := ⟨occurrence.handler, handler, occurrence.delivery table i.machine⟩
    have hcall : d.call? occurrence = some call := by
      simp only [call?, hfound, hcontexts, if_pos hfits, call]
    have hattempt : d.attempt occurrence =
        ((callResult call.name call.run.1).map fun _ => .handled,
          { d.interpreter with
            machine := call.run.2
            contexts := some (occurrence.released table)
            lines := [] },
          i.lines ++ [call.line]) := attempt_eq_of_fits hfound hcontexts hfits
    rw [hcall, hattempt, hlines]
    exact .called rfl rfl
  · obtain ⟨cause, hexceeds⟩ := Occurrence.exceeds_of_not_fits hfits
    have hcall : d.call? occurrence = none := by
      simp only [call?, hfound, hcontexts, if_neg hfits]
    have hattempt := attempt_of_exceeds hfound hcontexts hexceeds
    rw [refusedFor, hlines] at hattempt
    rw [hcall, hattempt]
    exact .stopped (congrArg (fun look => look.2.machine) hlook).symm

/-- A dispatch comes as far as the call that it makes. -/
theorem reaches_attempt (hready : d.Ready) (occurrence : Occurrence) :
    d.Reaches occurrence (d.call? occurrence) (d.attempt occurrence) := by
  obtain ⟨result, m, hresolves⟩ :=
    Resolves.total d.interpreter.contexts occurrence.handler d.interpreter.machine
  have hcomes := comes_of_resolves hready hresolves
  have hends : LooksUp { d.interpreter with lines := [] } d.interpreter.stack m result
      (d.lookUp occurrence) :=
    looksUp_pushHandler (i := { d.interpreter with lines := [] }) hresolves
  generalize hlook : d.lookUp occurrence = ending at hends
  cases hends with
  | raised extra =>
    have hfound : d.found? occurrence = none := by rw [found?, hlook]
    rw [call?_of_not_found hfound]
    generalize d.attempt occurrence = attempted at hcomes ⊢
    cases hcomes
    exact .stopped (by rw [hlook])
  | missing =>
    have hfound : d.found? occurrence = none := by rw [found?, hlook]
    rw [call?_of_not_found hfound]
    generalize d.attempt occurrence = attempted at hcomes ⊢
    cases hcomes with
    | missing => exact .missing (by rw [hlook])
    | refused hhandler => exact absurd rfl hhandler
    | noFunction hhandler => exact absurd rfl hhandler
    | called _ _ hfunction => cases hfunction
  | @found handler _ =>
    have hfound : d.found? occurrence = some (handler, d.holding handler m) := by
      rw [found?, hlook]
      dsimp only
      rw [List.getLastD_concat]
      rfl
    exact reaches_of_found hready hfound rfl

/-- What is reported behind a call, if there was one, by what the dispatch returns. -/
inductive Verdict (name : String) :
    Option Call → Except BridgeError Outcome → List Line → Prop where
  | handled (call : Call) : Verdict name (some call) (.ok .handled) []
  | noHandler : Verdict name none (.ok .noHandler) [missingLine name]
  | failed (call : Option Call) (e : BridgeError) :
    Verdict name call (.ok .failed) [failureLine name e]
  | returned (call : Option Call) (e : BridgeError) : Verdict name call (.error e) []

/-- What a dispatch reports is the call that it makes, if it makes one, and what came of it. -/
theorem reports_dispatch (hready : d.Ready) (occurrence : Occurrence) :
    ∃ verdict,
      (d.dispatch occurrence).2.2 = (d.call? occurrence).toList.map Call.line ++ verdict ∧
        Verdict occurrence.handler (d.call? occurrence) (d.dispatch occurrence).1 verdict := by
  have hreaches := reaches_attempt hready occurrence
  rw [hready.dispatch_eq_settled]
  generalize d.call? occurrence = call at hreaches ⊢
  have hfailure : ∀ e i lines, ∃ verdict,
      (d.settled occurrence (.error e, i, lines)).2.2 = lines ++ verdict ∧
        Verdict occurrence.handler call (d.settled occurrence (.error e, i, lines)).1 verdict := by
    intro e i lines
    unfold settled
    cases d.policy
    · exact ⟨_, rfl, .failed call e⟩
    · exact ⟨[], (List.append_nil lines).symm, .returned call e⟩
  generalize d.attempt occurrence = attempted at hreaches ⊢
  cases hreaches with
  | missing => exact ⟨_, rfl, .noHandler⟩
  | stopped => exact hfailure _ _ []
  | @called call i =>
    cases call.run.1 with
    | ok returned => exact ⟨[], rfl, .handled call⟩
    | error fault => exact hfailure _ _ [call.line]

end Dispatcher

end Dispatch

end EventBridge
