import EventBridge.Replay.Apply
import EventBridge.Text.Blank
import EventBridge.Trace.Event.Reader

/-! # Running a trace

A trace is bytes, one event to a line. Blank lines count for nothing; a line that is no event, or
whose event is turned down, is reported and skipped. A line that is no text ends the replay, and so
does a failure of the bridge.
-/

namespace EventBridge.Replay

open Log (Line)
open Trace (Event)

/-- The lines of a trace, without the line feeds. A line feed at the end begins no line. -/
def traceLines : List UInt8 → List (List UInt8)
  | [] => []
  | byte :: rest =>
    if byte = 10 then [] :: traceLines rest
    else match traceLines rest with
      | line :: lines => (byte :: line) :: lines
      | [] => [[byte]]

/-- What a line comes to: the replay goes on, or ends. -/
abbrev LineResult := Except RunError Unit × Replay × List Line

/-- Counts a line as skipped, and reports why. -/
def skip (replay : Replay) (text : String) : Replay × List Line :=
  ({ replay with stats := { replay.stats with skipped := replay.stats.skipped + 1 } },
    [⟨.warn, "replay", "Skipping " ++ text⟩])

/-- Applies the event of a line that is not blank. -/
def runEvent (replay : Replay) (number : Nat) (event : Event) : LineResult :=
  let (result, replay, lines) := replay.apply event
  match result with
  | .ok (some outcome) => (.ok (), { replay with stats := replay.stats.record outcome }, lines)
  | .ok none => (.ok (), replay, lines)
  | .error (.bridge cause) => (.error (.bridge event.name number cause), replay, lines)
  | .error e =>
    let (replay, skipped) :=
      replay.skip (event.name ++ " on line " ++ toString number ++ ": " ++ e.message)
    (.ok (), replay, lines ++ skipped)

/-- Runs one line, by its number. -/
def runLine (replay : Replay) (number : Nat) (line : List UInt8) : LineResult :=
  match Text.Utf8.decode? line with
  | none => (.error (.unreadable number .notText), replay, [])
  | some text =>
    let text := Text.trim text
    -- A blank line has a number and is not counted.
    if text.isEmpty then (.ok (), replay, [])
    else
      let replay := { replay with stats := { replay.stats with lines := replay.stats.lines + 1 } }
      match Event.parse text with
      | .ok event => replay.runEvent number event
      | .error e =>
        let (replay, lines) :=
          replay.skip ("malformed line " ++ toString number ++ ": " ++ e.message)
        (.ok (), replay, lines)

/-- Runs lines from a number on. -/
def runLines (replay : Replay) (number : Nat) : List (List UInt8) → LineResult
  | [] => (.ok (), replay, [])
  | line :: rest =>
    let (result, replay, lines) := replay.runLine number line
    match result with
    | .error e => (.error e, replay, lines)
    | .ok () =>
      let (result, replay, others) := runLines replay (number + 1) rest
      (result, replay, lines ++ others)

/-- Runs a trace to its end, or to what ends it. -/
def run (replay : Replay) (trace : List UInt8) : Except RunError Stats × Replay × List Line :=
  let (result, replay, lines) := replay.runLines 1 (traceLines trace)
  match result with
  | .error e => (.error e, replay, lines)
  | .ok () =>
    (.ok replay.stats, replay,
      lines ++ [⟨.info, "replay", "Replay finished: " ++ replay.stats.text⟩])

end EventBridge.Replay
