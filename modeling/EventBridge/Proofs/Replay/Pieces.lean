import EventBridge.Proofs.Replay.Stages
import Mathlib.Control.Monad.Basic

/-! # Running a trace in pieces

  A trace that is cut behind a line feed can be run one piece after the other. What a run knows of
  the lines before it is the replay that they leave, and their number.

  * `traceLines_append` has the lines of the pieces, and `length_traceLines` counts them by their
    line feeds.
  * `runLines_later`: to number the lines from further on changes the line that an error names, and
    nothing else of what a run leaves.
  * `run_in_pieces` is the statement about whole traces.
-/

namespace EventBridge.Replay

open Trace (Event)

/-! ### Lines of a piece -/

/-- A piece of a trace that ends where a line ends. -/
def EndsLine (piece : List UInt8) : Prop := piece = [] ∨ piece.getLast? = some 10

/-- What comes behind the first byte of such a piece ends where a line ends, too. -/
theorem EndsLine.tail {byte : UInt8} {rest : List UInt8} (h : EndsLine (byte :: rest)) :
    EndsLine rest := by
  cases rest with
  | nil => exact .inl rfl
  | cons next rest =>
    rcases h with h | h
    · cases h
    · exact .inr (by rwa [List.getLast?_cons_cons] at h)

/-- A byte that ends no line has the rest of its line behind it. -/
theorem EndsLine.ne_nil_of_cons {byte : UInt8} {rest : List UInt8} (h : EndsLine (byte :: rest))
    (hbyte : byte ≠ 10) : rest ≠ [] := by
  rintro rfl
  rcases h with h | h
  · cases h
  · exact hbyte (Option.some.inj h)

theorem traceLines_ne_nil {trace : List UInt8} (h : trace ≠ []) : traceLines trace ≠ [] := by
  cases trace with
  | nil => exact absurd rfl h
  | cons byte rest =>
    unfold traceLines
    split
    · exact List.cons_ne_nil _ _
    · split <;> exact List.cons_ne_nil _ _

/-- The lines of the pieces are those of the whole. -/
theorem traceLines_append {piece : List UInt8} (h : EndsLine piece) (rest : List UInt8) :
    traceLines (piece ++ rest) = traceLines piece ++ traceLines rest := by
  induction piece with
  | nil => rfl
  | cons byte piece ih =>
    have hlines := ih h.tail
    rw [List.cons_append, traceLines, traceLines, hlines]
    by_cases hbyte : byte = 10
    · simp [hbyte]
    · -- The byte belongs to the first line of what follows, which the piece has.
      obtain ⟨line, lines, hfirst⟩ := List.exists_cons_of_ne_nil
        (traceLines_ne_nil (h.ne_nil_of_cons hbyte))
      simp [hbyte, hfirst]

/-- A piece has as many lines as it has line feeds. -/
theorem length_traceLines {piece : List UInt8} (h : EndsLine piece) :
    (traceLines piece).length = piece.count 10 := by
  induction piece with
  | nil => rfl
  | cons byte piece ih =>
    have hlength := ih h.tail
    rw [traceLines]
    by_cases hbyte : byte = 10
    · simp [hbyte, hlength]
    · obtain ⟨line, lines, hfirst⟩ := List.exists_cons_of_ne_nil
        (traceLines_ne_nil (h.ne_nil_of_cons hbyte))
      rw [hfirst] at hlength
      simpa [hbyte, hfirst] using hlength

/-! ### Lines further on -/

/-- The same error, so many lines further on. -/
def RunError.later (offset : Nat) : RunError → RunError
  | .unreadable line cause => .unreadable (line + offset) cause
  | .bridge event line cause => .bridge event (line + offset) cause

/-- An event that comes so many lines later comes to the same. -/
theorem runEvent_later (replay : Replay) (number offset : Nat) (event : Event) :
    (replay.runEvent (number + offset) event).1 =
        (replay.runEvent number event).1.mapError (RunError.later offset) ∧
      (replay.runEvent (number + offset) event).2.1 = (replay.runEvent number event).2.1 := by
  unfold runEvent
  generalize replay.apply event = applied
  obtain ⟨result, after, lines⟩ := applied
  cases result with
  | ok outcome => cases outcome <;> exact ⟨rfl, rfl⟩
  | error e => cases e <;> exact ⟨rfl, rfl⟩

/-- So does a line. -/
theorem runLine_later (replay : Replay) (number offset : Nat) (line : List UInt8) :
    (replay.runLine (number + offset) line).1 =
        (replay.runLine number line).1.mapError (RunError.later offset) ∧
      (replay.runLine (number + offset) line).2.1 = (replay.runLine number line).2.1 := by
  rw [runLine_eq, runLine_eq]
  cases Reading.of line with
  | event event => exact runEvent_later replay.counting number offset event
  | _ => exact ⟨rfl, rfl⟩

/-- And so do lines. -/
theorem runLines_later (replay : Replay) (number offset : Nat) (lines : List (List UInt8)) :
    (replay.runLines (number + offset) lines).1 =
        (replay.runLines number lines).1.mapError (RunError.later offset) ∧
      (replay.runLines (number + offset) lines).2.1 = (replay.runLines number lines).2.1 := by
  induction lines generalizing replay number with
  | nil => exact ⟨rfl, rfl⟩
  | cons line lines ih =>
    obtain ⟨hresult, hafter⟩ := replay.runLine_later number offset line
    rw [runLines, runLines]
    generalize replay.runLine (number + offset) line = later at hresult hafter ⊢
    generalize replay.runLine number line = first at hresult hafter ⊢
    obtain ⟨result, after, reports⟩ := first
    obtain ⟨result', after', reports'⟩ := later
    dsimp only at hresult hafter
    subst hresult hafter
    cases result with
    | error e => exact ⟨rfl, rfl⟩
    | ok _ =>
      dsimp only [Except.mapError]
      rw [Nat.add_right_comm]
      exact ih after' (number + 1)

/-! ### Whole traces -/

/-- A trace that is run in two pieces, of which the first ends where a line ends. If the first goes
    through, the second brings the replay to where the whole trace brings it, and ends the same way;
    an error names a line that is further on by the lines of the first. If the first does not go
    through, nothing comes of the second. -/
theorem run_in_pieces {piece : List UInt8} (h : EndsLine piece) (replay : Replay)
    (rest : List UInt8) :
    (∀ stats, (replay.run piece).1 = .ok stats →
      (replay.run (piece ++ rest)).1 =
          ((replay.run piece).2.1.run rest).1.mapError (RunError.later (piece.count 10)) ∧
        (replay.run (piece ++ rest)).2.1 = ((replay.run piece).2.1.run rest).2.1) ∧
    ∀ e, (replay.run piece).1 = .error e → replay.run (piece ++ rest) = replay.run piece := by
  unfold run
  rw [traceLines_append h, runLines_append, length_traceLines h]
  generalize replay.runLines 1 (traceLines piece) = first
  obtain ⟨result, between, reports⟩ := first
  cases result with
  | error e => exact ⟨nofun, fun _ _ => rfl⟩
  | ok _ =>
    refine ⟨fun stats _ => ?_, nofun⟩
    dsimp only
    obtain ⟨hresult, hafter⟩ := between.runLines_later 1 (piece.count 10) (traceLines rest)
    generalize between.runLines (1 + piece.count 10) (traceLines rest) = whole at hresult hafter ⊢
    generalize between.runLines 1 (traceLines rest) = second at hresult hafter ⊢
    obtain ⟨result, after, reports⟩ := second
    obtain ⟨result', after', reports'⟩ := whole
    dsimp only at hresult hafter
    subst hresult hafter
    cases result <;> exact ⟨rfl, rfl⟩

/-- Two lines that go through, and then one that is skipped and one that is no text: the second line
    of the second piece is the fourth of the whole trace. -/
theorem run_in_pieces_stops_at_fourth_line :
    let line := "\x7b\"event\":\"target\",\"liid\":\"a\",\"address\":\"10.0.0.2\"\x7d"
    let piece := (line ++ "\n\n").toUTF8.data.toList
    let rest := "x\n".toUTF8.data.toList ++ [0xFF]
    let replay := new ⟨⟨Interpreter.new default 1, .log⟩, 2⟩
    EndsLine piece ∧ (replay.run piece).1 = .ok ⟨1, 0, 0, 0, 0⟩ ∧
      ((replay.run piece).2.1.run rest).1 = .error (.unreadable 2 .notText) ∧
      (replay.run (piece ++ rest)).1 = .error (.unreadable 4 .notText) := by
  intro line piece rest replay
  have hpiece : EndsLine piece := .inr (by decide +kernel)
  have hfirst : (replay.run piece).1 = .ok ⟨1, 0, 0, 0, 0⟩ := by decide +kernel
  have hstop : ((replay.run piece).2.1.run rest).1 = .error (.unreadable 2 .notText) := by
    decide +kernel
  have hlines : piece.count 10 = 2 := by decide +kernel
  refine ⟨hpiece, hfirst, hstop, ?_⟩
  rw [((run_in_pieces hpiece replay rest).1 _ hfirst).1, hstop, hlines]
  rfl

end EventBridge.Replay
