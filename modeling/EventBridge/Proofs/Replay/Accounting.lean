import EventBridge.Proofs.Replay.Stages

/-! # The counts of a replay

  A replay that runs one trace after the other keeps its counts. Of the lines that the runs come to,
  those of text that are not blank are counted; what becomes of such a line is counted as well,
  unless it adds a target or the failure of its handler ends the run.

  * A `Passage` is a line that a run comes to, with the replay that it finds. `Passage.tallied` has
    what it does to the counts, in four cases.
  * `balance_runLines` adds that up along a run, and `balance_rounds` along runs.
  * `runs_are_accounted` is the statement about all runs of a replay. Between two runs the
    dispatcher in use may become any other.
-/

namespace EventBridge.Replay

open Dispatch (Outcome Shared)
open Trace (Event)

/-! ### Counters -/

/-- What the counts tell apart of a line that is counted. -/
inductive Counter where
  | handled
  | noHandler
  | failed
  | skipped
  deriving DecidableEq

/-- The counter of an outcome. -/
def Counter.ofOutcome : Outcome → Counter
  | .handled => .handled
  | .noHandler => .noHandler
  | .failed => .failed

namespace Stats

/-- One more line. -/
def readLine (stats : Stats) : Stats := { stats with lines := stats.lines + 1 }

/-- One more of what a counter counts. -/
def raise (stats : Stats) : Counter → Stats
  | .handled => { stats with handled := stats.handled + 1 }
  | .noHandler => { stats with noHandler := stats.noHandler + 1 }
  | .failed => { stats with failed := stats.failed + 1 }
  | .skipped => { stats with skipped := stats.skipped + 1 }

/-- The lines of which it is counted what became of them. -/
def settled (stats : Stats) : Nat :=
  stats.handled + stats.noHandler + stats.failed + stats.skipped

/-- No count of the first is above that of the second. -/
structure Le (stats other : Stats) : Prop where
  lines : stats.lines ≤ other.lines
  handled : stats.handled ≤ other.handled
  noHandler : stats.noHandler ≤ other.noHandler
  failed : stats.failed ≤ other.failed
  skipped : stats.skipped ≤ other.skipped

instance : LE Stats := ⟨Le⟩

theorem le_refl (stats : Stats) : stats ≤ stats := by
  constructor <;> exact Nat.le_refl _

theorem le_trans {first second third : Stats} (h : first ≤ second) (h' : second ≤ third) :
    first ≤ third where
  lines := Nat.le_trans h.lines h'.lines
  handled := Nat.le_trans h.handled h'.handled
  noHandler := Nat.le_trans h.noHandler h'.noHandler
  failed := Nat.le_trans h.failed h'.failed
  skipped := Nat.le_trans h.skipped h'.skipped

theorem le_readLine (stats : Stats) : stats ≤ stats.readLine := by
  constructor <;> simp [readLine]

theorem le_raise (stats : Stats) (counter : Counter) : stats ≤ stats.raise counter := by
  cases counter <;> constructor <;> simp [raise]

@[simp] theorem lines_readLine (stats : Stats) : stats.readLine.lines = stats.lines + 1 := rfl

@[simp] theorem settled_readLine (stats : Stats) : stats.readLine.settled = stats.settled := rfl

@[simp] theorem lines_raise (stats : Stats) (counter : Counter) :
    (stats.raise counter).lines = stats.lines := by
  cases counter <;> rfl

@[simp] theorem settled_raise (stats : Stats) (counter : Counter) :
    (stats.raise counter).settled = stats.settled + 1 := by
  cases counter <;> simp only [raise, settled] <;> omega

end Stats

/-! ### One line -/

/-- Text that is not blank is counted as a line. -/
def Reading.counts : Reading → Bool
  | .noText | .blank => false
  | .noEvent _ | .event _ => true

/-- A line that adds a target. -/
def Reading.isTarget : Reading → Bool
  | .event (.target ..) => true
  | _ => false

/-- What ended was ended by a failure of the bridge. -/
def endsAtBridge {α : Type} : Except RunError α → Bool
  | .error (.bridge ..) => true
  | _ => false

/-- A line that a run comes to, with its number and the replay that it finds. -/
structure Passage where
  before : Replay
  number : Nat
  line : List UInt8

namespace Passage

/-- Whether the run goes on behind the line. -/
def result (passage : Passage) : Except RunError Unit :=
  (passage.before.runLine passage.number passage.line).1

/-- The replay behind the line. -/
def after (passage : Passage) : Replay :=
  (passage.before.runLine passage.number passage.line).2.1

def counts (passage : Passage) : Bool := (Reading.of passage.line).counts

def isTarget (passage : Passage) : Bool := (Reading.of passage.line).isTarget

/-- What a line does to the counts. -/
inductive Tallied (passage : Passage) : Prop where
  /-- It is no text, or it is blank. -/
  | ignored : passage.counts = false → endsAtBridge passage.result = false →
    passage.after.stats = passage.before.stats → Tallied passage
  /-- It adds a target. -/
  | target : passage.counts = true → passage.isTarget = true → passage.result = .ok () →
    passage.after.stats = passage.before.stats.readLine → Tallied passage
  /-- Its handler fails and the run ends. -/
  | aborted {event : String} {cause : BridgeError} : passage.counts = true →
    passage.isTarget = false → passage.result = .error (.bridge event passage.number cause) →
    passage.after.stats = passage.before.stats.readLine → Tallied passage
  /-- One counter counts what becomes of it. -/
  | settled (counter : Counter) : passage.counts = true → passage.isTarget = false →
    passage.result = .ok () →
    passage.after.stats = passage.before.stats.readLine.raise counter → Tallied passage

end Passage

/-- An event is no matter for the script exactly if it adds a target. -/
theorem apply_eq_none_iff (replay : Replay) (event : Event) :
    (replay.apply event).1 = .ok none ↔ (Reading.event event).isTarget = true := by
  constructor
  · intro h
    have hleads := replay.leads_apply event
    have htakes := replay.scene.takes_course event
    rw [h] at hleads
    generalize replay.scene.course event = course at hleads htakes
    cases htakes with
    | target liid address => rfl
    | _ => cases hleads
  · intro h
    cases event with
    | target liid address => rfl
    | _ => cases h

/-- What an event comes to, and what is counted of it. -/
theorem result_runEvent (replay : Replay) (number : Nat) (event : Event) :
    ((replay.runEvent number event).1, (replay.runEvent number event).2.1.stats) =
      match (replay.apply event).1 with
      | .ok none => (.ok (), replay.stats)
      | .ok (some outcome) => (.ok (), replay.stats.raise (.ofOutcome outcome))
      | .error (.bridge cause) => (.error (.bridge event.name number cause), replay.stats)
      | .error _ => (.ok (), replay.stats.raise .skipped) := by
  have hstats := replay.stats_apply event
  unfold runEvent
  generalize replay.apply event = applied at hstats ⊢
  obtain ⟨result, after, lines⟩ := applied
  rw [← hstats]
  cases result with
  | ok outcome =>
    cases outcome with
    | none => rfl
    | some outcome => cases outcome <;> rfl
  | error e => cases e <;> rfl

namespace Passage

variable {passage : Passage}

/-- The line of an event is counted by what applying the event comes to. -/
theorem tallied_of_event {event : Event} (h : Reading.of passage.line = .event event) :
    passage.Tallied := by
  have hcounts : passage.counts = true := by
    simp [counts, h, Reading.counts]
  have hline : (passage.result, passage.after.stats) =
      ((passage.before.counting.runEvent passage.number event).1,
        (passage.before.counting.runEvent passage.number event).2.1.stats) := by
    simp only [result, after, runLine_eq, h]
  have htarget := passage.before.counting.apply_eq_none_iff event
  rw [show (Reading.event event).isTarget = passage.isTarget by rw [isTarget, h]] at htarget
  rw [result_runEvent] at hline
  generalize (passage.before.counting.apply event).1 = applied at hline htarget
  cases applied with
  | ok outcome =>
    cases outcome with
    | none =>
      obtain ⟨hresult, hstats⟩ := Prod.mk.inj hline
      exact .target hcounts (htarget.1 rfl) hresult hstats
    | some outcome =>
      obtain ⟨hresult, hstats⟩ := Prod.mk.inj hline
      have hother : passage.isTarget = false := by simpa using htarget
      exact .settled (.ofOutcome outcome) hcounts hother hresult hstats
  | error e =>
    have hother : passage.isTarget = false := by simpa using htarget
    cases e with
    | bridge cause =>
      obtain ⟨hresult, hstats⟩ := Prod.mk.inj hline
      exact .aborted hcounts hother hresult hstats
    | _ =>
      obtain ⟨hresult, hstats⟩ := Prod.mk.inj hline
      exact .settled .skipped hcounts hother hresult hstats

/-- What a line does to the counts is one of the four. -/
theorem tallied (passage : Passage) : passage.Tallied := by
  have hline := passage.before.runLine_eq passage.number passage.line
  cases hreading : Reading.of passage.line with
  | noText =>
    rw [hreading] at hline
    exact .ignored (by simp [counts, hreading, Reading.counts])
      (by simp [result, hline, endsAtBridge]) (by simp [after, hline])
  | blank =>
    rw [hreading] at hline
    exact .ignored (by simp [counts, hreading, Reading.counts])
      (by simp [result, hline, endsAtBridge]) (by simp [after, hline])
  | noEvent cause =>
    rw [hreading] at hline
    have hstats : passage.after.stats = passage.before.stats.readLine.raise .skipped := by
      rw [after, hline]
      rfl
    exact .settled .skipped (by simp [counts, hreading, Reading.counts])
      (by simp [isTarget, hreading, Reading.isTarget]) (by simp [result, hline]) hstats
  | event event => exact tallied_of_event hreading

/-- What that comes to in numbers. -/
theorem balance (passage : Passage) :
    passage.after.stats.lines = passage.before.stats.lines + (if passage.counts then 1 else 0) ∧
      passage.after.stats.lines + passage.before.stats.settled =
        passage.before.stats.lines + passage.after.stats.settled +
          (if passage.isTarget then 1 else 0) + (endsAtBridge passage.result).toNat := by
  cases passage.tallied with
  | ignored hcounts hresult hstats =>
    have hother : passage.isTarget = false := by
      unfold counts at hcounts
      unfold isTarget
      cases hreading : Reading.of passage.line with
      | event event => simp [hreading, Reading.counts] at hcounts
      | _ => rfl
    simp [hcounts, hresult, hother, hstats]
  | target hcounts htarget hresult hstats =>
    simp [hcounts, htarget, hresult, hstats, endsAtBridge]
    omega
  | aborted hcounts htarget hresult hstats =>
    simp [hcounts, htarget, hresult, hstats, endsAtBridge]
    omega
  | settled counter hcounts htarget hresult hstats =>
    simp [hcounts, htarget, hresult, hstats, endsAtBridge]
    omega

/-- No count goes back at a line. -/
theorem grows (passage : Passage) : passage.before.stats ≤ passage.after.stats := by
  cases passage.tallied with
  | ignored _ _ hstats => exact hstats ▸ Stats.le_refl _
  | target _ _ _ hstats => exact hstats ▸ Stats.le_readLine _
  | aborted _ _ _ hstats => exact hstats ▸ Stats.le_readLine _
  | settled counter _ _ _ hstats =>
    exact hstats ▸ Stats.le_trans (Stats.le_readLine _) (Stats.le_raise _ counter)

end Passage

/-! ### One run -/

/-- The lines that a run comes to, from a number on. -/
def passages (replay : Replay) (number : Nat) : List (List UInt8) → List Passage
  | [] => []
  | line :: rest =>
    ⟨replay, number, line⟩ ::
      match replay.runLine number line with
      | (.ok (), after, _) => passages after (number + 1) rest
      | (.error _, _, _) => []

/-- The line at which an error ends a run. -/
def RunError.line : RunError → Nat
  | .unreadable line _ => line
  | .bridge _ line _ => line

/-- An error names the line that it comes from. -/
theorem line_of_runLine {replay : Replay} {number : Nat} {line : List UInt8} {e : RunError}
    (h : (replay.runLine number line).1 = .error e) : e.line = number := by
  rw [runLine_eq] at h
  cases hreading : Reading.of line with
  | event event =>
    rw [hreading] at h
    have hresult := congrArg Prod.fst (replay.counting.result_runEvent number event)
    dsimp only at h hresult
    rw [h] at hresult
    split at hresult
    all_goals cases hresult
    rfl
  | noText =>
    rw [hreading] at h
    cases h
    rfl
  | _ =>
    rw [hreading] at h
    cases h

/-- A run comes to all lines, or to those up to the one that its error names. -/
theorem line_passages (replay : Replay) (number : Nat) (lines : List (List UInt8)) :
    match (replay.runLines number lines).1 with
    | .ok _ => (replay.passages number lines).map Passage.line = lines
    | .error e => number ≤ e.line ∧
        (replay.passages number lines).map Passage.line = lines.take (e.line + 1 - number) := by
  induction lines generalizing replay number with
  | nil => rfl
  | cons line lines ih =>
    have hends : ∀ e, (replay.runLine number line).1 = .error e → e.line = number :=
      fun e => line_of_runLine
    rw [runLines, passages]
    generalize replay.runLine number line = first at hends ⊢
    obtain ⟨result, after, reports⟩ := first
    cases result with
    | error e =>
      -- This line is the last, and the error names it.
      have hline := hends e rfl
      exact ⟨Nat.le_of_eq hline.symm, by simp [hline]⟩
    | ok _ =>
      have hrest := ih after (number + 1)
      dsimp only
      generalize (after.runLines (number + 1) lines).1 = result at hrest ⊢
      cases result with
      | ok _ => simpa using hrest
      | error e =>
        obtain ⟨hle, hlines⟩ := hrest
        refine ⟨by omega, ?_⟩
        rw [show e.line + 1 - number = (e.line + 1 - (number + 1)) + 1 by omega]
        simpa using hlines

/-- What a run does to the counts, by the lines that it comes to. -/
theorem balance_runLines (replay : Replay) (number : Nat) (lines : List (List UInt8)) :
    let after := (replay.runLines number lines).2.1.stats
    let passages := replay.passages number lines
    after.lines = replay.stats.lines + passages.countP Passage.counts ∧
      after.lines + replay.stats.settled =
        replay.stats.lines + after.settled + passages.countP Passage.isTarget +
          (endsAtBridge (replay.runLines number lines).1).toNat := by
  induction lines generalizing replay number with
  | nil => simp [runLines, passages, endsAtBridge]
  | cons line lines ih =>
    obtain ⟨hlines, hbalance⟩ := Passage.balance ⟨replay, number, line⟩
    simp only [Passage.after, Passage.result] at hlines hbalance
    simp only [runLines, passages, List.countP_cons]
    generalize replay.runLine number line = first at hlines hbalance ⊢
    obtain ⟨_ | _, after, reports⟩ := first
    · -- The line ends the run, so it is the last that is counted.
      simp only [List.countP_nil] at hlines hbalance ⊢
      exact ⟨by omega, by omega⟩
    · -- The line does not end the run; the rest is counted from what it leaves.
      obtain ⟨hrest, hrestBalance⟩ := ih after (number + 1)
      dsimp only at hlines hbalance ⊢
      generalize after.runLines (number + 1) lines = ran at hrest hrestBalance ⊢
      obtain ⟨result, final, more⟩ := ran
      dsimp only at hrest hrestBalance ⊢
      rw [show endsAtBridge (.ok () : Except RunError Unit) = false from rfl,
        Bool.toNat_false] at hbalance
      exact ⟨by omega, by omega⟩

/-- No count goes back along a run, whichever of its lines it is compared with. -/
theorem le_runLines (replay : Replay) (number : Nat) (lines : List (List UInt8)) :
    replay.stats ≤ (replay.runLines number lines).2.1.stats ∧
      ∀ passage ∈ replay.passages number lines,
        passage.after.stats ≤ (replay.runLines number lines).2.1.stats := by
  induction lines generalizing replay number with
  | nil => exact ⟨Stats.le_refl _, fun _ h => absurd h List.not_mem_nil⟩
  | cons line lines ih =>
    have hline := Passage.grows ⟨replay, number, line⟩
    simp only [Passage.after] at hline
    simp only [runLines, passages, List.forall_mem_cons, Passage.after]
    generalize replay.runLine number line = first at hline ⊢
    obtain ⟨_ | _, after, reports⟩ := first
    · exact ⟨hline, Stats.le_refl _, fun _ h => absurd h List.not_mem_nil⟩
    · obtain ⟨hrest, hpassages⟩ := ih after (number + 1)
      exact ⟨Stats.le_trans hline hrest, hrest, hpassages⟩

/-! ### One run after the other -/

/-- A run that is asked for: what has become of the dispatcher in use since the last one, and the
    trace. -/
structure Turn where
  meanwhile : Shared → Shared
  trace : List UInt8

/-- A run of a trace, and the replay that it begins with. -/
structure Round where
  before : Replay
  trace : List UInt8

namespace Round

/-- What the run returns. -/
def result (round : Round) : Except RunError Stats := (round.before.run round.trace).1

/-- The replay at the end of the run. -/
def after (round : Round) : Replay := (round.before.run round.trace).2.1

/-- The lines that the run comes to. -/
def passages (round : Round) : List Passage := round.before.passages 1 (traceLines round.trace)

/-- The lines of the trace up to the one at which the run ended, or all of them. -/
def consumed (round : Round) : List (List UInt8) :=
  match round.result with
  | .ok _ => traceLines round.trace
  | .error e => (traceLines round.trace).take e.line

end Round

/-- The first of some runs. -/
def round (replay : Replay) (turn : Turn) : Round :=
  ⟨{ replay with shared := turn.meanwhile replay.shared }, turn.trace⟩

/-- The runs of a replay, one after the other. -/
def rounds (replay : Replay) : List Turn → List Round
  | [] => []
  | turn :: turns => replay.round turn :: rounds (replay.round turn).after turns

/-- The replay after some runs. -/
def afterTurns (replay : Replay) : List Turn → Replay
  | [] => replay
  | turn :: turns => afterTurns (replay.round turn).after turns

/-- What a run of a trace leaves is what its lines leave. -/
theorem after_round (round : Round) :
    round.after = (round.before.runLines 1 (traceLines round.trace)).2.1 := by
  unfold Round.after run
  generalize round.before.runLines 1 (traceLines round.trace) = ran
  obtain ⟨_ | _, after, reports⟩ := ran <;> rfl

theorem result_round (round : Round) :
    round.result =
      (round.before.runLines 1 (traceLines round.trace)).1.map fun () => round.after.stats := by
  unfold Round.result Round.after run
  generalize round.before.runLines 1 (traceLines round.trace) = ran
  obtain ⟨_ | _, after, reports⟩ := ran <;> rfl

theorem endsAtBridge_result (round : Round) :
    endsAtBridge round.result =
      endsAtBridge (round.before.runLines 1 (traceLines round.trace)).1 := by
  rw [result_round]
  cases (round.before.runLines 1 (traceLines round.trace)).1 with
  | ok _ => rfl
  | error e => cases e <;> rfl

/-- A run comes to the lines up to the one at which it ends. -/
theorem line_passages_round (round : Round) :
    round.passages.map Passage.line = round.consumed := by
  have hlines := round.before.line_passages 1 (traceLines round.trace)
  unfold Round.consumed
  rw [result_round]
  generalize (round.before.runLines 1 (traceLines round.trace)).1 = result at hlines ⊢
  cases result with
  | ok _ => exact hlines
  | error e => exact hlines.2

/-- What runs do to the counts. -/
theorem balance_rounds (replay : Replay) (turns : List Turn) :
    let final := (replay.afterTurns turns).stats
    let passages := (replay.rounds turns).flatMap Round.passages
    final.lines = replay.stats.lines + passages.countP Passage.counts ∧
      final.lines + replay.stats.settled =
        replay.stats.lines + final.settled + passages.countP Passage.isTarget +
          (replay.rounds turns).countP fun round => endsAtBridge round.result := by
  induction turns generalizing replay with
  | nil => simp [afterTurns, rounds]
  | cons turn turns ih =>
    obtain ⟨hlines, hbalance⟩ := (replay.round turn).before.balance_runLines 1
      (traceLines (replay.round turn).trace)
    rw [← after_round, ← endsAtBridge_result] at hbalance
    rw [← after_round] at hlines
    obtain ⟨hrest, hrestBalance⟩ := ih (replay.round turn).after
    -- What becomes of the dispatcher between two runs changes no counts.
    have hstats : (replay.round turn).before.stats = replay.stats := rfl
    rw [hstats] at hlines hbalance
    simp only [afterTurns, rounds, List.flatMap_cons, List.countP_append, List.countP_cons]
    simp only [Round.passages] at hrest hrestBalance ⊢
    have hended : (if endsAtBridge (replay.round turn).result then 1 else 0) =
        (endsAtBridge (replay.round turn).result).toNat := by
      cases endsAtBridge (replay.round turn).result <;> rfl
    exact ⟨by omega, by omega⟩

/-- No count goes back along runs, nor at any of the lines that they come to. -/
theorem le_rounds (replay : Replay) (turns : List Turn) :
    replay.stats ≤ (replay.afterTurns turns).stats ∧
      ∀ passage ∈ (replay.rounds turns).flatMap Round.passages,
        passage.after.stats ≤ (replay.afterTurns turns).stats := by
  induction turns generalizing replay with
  | nil => exact ⟨Stats.le_refl _, fun _ h => absurd h List.not_mem_nil⟩
  | cons turn turns ih =>
    obtain ⟨hround, hpassages⟩ := (replay.round turn).before.le_runLines 1
      (traceLines (replay.round turn).trace)
    rw [← after_round] at hround hpassages
    obtain ⟨hrest, hothers⟩ := ih (replay.round turn).after
    simp only [afterTurns, rounds, List.flatMap_cons, List.mem_append]
    refine ⟨Stats.le_trans hround hrest, ?_⟩
    rintro passage (hpassage | hpassage)
    · exact Stats.le_trans (hpassages passage hpassage) hrest
    · exact hothers passage hpassage

/-- What the counts say of the runs of a replay. -/
structure Account (rounds : List Round) (stats : Stats) : Prop where
  /-- Which lines the runs come to. -/
  reached : ∀ round ∈ rounds, round.passages.map Passage.line = round.consumed
  /-- The lines counted are those of text that are not blank. -/
  lines : stats.lines = (rounds.flatMap Round.passages).countP Passage.counts
  /-- Lines that add targets, and those whose failure ends a run, are counted as lines only. -/
  balance : stats.lines = stats.handled + stats.noHandler + stats.failed + stats.skipped +
    ((rounds.flatMap Round.passages).countP Passage.isTarget +
      rounds.countP fun round => endsAtBridge round.result)
  /-- What each line does to the counts. -/
  tallied : ∀ passage ∈ rounds.flatMap Round.passages, passage.Tallied
  /-- No count goes back. -/
  grows : ∀ passage ∈ rounds.flatMap Round.passages,
    passage.before.stats ≤ passage.after.stats ∧ passage.after.stats ≤ stats
  /-- A run that goes through returns the counts. -/
  returned : ∀ round ∈ rounds, ∀ stats, round.result = .ok stats → stats = round.after.stats

/-- Whatever the traces, the scripts and the policies, the counts account for all lines that the
    runs of a replay have come to so far. -/
theorem runs_are_accounted (shared : Shared) (turns : List Turn) :
    Account ((new shared).rounds turns) ((new shared).afterTurns turns).stats := by
  obtain ⟨hlines, hbalance⟩ := (new shared).balance_rounds turns
  obtain ⟨-, hgrows⟩ := (new shared).le_rounds turns
  have hnone : (new shared).stats.lines = 0 ∧ (new shared).stats.settled = 0 := ⟨rfl, rfl⟩
  constructor
  case reached => exact fun round _ => line_passages_round round
  case lines => omega
  case balance =>
    unfold Stats.settled at hbalance hnone
    omega
  case tallied => exact fun passage _ => passage.tallied
  case grows => exact fun passage h => ⟨passage.grows, hgrows passage h⟩
  case returned =>
    intro round _ stats h
    rw [result_round] at h
    cases hended : (round.before.runLines 1 (traceLines round.trace)).1 with
    | error e => rw [hended] at h; cases h
    | ok _ => rw [hended] at h; exact (Except.ok.inj h).symm

end EventBridge.Replay
