import EventBridge.Proofs.Interpreter.Exec
import EventBridge.Replay.Run

/-! # Skipped events

  An event that is turned down changes nothing: neither the engine and the connections nor the
  script, none of whose code has run. So lines that are skipped can stand anywhere in a trace, and
  are seen in the count of lines alone.

  * `apply_of_rejection` is the first half. That no code has run is said by putting any other
    dispatcher in the place of the one in use: the event is turned down all the same.
  * `Padding` relates a trace to one with more lines in it, each of which comes to nothing where it
    stands. The second half goes by induction on it, with two runs side by side.
-/

namespace EventBridge.Replay

open Dispatch (Occurrence Shared Traffic)
open Trace (Event)

/-! ### Events that are turned down -/

/-- An event is turned down for what it says, and not because the bridge failed. -/
def EventError.IsRejection : EventError → Prop
  | .bridge _ => False
  | _ => True

/-- A dispatch fails with a failure of the bridge only. -/
theorem not_isRejection_of_dispatch {replay : Replay} {occurrence : Occurrence} {e : EventError}
    (h : (replay.dispatch occurrence).1 = .error e) : ¬ e.IsRejection := by
  unfold dispatch at h
  generalize replay.shared.dispatch occurrence = dispatched at h
  obtain ⟨result, shared, lines⟩ := dispatched
  cases result with
  | error cause =>
    cases h
    exact id
  | ok outcome => cases h

@[simp] theorem connection?_shared (replay : Replay) (shared : Shared) (name : String) :
    ({ replay with shared := shared } : Replay).connection? name = replay.connection? name := rfl

/-- What happens on a connection is turned down before any dispatch. -/
theorem onConnection_of_rejection {replay : Replay} {name : String}
    {what : Except EventError Traffic} {e : EventError}
    (h : (replay.onConnection name what).1 = .error e) (he : e.IsRejection) (shared : Shared) :
    { replay with shared := shared }.onConnection name what =
      (.error e, { replay with shared := shared }, []) := by
  unfold onConnection at h ⊢
  rw [connection?_shared]
  cases hname : replay.connection? name with
  | none =>
    rw [hname] at h
    cases h
    rfl
  | some context =>
    rw [hname] at h
    cases what with
    | error cause =>
      cases h
      rfl
    | ok what =>
      -- Once a dispatch begins, no failure of it is a rejection.
      exact absurd he (not_isRejection_of_dispatch h)

/-- An event that is turned down leaves everything as it was and has nothing to report, whatever
    the dispatcher is. -/
theorem apply_of_rejection {replay : Replay} {event : Event} {e : EventError}
    (h : (replay.apply event).1 = .error e) (he : e.IsRejection) (shared : Shared) :
    { replay with shared := shared }.apply event =
      (.error e, { replay with shared := shared }, []) := by
  cases event with
  | target liid address => cases h
  | triggerUp liid address => exact absurd he (not_isRejection_of_dispatch h)
  | triggerDown liid => exact absurd he (not_isRejection_of_dispatch h)
  | connectionUp name source destination protocol liid trigger layer =>
    unfold apply at h ⊢
    dsimp only at h ⊢
    rw [connection?_shared]
    cases hname : replay.connection? name with
    | some context =>
      rw [hname] at h
      cases h
      rfl
    | none =>
      rw [hname] at h
      exact absurd he (not_isRejection_of_dispatch h)
  | data name payload => exact onConnection_of_rejection h he shared
  | datagram name payload => exact onConnection_of_rejection h he shared
  | httpRequest name method url headers body => exact onConnection_of_rejection h he shared
  | httpResponse name code status headers body => exact onConnection_of_rejection h he shared
  | connectionDown name =>
    unfold apply at h ⊢
    dsimp only at h ⊢
    rw [connection?_shared]
    cases hname : replay.connection? name with
    | none =>
      rw [hname] at h
      cases h
      rfl
    | some context =>
      rw [hname] at h
      exact absurd he (not_isRejection_of_dispatch h)

/-! ### Counts -/

/-- The same replay with other counts. -/
def recount (replay : Replay) (f : Stats → Stats) : Replay :=
  { replay with stats := f replay.stats }

/-- What happens in a dispatch does not depend on the counts. -/
theorem dispatch_recount (replay : Replay) (f : Stats → Stats) (occurrence : Occurrence) :
    (replay.recount f).dispatch occurrence =
      ((replay.dispatch occurrence).1, (replay.dispatch occurrence).2.1.recount f,
        (replay.dispatch occurrence).2.2) := by
  unfold dispatch
  rw [show (replay.recount f).shared = replay.shared from rfl]
  generalize replay.shared.dispatch occurrence = dispatched
  rfl

theorem onConnection_recount (replay : Replay) (f : Stats → Stats) (name : String)
    (what : Except EventError Traffic) :
    (replay.recount f).onConnection name what =
      ((replay.onConnection name what).1, (replay.onConnection name what).2.1.recount f,
        (replay.onConnection name what).2.2) := by
  unfold onConnection
  rw [show (replay.recount f).connection? name = replay.connection? name from rfl]
  cases replay.connection? name with
  | none => rfl
  | some context =>
    cases what with
    | error e => rfl
    | ok what => exact dispatch_recount replay f _

theorem connect_recount (replay : Replay) (f : Stats → Stats) (name : String)
    (context : Engine.Context) :
    connect (replay.recount f) name context =
      ((connect replay name context).1, (connect replay name context).2.1.recount f,
        (connect replay name context).2.2) := by
  unfold connect
  rw [show (replay.recount f).engine = replay.engine from rfl, dispatch_recount]
  generalize replay.dispatch _ = dispatched
  obtain ⟨result, after, lines⟩ := dispatched
  cases result <;> rfl

/-- Nor does what becomes of an event, and it does not change them. -/
theorem apply_recount (replay : Replay) (f : Stats → Stats) (event : Event) :
    (replay.recount f).apply event =
      ((replay.apply event).1, (replay.apply event).2.1.recount f,
        (replay.apply event).2.2) := by
  cases event with
  | target liid address => rfl
  | triggerUp liid address => exact dispatch_recount replay f _
  | triggerDown liid => exact dispatch_recount replay f _
  | connectionUp name source destination protocol liid trigger layer =>
    unfold apply
    dsimp only
    rw [show (replay.recount f).connection? name = replay.connection? name from rfl]
    cases replay.connection? name with
    | some context => rfl
    | none =>
      dsimp only
      rw [show (replay.recount f).engine = replay.engine from rfl]
      generalize makeContext replay.engine source destination protocol liid trigger layer = made
      obtain ⟨context, engine, opened⟩ := made
      -- The engine has moved on before the dispatch; the counts wait beside it.
      have hconnect := connect_recount { replay with engine := engine } f name context
      dsimp only [recount] at hconnect ⊢
      rw [hconnect]
  | data name payload => exact onConnection_recount replay f name _
  | datagram name payload => exact onConnection_recount replay f name _
  | httpRequest name method url headers body => exact onConnection_recount replay f name _
  | httpResponse name code status headers body => exact onConnection_recount replay f name _
  | connectionDown name =>
    unfold apply
    dsimp only
    rw [show (replay.recount f).connection? name = replay.connection? name from rfl]
    cases replay.connection? name with
    | none => rfl
    | some context => exact dispatch_recount (replay.closeConnection name) f _

/-- The counts after so many more lines that were skipped. -/
def Stats.skipping (stats : Stats) (k : Nat) : Stats :=
  { stats with lines := stats.lines + k, skipped := stats.skipped + k }

/-- A replay that has skipped so many more lines. Everything but the counts is as it was. -/
def skipping (replay : Replay) (k : Nat) : Replay := replay.recount (·.skipping k)

@[simp] theorem skipping_zero (replay : Replay) : replay.skipping 0 = replay := rfl

/-- A replay that has counted one more line. -/
def counting (replay : Replay) : Replay :=
  replay.recount fun stats => { stats with lines := stats.lines + 1 }

/-- A replay that has skipped the line that it has counted. -/
def missing (replay : Replay) : Replay :=
  replay.recount fun stats => { stats with skipped := stats.skipped + 1 }

theorem counting_skipping (replay : Replay) (k : Nat) :
    (replay.skipping k).counting = replay.counting.skipping k := by
  simp only [counting, skipping, recount, Stats.skipping, Nat.add_right_comm]

theorem missing_skipping (replay : Replay) (k : Nat) :
    (replay.skipping k).missing = replay.missing.skipping k := by
  simp only [missing, skipping, recount, Stats.skipping, Nat.add_right_comm]

/-- Counting a line and skipping it is to skip one more. -/
theorem missing_counting_skipping (replay : Replay) (k : Nat) :
    (replay.skipping k).counting.missing = replay.skipping (k + 1) := by
  simp only [missing, counting, skipping, recount, Stats.skipping, Nat.add_assoc]

/-! ### One line -/

/-- A replay goes on after an event whatever it has skipped before, and whatever the number of the
    line. -/
theorem runEvent_skipping {replay : Replay} {number : Nat} {event : Event}
    (h : (replay.runEvent number event).1 = .ok ()) (k other : Nat) :
    ((replay.skipping k).runEvent other event).1 = .ok () ∧
      ((replay.skipping k).runEvent other event).2.1 =
        (replay.runEvent number event).2.1.skipping k := by
  unfold runEvent at h ⊢
  rw [skipping, apply_recount]
  generalize replay.apply event = applied at h ⊢
  obtain ⟨result, after, lines⟩ := applied
  cases result with
  | ok outcome =>
    cases outcome with
    | none => exact ⟨rfl, rfl⟩
    | some outcome => cases outcome <;> exact ⟨rfl, rfl⟩
  | error e =>
    cases e with
    | bridge cause => cases h
    | _ => exact ⟨rfl, missing_skipping after k⟩

/-- What a line of a text comes to, if it is not blank. -/
theorem runLine_of_text (replay : Replay) (number : Nat) {line : List UInt8} {text : String}
    (hdecode : Text.Utf8.decode? line = some text) (hempty : ¬ (Text.trim text).isEmpty) :
    replay.runLine number line =
      match Event.parse (Text.trim text) with
      | .ok event => replay.counting.runEvent number event
      | .error e =>
        (.ok (),
          replay.counting.skip ("malformed line " ++ toString number ++ ": " ++ e.message)) := by
  simp only [runLine, hdecode, hempty, Bool.false_eq_true, if_false]
  cases Event.parse (Text.trim text) <;> rfl

/-- So it does after a line. -/
theorem runLine_skipping {replay : Replay} {number : Nat} {line : List UInt8}
    (h : (replay.runLine number line).1 = .ok ()) (k other : Nat) :
    ((replay.skipping k).runLine other line).1 = .ok () ∧
      ((replay.skipping k).runLine other line).2.1 =
        (replay.runLine number line).2.1.skipping k := by
  cases hdecode : Text.Utf8.decode? line with
  | none =>
    simp only [runLine, hdecode] at h
    cases h
  | some text =>
    by_cases hempty : (Text.trim text).isEmpty
    · simp only [runLine, hdecode, hempty, if_true, and_self]
    · rw [runLine_of_text _ _ hdecode hempty] at h ⊢
      rw [runLine_of_text _ _ hdecode hempty, counting_skipping]
      cases hparse : Event.parse (Text.trim text) with
      | error e => exact ⟨rfl, missing_skipping replay.counting k⟩
      | ok event =>
        rw [hparse] at h
        exact runEvent_skipping h k other

/-- A line that has only blanks. -/
def IsBlank (line : List UInt8) : Prop :=
  ∃ text, Text.Utf8.decode? line = some text ∧ (Text.trim text).isEmpty

/-- A line of a text that is no event. -/
def IsUnparsable (line : List UInt8) : Prop :=
  ∃ text e, Text.Utf8.decode? line = some text ∧ ¬ (Text.trim text).isEmpty ∧
    Event.parse (Text.trim text) = .error e

/-- A line with an event that a replay turns down. -/
def Rejects (replay : Replay) (line : List UInt8) : Prop :=
  ∃ text event e, Text.Utf8.decode? line = some text ∧ ¬ (Text.trim text).isEmpty ∧
    Event.parse (Text.trim text) = .ok event ∧ (replay.apply event).1 = .error e ∧ e.IsRejection

theorem runLine_of_blank {line : List UInt8} (h : IsBlank line) (replay : Replay) (number : Nat) :
    replay.runLine number line = (.ok (), replay, []) := by
  obtain ⟨text, hdecode, hempty⟩ := h
  simp only [runLine, hdecode, hempty, if_true]

theorem runLine_of_unparsable {line : List UInt8} (h : IsUnparsable line) (replay : Replay)
    (k number : Nat) :
    ((replay.skipping k).runLine number line).1 = .ok () ∧
      ((replay.skipping k).runLine number line).2.1 = replay.skipping (k + 1) := by
  obtain ⟨text, e, hdecode, hempty, hparse⟩ := h
  rw [runLine_of_text _ _ hdecode hempty, hparse]
  exact ⟨rfl, missing_counting_skipping replay k⟩

/-- A line whose event is turned down is skipped, however many were skipped before it. -/
theorem runLine_of_rejects {replay : Replay} {line : List UInt8} (h : replay.Rejects line)
    (k number : Nat) :
    ((replay.skipping k).runLine number line).1 = .ok () ∧
      ((replay.skipping k).runLine number line).2.1 = replay.skipping (k + 1) := by
  obtain ⟨text, event, e, hdecode, hempty, hparse, hresult, hrejection⟩ := h
  have happly : replay.apply event = (.error e, replay, []) :=
    apply_of_rejection hresult hrejection replay.shared
  have hcounted : (replay.skipping k).counting.apply event =
      (.error e, (replay.skipping k).counting, []) := by
    rw [counting, apply_recount, skipping, apply_recount, happly]
  rw [runLine_of_text _ _ hdecode hempty, hparse]
  simp only [runEvent, hcounted]
  cases e with
  | bridge cause => cases hrejection
  | _ => exact ⟨rfl, missing_counting_skipping replay k⟩

/-! ### A whole trace -/

/-- The replay after a line. -/
def past (replay : Replay) (line : List UInt8) : Replay := (replay.runLine 1 line).2.1

/-- The second list of lines is the first with others put in, of which so many are counted: blank
    lines, lines that are no event, and lines whose event is turned down where it stands. -/
inductive Padding : Replay → List (List UInt8) → List (List UInt8) → Nat → Prop where
  | nil (replay : Replay) : Padding replay [] [] 0
  | keep {replay : Replay} {line : List UInt8} {lines lines' : List (List UInt8)} {k : Nat} :
    Padding (replay.past line) lines lines' k → Padding replay (line :: lines) (line :: lines') k
  | blank {replay : Replay} {line : List UInt8} {lines lines' : List (List UInt8)} {k : Nat} :
    IsBlank line → Padding replay lines lines' k → Padding replay lines (line :: lines') k
  | unparsable {replay : Replay} {line : List UInt8} {lines lines' : List (List UInt8)} {k : Nat} :
    IsUnparsable line → Padding replay lines lines' k →
      Padding replay lines (line :: lines') (k + 1)
  | rejected {replay : Replay} {line : List UInt8} {lines lines' : List (List UInt8)} {k : Nat} :
    replay.Rejects line → Padding replay lines lines' k →
      Padding replay lines (line :: lines') (k + 1)

/-- A run goes on from what its first line leaves. -/
theorem runLines_cons {replay : Replay} {number : Nat} {line : List UInt8}
    (h : (replay.runLine number line).1 = .ok ()) (lines : List (List UInt8)) :
    (replay.runLines number (line :: lines)).1 =
        ((replay.runLine number line).2.1.runLines (number + 1) lines).1 ∧
      (replay.runLines number (line :: lines)).2.1 =
        ((replay.runLine number line).2.1.runLines (number + 1) lines).2.1 := by
  rw [runLines]
  generalize replay.runLine number line = first at h ⊢
  obtain ⟨result, after, reports⟩ := first
  cases h
  exact ⟨rfl, rfl⟩

/-- A run that goes through goes through its first line. -/
theorem runLine_of_runLines {replay : Replay} {number : Nat} {line : List UInt8}
    {lines : List (List UInt8)} (h : (replay.runLines number (line :: lines)).1 = .ok ()) :
    (replay.runLine number line).1 = .ok () := by
  rw [runLines] at h
  generalize replay.runLine number line = first at h ⊢
  obtain ⟨result, after, reports⟩ := first
  cases result with
  | error e => cases h
  | ok _ => rfl

/-- The run over the padded lines stays beside the other: it is the same but for what it has skipped
    more. -/
theorem Padding.runLines {replay : Replay} {lines lines' : List (List UInt8)} {k : Nat}
    (h : Padding replay lines lines' k) {number : Nat}
    (hrun : (replay.runLines number lines).1 = .ok ()) (j other : Nat) :
    ((replay.skipping j).runLines other lines').1 = .ok () ∧
      ((replay.skipping j).runLines other lines').2.1 =
        (replay.runLines number lines).2.1.skipping (j + k) := by
  induction h generalizing number j other with
  | nil replay => exact ⟨rfl, rfl⟩
  | @keep replay line lines lines' k hrest ih =>
    have hline := runLine_of_runLines hrun
    obtain ⟨hfirst, hstate⟩ := runLines_cons hline lines
    -- The other run stands where this one does, but for what it has skipped.
    obtain ⟨hline', hafter⟩ := runLine_skipping hline j other
    obtain ⟨hfirst', hstate'⟩ := runLines_cons hline' lines'
    have hpast : replay.past line = (replay.runLine number line).2.1 :=
      (runLine_skipping hline 0 1).2
    rw [hpast] at ih
    rw [hfirst] at hrun
    rw [hstate, hfirst', hstate', hafter]
    exact ih hrun j (other + 1)
  | @blank replay line lines lines' k hline hrest ih =>
    have hblank := runLine_of_blank hline (replay.skipping j) other
    obtain ⟨hfirst, hstate⟩ := runLines_cons (by rw [hblank]) lines'
    rw [hfirst, hstate, hblank]
    exact ih hrun j (other + 1)
  | @unparsable replay line lines lines' k hline hrest ih =>
    obtain ⟨hskip, hafter⟩ := runLine_of_unparsable hline replay j other
    obtain ⟨hfirst, hstate⟩ := runLines_cons hskip lines'
    rw [hfirst, hstate, hafter, show j + (k + 1) = j + 1 + k by omega]
    exact ih hrun (j + 1) (other + 1)
  | @rejected replay line lines lines' k hline hrest ih =>
    obtain ⟨hskip, hafter⟩ := runLine_of_rejects hline j other
    obtain ⟨hfirst, hstate⟩ := runLines_cons hskip lines'
    rw [hfirst, hstate, hafter, show j + (k + 1) = j + 1 + k by omega]
    exact ih hrun (j + 1) (other + 1)

/-- A run that goes through ends with the replay that its lines leave, and its counts. -/
theorem run_of_runLines {replay : Replay} {trace : List UInt8}
    (h : (replay.runLines 1 (traceLines trace)).1 = .ok ()) :
    (replay.run trace).1 = .ok (replay.runLines 1 (traceLines trace)).2.1.stats ∧
      (replay.run trace).2.1 = (replay.runLines 1 (traceLines trace)).2.1 := by
  unfold run
  generalize replay.runLines 1 (traceLines trace) = ran at h ⊢
  obtain ⟨result, after, reports⟩ := ran
  cases h
  exact ⟨rfl, rfl⟩

theorem runLines_of_run {replay : Replay} {trace : List UInt8} {stats : Stats}
    (h : (replay.run trace).1 = .ok stats) :
    (replay.runLines 1 (traceLines trace)).1 = .ok () := by
  unfold run at h
  generalize replay.runLines 1 (traceLines trace) = ran at h ⊢
  obtain ⟨result, after, reports⟩ := ran
  cases result with
  | error e => cases h
  | ok _ => rfl

/-- An event that is turned down is a no-op, and none of the code of the script has run. So lines
    that come to nothing can be put in anywhere in a trace that goes through: it still goes through,
    and all that differs at the end is that they were counted and skipped. -/
theorem skipped_is_noop (replay : Replay) :
    (∀ (event : Event) (e : EventError), (replay.apply event).1 = .error e → e.IsRejection →
      replay.apply event = (.error e, replay, []) ∧
        ∀ shared : Shared, { replay with shared := shared }.apply event =
          (.error e, { replay with shared := shared }, [])) ∧
    ∀ (trace trace' : List UInt8) (stats : Stats) (k : Nat), (replay.run trace).1 = .ok stats →
      Padding replay (traceLines trace) (traceLines trace') k →
        (replay.run trace').1 = .ok (stats.skipping k) ∧
          (replay.run trace').2.1 = (replay.run trace).2.1.skipping k := by
  refine ⟨fun event e h he => ⟨apply_of_rejection h he replay.shared, apply_of_rejection h he⟩, ?_⟩
  intro trace trace' stats k hrun hpadding
  have hlines := runLines_of_run hrun
  obtain ⟨hlines', hstate⟩ := hpadding.runLines hlines 0 1
  rw [skipping_zero] at hlines' hstate
  rw [Nat.zero_add] at hstate
  obtain ⟨hresult, hafter⟩ := run_of_runLines hlines
  obtain ⟨hresult', hafter'⟩ := run_of_runLines hlines'
  rw [hrun] at hresult
  rw [hresult', hafter', hafter, hstate, Except.ok.inj hresult]
  exact ⟨rfl, rfl⟩

/-- Two lines before an event are skipped, the first for its event and the second for being none. -/
theorem run_skips_both_lines :
    let line := "\x7b\"event\":\"connection_down\",\"conn\":\"a\"\x7d"
    let kept := "\x7b\"event\":\"target\",\"liid\":\"b\",\"address\":\"10.0.0.2\"\x7d"
    let replay := new ⟨⟨Interpreter.new default 1, .log⟩, 2⟩
    (replay.apply (.connectionDown "a")).1 = .error (.unknownConnection "a") ∧
      (replay.run kept.toUTF8.data.toList).1 = .ok ⟨1, 0, 0, 0, 0⟩ ∧
      (replay.run (line ++ "\nx\n" ++ kept).toUTF8.data.toList).1 = .ok ⟨3, 0, 0, 0, 2⟩ := by
  intro line kept replay
  have hrejected : replay.Rejects line.toUTF8.data.toList := by
    refine ⟨line, .connectionDown "a", .unknownConnection "a", by decide +kernel,
      by decide +kernel, ?_, rfl, trivial⟩
    exact Host.eq_ok_of_toOption (by decide +kernel)
  have hunparsable : IsUnparsable "x".toUTF8.data.toList := by
    have hparse : (Event.parse (Text.trim "x")).isOk = false := by decide +kernel
    cases heq : Event.parse (Text.trim "x") with
    | ok event => rw [heq] at hparse; cases hparse
    | error e => exact ⟨"x", e, by decide +kernel, by decide +kernel, heq⟩
  have hkept : (replay.run kept.toUTF8.data.toList).1 = .ok ⟨1, 0, 0, 0, 0⟩ :=
    Host.eq_ok_of_toOption (by decide +kernel)
  have hpadding : Padding replay (traceLines kept.toUTF8.data.toList)
      (traceLines (line ++ "\nx\n" ++ kept).toUTF8.data.toList) 2 := by
    have hbase : traceLines kept.toUTF8.data.toList = [kept.toUTF8.data.toList] := by
      decide +kernel
    have hlines : traceLines (line ++ "\nx\n" ++ kept).toUTF8.data.toList =
        [line.toUTF8.data.toList, "x".toUTF8.data.toList, kept.toUTF8.data.toList] := by
      decide +kernel
    rw [hbase, hlines]
    exact .rejected hrejected (.unparsable hunparsable (.keep (.nil _)))
  obtain ⟨hnoop, hrun⟩ := skipped_is_noop replay
  exact ⟨congrArg Prod.fst (hnoop (.connectionDown "a") _ rfl trivial).1, hkept,
    (hrun _ _ _ 2 hkept hpadding).1⟩

end EventBridge.Replay
