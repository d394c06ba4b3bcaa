import EventBridge.Proofs.Replay.Skip

/-! # What an event does besides its handler

  Of an event, what the script has to do with is one dispatch at the most. All else follows from the
  *scene*, which is the engine and the open connections: whether the event is turned down, what the
  dispatcher is called for, and the scene after it. The result of the dispatch chooses between two
  scenes, and has no other part in it.

  * `Scene.course` says that of an event, and `apply_eq_follow` that applying the event is to follow
    its course. `leads_apply` has the four ends of it.
  * `Scene.Takes` has the courses that there are, six kinds for nine kinds of events. What is shown
    of every event goes by cases on it.
  * `Reading` is what a line says, and `runLine_eq` what becomes of it.
-/

namespace EventBridge.Replay

open Dispatch (Occurrence Outcome Shared Traffic)
open Engine (Context Live)
open Log (Line)
open Trace (Event)

/-! ### Scenes -/

/-- What a replay knows besides the script: the engine and the open connections. -/
structure Scene where
  engine : Engine
  connections : List (String × Context)

/-- The scene of a replay. -/
def scene (replay : Replay) : Scene := ⟨replay.engine, replay.connections⟩

/-- The same replay in another scene. -/
def move (replay : Replay) (scene : Scene) : Replay :=
  { replay with engine := scene.engine, connections := scene.connections }

namespace Scene

/-- The open connection of a name. -/
def connection? (scene : Scene) (name : String) : Option Context :=
  scene.connections.lookup name

/-- Keeps a connection under a name. -/
def openConnection (scene : Scene) (name : String) (context : Context) : Scene :=
  { scene with connections := Keyed.put name context scene.connections }

/-- Forgets the connection of a name. -/
def closeConnection (scene : Scene) (name : String) : Scene :=
  { scene with connections := Keyed.erase name scene.connections }

@[simp] theorem connection?_openConnection (scene : Scene) (name other : String)
    (context : Context) :
    (scene.openConnection name context).connection? other =
      if other == name then some context else scene.connection? other :=
  Keyed.lookup_put name other context scene.connections

@[simp] theorem connection?_closeConnection (scene : Scene) (name other : String) :
    (scene.closeConnection name).connection? other =
      if other == name then none else scene.connection? other :=
  Keyed.lookup_erase name other scene.connections

/-- What is open after an opening is what was opened, or was open under another name. -/
theorem connection?_of_openConnection {scene : Scene} {name other : String}
    {context found : Context}
    (h : (scene.openConnection name context).connection? other = some found) :
    other = name ∧ found = context ∨ other ≠ name ∧ scene.connection? other = some found := by
  rw [connection?_openConnection] at h
  split at h
  · next heq => exact .inl ⟨eq_of_beq heq, (Option.some.inj h).symm⟩
  · next hne => exact .inr ⟨fun heq => hne (beq_iff_eq.2 heq), h⟩

/-- What is open after a closing was open under another name. -/
theorem connection?_of_closeConnection {scene : Scene} {name other : String} {found : Context}
    (h : (scene.closeConnection name).connection? other = some found) :
    other ≠ name ∧ scene.connection? other = some found := by
  rw [connection?_closeConnection] at h
  split at h
  · cases h
  · next hne => exact ⟨fun heq => hne (beq_iff_eq.2 heq), h⟩

end Scene

@[simp] theorem connection?_scene (replay : Replay) (name : String) :
    replay.scene.connection? name = replay.connection? name := rfl

/-! ### Courses -/

/-- What an event comes to, up to the result of the dispatch. -/
inductive Course where
  /-- It is turned down. -/
  | rejected (cause : EventError)
  /-- It is no matter for the script. -/
  | silent (after : Scene) (lines : List Line)
  /-- The dispatcher is called. After that the scene is `through`, or `failed` if the dispatch
      returns a failure; `lines` are reported before it. -/
  | call (occurrence : Occurrence) (through failed : Scene) (lines : List Line)

namespace Course

/-- What the dispatcher is called for. -/
def occurrence? : Course → Option Occurrence
  | .call occurrence .. => some occurrence
  | _ => none

/-- Follows a course, with the dispatcher of a replay. -/
def follow (course : Course) (replay : Replay) : Applied :=
  match course with
  | .rejected cause => replay.rejected cause
  | .silent after lines => (.ok none, replay.move after, lines)
  | .call occurrence through failed lines =>
    match replay.shared.dispatch occurrence with
    | (.ok outcome, shared, more) =>
      (.ok (some outcome), { replay.move through with shared := shared }, lines ++ more)
    | (.error cause, shared, more) =>
      (.error (.bridge cause), { replay.move failed with shared := shared }, lines ++ more)

end Course

namespace Scene

/-- The course of what happens on a connection. -/
def onConnection (scene : Scene) (name : String) (what : Except EventError Traffic) : Course :=
  match scene.connection? name, what with
  | none, _ => .rejected (.unknownConnection name)
  | some _, .error cause => .rejected cause
  | some context, .ok what => .call (.traffic (Live.of scene.engine context) what) scene scene []

/-- The course of an event. -/
def course (scene : Scene) (event : Event) : Course :=
  match event with
  | .target liid address =>
    let (engine, lines) := scene.engine.addTarget address liid
    .silent { scene with engine := engine } lines
  | .triggerUp liid address => .call (.triggerUp liid address) scene scene []
  | .triggerDown liid => .call (.triggerDown liid) scene scene []
  | .connectionUp name source destination protocol liid trigger layer =>
    match scene.connection? name with
    | some _ => .rejected (.duplicateConnection name)
    | none =>
      let (context, engine, opened) :=
        makeContext scene.engine source destination protocol liid trigger layer
      let failed : Scene := { scene with engine := engine }
      .call (.traffic (Live.of engine context) .up) (failed.openConnection name context) failed
        (opened ++ [⟨.debug, "replay",
          "Connection " ++ name ++ " is context " ++ toString context.id⟩])
  | .data name payload => scene.onConnection name ((payloadBytes payload).map Traffic.data)
  | .datagram name payload => scene.onConnection name ((payloadBytes payload).map Traffic.datagram)
  | .httpRequest name method url headers body =>
    scene.onConnection name ((payloadBytes body).map (Traffic.request method url headers))
  | .httpResponse name code status headers body =>
    scene.onConnection name ((payloadBytes body).map (Traffic.response code status headers))
  | .connectionDown name =>
    match scene.connection? name with
    | none => .rejected (.unknownConnection name)
    | some context =>
      let closed := scene.closeConnection name
      .call (.traffic (Live.of scene.engine context) .down) closed closed []

end Scene

/-! ### Events follow their courses -/

/-- A dispatch that leaves the scene alone. -/
theorem dispatch_eq_follow (replay : Replay) (occurrence : Occurrence) :
    replay.dispatch occurrence =
      (Course.call occurrence replay.scene replay.scene []).follow replay := by
  unfold dispatch Course.follow
  dsimp only
  rcases replay.shared.dispatch occurrence with ⟨_ | outcome, shared, lines⟩ <;> rfl

theorem onConnection_eq_follow (replay : Replay) (name : String)
    (what : Except EventError Traffic) :
    replay.onConnection name what = (replay.scene.onConnection name what).follow replay := by
  unfold onConnection Scene.onConnection
  rw [connection?_scene]
  cases replay.connection? name with
  | none => rfl
  | some context =>
    cases what with
    | error cause => rfl
    | ok what => exact dispatch_eq_follow replay _

/-- Applying an event is to follow its course. -/
theorem apply_eq_follow (replay : Replay) (event : Event) :
    replay.apply event = (replay.scene.course event).follow replay := by
  cases event with
  | target liid address => rfl
  | triggerUp liid address => exact dispatch_eq_follow replay _
  | triggerDown liid => exact dispatch_eq_follow replay _
  | connectionUp name source destination protocol liid trigger layer =>
    unfold apply Scene.course
    dsimp only
    rw [connection?_scene]
    cases replay.connection? name with
    | some context => rfl
    | none =>
      dsimp only
      rw [show replay.scene.engine = replay.engine from rfl]
      generalize makeContext replay.engine source destination protocol liid trigger layer = made
      obtain ⟨context, engine, opened⟩ := made
      -- The reports of the opening come first in both, in one list or in two.
      simp only [connect, dispatch_eq_follow, Course.follow, List.nil_append]
      rcases replay.shared.dispatch _ with ⟨_ | outcome, shared, lines⟩
      · simp only [List.append_assoc, List.singleton_append]
        rfl
      · simp only [List.append_assoc, List.singleton_append]
        rfl
  | data name payload => exact onConnection_eq_follow replay name _
  | datagram name payload => exact onConnection_eq_follow replay name _
  | httpRequest name method url headers body => exact onConnection_eq_follow replay name _
  | httpResponse name code status headers body => exact onConnection_eq_follow replay name _
  | connectionDown name =>
    unfold apply Scene.course
    dsimp only
    rw [connection?_scene]
    cases replay.connection? name with
    | none => rfl
    | some context => exact dispatch_eq_follow (replay.closeConnection name) _

/-- Where a course leads from a scene: what comes of the event, and the scene after it. -/
inductive Course.Leads (scene : Scene) :
    Course → Except EventError (Option Outcome) → Scene → Prop where
  | rejected (cause : EventError) : Leads scene (.rejected cause) (.error cause) scene
  | silent (after : Scene) (lines : List Line) : Leads scene (.silent after lines) (.ok none) after
  /-- The dispatch returns an outcome. -/
  | through (occurrence : Occurrence) (through failed : Scene) (lines : List Line)
    (outcome : Outcome) :
    Leads scene (.call occurrence through failed lines) (.ok (some outcome)) through
  /-- The dispatch returns a failure. -/
  | failed (occurrence : Occurrence) (through failed : Scene) (lines : List Line)
    (cause : BridgeError) :
    Leads scene (.call occurrence through failed lines) (.error (.bridge cause)) failed

theorem leads_apply (replay : Replay) (event : Event) :
    (replay.scene.course event).Leads replay.scene (replay.apply event).1
      (replay.apply event).2.1.scene := by
  rw [apply_eq_follow]
  cases replay.scene.course event with
  | rejected cause => exact .rejected cause
  | silent after lines => exact .silent after lines
  | call occurrence through failed lines =>
    unfold Course.follow
    dsimp only
    rcases replay.shared.dispatch occurrence with ⟨cause | outcome, shared, more⟩
    · exact .failed occurrence through failed lines cause
    · exact .through occurrence through failed lines outcome

/-! ### The courses there are -/

/-- What happens on a connection between its beginning and its end. -/
def IsExchange : Traffic → Prop
  | .up | .down => False
  | _ => True

/-- The connection that an event is about. -/
def about? : Event → Option String
  | .target .. | .triggerUp .. | .triggerDown _ => none
  | .connectionUp name .. | .data name _ | .datagram name _ | .httpRequest name ..
  | .httpResponse name .. | .connectionDown name => some name

/-- An event opens or closes a connection, whether or not that is accepted. -/
def TurnsConnection : Event → Prop
  | .connectionUp .. | .connectionDown _ => True
  | _ => False

namespace Scene

/-- The courses that events take in a scene. -/
inductive Takes (scene : Scene) : Event → Course → Prop where
  | rejected {event : Event} {cause : EventError} :
    cause.IsRejection → Takes scene event (.rejected cause)
  | target (liid : String) (address : Net.Ip) :
    Takes scene (.target liid address)
      (.silent { scene with engine := (scene.engine.addTarget address liid).1 }
        (scene.engine.addTarget address liid).2)
  /-- A handler that is called about no connection. -/
  | trigger {event : Event} {occurrence : Occurrence} :
    ¬ TurnsConnection event → occurrence.live? = none →
      Takes scene event (.call occurrence scene scene [])
  /-- Something happens on an open connection. -/
  | exchange {event : Event} {name : String} {context : Context} {what : Traffic} :
    ¬ TurnsConnection event → about? event = some name → scene.connection? name = some context →
      IsExchange what →
        Takes scene event (.call (.traffic (Live.of scene.engine context) what) scene scene [])
  | up {name : String} {source destination : Net.Endpoint} {protocol : Engine.Protocol}
    {liid : Option String} {trigger : Option Net.Ip} {layer : Option String} {context : Context}
    {engine : Engine} {opened : List Line} :
    scene.connection? name = none →
      makeContext scene.engine source destination protocol liid trigger layer =
        (context, engine, opened) →
      Takes scene (.connectionUp name source destination protocol liid trigger layer)
        (.call (.traffic (Live.of engine context) .up)
          (openConnection { scene with engine := engine } name context)
          { scene with engine := engine }
          (opened ++ [⟨.debug, "replay",
            "Connection " ++ name ++ " is context " ++ toString context.id⟩]))
  | down {name : String} {context : Context} :
    scene.connection? name = some context →
      Takes scene (.connectionDown name)
        (.call (.traffic (Live.of scene.engine context) .down) (scene.closeConnection name)
          (scene.closeConnection name) [])

/-- Bytes that cannot be read are no failure of the bridge. -/
theorem isRejection_of_payloadBytes {payload : Trace.Payload} {cause : EventError}
    (h : payloadBytes payload = .error cause) : cause.IsRejection := by
  unfold payloadBytes at h
  split at h
  · cases h
  · split at h
    · cases h
    · cases h
      trivial
  · cases h

theorem takes_onConnection (scene : Scene) {event : Event} {name : String}
    {payload : Trace.Payload} {what : ByteArray → Traffic} (hturns : ¬ TurnsConnection event)
    (habout : about? event = some name) (hwhat : ∀ bytes, IsExchange (what bytes)) :
    scene.Takes event (scene.onConnection name ((payloadBytes payload).map what)) := by
  unfold onConnection
  cases hname : scene.connection? name with
  | none => exact .rejected trivial
  | some context =>
    cases hpayload : payloadBytes payload with
    | error cause => exact .rejected (isRejection_of_payloadBytes hpayload)
    | ok bytes => exact .exchange hturns habout hname (hwhat bytes)

theorem takes_course (scene : Scene) (event : Event) : scene.Takes event (scene.course event) := by
  cases event with
  | target liid address => exact .target liid address
  | triggerUp liid address => exact .trigger id rfl
  | triggerDown liid => exact .trigger id rfl
  | connectionUp name source destination protocol liid trigger layer =>
    unfold course
    dsimp only
    cases hname : scene.connection? name with
    | some context => exact .rejected trivial
    | none => exact .up hname rfl
  | data name payload => exact scene.takes_onConnection id rfl fun _ => trivial
  | datagram name payload => exact scene.takes_onConnection id rfl fun _ => trivial
  | httpRequest name method url headers body =>
    exact scene.takes_onConnection id rfl fun _ => trivial
  | httpResponse name code status headers body =>
    exact scene.takes_onConnection id rfl fun _ => trivial
  | connectionDown name =>
    unfold course
    dsimp only
    cases hname : scene.connection? name with
    | none => exact .rejected trivial
    | some context => exact .down hname

end Scene

/-! ### What a line says -/

/-- What a line says, whatever the state of the replay. -/
inductive Reading where
  | noText
  | blank
  | noEvent (cause : Trace.ReadError)
  | event (event : Event)

/-- Reads a line. -/
def Reading.of (line : List UInt8) : Reading :=
  match Text.Utf8.decode? line with
  | none => .noText
  | some text =>
    if (Text.trim text).isEmpty then .blank
    else match Event.parse (Text.trim text) with
      | .ok found => .event found
      | .error cause => .noEvent cause

/-- The name of the event that a line holds. -/
def Reading.name? : Reading → Option String
  | .event said => some said.name
  | _ => none

/-- What becomes of a line. -/
theorem runLine_eq (replay : Replay) (number : Nat) (line : List UInt8) :
    replay.runLine number line =
      match Reading.of line with
      | .noText => (.error (.unreadable number .notText), replay, [])
      | .blank => (.ok (), replay, [])
      | .noEvent cause =>
        (.ok (),
          replay.counting.skip ("malformed line " ++ toString number ++ ": " ++ cause.message))
      | .event event => replay.counting.runEvent number event := by
  unfold Reading.of
  cases hdecode : Text.Utf8.decode? line with
  | none => simp only [runLine, hdecode]
  | some text =>
    by_cases hempty : (Text.trim text).isEmpty
    · simp only [runLine, hdecode, hempty, if_true]
    · rw [runLine_of_text replay number hdecode hempty]
      simp only [hempty]
      cases Event.parse (Text.trim text) <;> rfl

end EventBridge.Replay
