import EventBridge.Replay.Basic
import EventBridge.Text.Utf8
import EventBridge.Trace.Event

/-! # Applying an event

An event changes the engine and the open connections, and calls the handler that is meant for it.
An event that names a connection it should not, or whose payload cannot be read, changes nothing.
-/

namespace EventBridge.Replay

open Dispatch (Occurrence Outcome Traffic)
open Engine (Context Live Root Transport)
open Log (Line)
open Trace (Event Payload)

/-- What an event comes to: whether a handler was meant for it and how that ended, the replay after
it, and what was reported. -/
abbrev Applied := Except EventError (Option Outcome) × Replay × List Line

/-- The bytes of a payload. A text wins over base64. -/
def payloadBytes (payload : Payload) : Except EventError ByteArray :=
  match payload.text, payload.base64 with
  | some text, _ => .ok text.toUTF8
  | none, some encoded =>
    match Text.Base64.decode (Text.Utf8.encode encoded) with
    | .ok bytes => .ok ⟨bytes.toArray⟩
    | .error cause => .error (.badPayload cause)
  | none, none => .ok ByteArray.empty

/-- An event that is turned down. -/
def rejected (replay : Replay) (e : EventError) : Applied := (.error e, replay, [])

/-- Calls the handler of an occurrence. -/
def dispatch (replay : Replay) (occurrence : Occurrence) : Applied :=
  let (result, shared, lines) := replay.shared.dispatch occurrence
  let result := match result with
    | .ok outcome => .ok (some outcome)
    | .error e => .error (.bridge e)
  (result, { replay with shared := shared }, lines)

/-- Calls the handler for what happens on an open connection. -/
def onConnection (replay : Replay) (name : String) (what : Except EventError Traffic) : Applied :=
  match replay.connection? name, what with
  | none, _ => replay.rejected (.unknownConnection name)
  | some _, .error e => replay.rejected e
  | some context, .ok what => replay.dispatch (.traffic (Live.of replay.engine context) what)

/-- The context of a new connection: a flow, and a layer on it if one is named. -/
def makeContext (engine : Engine) (source destination : Net.Endpoint) (protocol : Engine.Protocol)
    (liid : Option String) (trigger : Option Net.Ip) (layer : Option String) :
    Context × Engine × List Line :=
  let (flow, engine, lines) := match liid with
    | some liid => engine.openFlowWithRoot ⟨protocol, source, destination, ⟨liid, trigger⟩⟩
    | none => engine.openFlow protocol source destination
  match layer with
  | some layer =>
    let (context, engine) := engine.openLayer flow layer
    (context, engine, lines)
  | none => (flow, engine, lines)

/-- Opens a connection, unless its handler fails. -/
def connect (replay : Replay) (name : String) (context : Context) : Applied :=
  let line : Line :=
    ⟨.debug, "replay", "Connection " ++ name ++ " is context " ++ toString context.id⟩
  let (result, replay, lines) := replay.dispatch (.traffic (Live.of replay.engine context) .up)
  let replay := match result with
    | .ok _ => replay.openConnection name context
    | .error _ => replay
  (result, replay, line :: lines)

/-- Applies an event. -/
def apply (replay : Replay) (event : Event) : Applied :=
  match event with
  | .target liid address =>
    let (engine, lines) := replay.engine.addTarget address liid
    (.ok none, { replay with engine := engine }, lines)
  | .triggerUp liid address => replay.dispatch (.triggerUp liid address)
  | .triggerDown liid => replay.dispatch (.triggerDown liid)
  | .connectionUp name source destination protocol liid trigger layer =>
    match replay.connection? name with
    | some _ => replay.rejected (.duplicateConnection name)
    | none =>
      -- The context takes its number whether or not the handler goes through.
      let (context, engine, opened) :=
        makeContext replay.engine source destination protocol liid trigger layer
      let (result, replay, lines) := connect { replay with engine := engine } name context
      (result, replay, opened ++ lines)
  | .data name payload => replay.onConnection name ((payloadBytes payload).map Traffic.data)
  | .datagram name payload => replay.onConnection name ((payloadBytes payload).map Traffic.datagram)
  | .httpRequest name method url headers body =>
    replay.onConnection name ((payloadBytes body).map (Traffic.request method url headers))
  | .httpResponse name code status headers body =>
    replay.onConnection name ((payloadBytes body).map (Traffic.response code status headers))
  | .connectionDown name =>
    match replay.connection? name with
    | none => replay.rejected (.unknownConnection name)
    | some context =>
      -- The connection is closed first, so that no failure of the handler keeps it open.
      (replay.closeConnection name).dispatch (.traffic (Live.of replay.engine context) .down)

end EventBridge.Replay
