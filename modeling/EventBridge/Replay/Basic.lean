import EventBridge.Dispatch.Shared
import EventBridge.Keyed
import EventBridge.Text.Base64

/-! # The state of a replay

A replay plays the events of a trace to a dispatcher: it stands in for the analysis engine that
would produce them. It knows which connections are open, by the names that the trace gives them, and
counts what became of the lines.
-/

namespace EventBridge

open Dispatch (Outcome Shared)
open Engine (Context)

/-- What became of the lines of a trace. -/
structure Replay.Stats where
  lines : Nat
  handled : Nat
  noHandler : Nat
  failed : Nat
  skipped : Nat
  deriving DecidableEq, Repr

namespace Replay.Stats

/-- Before the first line. -/
def zero : Stats := ⟨0, 0, 0, 0, 0⟩

/-- Counts an outcome. -/
def record (stats : Stats) : Outcome → Stats
  | .handled => { stats with handled := stats.handled + 1 }
  | .noHandler => { stats with noHandler := stats.noHandler + 1 }
  | .failed => { stats with failed := stats.failed + 1 }

/-- The line that ends a replay. -/
def text (stats : Stats) : String :=
  toString stats.lines ++ " line(s): " ++ toString stats.handled ++ " handled, " ++
    toString stats.noHandler ++ " without handler, " ++ toString stats.failed ++ " failed, " ++
    toString stats.skipped ++ " skipped"

end Replay.Stats

/-- A replay between two events. -/
structure Replay where
  engine : Engine
  shared : Shared
  /-- The open connections, each name once. -/
  connections : List (String × Context)
  stats : Replay.Stats

namespace Replay

/-- A replay before its first event. -/
def new (shared : Shared) : Replay := ⟨Engine.initial, shared, [], Stats.zero⟩

/-- The open connection of a name. -/
def connection? (replay : Replay) (name : String) : Option Context :=
  replay.connections.lookup name

/-- Keeps a connection under a name. -/
def openConnection (replay : Replay) (name : String) (context : Context) : Replay :=
  { replay with connections := Keyed.put name context replay.connections }

/-- Forgets the connection of a name. -/
def closeConnection (replay : Replay) (name : String) : Replay :=
  { replay with connections := Keyed.erase name replay.connections }

/-- Opening a connection changes what its name stands for, and nothing about other names. -/
theorem connection?_openConnection (replay : Replay) (name other : String) (context : Context) :
    (replay.openConnection name context).connection? other =
      if other == name then some context else replay.connection? other :=
  Keyed.lookup_put name other context replay.connections

/-- Closing a connection makes its name unknown, and changes nothing about other names. -/
theorem connection?_closeConnection (replay : Replay) (name other : String) :
    (replay.closeConnection name).connection? other =
      if other == name then none else replay.connection? other :=
  Keyed.lookup_erase name other replay.connections

/-! ### Failures -/

/-- Why an event is not applied. All but the last leave everything as it was. -/
inductive EventError where
  | unknownConnection (name : String)
  | duplicateConnection (name : String)
  | badPayload (cause : Text.Base64.Invalid)
  /-- The bridge failed, under the policy that returns failures. -/
  | bridge (cause : BridgeError)
  deriving DecidableEq, Repr

/-- The wording of why an event is not applied. -/
def EventError.message : EventError → String
  | .unknownConnection name => "unknown connection '" ++ name ++ "'"
  | .duplicateConnection name => "connection '" ++ name ++ "' is already up"
  | .badPayload cause => "invalid base64 payload: " ++ cause.message
  | .bridge cause => cause.message

/-- Why a replay ends before its trace does. -/
inductive RunError where
  | unreadable (line : Nat) (cause : FileError)
  /-- The bridge failed at an event. -/
  | bridge (event : String) (line : Nat) (cause : BridgeError)
  deriving DecidableEq, Repr

/-- The wording of what ended a replay, apart from its causes. -/
def RunError.message : RunError → String
  | .unreadable line _ => "Failed to read trace line " ++ toString line
  | .bridge event line _ => event ++ " on line " ++ toString line

/-- The texts of the causes, the outermost first. -/
def RunError.causes : RunError → List String
  | .unreadable _ cause => [cause.message]
  | .bridge _ _ cause => cause.chain

end Replay

end EventBridge
