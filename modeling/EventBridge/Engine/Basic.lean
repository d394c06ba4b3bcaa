import EventBridge.Engine.Context
import EventBridge.Keyed
import EventBridge.Log.Line

/-! # The analysis engine

An engine held in memory: it keeps the targets under surveillance, and hands out the contexts of
flows with numbers of its own.

* `openFlow` takes the root of a flow from the target that one of its ends is, the source before
  the destination.
* The questions at the end are those the bridge asks about a context on a script's behalf. They
  read the context only; what else the engine holds does not enter.
-/

namespace EventBridge

open Net (Ip Endpoint)
open Log (Line)

/-- An engine: the number of the next context, and the targets, each address once. -/
structure Engine where
  nextId : Nat
  targets : List (Ip × String)
  deriving DecidableEq, Repr

namespace Engine

/-- An engine without targets, before its first context. -/
def initial : Engine := ⟨1, []⟩

/-- Why an engine does not answer for a context. -/
inductive Failure where
  /-- The context of this number has no flow beneath it. -/
  | noTransport (id : Nat)
  /-- The context of this number is of another kind of engine. -/
  | foreignContext (id : Nat)
  deriving DecidableEq, Repr

/-- The wording of a failure. -/
def Failure.message : Failure → String
  | .noTransport id => "context " ++ toString id ++ " has no transport layer"
  | .foreignContext id => "context " ++ toString id ++ " was not created by this engine"

/-- A report of the engine. -/
def report (text : String) : Line := ⟨.debug, "engine", text⟩

/-! ### Targets -/

/-- The identifier an address is kept under. -/
def liidFor (engine : Engine) (address : Ip) : Option String :=
  engine.targets.lookup address

/-- Stops keeping an address. -/
def removeTarget (engine : Engine) (address : Ip) : Engine :=
  { engine with targets := Keyed.erase address engine.targets }

/-- Keeps an address under an identifier, in place of any earlier one. -/
def addTarget (engine : Engine) (address : Ip) (liid : String) : Engine × List Line :=
  ({ engine with targets := Keyed.put address liid engine.targets },
    [report ("Adding target " ++ address.text ++ " (" ++ liid ++ ")")])

/-- Adding a target changes what its address is kept under, and nothing about other addresses. -/
theorem liidFor_addTarget (engine : Engine) (address other : Ip) (liid : String) :
    (engine.addTarget address liid).1.liidFor other =
      if other == address then some liid else engine.liidFor other :=
  Keyed.lookup_put address other liid engine.targets

/-- Removing a target makes its address unknown, and changes nothing about other addresses. -/
theorem liidFor_removeTarget (engine : Engine) (address other : Ip) :
    (engine.removeTarget address).liidFor other =
      if other == address then none else engine.liidFor other :=
  Keyed.lookup_erase address other engine.targets

/-! ### Contexts -/

/-- The root of a flow between two addresses: the first of them that is a target. -/
def rootFor (engine : Engine) (source destination : Ip) : Root :=
  let root? (address : Ip) : Option Root :=
    (engine.liidFor address).map fun liid => ⟨liid, some address⟩
  ((root? source).orElse fun _ => root? destination).getD Root.unknown

/-- Opens a flow with a root given. -/
def openFlowWithRoot (engine : Engine) (transport : Transport) : Context × Engine × List Line :=
  let line := report ("Opened flow " ++ toString engine.nextId ++ " " ++ transport.protocol.name ++
    " " ++ transport.source.text ++ " -> " ++ transport.destination.text)
  (⟨⟨engine.nextId, .flow transport⟩, []⟩, { engine with nextId := engine.nextId + 1 }, [line])

/-- Opens a flow whose root the targets decide. -/
def openFlow (engine : Engine) (protocol : Protocol) (source destination : Endpoint) :
    Context × Engine × List Line :=
  engine.openFlowWithRoot
    ⟨protocol, source, destination, engine.rootFor source.ip destination.ip⟩

/-- Opens an application layer on a context. -/
def openLayer (engine : Engine) (parent : Context) (name : String) : Context × Engine :=
  (parent.layered ⟨engine.nextId, .application name⟩, { engine with nextId := engine.nextId + 1 })

/-! ### Questions about a context -/

/-- The addressing of a flow. -/
structure Network where
  protocol : Protocol
  source : Endpoint
  destination : Endpoint
  deriving DecidableEq, Repr

/-- The layers of a context, with the address they come from. -/
def describeSource (_ : Engine) (context : Context) : String := context.describe Transport.source

/-- The layers of a context, with the address they go to. -/
def describeDestination (_ : Engine) (context : Context) : String :=
  context.describe Transport.destination

/-- The addressing of the nearest flow. A context of another kind of engine gets no answer, whatever
it is layered on. -/
def network (_ : Engine) (context : Context) : Except Failure Network :=
  match context.node.layer with
  | .foreign _ => .error (.foreignContext context.id)
  | _ =>
    match context.transport? with
    | some t => .ok ⟨t.protocol, t.source, t.destination⟩
    | none => .error (.noTransport context.id)

/-- The root of the nearest flow. -/
def root (_ : Engine) (context : Context) : Root :=
  match context.transport? with
  | some t => t.root
  | none => Root.unknown

end Engine

end EventBridge
