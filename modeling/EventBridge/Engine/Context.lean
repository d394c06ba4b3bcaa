import EventBridge.Net.Address

/-! # Contexts of the analysis engine

A context is a flow, or a protocol layered on one. Each context knows what it is layered on, so it
is a chain of nodes from the innermost outwards.

* `Context.describe` writes the layers of a chain from the outermost inwards.
* `Context.transport?` finds the nearest flow of a chain, the context itself first.

Nodes that another engine kind made can stand anywhere in a chain; the questions skip them.
-/

namespace EventBridge.Engine

open Net (Ip Endpoint)

/-- The transport protocol of a flow. -/
inductive Protocol where
  | tcp
  | udp
  deriving DecidableEq, Repr

/-- The name of a protocol. -/
def Protocol.name : Protocol → String
  | .tcp => "tcp"
  | .udp => "udp"

/-- Why a flow is captured: the identifier of the target, and the address that set it off. -/
structure Root where
  liid : String
  trigger : Option Ip
  deriving DecidableEq, Repr

/-- Traffic that no target accounts for. -/
def Root.unknown : Root := ⟨"", none⟩

/-- What a flow runs over, and the root of its tree. -/
structure Transport where
  protocol : Protocol
  source : Endpoint
  destination : Endpoint
  root : Root
  deriving DecidableEq, Repr

/-- What a node stands for. -/
inductive Layer where
  | flow (transport : Transport)
  /-- An application protocol, by its name. -/
  | application (name : String)
  /-- A node that this kind of engine did not make, by its kind. -/
  | foreign (kind : String)
  deriving DecidableEq, Repr

/-- One context by itself. -/
structure Node where
  id : Nat
  layer : Layer
  deriving DecidableEq, Repr

/-- A context with what it is layered on, the nearest first. -/
structure Context where
  node : Node
  ancestors : List Node
  deriving DecidableEq, Repr

namespace Context

/-- The number that the engine gave the context. -/
def id (context : Context) : Nat := context.node.id

/-- The short name of the layer. -/
def kind (context : Context) : String :=
  match context.node.layer with
  | .flow transport => transport.protocol.name
  | .application name => name
  | .foreign kind => kind

/-- The context itself and then what it is layered on. -/
def chain (context : Context) : List Node := context.node :: context.ancestors

/-- A context layered on this one. -/
def layered (context : Context) (node : Node) : Context := ⟨node, context.chain⟩

/-! ### Questions over the chain -/

/-- The nearest flow, looking at the context itself first. -/
def transport? (context : Context) : Option Transport :=
  context.chain.findSome? fun node =>
    match node.layer with
    | .flow transport => some transport
    | _ => none

/-- What a layer adds to a description, innermost word first. -/
def words (pick : Transport → Endpoint) (node : Node) : List String :=
  match node.layer with
  | .flow transport =>
    let endpoint := pick transport
    [transport.protocol.name ++ ":" ++ toString endpoint.port.toNat,
      endpoint.ip.family ++ ":" ++ endpoint.ip.text]
  | .application name => [name]
  | .foreign _ => []

/-- The layers of the chain, the outermost first: `ipv4:10.0.0.1 tcp:443 http`. -/
def describe (pick : Transport → Endpoint) (context : Context) : String :=
  -- Each layer has its last word first here, so that one reversal puts all in order.
  match (context.chain.flatMap (words pick)).reverse with
  | [] => "unknown"
  | layers => " ".intercalate layers

end Context

end EventBridge.Engine
