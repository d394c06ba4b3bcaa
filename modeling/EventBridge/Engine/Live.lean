import EventBridge.Engine.Basic

/-! # A context during an event

While a handler runs, the bridge keeps the engine and the context that the event is about, together
with the root of that context as it was when the event came.
-/

namespace EventBridge.Engine

/-- What an event is about. -/
structure Live where
  engine : Engine
  context : Context
  root : Root
  deriving DecidableEq, Repr

/-- Takes down the root of a context. -/
def Live.of (engine : Engine) (context : Context) : Live := ⟨engine, context, engine.root context⟩

end EventBridge.Engine
