import EventBridge.Dispatch.Occurrence
import EventBridge.Interpreter.Module
import EventBridge.Interpreter.Natives

/-! # Calling handlers

A dispatcher holds an interpreter with a script loaded. For an occurrence it looks up the handler,
makes the context live, and calls the handler; after that the stack and the table of contexts are as
they were.

* A handler is a field of the global `config`, if that is a table, or else a global variable.
* What a failing handler does is settled by the policy: the failure is logged or returned.
-/

namespace EventBridge.Dispatch

open Log (Line)
open Script (Value)

/-- The global that holds what the script returned. -/
def configGlobal : String := "config"

/-- A script that is ready for events. -/
structure Dispatcher where
  interpreter : Interpreter
  policy : ErrorPolicy

/-! ### Loading -/

/-- Keeps the first of the values that a script returned, if it is a table. -/
def bindResult (returned : Nat) : Host Unit := do
  if returned = 0 then return ()
  -- Of the values only the first stays, whatever its type.
  Host.pop (returned - 1)
  match ← Host.peek (-1) with
  | .table _ =>
    Host.setGlobal configGlobal
    Host.report ⟨.debug, "bridge", "Module returned a table, bound as '" ++ configGlobal ++ "'"⟩
  | _ => Host.pop 1

/-- Registers the native functions and loads a script. -/
def prepare (namespaceName : String) (load : Host Nat) : Host Unit := do
  Host.register namespaceName NativeEntry.all
  bindResult (← load)

/-- Where a script comes from. -/
inductive Source where
  /-- The file that the settings name. -/
  | file (tree : FileTree)
  | text (source : List UInt8)

/-- Loads the script of a source. -/
def Source.load (scripting : Config.Scripting) : Source → Host Nat
  | .file tree => Host.loadModule tree scripting.script
  | .text source => Host.loadSource source

/-- A dispatcher for a script, with a table of contexts of the given number, and what was
reported. -/
def Dispatcher.build (scripting : Config.Scripting) (source : Source) (contexts : Nat) :
    Except BridgeError Dispatcher × List Line :=
  let fresh := Interpreter.new (Limits.of scripting) contexts
  let (result, interpreter, lines) :=
    fresh.run (prepare scripting.namespaceName (source.load scripting))
  (result.map fun () => ⟨interpreter, scripting.errorPolicy⟩, lines)

/-! ### Dispatching -/

/-- Puts the handler of a name on the stack, if there is one. -/
def pushHandler (name : String) : Host Bool := do
  Host.getGlobal configGlobal
  let found ← do
    match ← Host.peek (-1) with
    | .table _ =>
      Host.getField (-1) name
      discard (Host.remove (-2))
      pure !(← Host.isNil (-1))
    | _ => pure false
  if found then return true
  -- What is on top is no table of handlers, or nil for want of this one.
  Host.pop 1
  Host.getGlobal name
  if ← Host.isNil (-1) then
    Host.pop 1
    return false
  return true

/-- Fails for what may not be passed to a handler. Header fields are looked at before a body.

The limits are all that is looked at, so that it comes to the same as if each argument were checked
when its turn to be put on the stack comes: what that would leave on the stack when it fails is taken
off, and what it would have made is out of reach. -/
def checkArguments : Occurrence → Host Unit
  | .triggerUp .. | .triggerDown _ => return ()
  | .traffic _ what =>
    match what with
    | .up | .down => return ()
    | .data payload | .datagram payload => Host.checkBytes payload
    | .request _ _ headers body | .response _ _ headers body => do
      Host.checkHeaders headers
      Host.checkBytes body

/-- Puts the arguments behind the context on the stack, and counts them. -/
def pushArguments : Occurrence → Host Nat
  | .triggerUp liid address => do
    Host.pushText liid
    Host.pushText address.text
    return 2
  | .triggerDown liid => do
    Host.pushText liid
    return 1
  | .traffic _ what => do
    match what with
    | .up | .down => return 0
    | .data payload | .datagram payload =>
      Host.push (.string payload)
      return 1
    | .request method url headers body =>
      Host.pushText method
      Host.pushText url
      Host.pushTable (Host.headerTable headers)
      Host.push (.string body)
      return 4
    | .response code status headers body =>
      Host.pushInteger (Int64.ofNat code.toNat)
      Host.pushText status
      Host.pushTable (Host.headerTable headers)
      Host.push (.string body)
      return 4

/-- Calls the handler on the stack. Errors of the call name the handler. -/
def callHandler (name : String) (arguments : Nat) : Host Unit := do
  Host.report ⟨.debug, "bridge",
    "Calling " ++ name ++ " with " ++ toString arguments ++ " argument(s)"⟩
  match ← Host.attempt (Host.call (UInt64.ofNat arguments) (.fixed 0)) with
  | .error (.call _ fault) => throw (.call ("handler '" ++ name ++ "'") fault)
  | result => Host.deliver result

/-- Looks up and calls the handler of an occurrence. -/
def invoke (occurrence : Occurrence) : Host Outcome := do
  let name := occurrence.handler
  if !(← pushHandler name) then
    Host.report ⟨.debug, "bridge", "No handler for " ++ name ++ ", skipping"⟩
    return .noHandler
  match occurrence.live? with
  | some live =>
    -- The handle works from here to the end of the call, also where the call fails.
    Host.during live fun handle => do
      -- What is too large fails before anything is made for the script, which never sees it.
      checkArguments occurrence
      Host.pushHandle handle
      let arguments ← pushArguments occurrence
      callHandler name (arguments + 1)
  | none => callHandler name (← pushArguments occurrence)
  return .handled

/-- Whether a policy covers a failure: those of calls and of the stack, under the log policy. -/
def ErrorPolicy.logs (policy : ErrorPolicy) : BridgeError → Bool
  | .call .. | .stack _ => policy == .log
  | _ => false

/-- What becomes of the result of a handler under a policy. -/
def settle (policy : ErrorPolicy) (name : String) (result : Except BridgeError Outcome) :
    Host Outcome :=
  match result with
  | .ok outcome => return outcome
  | .error e =>
    if ErrorPolicy.logs policy e then do
      Host.report ⟨.error, "bridge", "Dispatch of " ++ name ++ " failed: " ++ e.message⟩
      return .failed
    else throw e

/-- Runs one handler. -/
def dispatching (policy : ErrorPolicy) (occurrence : Occurrence) : Host Outcome := do
  let base ← Host.depth
  let result ← Host.attempt (invoke occurrence)
  -- A failure can leave the handler or its arguments behind.
  Host.truncate base
  settle policy occurrence.handler result

/-- Runs one handler: the outcome, the dispatcher after it, and what was reported. -/
def Dispatcher.dispatch (d : Dispatcher) (occurrence : Occurrence) :
    Except BridgeError Outcome × Dispatcher × List Line :=
  let (result, interpreter, lines) := d.interpreter.run (dispatching d.policy occurrence)
  (result, { d with interpreter := interpreter }, lines)

end EventBridge.Dispatch
