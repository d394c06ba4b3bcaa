import EventBridge.Dispatch.Dispatcher

/-! # The dispatcher in use

Several parts of a program use one dispatcher, which can be replaced while they do: by one whose
script was read again. The new script is loaded first, so that one that fails leaves the dispatcher
in use as it was.

Each dispatcher has a table of contexts with a number of its own; `nextTable` is the next number.
-/

namespace EventBridge.Dispatch

open Log (Line)

/-- The dispatcher in use. -/
structure Shared where
  dispatcher : Dispatcher
  nextTable : Nat

namespace Shared

/-- Puts a new dispatcher into use, and gives the old one back. -/
def replace (shared : Shared) (dispatcher : Dispatcher) : Dispatcher × Shared :=
  (shared.dispatcher, { shared with dispatcher := dispatcher })

/-- Builds the first dispatcher. -/
def start (scripting : Config.Scripting) (source : Source) :
    Except BridgeError Shared × List Line :=
  let (result, lines) := Dispatcher.build scripting source 1
  (result.map fun dispatcher => ⟨dispatcher, 2⟩, lines)

/-- Builds a dispatcher and puts it into use. -/
def renew (shared : Shared) (scripting : Config.Scripting) (source : Source) :
    Except BridgeError Dispatcher × Shared × List Line :=
  let (result, lines) := Dispatcher.build scripting source shared.nextTable
  -- The number is used up even if the script does not load.
  let shared := { shared with nextTable := shared.nextTable + 1 }
  match result with
  | .error e => (.error e, shared, lines)
  | .ok dispatcher =>
    let (old, shared) := shared.replace dispatcher
    (.ok old, shared, lines)

/-- Reads the script again from its file. -/
def reload (shared : Shared) (scripting : Config.Scripting) (tree : FileTree) :
    Except BridgeError Unit × Shared × List Line :=
  let (result, shared, lines) := shared.renew scripting (.file tree)
  match result with
  | .error e => (.error e, shared, lines)
  | .ok _ => (.ok (), shared, lines ++ [⟨.info, "reload", "Reloaded " ++ scripting.script⟩])

/-- Reads the script again as often as signals ask for it. A failure is reported, and the script
that ran before goes on. -/
def watch (shared : Shared) (scripting : Config.Scripting) (tree : FileTree) :
    List Bool → Shared × List Line
  | [] => (shared, [])
  | false :: signals => watch shared scripting tree signals
  | true :: signals =>
    let (result, shared, lines) := shared.reload scripting tree
    let lines := match result with
      | .ok () => lines
      | .error e =>
        lines ++ [⟨.error, "reload", "Reload failed, keeping the previous script: " ++ e.message⟩]
    let (shared, others) := watch shared scripting tree signals
    (shared, lines ++ others)

/-- Reads the script again for a signal of the operating system. -/
def signalled (shared : Shared) (scripting : Config.Scripting) (tree : FileTree) :
    Shared × List Line :=
  let (shared, lines) := watch shared scripting tree [true]
  (shared, ⟨.info, "reload", "Received SIGUSR2 - reloading script"⟩ :: lines)

/-- Runs one handler of the dispatcher in use. -/
def dispatch (shared : Shared) (occurrence : Occurrence) :
    Except BridgeError Outcome × Shared × List Line :=
  let (result, dispatcher, lines) := shared.dispatcher.dispatch occurrence
  (result, { shared with dispatcher := dispatcher }, lines)

end Shared

end EventBridge.Dispatch
