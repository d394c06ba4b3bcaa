import EventBridge.Cli.Run

/-! # The program

Reads the files that a run looks at, computes the run, and does what it says: prints, and writes the
log.
-/

namespace EventBridge

/-- Adds what is at some paths to the files that are known. -/
def fetch (tree : FileTree) : List String → IO FileTree
  | [] => return tree
  | path :: rest => do
    let parent := (Path.parent? path).getD ""
    let (_, known) := tree.makeDirectories parent
    match ← (IO.FS.readBinFile path).toBaseIO with
    | .ok bytes => fetch ((known.write path bytes.data.toList).toOption.getD tree) rest
    | .error (.inappropriateType ..) =>
      fetch (known.makeDirectories path).2 rest
    | .error _ => fetch tree rest

/-- The files that a run needs. -/
def filesFor : Cli.Command → IO FileTree
  | .replay options => do
    let tree ← fetch FileTree.empty [options.config]
    fetch tree (Cli.paths tree options)
  | _ => return FileTree.empty

/-- The bytes of standard input up to its end. `fuel` bounds the number of pieces. -/
def readInput (stdin : IO.FS.Stream) : Nat → ByteArray → IO ByteArray
  | 0, bytes => return bytes
  | fuel + 1, bytes => do
    let piece ← stdin.read 65536
    if piece.isEmpty then return bytes else readInput stdin fuel (bytes ++ piece)

/-- The trace on standard input, if the run reads it. -/
def inputFor : Cli.Command → IO (List UInt8)
  | .replay options => do
    if options.trace.isSome then return []
    return (← readInput (← IO.getStdin) UInt32.size ByteArray.empty).data.toList
  | _ => return []

/-- Writes the log file of a run. -/
def writeLog (tree : FileTree) (report : Cli.Report) : Cli.Command → IO Unit
  | .replay options => do
    if !report.logged then return ()
    match Config.load tree options.config with
    | .error _ => return ()
    | .ok (config, _) =>
      let path := Cli.logPath config.logging
      match report.tree.read path with
      | .error _ => return ()
      | .ok bytes =>
        IO.FS.createDirAll config.logging.dir
        IO.FS.writeBinFile path ⟨bytes.toArray⟩
  | _ => return ()

end EventBridge

open EventBridge

/-- Runs the program with its arguments. -/
def main (arguments : List String) : IO UInt32 := do
  let command := Cli.Command.ofArguments arguments
  let tree ← filesFor command
  let input ← inputFor command
  let time := toString (← IO.monoMsNow)
  let report := Cli.run time tree arguments input
  writeLog tree report command
  let log := String.join (report.lines.map (Cli.fileLine time))
  if report.logged then IO.eprint log else IO.print log
  if let some text := report.output then IO.println text
  if let some text := report.error then IO.eprintln text
  return UInt32.ofNat report.code
