import EventBridge.Cli.Arguments
import EventBridge.Config.Store
import EventBridge.Log.Filter
import EventBridge.Replay.Run

/-! # A run of the program

A run reads its configuration, sets up the log, loads the script and replays the trace. `Cli.run`
computes all of that from the files there are: what is printed, what the log shows, the files after
it, and the exit code.
-/

namespace EventBridge.Cli

open Log (Filter Line)

/-- The version of the program. -/
def version : String := "0.1.0-beta"

/-- How a run ended. -/
structure Report where
  code : Nat
  /-- What is printed at the end. -/
  output : Option String
  /-- What is printed about a failure. -/
  error : Option String
  /-- The lines that the log shows. -/
  lines : List Line
  /-- Whether they go to a file. -/
  logged : Bool
  /-- The files after the run. -/
  tree : FileTree

/-! ### Failures -/

/-- A failure with the causes behind it, the outermost first. -/
structure Failure where
  message : String
  causes : List String
  deriving DecidableEq, Repr

/-- The lines of a text. -/
def textLines (text : String) : List String := text.splitOn "\n"

/-- A cause, indented; the first line may have a number. -/
def indented (number : Option Nat) (text : String) : String :=
  let first := match number with
    | some n =>
      let digits := toString n
      "".pushn ' ' (5 - digits.length) ++ digits ++ ": "
    | none => "    "
  let others := if number.isSome then "\n       " else "\n    "
  first ++ others.intercalate (textLines text)

/-- What is printed about a failure. Several causes are numbered. -/
def Failure.text (failure : Failure) : String :=
  let causes := match failure.causes with
    | [] => ""
    | [one] => "\n\nCaused by:\n" ++ indented none one
    | many =>
      "\n\nCaused by:\n" ++
        "\n".intercalate (many.zipIdx.map fun (cause, n) => indented (some n) cause)
  "Error: " ++ failure.message ++ causes

/-- The failure that a failure of the bridge is. -/
def Failure.ofBridge (e : BridgeError) : Failure := ⟨e.message, e.chain.drop 1⟩

/-! ### The log -/

/-- The filter of the settings, unless more output was asked for. -/
def filterText (level : String) (debug : Nat) : String :=
  match debug with
  | 0 => level
  | 1 => "debug"
  | _ => "trace"

/-- A line of a log file, behind the time it was written at. -/
def fileLine (time : String) (line : Line) : String :=
  let level := line.level.name
  time ++ " " ++ "".pushn ' ' (5 - level.length) ++ level ++ " " ++ line.target ++ ": " ++
    line.text ++ "\n"

/-- The path of the log file. -/
def logPath (logging : Config.Logging) : String := Path.join logging.dir "replay.log"

/-- Opens the log file: it is made if it is not there, and emptied beyond the limit. -/
def openLog (tree : FileTree) (logging : Config.Logging) : Except FileError FileTree :=
  let path := logPath logging
  match tree.look path with
  | .ok (.file bytes) =>
    if logging.maxFileBytes < bytes.length then tree.write path [] else .ok tree
  | .ok .directory => .error .isADirectory
  | .error _ => tree.write path []

/-- Makes the log file ready, with its directory, which stays also if the file cannot be opened. -/
def prepareLog (tree : FileTree) (logging : Config.Logging) : Except FileError Unit × FileTree :=
  match tree.makeDirectories logging.dir with
  | (.error cause, tree) => (.error cause, tree)
  | (.ok (), tree) =>
    match openLog tree logging with
    | .ok tree => (.ok (), tree)
    | .error cause => (.error cause, tree)

/-! ### The run -/

/-- Replays the trace of the options: the statistics or a failure, and what was reported. -/
def replayTrace (tree : FileTree) (options : Options) (input : List UInt8) (replay : Replay) :
    Except Failure Replay.Stats × List Line :=
  let finish (result : Except Replay.RunError Replay.Stats × Replay × List Line) :
      Except Failure Replay.Stats × List Line :=
    (result.1.mapError fun e => ⟨e.message, e.causes⟩, result.2.2)
  match options.trace with
  | none => finish (replay.run input)
  | some path =>
    match tree.read path with
    | .ok bytes => finish (replay.run bytes)
    | .error .isADirectory =>
      -- A directory can be opened; reading its first line fails.
      finish (.error (.unreadable 1 .isADirectory), replay, [])
    | .error cause => (.error ⟨"Failed to open trace " ++ path, [cause.message]⟩, [])

/-- Loads the script and replays the trace. -/
def play (tree : FileTree) (options : Options) (scripting : Config.Scripting)
    (input : List UInt8) : Except Failure Replay.Stats × List Line :=
  match Dispatch.Shared.start scripting (.file tree) with
  | (.error e, lines) => (.error (Failure.ofBridge e), lines)
  | (.ok shared, lines) =>
    let (result, others) := replayTrace tree options input (Replay.new shared)
    (result, lines ++ others)

/-- A run that does not get as far as a log. -/
def refused (tree : FileTree) (failure : Failure) : Report :=
  ⟨1, none, some failure.text, [], false, tree⟩

/-- A run with its options. `time` is written into the log file. -/
def replay (time : String) (tree : FileTree) (options : Options) (input : List UInt8) : Report :=
  match Config.load tree options.config with
  | .error e => refused tree ⟨"Failed to load config from " ++ options.config, [e.message]⟩
  | .ok (config, _) =>
    let logging := config.logging
    let prepared := if logging.file then prepareLog tree logging else (.ok (), tree)
    match prepared with
    | (.error cause, tree) => refused tree ⟨"Failed to initialise logging", [cause.message]⟩
    | (.ok (), tree) =>
      let filter := Filter.parse (filterText logging.level options.debug)
      let opened : List Line :=
        if logging.file then
          [⟨.info, "cybermon_cli::logging", "Logging to file: " ++ logPath logging⟩]
        else []
      let started : Line := ⟨.info, "cybermon_replay", "Starting cybermon-replay " ++ version⟩
      let (result, lines) := play tree options config.scripting input
      let shown := (opened ++ started :: lines).filter filter.shows
      let tree :=
        if logging.file then
          let text := String.join (shown.map (fileLine time))
          (tree.append (logPath logging) (Text.Utf8.encode text)).toOption.getD tree
        else tree
      match result with
      | .ok stats => ⟨0, some stats.text, none, shown, logging.file, tree⟩
      | .error failure => ⟨1, none, some failure.text, shown, logging.file, tree⟩

/-- The paths that a run looks at, as far as the files that are known tell: the configuration, and
what that names. -/
def paths (tree : FileTree) (options : Options) : List String :=
  match Config.load tree options.config with
  | .error _ => [options.config]
  | .ok (config, _) =>
    let logging := config.logging
    options.config :: config.scripting.script :: options.trace.toList ++
      (if logging.file then [logging.dir, logPath logging] else [])

/-- What `--help` prints. -/
def usage : String :=
  "Replays captured engine events through a cybermon Lua configuration\n\n" ++
  "Usage: cybermon-replay [OPTIONS] [TRACE]\n\n" ++
  "Arguments:\n" ++
  "  [TRACE]  JSON-lines event trace to replay (reads stdin if omitted)\n\n" ++
  "Options:\n" ++
  "  -c, --config <CONFIG>  Configuration file [default: cybermon.toml]\n" ++
  "  -d, --debug...         Enables debug mode\n" ++
  "  -h, --help             Print help\n" ++
  "  -V, --version          Print version"

/-- A run by its arguments. -/
def run (time : String) (tree : FileTree) (arguments : List String) (input : List UInt8) : Report :=
  match Command.ofArguments arguments with
  | .replay options => replay time tree options input
  | .help => ⟨0, some usage, none, [], false, tree⟩
  | .version => ⟨0, some ("cybermon-replay " ++ version), none, [], false, tree⟩
  | .invalid reason => ⟨2, none, some ("error: " ++ reason), [], false, tree⟩

end EventBridge.Cli
