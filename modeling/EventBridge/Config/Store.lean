import EventBridge.Config.Printer
import EventBridge.Config.Reader
import EventBridge.Files.Tree
import EventBridge.Log.Line
import EventBridge.Text.Utf8

/-! # Configuration files

* `Config.load` reads a file; relative paths in it start from the directory of the file.
* `Config.save` writes one, with the directories on the way to it. Settings that cannot be written
  leave the file as it was.
-/

namespace EventBridge.Config

open Log (Line)

/-- Why a file gives no settings. -/
inductive LoadError where
  | notFound (path : String)
  | unreadable (cause : FileError)
  /-- The text of the file, and what is wrong with it. -/
  | malformed (text : String) (complaint : Toml.Complaint)
  deriving DecidableEq, Repr

/-- The wording of a failed load. -/
def LoadError.message : LoadError → String
  | .notFound path => "Config file not found: " ++ path
  | .unreadable cause => "IO error reading config: " ++ cause.message
  | .malformed text complaint => "Failed to parse config: " ++ complaint.report text

/-- Why settings are not saved. -/
inductive SaveError where
  | unwritable (cause : FileError)
  | outOfRange
  deriving DecidableEq, Repr

/-- The wording of a failed save. -/
def SaveError.message : SaveError → String
  | .unwritable cause => cause.message
  | .outOfRange => "out-of-range value for u64 type"

/-- A report about configuration files. -/
def report (text : String) : Line := ⟨.info, "cybermon_config::cybermon_config", text⟩

/-- A path as seen from a directory, unless it is absolute. -/
def resolved (base path : String) : String :=
  if Path.isAbsolute path then path else Path.join base path

/-- Settings with their paths seen from a directory. -/
def resolveIn (config : Config) (base : String) : Config :=
  ⟨{ config.scripting with script := resolved base config.scripting.script },
    { config.logging with dir := resolved base config.logging.dir }⟩

/-- The settings in a file. -/
def load (tree : FileTree) (path : String) : Except LoadError (Config × List Line) := do
  if !tree.contains path then .error (.notFound path)
  let bytes ← (tree.read path).mapError LoadError.unreadable
  match Text.Utf8.decode? bytes with
  | none => .error (.unreadable .notText)
  | some text =>
    let config ← (parse text).mapError (LoadError.malformed text)
    -- The directory of a relative path is relative, too, and stands in front of the others.
    let config := match Path.parent? path with
      | some base => config.resolveIn base
      | none => config
    return (config, [report ("Loaded config from " ++ path)])

/-- Writes the settings to a file: the report or what went wrong, and the files after it. -/
def save (config : Config) (tree : FileTree) (path : String) :
    Except SaveError (List Line) × FileTree :=
  let prepared := match Path.parent? path with
    | some parent => tree.makeDirectories parent
    | none => (.ok (), tree)
  -- Directories that were made stay, also if nothing is written.
  match prepared with
  | (.error cause, tree) => (.error (.unwritable cause), tree)
  | (.ok (), tree) =>
    match config.render? with
    | none => (.error .outOfRange, tree)
    | some text =>
      match tree.write path (Text.Utf8.encode text) with
      | .error cause => (.error (.unwritable cause), tree)
      | .ok tree => (.ok [report ("Saved config to " ++ path)], tree)

end EventBridge.Config
