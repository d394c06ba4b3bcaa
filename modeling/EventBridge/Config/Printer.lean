import EventBridge.Config.Basic
import EventBridge.Toml.Writer

/-! # Writing a configuration

`Config.render?` writes both tables with every setting, in the order of declaration. A number that
64 bits with a sign do not hold cannot be written.
-/

namespace EventBridge.Config

open Toml (entryText headerText stringText naturalText? booleanText)

/-- The table of the script. -/
def Scripting.render? (scripting : Scripting) : Option String := do
  let payload ← naturalText? scripting.maxPayloadBytes
  let entries ← naturalText? scripting.maxTableEntries
  return headerText "scripting"
    ++ entryText "script" (stringText scripting.script)
    ++ entryText "namespace" (stringText scripting.namespaceName)
    ++ entryText "max_payload_bytes" payload
    ++ entryText "max_table_entries" entries
    ++ entryText "error_policy" (stringText scripting.errorPolicy.name)
    ++ entryText "hot_reload" (booleanText scripting.hotReload)

/-- The table of the log. -/
def Logging.render? (logging : Logging) : Option String := do
  let size ← naturalText? logging.maxFileBytes
  return headerText "logging"
    ++ entryText "level" (stringText logging.level)
    ++ entryText "file" (booleanText logging.file)
    ++ entryText "dir" (stringText logging.dir)
    ++ entryText "max_file_bytes" size

/-- The text of the settings. -/
def render? (config : Config) : Option String := do
  let scripting ← config.scripting.render?
  let logging ← config.logging.render?
  return scripting ++ "\n" ++ logging

end EventBridge.Config
