/-! # Settings

What the bridge is told at startup: which script to run and within which limits, and what to log
where. Every setting but the script has a default.
-/

namespace EventBridge

/-- What becomes of an error that a handler raises. -/
inductive ErrorPolicy where
  /-- It is logged, and the next event follows. -/
  | log
  /-- It goes to the caller. -/
  | propagate
  deriving DecidableEq, Repr

namespace ErrorPolicy

/-- The name of a policy in a configuration. -/
def name : ErrorPolicy → String
  | .log => "log"
  | .propagate => "propagate"

/-- Every policy, in the order in which diagnostics list them. -/
def all : List ErrorPolicy := [.log, .propagate]

/-- The policy of a name. -/
def ofName? (name : String) : Option ErrorPolicy := all.find? fun policy => policy.name == name

/-- A policy is found by its name. -/
theorem ofName?_name (policy : ErrorPolicy) : ofName? policy.name = some policy := by
  cases policy <;> decide

end ErrorPolicy

/-- Settings of the script and of what may be passed to it. -/
structure Config.Scripting where
  /-- The path of the script. -/
  script : String
  /-- The global that holds the native functions. -/
  namespaceName : String
  /-- Payloads of more bytes are refused. -/
  maxPayloadBytes : Nat
  /-- Header fields beyond this number are refused. -/
  maxTableEntries : Nat
  errorPolicy : ErrorPolicy
  /-- Whether a signal makes the script load again. -/
  hotReload : Bool
  deriving DecidableEq, Repr

/-- Settings of the log. -/
structure Config.Logging where
  /-- The filter, a level or a list of targets with levels. -/
  level : String
  /-- Whether a file is written too. -/
  file : Bool
  /-- The directory of that file. -/
  dir : String
  /-- A file of more bytes is emptied first. -/
  maxFileBytes : Nat
  deriving DecidableEq, Repr

/-- All settings. -/
structure Config where
  scripting : Config.Scripting
  logging : Config.Logging
  deriving DecidableEq, Repr

namespace Config

/-- The settings of a script with every default. -/
def Scripting.new (script : String) : Scripting :=
  ⟨script, "cybermon", 16777216, 1024, .log, true⟩

/-- The default settings of the log. -/
def Logging.default : Logging := ⟨"info", false, "logs", 1048576⟩

instance : Inhabited Logging := ⟨.default⟩

end Config

end EventBridge
