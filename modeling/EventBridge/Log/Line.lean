/-! # Log lines

What the parts of the bridge report is data: an operation returns its lines beside its answer, in
the order in which they arise. The command line decides which of them are shown, and where.
-/

namespace EventBridge.Log

/-- How severe a line is, from the most to the least. -/
inductive Level where
  | error
  | warn
  | info
  | debug
  | trace
  deriving DecidableEq, Repr

/-- The place of a level, the most severe first. -/
def Level.rank : Level → Nat
  | .error => 1
  | .warn => 2
  | .info => 3
  | .debug => 4
  | .trace => 5

/-- The name of a level as the log shows it. -/
def Level.name : Level → String
  | .error => "ERROR"
  | .warn => "WARN"
  | .info => "INFO"
  | .debug => "DEBUG"
  | .trace => "TRACE"

/-- One line: how severe, which part reports it, and what. -/
structure Line where
  level : Level
  target : String
  text : String
  deriving DecidableEq, Repr

/-- The lines at a level or more severe ones. -/
def upTo (level : Level) (lines : List Line) : List Line :=
  lines.filter fun line => line.level.rank ≤ level.rank

end EventBridge.Log
