/-!
# Logged lines

What the bridge writes to its log, with a level.
-/

namespace EditorBridge

/-- How loud a logged line is. -/
inductive LogLevel where
  | error
  | warn
  | info
  | debug
  deriving DecidableEq, Repr

/-- The word for a level. -/
def LogLevel.text : LogLevel → String
  | error => "ERROR"
  | warn => "WARN"
  | info => "INFO"
  | debug => "DEBUG"

/-- A logged line. -/
structure LogLine where
  level : LogLevel
  message : String
  deriving DecidableEq, Repr

end EditorBridge
