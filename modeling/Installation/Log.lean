/-!
# Log lines

What is said along the way.  Each `LogLine` has a `Level`, and levels are ordered by their
severity.
-/

namespace Installation

/-- How much a log line matters. -/
inductive Level where
  | debug
  | info
  | warning
  | error
deriving DecidableEq, Repr

namespace Level

/-- The name of a level. -/
def name : Level → String
  | .debug => "DEBUG"
  | .info => "INFO"
  | .warning => "WARNING"
  | .error => "ERROR"

/-- The severity of a level as a number. -/
def severity : Level → Nat
  | .debug => 10
  | .info => 20
  | .warning => 30
  | .error => 40

end Level

/-- A line of a log. -/
structure LogLine where
  level : Level
  text : String
deriving DecidableEq, Repr

end Installation
