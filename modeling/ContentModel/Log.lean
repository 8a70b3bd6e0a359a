/-
# Log lines

Operations show what they would log, next to their results.
-/

namespace ContentModel

/-- How urgent a line is. -/
inductive LogLevel where
  | warning | info
  deriving DecidableEq, Repr, Inhabited

/-- The word for a level. -/
def LogLevel.tag : LogLevel → String
  | .warning => "WARN"
  | .info => "INFO"

/-- A line of a log. -/
structure LogLine where
  level : LogLevel
  message : String
  deriving DecidableEq, Repr, Inhabited

/-- A line as a text. -/
def LogLine.text (l : LogLine) : String :=
  l.level.tag ++ ": " ++ l.message

/-- A warning. -/
def LogLine.warn (message : String) : LogLine :=
  ⟨.warning, message⟩

/-- A notice. -/
def LogLine.inform (message : String) : LogLine :=
  ⟨.info, message⟩

end ContentModel
