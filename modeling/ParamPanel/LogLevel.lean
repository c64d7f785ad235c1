import ParamPanel.Text.Trim

/-!
# Log levels

How much a log is to hold, and the words that say so.
-/

namespace ParamPanel

/-- How weighty a record is, the weightiest first. -/
inductive LogLevel where
  | error
  | warn
  | info
  | debug
  | trace
deriving DecidableEq, Repr

structure LogLevelError where
  text : String
deriving DecidableEq, Repr

def LogLevelError.message (refused : LogLevelError) : String :=
  "invalid log level: " ++ refused.text

namespace LogLevel

def all : List LogLevel := [error, warn, info, debug, trace]

def name : LogLevel → String
  | error => "ERROR"
  | warn => "WARN"
  | info => "INFO"
  | debug => "DEBUG"
  | trace => "TRACE"

/-- The level that a text names, in letters of either case and with white space around it. -/
def ofText (text : String) : Except LogLevelError LogLevel :=
  let word := (Text.trim text.toList).map Char.toUpper
  match all.find? (·.name.toList = word) with
  | some level => .ok level
  | none => .error ⟨text⟩

end LogLevel

end ParamPanel
