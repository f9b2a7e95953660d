/-!
# Log records

A record is a message with a level and the name of the logger that it was given to. Which records
are written is decided by comparing levels; how one is written does not depend on that.
-/

namespace ScriptLexer.Log

/-- How grave a record is. -/
inductive Level where
  | debug | info | warning | error | critical
deriving DecidableEq

namespace Level

/-- All levels, the least grave first. -/
def all : List Level := [debug, info, warning, error, critical]

/-- The name of a level. -/
def name : Level → String
  | debug => "DEBUG"
  | info => "INFO"
  | warning => "WARNING"
  | error => "ERROR"
  | critical => "CRITICAL"

/-- The level of a name. -/
def ofName? (s : String) : Option Level := all.find? fun level => level.name == s

/-- The place of a level, counted from the least grave. -/
def rank : Level → Nat
  | debug => 0
  | info => 1
  | warning => 2
  | error => 3
  | critical => 4

/-- A logger at `threshold` writes the records that are at least as grave. -/
def admits (threshold level : Level) : Bool := threshold.rank ≤ level.rank

end Level

/-- A message for the log. -/
structure Record where
  level : Level
  logger : String
  message : String
deriving DecidableEq

/-- The line of a record, without the time that stands in front of it. -/
def Record.line (r : Record) : String :=
  "[" ++ r.level.name ++ "] " ++ r.logger ++ ": " ++ r.message

end ScriptLexer.Log
