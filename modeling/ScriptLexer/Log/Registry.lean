import ScriptLexer.Log.Record

/-!
# The tree of loggers

Loggers are known by dotted names, and the dots make them a tree below a common root. A logger
comes into being when it is first named, and then it is attached to the nearest one above it that
exists. When one between the two comes later, the logger moves down to it. Being obtained for the
first time gives a logger a level and a handler; being obtained again changes nothing.

A record is judged by the level of the logger it is given to and by no other. Once admitted it goes
to the handler of that logger and to the handlers of all loggers it is attached to, up to the root,
and each of them writes a line. So one record is written once for every handler on its way.

Two rules about names matter at the edges. A name is cut at its dots from the right, but never at
two dots in a row, so `a..b` lies below `a.` and not below `a`. And whether a newcomer stands
between a logger and what it is attached to is judged by the spelling of names alone, where the
root is spelled `root`. A logger called `r`, `ro` or `roo` therefore takes nothing over from the
root.
-/

namespace ScriptLexer.Log

/-- The state of one logger. -/
structure Logger where
  /-- The level set on the logger itself, if one is set. -/
  level : Option Level := none
  /-- Whether the logger was obtained, and so has a handler. -/
  obtained : Bool := false
  /-- The logger that it is attached to; only the root has none. -/
  parent : Option String := none
deriving DecidableEq

/-- The loggers that exist, each name once. -/
abbrev Registry := List (String × Logger)

/-- The name of the root. -/
def rootName : String := "root"

/-! ## Names -/

/-- The names above a name that is spelled backwards, the nearest first. -/
def cutsReversed : List Char → List (List Char)
  | [] => []
  | ['.'] => []
  | '.' :: c :: rest => (c :: rest).reverse :: cutsReversed rest
  | _ :: rest => cutsReversed rest

/-- The names above a dotted name, the nearest first. -/
def namesAbove (name : String) : List String :=
  (cutsReversed name.toList.reverse).map String.ofList

/-- The name that a logger is kept under: the empty name means the root. -/
def properName (name : String) : String := if name = "" then rootName else name

namespace Registry

/-! ## The tree -/

/-- The state of a logger; one that does not exist is blank. -/
def find (registry : Registry) (name : String) : Logger := (registry.lookup name).getD {}

/-- The logger exists. -/
def contains (registry : Registry) (name : String) : Bool := (registry.lookup name).isSome

/-- Replaces the state of a logger. -/
def set (registry : Registry) (name : String) (logger : Logger) : Registry :=
  registry.map fun entry => if entry.1 = name then (name, logger) else entry

/-- The logger stands below the newcomer and is attached to something not spelled below it. -/
def movesTo (newcomer : String) (entry : String × Logger) : Bool :=
  (namesAbove entry.1).contains newcomer &&
    !newcomer.toList.isPrefixOf (entry.2.parent.getD rootName).toList

/-- Brings a logger into being, if it does not exist yet. -/
def create (registry : Registry) (name : String) : Registry :=
  if registry.contains name then registry
  else
    let parent := ((namesAbove name).find? registry.contains).getD rootName
    let moved := registry.map fun entry =>
      if movesTo name entry then (entry.1, { entry.2 with parent := some name }) else entry
    moved ++ [(name, { parent := some parent })]

/-- The logger and all that it is attached to, up to the root. -/
def path (registry : Registry) (name : String) : List String :=
  match (registry.find name).parent with
  | none => [name]
  | some parent =>
    -- a parent is shorter than its child, unless it is the root, where the path ends anyway
    if parent.length < name.length then name :: registry.path parent else [name, parent]
termination_by name.length

/-! ## Levels and handlers -/

/-- Obtains a logger. The first time it gets the level `info` and a handler. -/
def obtain (registry : Registry) (name : String) : Registry :=
  let existing := registry.create name
  let logger := existing.find name
  if logger.obtained then existing
  else existing.set name { logger with level := some .info, obtained := true }

/-- Sets the level of a logger, or takes it away. -/
def setLevel (registry : Registry) (name : String) (level : Option Level) : Registry :=
  let existing := registry.create name
  existing.set name { existing.find name with level := level }

/-- The level that a logger judges by: its own, or the nearest one on its path. -/
def threshold (registry : Registry) (name : String) : Level :=
  ((registry.path name).findSome? fun n => (registry.find n).level).getD .debug

/-- The loggers on the path that have a handler. -/
def handlers (registry : Registry) (name : String) : List String :=
  (registry.path name).filter fun n => (registry.find n).obtained

/-- The lines that a record causes. -/
def lines (registry : Registry) (record : Record) : List String :=
  if (registry.threshold record.logger).admits record.level then
    (registry.handlers record.logger).map fun _ => record.line
  else []

/-- The loggers at the beginning: the root at `warning`, and the two that the scanner writes to. -/
def initial : Registry :=
  let root : Registry := [(rootName, { level := some .warning })]
  (root.obtain "interp.lexer.errors").obtain "interp.lexer.scanner"

end Registry

/-! ## Requests -/

/-- What can be asked of the loggers. -/
inductive Request where
  | obtain (name : String)
  | setLevel (name : String) (level : Option Level)
  | write (record : Record)
deriving DecidableEq

/-- The logger that a request is about. -/
def Request.name : Request → String
  | obtain name => name
  | setLevel name _ => name
  | write record => record.logger

/-- The loggers after a request. Whatever is asked, the logger that it is about exists then. -/
def Registry.apply (registry : Registry) : Request → Registry
  | .obtain name => registry.obtain name
  | .setLevel name level => registry.setLevel name level
  | .write record => registry.create record.logger

/-- The lines that a request causes. -/
def Registry.linesOf (registry : Registry) : Request → List String
  | .write record => (registry.create record.logger).lines record
  | _ => []

end ScriptLexer.Log
