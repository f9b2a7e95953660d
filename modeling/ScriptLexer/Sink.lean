import ScriptLexer.Diagnostic
import ScriptLexer.Log.Record

/-!
# Sinks

Diagnostics are delivered one by one to a sink. A reporter keeps the diagnostics themselves, shared
with whoever else holds them, and logs each one. A collector keeps only the line and the message as
they were on delivery, and it may refuse a delivery; which ones is decided by their number.
-/

namespace ScriptLexer

/-- The name of a diagnostic in the store of a session. -/
abbrev DiagnosticId := Nat

/-- Where diagnostics go. -/
inductive Sink where
  /-- Keeps every diagnostic; those it makes itself carry its file name. -/
  | reporter (filename : String) (recorded : Array DiagnosticId)
  /-- Keeps line and message of the deliveries that `accepts` allows, counting all of them. -/
  | collector (accepts : Nat → Bool) (calls : Nat) (collected : Array (Int × String))

/-- What a delivery does. -/
structure Delivery where
  sink : Sink
  accepted : Bool
  records : List Log.Record

/-- The record of a diagnostic that a reporter has received. -/
def Diagnostic.record (d : Diagnostic) : Log.Record where
  level := .error
  logger := "interp.lexer.errors"
  message := "[line " ++ String.ofList (Text.ofInt d.line) ++ "] Error: " ++ d.message

namespace Sink

/-- A reporter that has received nothing. -/
def newReporter (filename : String) : Sink := .reporter filename #[]

/-- A collector that has received nothing and accepts everything. -/
def newCollector : Sink := .collector (fun _ => true) 0 #[]

/-- A collector that has received nothing and refuses everything after `limit` deliveries. -/
def newLimited (limit : Nat) : Sink := .collector (fun call => call < limit) 0 #[]

/-- The number of deliveries that the sink holds. -/
def size : Sink → Nat
  | reporter _ recorded => recorded.size
  | collector _ _ collected => collected.size

/-- The file name that the sink gives to diagnostics of its own. -/
def filename : Sink → String
  | reporter filename _ => filename
  | collector _ _ _ => "<unknown>"

/-- Delivers the diagnostic `d`, known by `id`. -/
def deliver (id : DiagnosticId) (d : Diagnostic) : Sink → Delivery
  | reporter filename recorded => ⟨.reporter filename (recorded.push id), true, [d.record]⟩
  | collector accepts calls collected =>
    if accepts calls then
      ⟨.collector accepts (calls + 1) (collected.push (d.line, d.message)), true, []⟩
    else ⟨.collector accepts (calls + 1) collected, false, []⟩

/-- Forgets what a reporter has received. A collector has no such operation. -/
def reset : Sink → Sink
  | reporter filename _ => .reporter filename #[]
  | collector accepts calls collected => .collector accepts calls collected

end Sink

end ScriptLexer
