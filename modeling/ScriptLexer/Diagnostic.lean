import ScriptLexer.Text.Printable
import ScriptLexer.Text.Numeral
import ScriptLexer.Text.UpperCase

/-!
# Diagnostics

A fault in the source never stops a scan. It becomes a diagnostic: a message with the line it
belongs to, a severity, and optionally a code and a hint. Two faults exist. A character outside the
language's alphabet is reported where it stands. A string that is never closed is reported on the
line where the input ends.
-/

namespace ScriptLexer

/-- A report about one place of the source. -/
structure Diagnostic where
  message : String
  line : Int
  severity : String := "error"
  code : Option String := none
  filename : String := "<unknown>"
  helpText : Option String := none
deriving DecidableEq

namespace Diagnostic

/-! ## The two faults -/

/-- The codes of the faults and what each stands for. -/
def codes : List (String × String) :=
  [("L001", "Unexpected character"), ("L002", "Unterminated string literal")]

/-- The message for a character that no piece can begin with. -/
def unexpectedCharacterMessage : String := "Unexpected character."

/-- The message for a string without its closing quote. -/
def unterminatedStringMessage : String := "Unterminated string."

/-- The hint that shows a printable text. -/
def visibleHelp (shown : List Char) : String :=
  "The character '" ++ String.ofList shown ++ "' is not valid in source code."

/-- The hint that names a character that cannot be shown. -/
def invisibleHelp (c : Char) : String :=
  "Non-printable character (Unicode: " ++ String.ofList (Text.codePoint c) ++ ") is not allowed."

/-- The diagnostic L001 with the given hint. -/
def unexpected (help : String) (line : Int) (filename : String) : Diagnostic where
  message := unexpectedCharacterMessage
  line := line
  code := some "L001"
  filename := filename
  helpText := some help

/-- A character that no piece can begin with. -/
def unexpectedCharacter (c : Char) (line : Int) (filename : String) : Diagnostic :=
  unexpected (if Text.isPrintable c then visibleHelp [c] else invisibleHelp c) line filename

/-- A string without its closing quote. -/
def unterminatedString (line : Int) (filename : String) : Diagnostic where
  message := unterminatedStringMessage
  line := line
  code := some "L002"
  filename := filename
  helpText := some "String literals must be closed with a matching \" quote."

/-- A text that is not one character has no code point to name. -/
structure NotOneCharacter where
  length : Nat
deriving DecidableEq

/-- What is said about a text that has no code point. -/
def NotOneCharacter.message (e : NotOneCharacter) : String :=
  "ord() expected a character, but string of length " ++ toString e.length ++ " found"

/-- The diagnostic L001 for any text: shown if all of it is printable, named if it is one character,
and refused otherwise. -/
def unexpectedText (s : List Char) (line : Int) (filename : String) :
    Except NotOneCharacter Diagnostic :=
  if s.all Text.isPrintable then .ok (unexpected (visibleHelp s) line filename)
  else
    match s with
    | [c] => .ok (unexpected (invisibleHelp c) line filename)
    | _ => .error ⟨s.length⟩

/-! ## The printed form -/

/-- The text of an optional field, empty when the field is missing. -/
def textOf (field : Option String) : String := field.getD ""

/-- The printed form: a header, the place, and the hint if there is one. An empty code or hint
counts as missing. -/
def print (d : Diagnostic) : String :=
  let code := if textOf d.code = "" then "" else "[" ++ textOf d.code ++ "]"
  let help := if textOf d.helpText = "" then "" else "  help: " ++ textOf d.helpText ++ "\n"
  Text.upperCase d.severity ++ code ++ ": " ++ d.message ++ "\n" ++
    "  --> " ++ d.filename ++ ":" ++ String.ofList (Text.ofInt d.line) ++ "\n" ++ help

end Diagnostic

end ScriptLexer
