import ScriptLexer.Diagnostic
import ScriptLexer.Number.Decimal
import ScriptLexer.Piece
import ScriptLexer.Token.Basic

/-!
# Scanning a source

A scan reads the pieces of a source from left to right and keeps count of the lines. Some pieces
give a token, some a diagnostic, and the rest nothing. A token carries the line on which its piece
begins. The two faults carry the line that has been reached when they are found, which for an open
string is the last line of the input. After the last piece comes the token that ends the input, so
a scan always answers with a list that has exactly one more token than pieces that give one.
-/

namespace ScriptLexer

namespace Piece

/-- The kind of token that a piece gives, if it gives one. -/
def kind? (keywords : Keywords) : Piece → Option Kind
  | punctuation mark => some mark.kind
  | operator op withEqual => some (op.kind withEqual)
  | slash => some .slash
  | string _ => some .string
  | number _ _ => some .number
  | word w => some (keywords.kindOf w)
  | _ => none

/-- The value that a piece denotes, if it denotes one. -/
def literal? : Piece → Option Literal
  | string body => some (.text body)
  | number whole fraction => some (.number ((Decimal.ofDigits whole fraction).toBinary64 false))
  | _ => none

/-- The token that a piece beginning on `line` gives, if it gives one. -/
def token? (keywords : Keywords) (line : Int) (p : Piece) : Option Token :=
  (p.kind? keywords).map fun kind => ⟨kind, p.text, p.literal?, line⟩

/-- The diagnostic that a piece beginning on `line` gives, if it is a fault. -/
def fault? (filename : String) (line : Int) (p : Piece) : Option Diagnostic :=
  match p with
  | stray c => some (.unexpectedCharacter c line filename)
  | openString _ => some (.unterminatedString (line + p.lines) filename)
  | _ => none

end Piece

/-- The tokens of a list of pieces that begins on `line`, with the one that ends the input. -/
def tokensFrom (keywords : Keywords) : Int → List Piece → List Token
  | line, [] => [Token.endOfInput line]
  | line, p :: ps => (p.token? keywords line).toList ++ tokensFrom keywords (line + p.lines) ps

/-- The diagnostics of a list of pieces that begins on `line`. -/
def diagnosticsFrom (filename : String) : Int → List Piece → List Diagnostic
  | _, [] => []
  | line, p :: ps => (p.fault? filename line).toList ++ diagnosticsFrom filename (line + p.lines) ps

/-- A text to be scanned, its name for diagnostics, and the reserved words. -/
structure Source where
  text : List Char
  filename : String := "<unknown>"
  keywords : Keywords := .standard

/-- What a scan finds. -/
structure Scan where
  tokens : List Token
  diagnostics : List Diagnostic
deriving DecidableEq

namespace Source

/-- Scans a source from its first line. -/
def scan (source : Source) : Scan where
  tokens := tokensFrom source.keywords 1 (pieces source.text)
  diagnostics := diagnosticsFrom source.filename 1 (pieces source.text)

/-- Scans a source and treats the first diagnostic as fatal. -/
def tokenize (source : Source) : Except Diagnostic (List Token) :=
  match source.scan.diagnostics with
  | [] => .ok source.scan.tokens
  | first :: _ => .error first

end Source

end ScriptLexer
