import ScriptLexer.CharClass

/-!
# Pieces of source text

Scanning cuts the source into pieces, from left to right and without gaps. A piece is what one step
of the scanner consumes: a token, a character that separates tokens, a comment, or a fault. Which
piece comes next depends on the text ahead and on nothing else, so cutting is a function on lists
of characters: `next` gives the first piece and `pieces` all of them. Kinds, values, line numbers
and diagnostics are read off the pieces afterwards.

Every piece is as long as its rule allows. An operator takes in a following `=`, a comment runs up
to the end of its line, words and digits run as far as they can, and a point joins a number only
when a digit follows it.
-/

namespace ScriptLexer

/-- One piece of source text. -/
inductive Piece where
  /-- A mark of punctuation. -/
  | punctuation (mark : Punctuation)
  /-- An operator, alone or with the `=` behind it. -/
  | operator (op : Operator) (withEqual : Bool)
  /-- A slash that no second slash follows. -/
  | slash
  /-- Two slashes and the rest of the line, without its line feed. -/
  | comment (body : List Char)
  /-- A space, a tab or a carriage return. -/
  | blank (c : Char)
  /-- A line feed. -/
  | newline
  /-- A string with both its quotes. -/
  | string (body : List Char)
  /-- A string that the end of the input cuts off. -/
  | openString (body : List Char)
  /-- Digits, and the digits behind the point if there is one. -/
  | number (whole fraction : List Char)
  /-- An identifier or a reserved word. -/
  | word (text : List Char)
  /-- A character that no piece can begin with. -/
  | stray (c : Char)
deriving DecidableEq

namespace Piece

/-- The source text of a piece. -/
def text : Piece → List Char
  | punctuation mark => [mark.char]
  | operator op false => [op.char]
  | operator op true => [op.char, '=']
  | slash => ['/']
  | comment body => '/' :: '/' :: body
  | blank c => [c]
  | newline => ['\n']
  | string body => '"' :: body ++ ['"']
  | openString body => '"' :: body
  | number whole [] => whole
  | number whole (d :: ds) => whole ++ '.' :: d :: ds
  | word w => w
  | stray c => [c]

/-- The number of lines that the piece ends. A string ends one with every line feed in it; apart
from strings only the line feed itself counts. -/
def lines : Piece → Nat
  | newline => 1
  | string body => body.count '\n'
  | openString body => body.count '\n'
  | _ => 0

/-! ## Cutting -/

/-- The digits behind a point at the head of `rest`, none if there is no point or no digit. -/
def fractionOf : List Char → List Char
  | '.' :: rest => rest.takeWhile Char.isDigit
  | _ => []

/-- The first piece of `c :: rest`. -/
def next (c : Char) (rest : List Char) : Piece :=
  match classify c with
  | .punctuation mark => punctuation mark
  | .operator op => operator op (rest.head? == some '=')
  | .slash =>
    match rest with
    | '/' :: line => comment (line.takeWhile (· != '\n'))
    | _ => slash
  | .whitespace => blank c
  | .newline => newline
  | .quote =>
    if rest.contains '"' then string (rest.takeWhile (· != '"')) else openString rest
  | .digit =>
    number (c :: rest.takeWhile Char.isDigit) (fractionOf (rest.dropWhile Char.isDigit))
  | .alpha => word (c :: rest.takeWhile isWordChar)
  | .other => stray c

end Piece

/-- The pieces of a text, from left to right. -/
def pieces : List Char → List Piece
  | [] => []
  | c :: rest =>
    let piece := Piece.next c rest
    piece :: pieces (rest.drop (piece.text.length - 1))
termination_by s => s.length
decreasing_by simp only [List.length_drop, List.length_cons]; omega

end ScriptLexer
