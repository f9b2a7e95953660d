import ScriptLexer.Scan
import ScriptLexer.Text.Slice

/-!
# Reading at a cursor

A source can also be read one piece at a time, from any position. A position that is not negative
sees the text from there on. A negative one counts from the back and sees the tail of the text
followed by the whole text, because counting on from `-1` leads to `0`; a piece may therefore run
through the end of the source and on into its beginning. Everything that is shown of such a piece
is a slice of the source between its two positions, so it can be shorter than what was consumed.
-/

namespace ScriptLexer

/-- Where a piece begins, where the next one will, and the line that has been reached. -/
structure Cursor where
  start : Int := 0
  current : Int := 0
  line : Int := 1
deriving DecidableEq

/-- What one reading consumed and where it left the cursor. -/
structure Reading where
  piece : Piece
  cursor : Cursor
deriving DecidableEq

/-- A number whose slice of the source is not the text of a number. -/
structure NotANumber where
  text : List Char
deriving DecidableEq

namespace Source

/-- The text that lies ahead of a position, none if the position lies outside the source. -/
def ahead? (source : Source) (position : Int) : Option (List Char) :=
  (Text.index? source.text.length position).map fun i =>
    if position < 0 then source.text.drop i ++ source.text else source.text.drop i

/-- Reads the piece that begins at the cursor, none if the cursor lies outside the source. -/
def read? (source : Source) (cursor : Cursor) : Option Reading :=
  match source.ahead? cursor.current with
  | some (c :: rest) =>
    let piece := Piece.next c rest
    some {
      piece := piece
      cursor := {
        start := cursor.current
        current := cursor.current + piece.text.length
        line := cursor.line + piece.lines } }
  | _ => none

/-- The token of a piece that was read from `line` on, if it gives one. -/
def tokenOf (source : Source) (line : Int) (r : Reading) : Except NotANumber (Option Token) :=
  let lexeme := Text.slice source.text r.cursor.start r.cursor.current
  match r.piece with
  | .string _ =>
    let value := Text.slice source.text (r.cursor.start + 1) (r.cursor.current - 1)
    .ok (some ⟨.string, lexeme, some (.text value), line⟩)
  | .number _ _ =>
    match Decimal.read? lexeme with
    | some d => .ok (some ⟨.number, lexeme, some (.number (d.toBinary64 false)), line⟩)
    | none => .error ⟨lexeme⟩
  | .word _ => .ok (some ⟨source.keywords.kindOf lexeme, lexeme, none, line⟩)
  | piece => .ok ((piece.kind? source.keywords).map fun kind => ⟨kind, lexeme, none, line⟩)

end Source

end ScriptLexer
