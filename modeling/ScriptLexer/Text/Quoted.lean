import ScriptLexer.Text.Printable
import ScriptLexer.Text.Numeral

/-!
# Quoted text

A printed token shows its text between quotation marks, on one line and with printable characters
only, so that two different texts never look alike. The mark is `'` unless the text holds `'` and
no `"`; then it is `"`. Inside, the mark and the backslash get a backslash in front, the three
common controls have letters, and every other unprintable character is written by its code point
in the shortest of three widths.
-/

namespace ScriptLexer.Text

/-- The quotation mark that `s` is written with. -/
def quoteMark (s : List Char) : Char :=
  if '\'' ∈ s ∧ '"' ∉ s then '"' else '\''

/-- The escape of a character that cannot be shown: two, four or eight hexadecimal digits. -/
def escapeCodePoint (c : Char) : List Char :=
  if c.toNat < 0x100 then '\\' :: 'x' :: hexPadded 2 c.toNat
  else if c.toNat < 0x10000 then '\\' :: 'u' :: hexPadded 4 c.toNat
  else '\\' :: 'U' :: hexPadded 8 c.toNat

/-- How one character is written between two marks `mark`. -/
def escape (mark c : Char) : List Char :=
  if c = '\\' ∨ c = mark then ['\\', c]
  else if c = '\n' then ['\\', 'n']
  else if c = '\r' then ['\\', 'r']
  else if c = '\t' then ['\\', 't']
  else if isPrintable c then [c]
  else escapeCodePoint c

/-- The text `s` in quotation marks. -/
def quoted (s : List Char) : List Char :=
  let mark := quoteMark s
  mark :: s.flatMap (escape mark) ++ [mark]

end ScriptLexer.Text
