/-!
# Numerals

Line numbers are written in base ten with a sign, code points in base sixteen padded to a width.
The digits themselves are `Nat.toDigits`; this module adds the sign and the padding.
-/

namespace ScriptLexer.Text

/-- An integer in base ten, with `-` in front when it is negative. -/
def ofInt : Int → List Char
  | .ofNat n => Nat.toDigits 10 n
  | .negSucc n => '-' :: Nat.toDigits 10 (n + 1)

/-- A natural number in base sixteen, lower case, padded with zeros on the left to `width`. -/
def hexPadded (width n : Nat) : List Char :=
  (Nat.toDigits 16 n).leftpad width '0'

/-- A code point as it is named in running text: `U+` and at least four upper-case digits. -/
def codePoint (c : Char) : List Char :=
  'U' :: '+' :: (hexPadded 4 c.toNat).map Char.toUpper

end ScriptLexer.Text
