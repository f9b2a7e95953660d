import ScriptLexer.Number.Binary64

/-!
# Decimals

A decimal is a whole coefficient times a power of ten. It is what a number literal denotes before
it is rounded to a double, and what a double is turned into before it is printed. Coefficient and
exponent are unbounded, so nothing is lost in between.
-/

namespace ScriptLexer

/-- The non-negative number `coefficient * 10 ^ exponent`. -/
structure Decimal where
  coefficient : Nat
  exponent : Int
deriving DecidableEq

namespace Decimal

/-- The number written as the digits `whole`, a point and the digits `fraction`. -/
def ofDigits (whole fraction : List Char) : Decimal where
  coefficient := Nat.ofDigitChars 10 (whole ++ fraction) 0
  exponent := -fraction.length

/-- The numerator of the decimal as a quotient of naturals. -/
def numerator (d : Decimal) : Nat := d.coefficient * Nat.pow 10 d.exponent.toNat

/-- The denominator of the decimal as a quotient of naturals. -/
def denominator (d : Decimal) : Nat := Nat.pow 10 (-d.exponent).toNat

/-- The double nearest to the decimal, with the given sign. -/
def toBinary64 (negative : Bool) (d : Decimal) : Binary64 :=
  Binary64.nearest negative d.numerator d.denominator

/-- Reads digits, optionally followed by a point and more digits; any other text is refused. -/
def read? (text : List Char) : Option Decimal :=
  let whole := text.takeWhile Char.isDigit
  if whole.isEmpty then none
  else
    match text.dropWhile Char.isDigit with
    | [] => some (ofDigits whole [])
    | '.' :: fraction =>
      if fraction.isEmpty || !fraction.all Char.isDigit then none
      else some (ofDigits whole fraction)
    | _ => none

end Decimal

end ScriptLexer
