import ScriptLexer.Number.Shortest
import ScriptLexer.Text.Numeral

/-!
# How a double is written

The digits of the shortest decimal are laid out in one of two ways, chosen by the place of the
first digit. Near one they are written positionally, always with a point and a digit behind it.
Far from one they are written with an exponent, and the point is left out when there is only one
digit.
-/

namespace ScriptLexer

/-- The choices of a number format. -/
structure Layout where
  /-- The least place of the first digit that is written positionally. -/
  lowest : Int
  /-- The least place above that is written with an exponent again. -/
  highest : Int
  /-- The least number of digits of an exponent. -/
  exponentWidth : Nat

/-- Number literals are positional from `10 ^ -4` up to `10 ^ 16`; an exponent has two digits. -/
def Layout.literal : Layout := ⟨-4, 16, 2⟩

namespace Layout

/-- The digits with a point behind the one at place zero, the first of them being at `place`. -/
def positional (digits : List Char) (place : Int) : List Char :=
  if place < 0 then
    '0' :: '.' :: List.replicate (-place - 1).toNat '0' ++ digits
  else
    let whole := place.toNat + 1
    let fraction := digits.drop whole
    (digits.take whole).rightpad whole '0' ++ '.' :: (if fraction.isEmpty then ['0'] else fraction)

/-- The digits with a point behind the first, and the place of the first as exponent. -/
def scientific (layout : Layout) (digits : List Char) (place : Int) : List Char :=
  let fraction := digits.drop 1
  digits.take 1 ++ (if fraction.isEmpty then [] else '.' :: fraction) ++
    'e' :: (if place < 0 then '-' else '+') ::
      (Nat.toDigits 10 place.natAbs).leftpad layout.exponentWidth '0'

/-- A decimal whose coefficient has no superfluous zero at the end. -/
def write (layout : Layout) (d : Decimal) : List Char :=
  let digits := Nat.toDigits 10 d.coefficient
  let place := d.exponent + digits.length - 1
  if layout.lowest ≤ place ∧ place < layout.highest then positional digits place
  else layout.scientific digits place

end Layout

/-- The text of a double: its sign, then its shortest decimal or the name of what it is instead. -/
def Binary64.write (x : Binary64) : List Char :=
  if x.isNaN then ['n', 'a', 'n']
  else
    let digits := if x.isInfinite then ['i', 'n', 'f'] else Layout.literal.write x.shortest
    if x.negative then '-' :: digits else digits

end ScriptLexer
