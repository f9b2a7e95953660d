/-!
# Double-precision numbers

A double is a sign and a magnitude code: the exponent field followed by the fraction field, read as
one natural number below `2 ^ 63`. The code is what makes rounding simple, because consecutive
codes are consecutive values: adding one to the code of a finite value gives the next value up, and
past the largest finite one it gives infinity. Every finite value is a whole number of units of
`2 ^ -1074`, so all arithmetic on it is exact arithmetic on naturals.
-/

namespace ScriptLexer

/-- A double in IEEE 754 binary64 format. -/
structure Binary64 where
  /-- The sign bit. -/
  negative : Bool
  /-- The other sixty-three bits: eleven of exponent, then fifty-two of fraction. -/
  magnitude : Nat
  /-- Sixty-three bits hold the code. -/
  magnitude_lt : magnitude < Nat.pow 2 63
deriving DecidableEq

namespace Binary64

/-- The magnitude code of infinity; larger codes are not numbers. -/
def infinityCode : Nat := 2047 * Nat.pow 2 52

/-- The double of a magnitude code, cut off at infinity. -/
def ofCode (negative : Bool) (code : Nat) : Binary64 where
  negative := negative
  magnitude := min code infinityCode
  magnitude_lt := Nat.lt_of_le_of_lt (Nat.min_le_right ..) (by decide)

/-- The double with the sixty-four bits of `n`. -/
def ofBits (n : Nat) : Binary64 where
  negative := n.testBit 63
  magnitude := n % Nat.pow 2 63
  magnitude_lt := Nat.mod_lt _ (by decide)

/-- The sixty-four bits of a double. -/
def toBits (x : Binary64) : Nat :=
  (if x.negative then Nat.pow 2 63 else 0) + x.magnitude

/-- Neither infinite nor a number at all. -/
def isNaN (x : Binary64) : Bool := infinityCode < x.magnitude

/-- Infinite, of either sign. -/
def isInfinite (x : Binary64) : Bool := x.magnitude == infinityCode

/-- Zero, of either sign. -/
def isZero (x : Binary64) : Bool := x.magnitude == 0

/-- The absolute value of a finite double in units of `2 ^ -1074`. -/
def units (x : Binary64) : Nat :=
  let exponent := x.magnitude / Nat.pow 2 52
  let fraction := x.magnitude % Nat.pow 2 52
  if exponent = 0 then fraction else (Nat.pow 2 52 + fraction) * Nat.pow 2 (exponent - 1)

/-- Comparison by value: the two zeros are equal, and what is not a number equals nothing. -/
def equalValue (x y : Binary64) : Bool :=
  !x.isNaN && !y.isNaN && (x == y || (x.isZero && y.isZero))

/-! ## Rounding a quotient -/

/-- The whole number nearest to `num / den`; of two equally near ones the even. -/
def roundHalfEven (num den : Nat) : Nat :=
  let low := num / den
  let rest := num % den
  if 2 * rest < den then low
  else if den < 2 * rest then low + 1
  else low + low % 2

/-- The double nearest to `num / den`; of two equally near ones that with the even code.

Measured in units, a quotient below `2 ^ 53` is rounded to whole units. Above that the spacing of
the doubles is `2 ^ shift` units, where `shift` is how far the quotient exceeds fifty-three bits.
Either way the code is `shift` steps of `2 ^ 52` plus the rounded quotient, and a quotient that
rounds up to the next power of two lands on the right code by itself. -/
def nearest (negative : Bool) (num den : Nat) : Binary64 :=
  let scaled := num * Nat.pow 2 1074
  let shift := (scaled / den).log2 - 52
  ofCode negative (shift * Nat.pow 2 52 + roundHalfEven scaled (den * Nat.pow 2 shift))

end Binary64

end ScriptLexer
