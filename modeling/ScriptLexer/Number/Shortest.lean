import ScriptLexer.Number.Decimal

/-!
# The shortest decimal that reads back

A double is printed with the fewest digits that still round to it, and among those with the digits
closest to it. Decimals of a given precision form a grid of spacing `10 ^ exponent`. Because
rounding is monotone, if any point of a grid rounds to the double then so does one of the double's
two neighbours on that grid. So the search tries those two on ever finer grids, the nearer one
first, and stops at the first that reads back. It starts where the nearest power of ten is a single
digit and ends at the latest on the grid of `10 ^ -1074`, which holds every finite double itself.
-/

namespace ScriptLexer.Binary64

/-- The least `k` with `num / den < 10 ^ k`, for a positive quotient. -/
def decimalMagnitude (num den : Nat) : Int :=
  if den ≤ num then (Nat.toDigits 10 (num / den)).length
  else 1 - (Nat.toDigits 10 ((den - 1) / num)).length

/-- The value's two neighbours on the grid of `10 ^ exponent`, the nearer one first. -/
def gridNeighbours (x : Binary64) (exponent : Int) : List Decimal :=
  let num := x.units * Nat.pow 10 (-exponent).toNat
  let den := Nat.pow 2 1074 * Nat.pow 10 exponent.toNat
  let low := num / den
  let near := roundHalfEven num den
  let far := if near = low then low + 1 else low
  [⟨near, exponent⟩, ⟨far, exponent⟩]

/-- The neighbour on the grid of `10 ^ exponent` that rounds to `x`, if one does. -/
def onGrid? (x : Binary64) (exponent : Int) : Option Decimal :=
  (x.gridNeighbours exponent).find? fun d => d.toBinary64 x.negative == x

/-- Tries the grids from `10 ^ exponent` down, `finer` of them before the last. -/
def shortestFrom (x : Binary64) (exponent : Int) : Nat → Decimal
  | 0 => ⟨x.units * Nat.pow 5 1074, -1074⟩
  | finer + 1 => (x.onGrid? exponent).getD (x.shortestFrom (exponent - 1) finer)

/-- The shortest decimal that rounds to the absolute value of a finite `x`. -/
def shortest (x : Binary64) : Decimal :=
  if x.isZero then ⟨0, 0⟩
  else
    let magnitude := decimalMagnitude x.units (Nat.pow 2 1074)
    x.shortestFrom magnitude (magnitude + 1074).toNat

end ScriptLexer.Binary64
