/-!
# Positions that may be negative

A position in a text of length `n` is an integer. From `0` to `n - 1` it counts from the front and
from `-n` to `-1` from the back; anything else lies outside. The bounds of a slice are read the
same way but never lie outside: they are moved to the nearest end instead. Positions are looked up
in sixty-four bits, so one that does not fit is refused for that reason and not for lying outside.
-/

namespace ScriptLexer.Text

/-- A slice bound in a text of length `n`: a negative one counts from the end, and both ends clamp. -/
def clampBound (n : Nat) (i : Int) : Nat :=
  min (if i < 0 then i + n else i).toNat n

/-- The part of `s` from bound `a` up to bound `b`, empty when `b` does not lie behind `a`. -/
def slice (s : List Char) (a b : Int) : List Char :=
  (s.take (clampBound s.length b)).drop (clampBound s.length a)

/-- The index that an integer position denotes in a sequence of length `n`, if it lies inside. -/
def index? (n : Nat) (i : Int) : Option Nat :=
  if 0 ≤ i ∧ i < n then some i.toNat
  else if i < 0 ∧ 0 ≤ i + n then some (i + n).toNat
  else none

/-- A position that fits in sixty-four bits with a sign. -/
def fitsIndex (i : Int) : Bool := -(Nat.pow 2 63 : Nat) ≤ i ∧ i < (Nat.pow 2 63 : Nat)

end ScriptLexer.Text
