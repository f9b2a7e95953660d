import ScriptLexer.Proofs.Rounding
import Mathlib.Tactic.LinearCombination

/-!
# The nearest double

The double that a decimal is decoded to is described without codes: it is the finite double nearest
to the number, of two equally near ones that with the even significand, and it is infinite from
`2 ^ 1024 - 2 ^ 970` on (`Binary64.IsNearest`). **The description fits exactly one double, and that
is the one that is computed** (`Decimal.toBinary64_eq_iff`).

A decimal is read through its value alone. So what two decimals of one value are decoded to is the
same, however many digits they are written with, and a greater value never gives a smaller double.
-/

namespace ScriptLexer

namespace Binary64

/-- A double that is a number and not infinite. -/
def Finite (x : Binary64) : Prop := x.magnitude < infinityCode

/-- The number of units in one. -/
def unitsPerOne : ℚ := (Nat.pow 2 1074 : Nat)

/-- The absolute value of a finite double. -/
def value (x : Binary64) : ℚ := x.units / unitsPerOne

/-- The digits of a finite double in base two, with the leading one that is not stored. -/
def significand (x : Binary64) : Nat :=
  if x.magnitude / 2 ^ 52 = 0 then x.magnitude % 2 ^ 52 else 2 ^ 52 + x.magnitude % 2 ^ 52

/-- The double that a number of the given sign and absolute value is rounded to. -/
structure IsNearest (negative : Bool) (v : ℚ) (x : Binary64) : Prop where
  sign : x.negative = negative
  isNaN : x.isNaN = false
  infinite_iff : x.isInfinite = true ↔ 2 ^ 1024 - 2 ^ 970 ≤ v
  closest : x.Finite → ∀ y : Binary64, y.Finite → |x.value - v| ≤ |y.value - v|
  even : x.Finite → ∀ y : Binary64, y.Finite → y.value ≠ x.value →
    |y.value - v| = |x.value - v| → Even x.significand

theorem eq_iff {x y : Binary64} : x = y ↔ x.negative = y.negative ∧ x.magnitude = y.magnitude := by
  cases x
  cases y
  simp

theorem even_significand (x : Binary64) : Even x.significand ↔ Even x.magnitude := by
  rw [significand, Nat.even_iff, Nat.even_iff]
  split <;> omega

theorem unitsPerOne_eq : unitsPerOne = 2 ^ 1074 := by
  -- the exponent is a variable here, so that the power is not computed
  have h : ∀ n, n = 1074 → ((Nat.pow 2 n : Nat) : ℚ) = 2 ^ 1074 := by
    intro n hn
    rw [← hn]
    exact Nat.cast_pow 2 n
  exact h 1074 rfl

theorem unitsPerOne_pos : 0 < unitsPerOne := by
  rw [unitsPerOne_eq]
  positivity

theorem value_mul (x : Binary64) : x.value * unitsPerOne = codeUnits x.magnitude := by
  rw [value, units_eq_codeUnits, div_mul_cancel₀ _ unitsPerOne_pos.ne']

theorem midpoint_zero : midpoint 0 = 1 / 2 := by
  simp [midpoint, codeUnits]

theorem midpoint_infinityCode :
    midpoint (infinityCode - 1) = (2 ^ 1024 - 2 ^ 970) * unitsPerOne := by
  have hcode : infinityCode - 1 = 2045 * 2 ^ 52 + (2 ^ 53 - 1) := by decide
  rw [hcode, midpoint_shift (by decide) (by decide), unitsPerOne_eq]
  have h : (2 : ℚ) ^ 1024 = 2 ^ 970 * 2 ^ 54 := by rw [← pow_add]
  have h' : (2 : ℚ) ^ 2045 * 2 = 2 ^ 970 * 2 ^ 1074 * 2 ^ 2 := by
    rw [← pow_succ, ← pow_add, ← pow_add]
  have hsteps : (((2 ^ 53 - 1 : Nat) : ℚ) + 1 / 2) * 2 = 2 ^ 54 - 1 := by norm_num
  rw [h]
  generalize (2 : ℚ) ^ 970 = a, (2 : ℚ) ^ 1074 = b, (2 : ℚ) ^ 2045 = c at *
  linear_combination c / 2 * hsteps + (2 ^ 54 - 1) / 4 * h'

/-- What rounds to a code is not nearer to any other code. -/
theorem RoundsTo.closest (h : RoundsTo code t) (other : Nat) :
    |(codeUnits code : ℚ) - t| ≤ |codeUnits other - t| ∧
      (other ≠ code → |(codeUnits other : ℚ) - t| = |codeUnits code - t| → Even code) := by
  rcases Nat.lt_trichotomy other code with hlt | rfl | hgt
  · -- the neighbour below is at least as near as `other`, and it is on the far side of the midpoint
    obtain ⟨below, rfl⟩ : ∃ below, code = below + 1 := ⟨code - 1, by omega⟩
    have hother : (codeUnits other : ℚ) ≤ codeUnits below := by
      exact_mod_cast codeUnits_strictMono.monotone (Nat.le_of_lt_succ hlt)
    have hmid := h.midpoint_le below rfl
    have heven := h.even_below below rfl
    have hstep : (codeUnits below : ℚ) < codeUnits (below + 1) := by
      exact_mod_cast codeUnits_lt_succ below
    rw [midpoint] at hmid heven
    have hdist : |(codeUnits other : ℚ) - t| = t - codeUnits other := by
      rw [abs_of_neg] <;> linarith
    rw [hdist]
    refine ⟨abs_le.2 ⟨by linarith, by linarith⟩, fun _ heq => heven ?_⟩
    rcases abs_cases ((codeUnits (below + 1) : ℚ) - t) with ⟨habs, -⟩ | ⟨habs, -⟩ <;>
      rw [habs] at heq <;> linarith
  · exact ⟨le_rfl, fun hne => absurd rfl hne⟩
  · have hother : (codeUnits (code + 1) : ℚ) ≤ codeUnits other := by
      exact_mod_cast codeUnits_strictMono.monotone (Nat.succ_le_of_lt hgt)
    have hmid := h.le_midpoint
    have heven := h.even_above
    have hstep : (codeUnits code : ℚ) < codeUnits (code + 1) := by
      exact_mod_cast codeUnits_lt_succ code
    rw [midpoint] at hmid heven
    have hdist : |(codeUnits other : ℚ) - t| = codeUnits other - t := by
      rw [abs_of_pos]
      linarith
    rw [hdist]
    refine ⟨abs_le.2 ⟨by linarith, by linarith⟩, fun _ heq => heven ?_⟩
    rcases abs_cases ((codeUnits code : ℚ) - t) with ⟨habs, -⟩ | ⟨habs, -⟩ <;>
      rw [habs] at heq <;> linarith

variable {x y : Binary64} {negative : Bool} {v : ℚ}

theorem value_le_iff : x.value ≤ y.value ↔ x.magnitude ≤ y.magnitude := by
  rw [← mul_le_mul_iff_left₀ unitsPerOne_pos, value_mul, value_mul,
    Nat.cast_le, codeUnits_strictMono.le_iff_le]

theorem value_lt_iff : x.value < y.value ↔ x.magnitude < y.magnitude :=
  lt_iff_lt_of_le_iff_le value_le_iff

theorem value_inj : x.value = y.value ↔ x.magnitude = y.magnitude := by
  rw [le_antisymm_iff, value_le_iff, value_le_iff, le_antisymm_iff]

theorem not_isNaN_of_finite (h : x.Finite) : x.isNaN = false :=
  decide_eq_false (Nat.not_lt_of_lt h)

theorem not_isInfinite_of_finite (h : x.Finite) : x.isInfinite = false :=
  beq_false_of_ne (Nat.ne_of_lt h)

theorem finite_or_infinite (h : x.isNaN = false) : x.Finite ∨ x.magnitude = infinityCode :=
  Nat.lt_or_eq_of_le (Nat.le_of_not_lt (of_decide_eq_false h))

theorem abs_value_sub (x : Binary64) (v : ℚ) :
    |x.value - v| * unitsPerOne = |(codeUnits x.magnitude : ℚ) - v * unitsPerOne| := by
  rw [← value_mul, ← sub_mul, abs_mul, abs_of_pos unitsPerOne_pos]

/-- Distances in units compare like distances. -/
theorem abs_value_sub_le_iff : |x.value - v| ≤ |y.value - v| ↔
    |(codeUnits x.magnitude : ℚ) - v * unitsPerOne| ≤
      |codeUnits y.magnitude - v * unitsPerOne| := by
  rw [← abs_value_sub, ← abs_value_sub, mul_le_mul_iff_left₀ unitsPerOne_pos]

theorem abs_value_sub_inj : |x.value - v| = |y.value - v| ↔
    |(codeUnits x.magnitude : ℚ) - v * unitsPerOne| =
      |codeUnits y.magnitude - v * unitsPerOne| := by
  rw [← abs_value_sub, ← abs_value_sub, mul_left_inj' unitsPerOne_pos.ne']

/-- A code is infinite from the last midpoint on. -/
theorem RoundsTo.infinityCode_le_iff (h : RoundsTo code (v * unitsPerOne)) :
    infinityCode ≤ code ↔ 2 ^ 1024 - 2 ^ 970 ≤ v := by
  have hlast : infinityCode - 1 + 1 = infinityCode := by decide
  rw [← mul_le_mul_iff_left₀ unitsPerOne_pos, ← midpoint_infinityCode]
  constructor
  · intro hle
    obtain ⟨below, rfl⟩ : ∃ below, code = below + 1 := ⟨code - 1, by omega⟩
    exact (midpoint_strictMono.monotone (by omega)).trans (h.midpoint_le below rfl)
  · intro hle
    by_contra hlt
    have hmid : midpoint code ≤ midpoint (infinityCode - 1) :=
      midpoint_strictMono.monotone (by omega)
    -- the last midpoint goes up, because the last finite code is odd
    have heq : v * unitsPerOne = midpoint code := le_antisymm h.le_midpoint (hmid.trans hle)
    have hcode : code = infinityCode - 1 :=
      midpoint_strictMono.injective (le_antisymm hmid (hle.trans heq.le))
    have heven := h.even_above heq
    rw [hcode] at heven
    exact absurd heven (by decide)

/-- A number goes to zero up to half a unit. -/
theorem RoundsTo.eq_zero_iff (h : RoundsTo code (v * unitsPerOne)) :
    code = 0 ↔ v ≤ 1 / 2 ^ 1075 := by
  have hhalf : (1 / 2 ^ 1075 : ℚ) * unitsPerOne = midpoint 0 := by
    rw [midpoint_zero, unitsPerOne_eq, pow_succ, div_mul_eq_mul_div, one_mul, div_mul_eq_div_div,
      div_self (by positivity)]
  rw [← mul_le_mul_iff_left₀ unitsPerOne_pos, hhalf]
  constructor
  · rintro rfl
    exact h.le_midpoint
  · intro hle
    by_contra hne
    obtain ⟨below, rfl⟩ := Nat.exists_eq_succ_of_ne_zero hne
    have hmid : midpoint 0 ≤ midpoint below := midpoint_strictMono.monotone (Nat.zero_le below)
    have heq : midpoint below = v * unitsPerOne :=
      le_antisymm (h.midpoint_le below rfl) (hle.trans hmid)
    have hbelow : 0 = below := midpoint_strictMono.injective (le_antisymm hmid (heq.le.trans hle))
    have heven := h.even_below below rfl heq
    rw [← hbelow] at heven
    exact absurd heven (by decide)

theorem magnitude_ofCode_of_finite (h : (ofCode negative code).Finite) :
    (ofCode negative code).magnitude = code := by
  change min code infinityCode < infinityCode at h
  change min code infinityCode = code
  omega

/-- What rounds to a code has the double of that code nearest to it. -/
theorem RoundsTo.isNearest (h : RoundsTo code (v * unitsPerOne)) :
    IsNearest negative v (ofCode negative code) where
  sign := rfl
  isNaN := decide_eq_false (Nat.not_lt.2 (Nat.min_le_right code infinityCode))
  infinite_iff := by
    rw [← h.infinityCode_le_iff]
    exact beq_iff_eq.trans min_eq_right_iff
  closest hfinite y _ := by
    rw [abs_value_sub_le_iff, magnitude_ofCode_of_finite hfinite]
    exact (h.closest y.magnitude).1
  even hfinite y _ hne heq := by
    have hcode := magnitude_ofCode_of_finite hfinite
    rw [even_significand, hcode]
    rw [abs_value_sub_inj, hcode] at heq
    refine (h.closest y.magnitude).2 (fun hsame => hne ?_) heq
    exact value_inj.2 (hsame.trans hcode.symm)

/-- Of two doubles nearest to a number neither is the smaller one. -/
theorem IsNearest.magnitude_le (h : IsNearest negative v x) (h' : IsNearest negative v y)
    (hx : x.Finite) (hy : y.Finite) : y.magnitude ≤ x.magnitude := by
  by_contra hle
  have hlt : x.value < y.value := value_lt_iff.2 (not_le.1 hle)
  have hdist : |y.value - v| = |x.value - v| :=
    le_antisymm (h'.closest hy x hx) (h.closest hx y hy)
  have hevenx := (even_significand x).1 (h.even hx y hy hlt.ne' hdist)
  have heveny := (even_significand y).1 (h'.even hy x hx hlt.ne hdist.symm)
  rw [Nat.even_iff] at hevenx heveny
  -- both are even, so there is a double between them, and it is nearer
  have hcode : x.magnitude + 1 < y.magnitude := by omega
  have hz : (ofCode false (x.magnitude + 1)).magnitude = x.magnitude + 1 :=
    Nat.min_eq_left (hcode.trans hy).le
  have hzfinite : (ofCode false (x.magnitude + 1)).Finite := by
    rw [Finite, hz]
    exact hcode.trans hy
  have hnear := h.closest hx _ hzfinite
  have hxz : x.value < (ofCode false (x.magnitude + 1)).value :=
    value_lt_iff.2 (by rw [hz]; exact Nat.lt_succ_self _)
  have hzy : (ofCode false (x.magnitude + 1)).value < y.value :=
    value_lt_iff.2 (by rw [hz]; exact hcode)
  generalize (ofCode false (x.magnitude + 1)).value = z at *
  have hmiddle : v - x.value = y.value - v := by
    rcases abs_eq_abs.1 hdist with heq | heq <;> linarith
  have hxv : |x.value - v| = v - x.value := by
    rw [abs_of_neg] <;> linarith
  rw [hxv] at hnear
  exact absurd (abs_lt.2 ⟨by linarith, by linarith⟩) (not_lt.2 hnear)

/-- **There is one nearest double.** -/
theorem IsNearest.unique (h : IsNearest negative v x) (h' : IsNearest negative v y) : x = y := by
  refine eq_iff.2 ⟨h.sign.trans h'.sign.symm, ?_⟩
  have hinfinite : x.isInfinite = true ↔ y.isInfinite = true :=
    h.infinite_iff.trans h'.infinite_iff.symm
  rcases finite_or_infinite h.isNaN with hx | hx
  · rcases finite_or_infinite h'.isNaN with hy | hy
    · exact Nat.le_antisymm (h'.magnitude_le h hy hx) (h.magnitude_le h' hx hy)
    · rw [not_isInfinite_of_finite hx] at hinfinite
      exact absurd (hinfinite.2 (beq_iff_eq.2 hy)) (by simp)
  · exact hx.trans (beq_iff_eq.1 (hinfinite.1 (beq_iff_eq.2 hx))).symm

end Binary64

/-! ## Decimals -/

namespace Decimal

open Binary64

/-- The number that a decimal denotes. -/
def value (d : Decimal) : ℚ := d.coefficient * 10 ^ d.exponent

theorem numerator_div_denominator (d : Decimal) : (d.numerator / d.denominator : ℚ) = d.value := by
  have hcast : ∀ n, ((Nat.pow 10 n : Nat) : ℚ) = 10 ^ n := Nat.cast_pow 10
  rw [numerator, denominator, value, Nat.cast_mul, hcast, hcast]
  cases d.exponent with
  | ofNat n => simp
  | negSucc n => simp [zpow_negSucc, Int.neg_negSucc, div_eq_mul_inv]

theorem denominator_pos (d : Decimal) : 0 < d.denominator := Nat.pow_pos (by decide)

theorem roundsTo_numerator (d : Decimal) {scale : Nat} {factor : ℚ} (h : (scale : ℚ) = factor) :
    RoundsTo (roundedCode (d.numerator * scale) d.denominator) (d.value * factor) := by
  rw [← numerator_div_denominator, ← h, div_mul_eq_mul_div, ← Nat.cast_mul]
  exact roundsTo_roundedCode _ d.denominator_pos

/-- A decimal becomes the double of the code that it rounds to. -/
theorem exists_roundsTo (negative : Bool) (d : Decimal) :
    ∃ code, d.toBinary64 negative = ofCode negative code ∧ RoundsTo code (d.value * unitsPerOne) :=
  ⟨_, nearest_eq_ofCode negative d.numerator d.denominator, d.roundsTo_numerator rfl⟩

variable {negative : Bool} {d d' : Decimal} {x : Binary64}

/-- **The double of a decimal is the nearest one.** -/
theorem toBinary64_eq_iff : d.toBinary64 negative = x ↔ IsNearest negative d.value x := by
  obtain ⟨code, hcode, hrounds⟩ := d.exists_roundsTo negative
  rw [hcode]
  constructor
  · rintro rfl
    exact hrounds.isNearest
  · exact hrounds.isNearest.unique

/-- A finite double is read from what rounds to its code. -/
theorem toBinary64_eq_iff_roundsTo (hx : x.Finite) :
    d.toBinary64 negative = x ↔
      x.negative = negative ∧ RoundsTo x.magnitude (d.value * unitsPerOne) := by
  obtain ⟨code, hcode, hrounds⟩ := d.exists_roundsTo negative
  rw [hcode]
  constructor
  · rintro rfl
    rw [magnitude_ofCode_of_finite hx]
    exact ⟨rfl, hrounds⟩
  · rintro ⟨rfl, hx'⟩
    rw [hrounds.unique hx']
    exact eq_iff.2 ⟨rfl, Nat.min_eq_left hx.le⟩

/-- Only the value of a decimal is decoded. -/
theorem toBinary64_congr (h : d.value = d'.value) :
    d.toBinary64 negative = d'.toBinary64 negative := by
  rw [toBinary64_eq_iff, h]
  exact toBinary64_eq_iff.1 rfl

/-- **Decoding is monotone.** -/
theorem magnitude_toBinary64_le {negative' : Bool} (h : d.value ≤ d'.value) :
    (d.toBinary64 negative).magnitude ≤ (d'.toBinary64 negative').magnitude := by
  obtain ⟨code, hcode, hrounds⟩ := d.exists_roundsTo negative
  obtain ⟨code', hcode', hrounds'⟩ := d'.exists_roundsTo negative'
  rw [hcode, hcode']
  exact min_le_min_right _ (hrounds.mono hrounds' (mul_le_mul_of_nonneg_right h unitsPerOne_pos.le))

theorem isZero_toBinary64_iff : (d.toBinary64 negative).isZero = true ↔ d.value ≤ 1 / 2 ^ 1075 := by
  obtain ⟨code, hcode, hrounds⟩ := d.exists_roundsTo negative
  rw [hcode, ← hrounds.eq_zero_iff, isZero, beq_iff_eq]
  change min code infinityCode = 0 ↔ code = 0
  have hpos : 0 < infinityCode := by decide
  omega

end Decimal

end ScriptLexer
