import ScriptLexer.Number.Decimal
import Mathlib.Algebra.Order.Field.Power
import Mathlib.Algebra.Order.Field.Rat
import Mathlib.Order.Monotone.Basic
import Mathlib.Tactic.FieldSimp
import Mathlib.Tactic.Linarith
import Mathlib.Tactic.Positivity
import Mathlib.Tactic.Ring

/-!
# Rounding to a code

The finite doubles of one sign are numbered by their codes, in the order of their values. What
rounds to a code is then an interval: it reaches from the midpoint before the value of the code to
the midpoint behind it, and a midpoint belongs to the even one of its two codes (`RoundsTo`). The
scale of codes goes on without a break behind the finite ones, so the step to infinity is a
midpoint like any other.

That rounding is monotone and has one result follows from the midpoints alone. **The code that
`Binary64.nearest` computes is the one to round to** (`roundsTo_roundedCode`). All of its
arithmetic is in one fact: in steps of the right size the values of the codes are consecutive whole
numbers (`codeUnits_shift`), so a carry leads to the right code by itself.
-/

namespace ScriptLexer

namespace Binary64

/-- The value of a magnitude code in units. The scale goes on evenly behind the finite codes. -/
def codeUnits (code : Nat) : Nat :=
  if code / 2 ^ 52 = 0 then code % 2 ^ 52
  else (2 ^ 52 + code % 2 ^ 52) * 2 ^ (code / 2 ^ 52 - 1)

theorem units_eq_codeUnits (x : Binary64) : x.units = codeUnits x.magnitude := by
  simp only [units, codeUnits, Nat.pow_eq]

/-- Where the spacing is `2 ^ shift` units, the codes count steps of that size. -/
theorem codeUnits_shift {shift m : Nat} (hm : m ≤ 2 ^ 53) (hshift : shift = 0 ∨ 2 ^ 52 ≤ m) :
    codeUnits (shift * 2 ^ 52 + m) = m * 2 ^ shift := by
  rw [codeUnits]
  rcases Nat.lt_or_ge m (2 ^ 52) with hsmall | hlarge
  · obtain rfl : shift = 0 := by omega
    have hexponent : (0 * 2 ^ 52 + m) / 2 ^ 52 = 0 := by omega
    rw [if_pos hexponent, pow_zero]
    omega
  · rcases Nat.lt_or_eq_of_le hm with hlt | rfl
    · have hexponent : (shift * 2 ^ 52 + m) / 2 ^ 52 = shift + 1 := by omega
      have hfraction : 2 ^ 52 + (shift * 2 ^ 52 + m) % 2 ^ 52 = m := by omega
      rw [hexponent, hfraction, if_neg (Nat.succ_ne_zero _), Nat.add_sub_cancel]
    · -- the next power of two is the first value of the next binade
      have hexponent : (shift * 2 ^ 52 + 2 ^ 53) / 2 ^ 52 = shift + 2 := by omega
      have hfraction : 2 ^ 52 + (shift * 2 ^ 52 + 2 ^ 53) % 2 ^ 52 = 2 ^ 52 := by omega
      rw [hexponent, hfraction, if_neg (Nat.succ_ne_zero _)]
      change 2 ^ 52 * 2 ^ (shift + 1) = 2 ^ 53 * 2 ^ shift
      ring

/-- Every code counts steps of some size, and so does the next one. -/
theorem exists_shift (code : Nat) :
    ∃ shift m, code = shift * 2 ^ 52 + m ∧ m < 2 ^ 53 ∧ (shift = 0 ∨ 2 ^ 52 ≤ m) := by
  refine ⟨code / 2 ^ 52 - 1, code - (code / 2 ^ 52 - 1) * 2 ^ 52, ?_, ?_, ?_⟩ <;> omega

theorem codeUnits_lt_succ (code : Nat) : codeUnits code < codeUnits (code + 1) := by
  obtain ⟨shift, m, rfl, hm, hshift⟩ := exists_shift code
  rw [codeUnits_shift hm.le hshift, Nat.add_assoc, codeUnits_shift hm (by omega)]
  exact Nat.mul_lt_mul_of_pos_right (Nat.lt_succ_self m) (Nat.two_pow_pos shift)

theorem codeUnits_strictMono : StrictMono codeUnits := strictMono_nat_of_lt_succ codeUnits_lt_succ

/-! ## What rounds to a code -/

/-- The point half way from the value of a code to that of the next, in units. -/
def midpoint (code : Nat) : ℚ := (codeUnits code + codeUnits (code + 1)) / 2

/-- What is rounded to a code, in units: everything between the midpoints on its two sides. A
midpoint itself goes to the even one of its neighbours. -/
structure RoundsTo (code : Nat) (t : ℚ) : Prop where
  le_midpoint : t ≤ midpoint code
  even_above : t = midpoint code → Even code
  midpoint_le : ∀ below, below + 1 = code → midpoint below ≤ t
  even_below : ∀ below, below + 1 = code → midpoint below = t → Even code

theorem codeUnits_lt_midpoint (code : Nat) : (codeUnits code : ℚ) < midpoint code := by
  have h : (codeUnits code : ℚ) < codeUnits (code + 1) := by exact_mod_cast codeUnits_lt_succ code
  rw [midpoint]
  linarith

theorem midpoint_lt_codeUnits (code : Nat) : midpoint code < codeUnits (code + 1) := by
  have h : (codeUnits code : ℚ) < codeUnits (code + 1) := by exact_mod_cast codeUnits_lt_succ code
  rw [midpoint]
  linarith

theorem midpoint_strictMono : StrictMono midpoint :=
  strictMono_nat_of_lt_succ fun code =>
    (midpoint_lt_codeUnits code).trans (codeUnits_lt_midpoint (code + 1))

variable {code code' : Nat} {t t' : ℚ}

/-- A value is rounded to its own code. -/
theorem roundsTo_codeUnits (code : Nat) : RoundsTo code (codeUnits code) where
  le_midpoint := (codeUnits_lt_midpoint code).le
  even_above h := absurd h (codeUnits_lt_midpoint code).ne
  midpoint_le := by
    rintro below rfl
    exact (midpoint_lt_codeUnits below).le
  even_below := by
    rintro below rfl h
    exact absurd h (midpoint_lt_codeUnits below).ne

/-- **Rounding is monotone.** -/
theorem RoundsTo.mono (h : RoundsTo code t) (h' : RoundsTo code' t') (hle : t ≤ t') :
    code ≤ code' := by
  by_contra hlt
  obtain ⟨below, rfl⟩ : ∃ below, code = below + 1 := ⟨code - 1, by omega⟩
  have hmid : midpoint code' ≤ midpoint below := midpoint_strictMono.monotone (by omega)
  have hlow := h.midpoint_le below rfl
  have hhigh := h'.le_midpoint
  -- both are the one midpoint between two neighbours, only one of which is even
  have heq : midpoint below = midpoint code' := by linarith
  obtain rfl : below = code' := midpoint_strictMono.injective heq
  have heven : Even (below + 1) := h.even_below below rfl (by linarith)
  have heven' : Even below := h'.even_above (by linarith)
  rw [Nat.even_add_one] at heven
  exact heven heven'

/-- There is one code to round to. -/
theorem RoundsTo.unique (h : RoundsTo code t) (h' : RoundsTo code' t) : code = code' :=
  Nat.le_antisymm (h.mono h' le_rfl) (h'.mono h le_rfl)

/-- What lies between two points that round to a code rounds to it as well. -/
theorem RoundsTo.between {a b : ℚ} (ha : RoundsTo code a) (hb : RoundsTo code b) (h1 : a ≤ t)
    (h2 : t ≤ b) : RoundsTo code t where
  le_midpoint := h2.trans hb.le_midpoint
  even_above h := hb.even_above (le_antisymm hb.le_midpoint (h ▸ h2))
  midpoint_le below h := (ha.midpoint_le below h).trans h1
  even_below below h heq := ha.even_below below h (le_antisymm (ha.midpoint_le below h) (heq ▸ h1))

/-! ## What is computed -/

/-- A quotient is rounded to a whole number at most one half away, and from one half to an even
one. -/
theorem abs_sub_roundHalfEven (num : Nat) {den : Nat} (hden : 0 < den) :
    |(num / den : ℚ) - roundHalfEven num den| ≤ 1 / 2 ∧
      (|(num / den : ℚ) - roundHalfEven num den| = 1 / 2 → Even (roundHalfEven num den)) := by
  have hpos : (0 : ℚ) < den := by exact_mod_cast hden
  obtain ⟨rest, hrest⟩ : ∃ rest : ℚ, rest = (num % den : Nat) / den := ⟨_, rfl⟩
  have hsplit : (num / den : ℚ) = (num / den : Nat) + rest := by
    rw [hrest, div_eq_iff hpos.ne', add_mul, div_mul_cancel₀ _ hpos.ne']
    exact_mod_cast (Nat.div_add_mod' num den).symm
  have hlow : 0 ≤ rest := by rw [hrest]; positivity
  have hhigh : rest < 1 := by
    rw [hrest, div_lt_one hpos]
    exact_mod_cast Nat.mod_lt num hden
  have hbelow : 2 * (num % den) < den ↔ rest < 1 / 2 := by
    rw [hrest, div_lt_div_iff₀ hpos two_pos, one_mul, mul_comm _ (2 : ℚ)]
    exact_mod_cast Iff.rfl
  have habove : den < 2 * (num % den) ↔ 1 / 2 < rest := by
    rw [hrest, div_lt_div_iff₀ two_pos hpos, one_mul, mul_comm _ (2 : ℚ)]
    exact_mod_cast Iff.rfl
  rw [roundHalfEven, hsplit]
  split
  · next h =>
    have hlt := hbelow.1 h
    rw [add_sub_cancel_left, abs_of_nonneg hlow]
    exact ⟨hlt.le, fun heq => absurd heq hlt.ne⟩
  · next hnot =>
    split
    · next h =>
      have hlt := habove.1 h
      have habs : |((num / den : Nat) + rest - ((num / den + 1 : Nat) : ℚ))| = 1 - rest := by
        rw [abs_of_nonpos] <;> push_cast <;> linarith
      rw [habs]
      exact ⟨by linarith, fun heq => absurd heq (by linarith)⟩
    · next hnot' =>
      -- the rest is one half
      have heq : rest = 1 / 2 :=
        le_antisymm (not_lt.1 fun h => hnot' (habove.2 h)) (not_lt.1 fun h => hnot (hbelow.2 h))
      have heven : Even (num / den + num / den % 2) := by
        rw [Nat.even_iff]
        omega
      refine ⟨?_, fun _ => heven⟩
      rcases Nat.mod_two_eq_zero_or_one (num / den) with h | h <;> rw [h, heq] <;> norm_num

/-- The code that a quotient of units is rounded to, finite or not. -/
def roundedCode (num den : Nat) : Nat :=
  let shift := (num / den).log2 - 52
  shift * 2 ^ 52 + roundHalfEven num (den * 2 ^ shift)

theorem nearest_eq_ofCode (negative : Bool) (num den : Nat) :
    nearest negative num den = ofCode negative (roundedCode (num * Nat.pow 2 1074) den) := rfl

/-- The steps that a quotient is counted in leave it below `2 ^ 53`, and not below `2 ^ 52` unless
they are the smallest. -/
theorem quotient_bounds (num : Nat) {den shift : Nat} (hden : 0 < den)
    (hshift : shift = (num / den).log2 - 52) :
    (num / (den * 2 ^ shift : Nat) : ℚ) < 2 ^ 53 ∧
      (shift = 0 ∨ (2 : ℚ) ^ 52 ≤ num / (den * 2 ^ shift : Nat)) := by
  have hpos : (0 : ℚ) < (den * 2 ^ shift : Nat) := by positivity
  constructor
  · have hlt : num / den < 2 ^ (53 + shift) :=
      lt_of_lt_of_le Nat.lt_log2_self (Nat.pow_le_pow_right two_pos (by omega))
    rw [Nat.div_lt_iff_lt_mul hden, pow_add] at hlt
    rw [div_lt_iff₀ hpos]
    exact_mod_cast (by linarith : num < 2 ^ 53 * (den * 2 ^ shift))
  · refine or_iff_not_imp_left.2 fun hne => ?_
    have hlog : (num / den).log2 = 52 + shift := by omega
    have hle : 2 ^ (52 + shift) ≤ num / den := by
      rw [← hlog]
      refine Nat.log2_self_le fun hzero => ?_
      rw [hzero, Nat.log2_zero] at hlog
      omega
    rw [Nat.le_div_iff_mul_le hden, pow_add] at hle
    rw [le_div_iff₀ hpos]
    exact_mod_cast (by linarith : 2 ^ 52 * (den * 2 ^ shift) ≤ num)

theorem midpoint_shift {shift m : Nat} (hm : m < 2 ^ 53) (hshift : shift = 0 ∨ 2 ^ 52 ≤ m) :
    midpoint (shift * 2 ^ 52 + m) = (m + 1 / 2) * 2 ^ shift := by
  rw [midpoint, Nat.add_assoc, codeUnits_shift hm.le hshift, codeUnits_shift hm (by omega)]
  push_cast
  ring

theorem cast_codeUnits_shift {shift m : Nat} (hm : m ≤ 2 ^ 53) (hshift : shift = 0 ∨ 2 ^ 52 ≤ m) :
    (codeUnits (shift * 2 ^ 52 + m) : ℚ) = m * 2 ^ shift := by
  rw [codeUnits_shift hm hshift]
  push_cast
  rfl

section Steps

variable {shift m : Nat} {w : ℚ}

/-- What is rounded to `m` steps does not lie behind the midpoint on their upper side. -/
theorem shift_le_midpoint (hm : m ≤ 2 ^ 53) (hshift : shift = 0 ∨ 2 ^ 52 ≤ m) (hlt : w < 2 ^ 53)
    (hnear : |w - m| ≤ 1 / 2) (heven : |w - m| = 1 / 2 → Even m) :
    w * 2 ^ shift ≤ midpoint (shift * 2 ^ 52 + m) ∧
      (w * 2 ^ shift = midpoint (shift * 2 ^ 52 + m) → Even m) := by
  have hsize : (0 : ℚ) < 2 ^ shift := by positivity
  rcases Nat.lt_or_eq_of_le hm with hless | hend
  · rw [midpoint_shift hless hshift, mul_le_mul_iff_left₀ hsize, mul_left_inj' hsize.ne']
    refine ⟨by linarith [(abs_le.1 hnear).2], fun h => heven ?_⟩
    rw [h, add_sub_cancel_left, abs_of_pos one_half_pos]
  · -- the binade ends here, and `w` lies before its end
    have hbefore : w < m := by rw [hend]; exact_mod_cast hlt
    have hless : w * 2 ^ shift < midpoint (shift * 2 ^ 52 + m) := by
      refine lt_trans ?_ (codeUnits_lt_midpoint _)
      rw [cast_codeUnits_shift hm hshift]
      exact mul_lt_mul_of_pos_right hbefore hsize
    exact ⟨hless.le, fun h => absurd h hless.ne⟩

/-- What is rounded to `m` steps does not lie before the midpoint on their lower side. -/
theorem midpoint_le_shift (hm : m ≤ 2 ^ 53) (hshift : shift = 0 ∨ 2 ^ 52 ≤ m)
    (hge : shift = 0 ∨ (2 : ℚ) ^ 52 ≤ w) (hnear : |w - m| ≤ 1 / 2)
    (heven : |w - m| = 1 / 2 → Even m) {below : Nat} (hcode : below + 1 = shift * 2 ^ 52 + m) :
    midpoint below ≤ w * 2 ^ shift ∧ (midpoint below = w * 2 ^ shift → Even m) := by
  have hsize : (0 : ℚ) < 2 ^ shift := by positivity
  by_cases hfirst : shift ≠ 0 ∧ m = 2 ^ 52
  · -- the binade begins here, and `w` does not lie before its beginning
    have hbegin : (m : ℚ) ≤ w := by
      rw [hfirst.2]
      exact_mod_cast hge.resolve_left hfirst.1
    have hless : midpoint below < w * 2 ^ shift := by
      refine lt_of_lt_of_le (midpoint_lt_codeUnits below) ?_
      rw [hcode, cast_codeUnits_shift hm hshift]
      exact mul_le_mul_of_nonneg_right hbegin hsize.le
    exact ⟨hless.le, fun h => absurd h hless.ne⟩
  · obtain ⟨k, rfl⟩ : ∃ k, m = k + 1 := ⟨m - 1, by omega⟩
    obtain rfl : below = shift * 2 ^ 52 + k := by omega
    have hlow := (abs_le.1 hnear).1
    push_cast at hlow
    rw [midpoint_shift (by omega) (by omega), mul_le_mul_iff_left₀ hsize, mul_left_inj' hsize.ne']
    refine ⟨by linarith, fun h => heven ?_⟩
    rw [← h, abs_of_neg] <;> push_cast <;> linarith

/-- What rounds to a whole number of steps rounds to the code that counts them. -/
theorem roundsTo_shift (hlt : w < 2 ^ 53) (hge : shift = 0 ∨ (2 : ℚ) ^ 52 ≤ w)
    (hnear : |w - m| ≤ 1 / 2) (heven : |w - m| = 1 / 2 → Even m) :
    RoundsTo (shift * 2 ^ 52 + m) (w * 2 ^ shift) := by
  obtain ⟨hnear1, hnear2⟩ := abs_le.1 hnear
  have hm : m ≤ 2 ^ 53 := by
    have : (m : ℚ) < (2 ^ 53 + 1 : Nat) := by push_cast; linarith
    exact Nat.le_of_lt_succ (by exact_mod_cast this)
  have hshift : shift = 0 ∨ 2 ^ 52 ≤ m := hge.imp_right fun h => by
    have : ((2 ^ 52 : Nat) : ℚ) < (m + 1 : Nat) := by push_cast; linarith
    exact Nat.le_of_lt_succ (by exact_mod_cast this)
  have hparity : Even m → Even (shift * 2 ^ 52 + m) := fun h => by
    rw [Nat.even_iff] at h ⊢
    omega
  have habove := shift_le_midpoint hm hshift hlt hnear heven
  have hbelow : ∀ below, below + 1 = shift * 2 ^ 52 + m → midpoint below ≤ w * 2 ^ shift ∧
      (midpoint below = w * 2 ^ shift → Even m) :=
    fun _ hcode => midpoint_le_shift hm hshift hge hnear heven hcode
  exact {
    le_midpoint := habove.1
    even_above := fun h => hparity (habove.2 h)
    midpoint_le := fun below h => (hbelow below h).1
    even_below := fun below h heq => hparity ((hbelow below h).2 heq) }

end Steps

/-- **The code that is computed is the one to round to.** -/
theorem roundsTo_roundedCode (num : Nat) {den : Nat} (hden : 0 < den) :
    RoundsTo (roundedCode num den) (num / den) := by
  obtain ⟨shift, hshift⟩ : ∃ shift, shift = (num / den).log2 - 52 := ⟨_, rfl⟩
  obtain ⟨hlt, hge⟩ := quotient_bounds num hden hshift
  have hscaled : 0 < den * 2 ^ shift := Nat.mul_pos hden (Nat.two_pow_pos shift)
  obtain ⟨hnear, heven⟩ := abs_sub_roundHalfEven num hscaled
  have hsteps : (num / den : ℚ) = num / (den * 2 ^ shift : Nat) * 2 ^ shift := by
    have hpos : (0 : ℚ) < den := by exact_mod_cast hden
    push_cast
    field_simp
  rw [roundedCode, ← hshift, hsteps]
  exact roundsTo_shift hlt hge hnear heven

end Binary64

end ScriptLexer
