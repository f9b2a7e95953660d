import ScriptLexer.Proofs.NearestDouble
import ScriptLexer.Number.Shortest
import Mathlib.Data.Nat.Digits.Lemmas
import Mathlib.Data.Nat.Factorization.Basic

/-!
# The shortest decimal

The search for the decimal of a double goes through ever finer grids and tries two points of each.
That nothing is missed is convexity: what reads back is an interval around the value, so a grid has
a point in it only if one of the two points next to the value is in it (`Reads.neighbour`). What the
search ends with is therefore the closest of the first grid that has anything to read back
(`Binary64.FirstGrid`).

**Nothing with fewer digits reads back, and nothing with as many is closer.** A competitor cannot
lie on a coarser grid. If it has fewer digits or lies on a finer grid then it is below the power of
ten that the found decimal begins with, so this power reads back as well, and as it is the first
grid the found decimal is a single digit. What remains is a double just below a power of ten, and
there the power is closer than any single digit on the next grid (`Reads.power_near`).
-/

namespace ScriptLexer

/-! ## Significant digits -/

namespace Decimal

variable {d : Decimal} {n : Nat}

/-- The number of significant digits: those of the coefficient without the zeros at its end. -/
def precision (d : Decimal) : Nat := ((Nat.digits 10 d.coefficient).dropWhile (· == 0)).length

theorem precision_of_pow_mul {m z : Nat} {e : Int} (hm : ¬ 10 ∣ m) :
    precision ⟨10 ^ z * m, e⟩ = (Nat.digits 10 m).length := by
  have hpos : 0 < m := Nat.pos_of_ne_zero fun h => hm (h ▸ dvd_zero 10)
  have hlast : m % 10 ≠ 0 := fun h => hm (Nat.dvd_of_mod_eq_zero h)
  have hstop : (Nat.digits 10 m).dropWhile (· == 0) = Nat.digits 10 m := by
    rw [Nat.digits_def' (by decide) hpos, List.dropWhile_cons_of_neg (by simpa using hlast)]
  rw [precision, Nat.digits_base_pow_mul (by decide) hpos,
    List.dropWhile_append_of_pos (fun a ha => beq_iff_eq.2 (List.eq_of_mem_replicate ha)), hstop]

/-- On the coarser of two grids the coefficient is the smaller one. -/
theorem coefficient_eq_mul_pow {a b : Nat} {i j : Int} (hij : i ≤ j)
    (h : (a : ℚ) * 10 ^ i = b * 10 ^ j) : a = b * 10 ^ (j - i).toNat := by
  have hne : (10 : ℚ) ^ i ≠ 0 := zpow_ne_zero i (by norm_num)
  have hj : j = ((j - i).toNat : Int) + i := by omega
  rw [hj, zpow_add₀ (by norm_num), zpow_natCast, ← mul_assoc] at h
  have hcast := mul_right_cancel₀ hne h
  have hgrid : (((j - i).toNat : Int) + i - i).toNat = (j - i).toNat := by omega
  exact_mod_cast hcast

/-- A decimal has at most `n` significant digits if its value can be written with `n` digits. -/
theorem precision_le_iff :
    d.precision ≤ n ↔ ∃ k : Nat, k < 10 ^ n ∧ ∃ j : Int, d.value = k * 10 ^ j := by
  obtain ⟨c, e⟩ := d
  by_cases hzero : c = 0
  · subst hzero
    refine iff_of_true (Nat.zero_le n) ⟨0, by positivity, 0, ?_⟩
    simp [value]
  · obtain ⟨z, m, hm, rfl⟩ := Nat.exists_eq_pow_mul_and_not_dvd hzero 10 (by decide)
    rw [precision_of_pow_mul hm, Nat.digits_length_le_iff (by decide)]
    have hvalue : value ⟨10 ^ z * m, e⟩ = m * 10 ^ (z + e) := by
      rw [value, zpow_add₀ (by norm_num), zpow_natCast]
      push_cast
      ring
    rw [hvalue]
    constructor
    · intro hlt
      exact ⟨m, hlt, z + e, rfl⟩
    · rintro ⟨k, hk, j, heq⟩
      rcases le_or_gt j (z + e) with hle | hgt
      · have hcoefficient := coefficient_eq_mul_pow hle heq.symm
        refine lt_of_le_of_lt ?_ hk
        rw [hcoefficient]
        exact Nat.le_mul_of_pos_right m (by positivity)
      · -- a coarser grid would leave a zero at the end
        have hcoefficient := coefficient_eq_mul_pow hgt.le heq
        have hdvd : 10 ∣ 10 ^ (j - (z + e)).toNat := dvd_pow_self 10 (by omega)
        exact absurd (hcoefficient ▸ Dvd.dvd.mul_left hdvd k) hm

theorem precision_congr {d' : Decimal} (h : d.value = d'.value) : d.precision = d'.precision := by
  apply le_antisymm
  · rw [precision_le_iff, h]
    exact precision_le_iff.1 le_rfl
  · rw [precision_le_iff, ← h]
    exact precision_le_iff.1 le_rfl

end Decimal

namespace Binary64

variable {x : Binary64} {q a b : ℚ} {e : Int} {d : Decimal}

/-! ## What reads back -/

/-- The number `q` is rounded to the absolute value of `x`. -/
def Reads (x : Binary64) (q : ℚ) : Prop := RoundsTo x.magnitude (q * unitsPerOne)

theorem toBinary64_eq_iff_reads (hx : x.Finite) :
    d.toBinary64 x.negative = x ↔ x.Reads d.value :=
  (Decimal.toBinary64_eq_iff_roundsTo hx).trans (and_iff_right rfl)

theorem reads_value (x : Binary64) : x.Reads x.value := by
  rw [Reads, value_mul]
  exact roundsTo_codeUnits x.magnitude

theorem Reads.between (ha : x.Reads a) (hb : x.Reads b) (haq : a ≤ q) (hqb : q ≤ b) : x.Reads q :=
  RoundsTo.between ha hb (mul_le_mul_of_nonneg_right haq unitsPerOne_pos.le)
    (mul_le_mul_of_nonneg_right hqb unitsPerOne_pos.le)

theorem one_le_value_mul (hne : x.isZero = false) : 1 ≤ x.value * unitsPerOne := by
  have hcode : 1 ≤ x.magnitude := Nat.one_le_iff_ne_zero.2 (beq_eq_false_iff_ne.1 hne)
  have hunits : codeUnits 1 ≤ codeUnits x.magnitude := codeUnits_strictMono.monotone hcode
  rw [value_mul]
  exact_mod_cast hunits

theorem not_reads_zero (hne : x.isZero = false) : ¬ x.Reads 0 := by
  intro h
  have hzero : x.magnitude = 0 := (RoundsTo.eq_zero_iff h).2 (by positivity)
  rw [isZero, hzero] at hne
  cases hne

/-! ## One grid -/

/-- A quotient in steps of the grid. -/
theorem cast_div_grid (units scale : Nat) (e : Int) :
    ((units * Nat.pow 10 (-e).toNat : Nat) : ℚ) / (scale * Nat.pow 10 e.toNat : Nat) =
      units / scale / 10 ^ e := by
  have hcast : ∀ n, ((Nat.pow 10 n : Nat) : ℚ) = 10 ^ n := Nat.cast_pow 10
  rw [Nat.cast_mul, Nat.cast_mul, hcast, hcast]
  cases e with
  | ofNat n => simp [div_div]
  | negSucc n => simp [zpow_negSucc, Int.neg_negSucc, div_mul_eq_mul_div]

/-- A quotient is rounded to the nearer one of the whole numbers on its two sides. -/
theorem roundHalfEven_nearer (num : Nat) {den : Nat} (hden : 0 < den) :
    ((num / den : Nat) : ℚ) ≤ num / den ∧ (num / den : ℚ) < (num / den + 1 : Nat) ∧
      (roundHalfEven num den = num / den ∧
          (num / den : ℚ) - (num / den : Nat) ≤ (num / den + 1 : Nat) - num / den ∨
        roundHalfEven num den = num / den + 1 ∧
          ((num / den + 1 : Nat) : ℚ) - num / den ≤ num / den - (num / den : Nat)) := by
  have hpos : (0 : ℚ) < den := by exact_mod_cast hden
  have hnear := (abs_sub_roundHalfEven num hden).1
  have hcases : roundHalfEven num den = num / den ∨ roundHalfEven num den = num / den + 1 := by
    rw [roundHalfEven]
    have hparity := Nat.mod_two_eq_zero_or_one (num / den)
    split
    · exact Or.inl rfl
    · split <;> omega
  refine ⟨?_, ?_, ?_⟩
  · rw [le_div_iff₀ hpos]
    exact_mod_cast Nat.div_mul_le_self num den
  · rw [div_lt_iff₀ hpos]
    exact_mod_cast (Nat.lt_mul_of_div_lt (Nat.lt_succ_self (num / den)) hden)
  · rcases hcases with h | h <;> rw [h, abs_le] at hnear
    · refine Or.inl ⟨h, ?_⟩
      push_cast
      linarith
    · refine Or.inr ⟨h, ?_⟩
      push_cast at hnear ⊢
      linarith

/-- The neighbours with a name for the number of units in one, which is too large to be computed
with. -/
theorem gridNeighbours_of_scale (x : Binary64) (e : Int) {scale : Nat}
    (h : scale = Nat.pow 2 1074) :
    x.gridNeighbours e =
      let num := x.units * Nat.pow 10 (-e).toNat
      let den := scale * Nat.pow 10 e.toNat
      [⟨roundHalfEven num den, e⟩,
        ⟨if roundHalfEven num den = num / den then num / den + 1 else num / den, e⟩] := by
  rw [h]
  exact rfl

/-- The two neighbours are on the two sides of the value, and the nearer one comes first. -/
theorem gridNeighbours_eq (x : Binary64) (e : Int) :
    ∃ low : Nat, (low * 10 ^ e : ℚ) ≤ x.value ∧ x.value < (low + 1 : Nat) * 10 ^ e ∧
      (x.gridNeighbours e = [⟨low, e⟩, ⟨low + 1, e⟩] ∧
          x.value - low * 10 ^ e ≤ (low + 1 : Nat) * 10 ^ e - x.value ∨
        x.gridNeighbours e = [⟨low + 1, e⟩, ⟨low, e⟩] ∧
          (low + 1 : Nat) * 10 ^ e - x.value ≤ x.value - low * 10 ^ e) := by
  have hsize : (0 : ℚ) < 10 ^ e := zpow_pos (by norm_num) e
  obtain ⟨num, den, hden, hquotient, hlist⟩ : ∃ num den : Nat, 0 < den ∧
      (num / den : ℚ) * 10 ^ e = x.value ∧
      x.gridNeighbours e = [⟨roundHalfEven num den, e⟩,
        ⟨if roundHalfEven num den = num / den then num / den + 1 else num / den, e⟩] := by
    obtain ⟨scale, hscale⟩ : ∃ scale, scale = Nat.pow 2 1074 := ⟨_, rfl⟩
    have hunits : (scale : ℚ) = unitsPerOne := by rw [hscale, unitsPerOne]
    have hpos : 0 < scale := by exact_mod_cast hunits ▸ unitsPerOne_pos
    have hstep : 0 < Nat.pow 10 e.toNat := Nat.pow_pos (by decide)
    refine ⟨_, _, Nat.mul_pos hpos hstep, ?_, x.gridNeighbours_of_scale e hscale⟩
    rw [cast_div_grid, div_mul_cancel₀ _ hsize.ne', hunits, value]
  obtain ⟨hlow, hhigh, hnear⟩ := roundHalfEven_nearer num hden
  refine ⟨num / den, ?_, ?_, ?_⟩
  · rw [← hquotient]
    exact mul_le_mul_of_nonneg_right hlow hsize.le
  · rw [← hquotient]
    exact mul_lt_mul_of_pos_right hhigh hsize
  · rw [← hquotient, ← sub_mul, ← sub_mul, mul_le_mul_iff_left₀ hsize, mul_le_mul_iff_left₀ hsize]
    rcases hnear with ⟨h, hdist⟩ | ⟨h, hdist⟩
    · exact Or.inl ⟨by rw [hlist, h, if_pos rfl], hdist⟩
    · exact Or.inr ⟨by rw [hlist, h, if_neg (Nat.succ_ne_self _)], hdist⟩

/-- What reads on a grid has a neighbour of the value between it and the value. -/
theorem Reads.neighbour {k low : Nat} (h : x.Reads (k * 10 ^ e))
    (hlow : (low * 10 ^ e : ℚ) ≤ x.value) (hhigh : x.value < (low + 1 : Nat) * 10 ^ e) :
    (k * 10 ^ e : ℚ) ≤ low * 10 ^ e ∧ x.Reads (low * 10 ^ e) ∨
      ((low + 1 : Nat) * 10 ^ e : ℚ) ≤ k * 10 ^ e ∧ x.Reads ((low + 1 : Nat) * 10 ^ e) := by
  have hsize : (0 : ℚ) < 10 ^ e := zpow_pos (by norm_num) e
  rcases Nat.lt_or_ge low k with hlt | hge
  · have hle : ((low + 1 : Nat) * 10 ^ e : ℚ) ≤ k * 10 ^ e :=
      mul_le_mul_of_nonneg_right (by exact_mod_cast hlt) hsize.le
    exact Or.inr ⟨hle, x.reads_value.between h hhigh.le hle⟩
  · have hle : (k * 10 ^ e : ℚ) ≤ low * 10 ^ e :=
      mul_le_mul_of_nonneg_right (by exact_mod_cast hge) hsize.le
    exact Or.inl ⟨hle, h.between x.reads_value hle hlow⟩

/-- If no neighbour reads back then nothing on the grid does. -/
theorem onGrid?_eq_none (hx : x.Finite) (h : x.onGrid? e = none) (k : Nat) :
    ¬ x.Reads (k * 10 ^ e) := by
  obtain ⟨low, hlow, hhigh, hpair⟩ := x.gridNeighbours_eq e
  have hnone : ∀ d ∈ x.gridNeighbours e, ¬ x.Reads d.value := by
    intro d hd hreads
    have hfound := List.find?_eq_none.1 h d hd
    exact hfound (beq_iff_eq.2 ((toBinary64_eq_iff_reads hx).2 hreads))
  have hboth : ¬ x.Reads (low * 10 ^ e) ∧ ¬ x.Reads ((low + 1 : Nat) * 10 ^ e) := by
    rcases hpair with ⟨hpair, -⟩ | ⟨hpair, -⟩ <;> rw [hpair] at hnone
    · exact ⟨hnone ⟨low, e⟩ (by simp), hnone ⟨low + 1, e⟩ (by simp)⟩
    · exact ⟨hnone ⟨low, e⟩ (by simp), hnone ⟨low + 1, e⟩ (by simp)⟩
  intro hreads
  rcases hreads.neighbour hlow hhigh with ⟨-, h⟩ | ⟨-, h⟩
  · exact hboth.1 h
  · exact hboth.2 h

/-- The first neighbour is found if it reads back, and else the second if that does. -/
theorem onGrid?_of_pair {near far : Decimal} (hx : x.Finite) (h : x.onGrid? e = some d)
    (hlist : x.gridNeighbours e = [near, far]) :
    d = near ∧ x.Reads near.value ∨ d = far ∧ x.Reads far.value ∧ ¬ x.Reads near.value := by
  rw [onGrid?, hlist, List.find?_cons, List.find?_cons, List.find?_nil] at h
  simp only [← toBinary64_eq_iff_reads hx]
  split at h
  · next hnear => exact Or.inl ⟨(Option.some.inj h).symm, beq_iff_eq.1 hnear⟩
  · next hnear =>
    split at h
    · next hfar =>
      exact Or.inr ⟨(Option.some.inj h).symm, beq_iff_eq.1 hfar, beq_eq_false_iff_ne.1 hnear⟩
    · cases h

/-- A neighbour that is found reads back, and nothing on the grid that does is closer. -/
theorem onGrid?_eq_some (hx : x.Finite) (h : x.onGrid? e = some d) :
    d.exponent = e ∧ x.Reads d.value ∧
      ∀ k : Nat, x.Reads (k * 10 ^ e) → |d.value - x.value| ≤ |k * 10 ^ e - x.value| := by
  obtain ⟨low, hlow, hhigh, hpair⟩ := x.gridNeighbours_eq e
  -- the other neighbour is not closer, or else it does not read back
  have hchoice :
      d = ⟨low, e⟩ ∧ x.Reads (low * 10 ^ e) ∧ (x.Reads ((low + 1 : Nat) * 10 ^ e) →
          x.value - low * 10 ^ e ≤ (low + 1 : Nat) * 10 ^ e - x.value) ∨
        d = ⟨low + 1, e⟩ ∧ x.Reads ((low + 1 : Nat) * 10 ^ e) ∧ (x.Reads (low * 10 ^ e) →
          (low + 1 : Nat) * 10 ^ e - x.value ≤ x.value - low * 10 ^ e) := by
    rcases hpair with ⟨hlist, hnearer⟩ | ⟨hlist, hnearer⟩
    · rcases onGrid?_of_pair hx h hlist with ⟨hd, hreads⟩ | ⟨hd, hreads, hnot⟩
      · exact Or.inl ⟨hd, hreads, fun _ => hnearer⟩
      · exact Or.inr ⟨hd, hreads, fun h => absurd h hnot⟩
    · rcases onGrid?_of_pair hx h hlist with ⟨hd, hreads⟩ | ⟨hd, hreads, hnot⟩
      · exact Or.inr ⟨hd, hreads, fun _ => hnearer⟩
      · exact Or.inl ⟨hd, hreads, fun h => absurd h hnot⟩
  have hlowdist : |(low * 10 ^ e : ℚ) - x.value| = x.value - low * 10 ^ e := by
    rw [abs_of_nonpos (by linarith), neg_sub]
  have hhighdist : |((low + 1 : Nat) * 10 ^ e : ℚ) - x.value| =
      (low + 1 : Nat) * 10 ^ e - x.value := abs_of_pos (by linarith)
  rcases hchoice with ⟨rfl, hreads, hother⟩ | ⟨rfl, hreads, hother⟩
  · refine ⟨rfl, hreads, fun k hk => ?_⟩
    rw [Decimal.value, hlowdist]
    rcases hk.neighbour hlow hhigh with ⟨hle, -⟩ | ⟨hle, hreads'⟩
    · rw [abs_of_nonpos (by linarith)]
      linarith
    · rw [abs_of_nonneg (by linarith)]
      linarith [hother hreads']
  · refine ⟨rfl, hreads, fun k hk => ?_⟩
    rw [Decimal.value, hhighdist]
    rcases hk.neighbour hlow hhigh with ⟨hle, hreads'⟩ | ⟨hle, -⟩
    · rw [abs_of_nonpos (by linarith)]
      linarith [hother hreads']
    · rw [abs_of_nonneg (by linarith)]
      linarith

/-! ## How far reading back reaches -/

/-- The value of a double in steps of its spacing, and the midpoint behind it. -/
theorem exists_steps (x : Binary64) : ∃ shift m : Nat, x.value * unitsPerOne = m * 2 ^ shift ∧
    midpoint x.magnitude = (m + 1 / 2) * 2 ^ shift ∧ (shift = 0 ∨ 2 ^ 52 ≤ m) := by
  obtain ⟨shift, m, hcode, hm, hshift⟩ := exists_shift x.magnitude
  refine ⟨shift, m, ?_, ?_, hshift⟩
  · rw [value_mul, hcode, cast_codeUnits_shift hm.le hshift]
  · rw [hcode, midpoint_shift hm hshift]

/-- What reads back is at most twice the value. -/
theorem Reads.le_two_mul (h : x.Reads q) (hne : x.isZero = false) : q ≤ 2 * x.value := by
  obtain ⟨shift, m, hvalue, hmid, -⟩ := x.exists_steps
  have hsize : (0 : ℚ) < 2 ^ shift := by positivity
  have hone := one_le_value_mul hne
  have hm : (1 : ℚ) ≤ m := by
    by_contra hlt
    have hzero : m = 0 := Nat.lt_one_iff.1 (by exact_mod_cast not_le.1 hlt)
    rw [hvalue, hzero, Nat.cast_zero, zero_mul] at hone
    exact absurd hone (by norm_num)
  have hreach := h.le_midpoint
  rw [hmid] at hreach
  rw [← mul_le_mul_iff_left₀ unitsPerOne_pos, mul_assoc, hvalue]
  nlinarith

theorem power_bounds {n u : Nat} (hlow : 2 * Nat.pow 10 n < u)
    (hhigh : 19 * u ≤ 40 * Nat.pow 10 n) :
    (2 : ℚ) < 10 ^ (-(n : Int)) * u ∧ 19 * ((10 : ℚ) ^ (-(n : Int)) * u) ≤ 40 := by
  have hsize : (0 : ℚ) < 10 ^ n := by positivity
  have hcast : ((Nat.pow 10 n : Nat) : ℚ) = 10 ^ n := Nat.cast_pow 10 n
  rw [zpow_neg, zpow_natCast, inv_mul_eq_div, lt_div_iff₀ hsize, ← mul_div_assoc,
    div_le_iff₀ hsize, ← hcast]
  exact ⟨by exact_mod_cast hlow, by exact_mod_cast hhigh⟩

/-- The smallest double is a little less than half of `10 ^ -323`. -/
theorem unitsPerOne_bounds :
    2 < 10 ^ (-323 : Int) * unitsPerOne ∧ 19 * (10 ^ (-323 : Int) * unitsPerOne) ≤ 40 :=
  power_bounds (n := 323) (by decide +kernel) (by decide +kernel)

theorem power_mul_units (e : Int) :
    (10 : ℚ) ^ e * unitsPerOne = 10 ^ (e + 323) * (10 ^ (-323 : Int) * unitsPerOne) := by
  rw [← mul_assoc, ← zpow_add₀ (by norm_num), add_neg_cancel_right]

theorem power_mul_lt_one (h : e ≤ -324) : 10 ^ e * unitsPerOne < 1 := by
  have hpower : (10 : ℚ) ^ (e + 323) ≤ 10 ^ (-1 : Int) :=
    zpow_le_zpow_right₀ (by norm_num) (by omega)
  rw [zpow_neg_one] at hpower
  have hbounds := unitsPerOne_bounds
  rw [power_mul_units]
  nlinarith

theorem twenty_lt_power_mul (h : -322 ≤ e) : 20 < 10 ^ e * unitsPerOne := by
  have hpower : (10 : ℚ) ^ (1 : Int) ≤ 10 ^ (e + 323) :=
    zpow_le_zpow_right₀ (by norm_num) (by omega)
  rw [zpow_one] at hpower
  have hbounds := unitsPerOne_bounds
  rw [power_mul_units]
  nlinarith

/-- A power of ten that is rounded down to a double is near to it: the next shorter number is no
closer. -/
theorem Reads.power_near (h : x.Reads (10 ^ e)) (hne : x.isZero = false) (hlt : x.value < 10 ^ e) :
    19 * 10 ^ e ≤ 20 * x.value := by
  obtain ⟨shift, m, hvalue, hmid, hshift⟩ := x.exists_steps
  have hreach := h.le_midpoint
  rw [hmid] at hreach
  have hbelow : (m * 2 ^ shift : ℚ) < 10 ^ e * unitsPerOne := by
    rw [← hvalue]
    exact mul_lt_mul_of_pos_right hlt unitsPerOne_pos
  rw [← mul_le_mul_iff_left₀ unitsPerOne_pos, mul_assoc, mul_assoc, hvalue]
  rcases Nat.lt_or_ge m 10 with hsmall | hlarge
  · -- among the smallest doubles there is only one below a power of ten that is rounded down to it
    obtain rfl : shift = 0 := by omega
    rw [pow_zero, mul_one] at *
    have hbounds := unitsPerOne_bounds
    have hm : (m : ℚ) ≤ 9 := by exact_mod_cast Nat.le_of_lt_succ hsmall
    have hlow : -324 < e := not_le.1 fun hle => by
      have hless := power_mul_lt_one hle
      have hone := one_le_value_mul hne
      rw [hvalue] at hone
      linarith
    have hhigh : e < -322 := not_le.1 fun hle => by
      have htwenty := twenty_lt_power_mul hle
      linarith
    obtain rfl : e = -323 := by omega
    have hm : (2 : ℚ) ≤ m := by
      have : (1 : ℚ) < m := by linarith
      exact_mod_cast this
    linarith
  · have hm : (10 : ℚ) ≤ m := by exact_mod_cast hlarge
    have hsize : (0 : ℚ) < 2 ^ shift := by positivity
    nlinarith

/-! ## The search -/

/-- The first grid that has something to read back, and the closest of it. -/
structure FirstGrid (x : Binary64) (d : Decimal) : Prop where
  reads : x.Reads d.value
  closest : ∀ k : Nat, x.Reads (k * 10 ^ d.exponent) →
    |d.value - x.value| ≤ |k * 10 ^ d.exponent - x.value|
  coarser : ∀ e, d.exponent < e → ∀ k : Nat, ¬ x.Reads (k * 10 ^ e)

/-- The last grid holds the value itself. -/
theorem value_last (x : Binary64) :
    Decimal.value ⟨x.units * Nat.pow 5 1074, -1074⟩ = x.value := by
  have hcast : ∀ b n : Nat, ((Nat.pow b n : Nat) : ℚ) = b ^ n := Nat.cast_pow
  have hten : ∀ n : Nat, (10 : ℚ) ^ n = 5 ^ n * 2 ^ n := fun n => by rw [← mul_pow]; norm_num
  -- the exponent is a variable here, so that the power is not computed
  have hlast : ∀ (n : Nat) (e : Int), e = -(n : Int) → n = 1074 →
      Decimal.value ⟨x.units * Nat.pow 5 n, e⟩ = x.value := by
    rintro n e rfl hn
    rw [Decimal.value, value, unitsPerOne, ← hn, Nat.cast_mul, hcast, hcast, zpow_neg,
      zpow_natCast, hten, Nat.cast_ofNat, Nat.cast_ofNat]
    field_simp
  apply hlast <;> rfl

/-- The search goes through the grids until one has something to read back. -/
theorem firstGrid_shortestFrom (hx : x.Finite) (finer : Nat) (exponent : Int)
    (hlast : exponent = finer - 1074)
    (hcoarser : ∀ e, exponent < e → ∀ k : Nat, ¬ x.Reads (k * 10 ^ e)) :
    x.FirstGrid (x.shortestFrom exponent finer) := by
  induction finer generalizing exponent with
  | zero =>
    rw [Nat.cast_zero, zero_sub] at hlast
    subst hlast
    rw [shortestFrom]
    refine ⟨?_, ?_, hcoarser⟩
    · rw [value_last]
      exact x.reads_value
    · intro k _
      rw [value_last, sub_self, abs_zero]
      exact abs_nonneg _
  | succ finer ih =>
    rw [shortestFrom]
    cases hgrid : x.onGrid? exponent with
    | some d =>
      obtain ⟨rfl, hreads, hclosest⟩ := onGrid?_eq_some hx hgrid
      exact ⟨hreads, hclosest, hcoarser⟩
    | none =>
      refine ih (exponent - 1) (by omega) fun e he k => ?_
      rcases Int.lt_or_eq_of_le (Int.sub_one_lt_iff.1 he) with hlt | rfl
      · exact hcoarser e hlt k
      · exact onGrid?_eq_none hx hgrid k

/-! ## Where the search begins -/

theorem lt_pow_length_toDigits (n : Nat) : n < 10 ^ (Nat.toDigits 10 n).length :=
  (Nat.length_toDigits_le_iff (by decide) (List.length_pos_iff.2 Nat.toDigits_ne_nil)).1 le_rfl

theorem pow_length_toDigits_le {n : Nat} (hn : 0 < n) :
    10 ^ ((Nat.toDigits 10 n).length - 1) ≤ n := by
  rcases Nat.eq_zero_or_pos ((Nat.toDigits 10 n).length - 1) with hone | hmore
  · rw [hone]
    exact hn
  · refine not_lt.1 fun hlt => ?_
    have hle := (Nat.length_toDigits_le_iff (by decide) hmore).2 hlt
    omega

/-- The grid that the search begins with lies beyond the value. -/
theorem lt_pow_decimalMagnitude (num den : Nat) (hnum : 0 < num) (hden : 0 < den) :
    (num / den : ℚ) < 10 ^ decimalMagnitude num den := by
  have hpos : (0 : ℚ) < den := by exact_mod_cast hden
  rw [decimalMagnitude]
  split
  · rw [zpow_natCast, div_lt_iff₀ hpos]
    exact_mod_cast Nat.lt_mul_of_div_lt (lt_pow_length_toDigits (num / den)) hden
  · next hlt =>
    have hquotient : 0 < (den - 1) / num := Nat.div_pos (by omega) hnum
    have hle := pow_length_toDigits_le hquotient
    rw [Nat.le_div_iff_mul_le hnum] at hle
    have hless : 10 ^ ((Nat.toDigits 10 ((den - 1) / num)).length - 1) * num < den := by omega
    have hexponent : (1 : Int) - (Nat.toDigits 10 ((den - 1) / num)).length =
        -((Nat.toDigits 10 ((den - 1) / num)).length - 1 : Nat) := by
      have := List.length_pos_iff.2 (Nat.toDigits_ne_nil (b := 10) (n := (den - 1) / num))
      omega
    rw [hexponent, zpow_neg, zpow_natCast, div_lt_iff₀ hpos, ← div_eq_inv_mul,
      lt_div_iff₀ (by positivity), mul_comm]
    exact_mod_cast hless

theorem value_lt_pow_decimalMagnitude (hne : x.isZero = false) :
    x.value < 10 ^ decimalMagnitude x.units (Nat.pow 2 1074) := by
  have hunits : 0 < x.units := by
    have hone := one_le_value_mul hne
    rw [value_mul, ← units_eq_codeUnits] at hone
    exact_mod_cast hone
  have hpos : ∀ n, 0 < Nat.pow 2 n := fun n => Nat.pow_pos two_pos
  rw [value, unitsPerOne]
  exact lt_pow_decimalMagnitude _ _ hunits (hpos 1074)

theorem firstGrid_shortest (hx : x.Finite) (hne : x.isZero = false) :
    x.FirstGrid x.shortest := by
  have hvalue := value_lt_pow_decimalMagnitude hne
  rw [shortest, if_neg (by simp [hne])]
  generalize decimalMagnitude x.units (Nat.pow 2 1074) = magnitude at hvalue
  have hone := one_le_value_mul hne
  have hlow : -324 < magnitude := not_le.1 fun hle => by
    have hless := power_mul_lt_one hle
    have hstep := mul_lt_mul_of_pos_right hvalue unitsPerOne_pos
    linarith
  refine firstGrid_shortestFrom hx _ _ (by omega) fun e he k hreads => ?_
  rcases Nat.eq_zero_or_pos k with rfl | hk
  · rw [Nat.cast_zero, zero_mul] at hreads
    exact not_reads_zero hne hreads
  · -- even the first point of such a grid lies too far beyond the value
    have hsize : (0 : ℚ) < 10 ^ magnitude := zpow_pos (by norm_num) magnitude
    have hgrid : (10 : ℚ) ^ (magnitude + 1) ≤ 10 ^ e := zpow_le_zpow_right₀ (by norm_num) he
    rw [zpow_add₀ (by norm_num), zpow_one] at hgrid
    have hpoint : (1 : ℚ) * 10 ^ e ≤ k * 10 ^ e :=
      mul_le_mul_of_nonneg_right (by exact_mod_cast hk) (zpow_pos (by norm_num) e).le
    have hreach := hreads.le_two_mul hne
    linarith

/-! ## What is found is shortest and closest -/

theorem FirstGrid.precision_pos (h : x.FirstGrid d) (hne : x.isZero = false) : 0 < d.precision := by
  refine Nat.pos_of_ne_zero fun hzero => ?_
  obtain ⟨k, hk, j, hvalue⟩ := Decimal.precision_le_iff.1 hzero.le
  have hreads := h.reads
  rw [hvalue, Nat.lt_one_iff.1 hk, Nat.cast_zero, zero_mul] at hreads
  exact not_reads_zero hne hreads

/-- The first digit is not superfluous. -/
theorem FirstGrid.power_le (h : x.FirstGrid d) (hne : x.isZero = false) :
    (10 : ℚ) ^ (d.precision - 1 + d.exponent) ≤ d.value := by
  have hpos := h.precision_pos hne
  have hcoefficient : 10 ^ (d.precision - 1) ≤ d.coefficient := by
    refine not_lt.1 fun hlt => ?_
    have hle := Decimal.precision_le_iff.2 ⟨d.coefficient, hlt, d.exponent, rfl⟩
    omega
  have hexponent : (d.precision : Int) - 1 = (d.precision - 1 : Nat) := by omega
  rw [zpow_add₀ (by norm_num), hexponent, zpow_natCast, Decimal.value]
  exact mul_le_mul_of_nonneg_right (by exact_mod_cast hcoefficient) (zpow_pos (by norm_num) _).le

theorem FirstGrid.exponent_le {k : Nat} {j : Int} (h : x.FirstGrid d) (hk : x.Reads (k * 10 ^ j)) :
    j ≤ d.exponent :=
  not_lt.1 fun hlt => h.coarser j hlt k hk

/-- If a number of lesser magnitude reads back as well then so does the power of ten between, and
that is on the first grid only if what was found is a single digit. -/
theorem FirstGrid.single_digit {k n : Nat} {j : Int} (h : x.FirstGrid d) (hne : x.isZero = false)
    (hreads : x.Reads (k * 10 ^ j)) (hk : k < 10 ^ n) (hlow : n + j < d.precision + d.exponent) :
    d.precision = 1 ∧ x.Reads (10 ^ d.exponent) := by
  have hless : (k * 10 ^ j : ℚ) ≤ 10 ^ (d.precision - 1 + d.exponent) := by
    calc (k * 10 ^ j : ℚ) ≤ 10 ^ n * 10 ^ j :=
          mul_le_mul_of_nonneg_right (by exact_mod_cast hk.le) (zpow_pos (by norm_num) j).le
      _ = 10 ^ (n + j) := by rw [zpow_add₀ (by norm_num), zpow_natCast]
      _ ≤ 10 ^ (d.precision - 1 + d.exponent) := zpow_le_zpow_right₀ (by norm_num) (by omega)
  have hpower := hreads.between h.reads hless (h.power_le hne)
  have hgrid : (d.precision : Int) - 1 + d.exponent ≤ d.exponent := by
    refine h.exponent_le (k := 1) ?_
    rw [Nat.cast_one, one_mul]
    exact hpower
  have hpos := h.precision_pos hne
  have hexponent : (d.precision : Int) - 1 + d.exponent = d.exponent := by omega
  rw [hexponent] at hpower
  exact ⟨by omega, hpower⟩

/-- **Nothing shorter reads back.** -/
theorem FirstGrid.precision_le {d' : Decimal} (h : x.FirstGrid d) (hne : x.isZero = false)
    (hreads : x.Reads d'.value) : d.precision ≤ d'.precision := by
  refine not_lt.1 fun hlt => ?_
  obtain ⟨k, hk, j, hvalue⟩ := Decimal.precision_le_iff.1 (le_refl d'.precision)
  rw [hvalue] at hreads
  have hj := h.exponent_le hreads
  obtain ⟨hone, -⟩ := h.single_digit hne hreads hk (by omega)
  have hnone : d'.precision = 0 := by omega
  rw [hnone, pow_zero] at hk
  have hzero : k = 0 := Nat.lt_one_iff.1 hk
  rw [hzero, Nat.cast_zero, zero_mul] at hreads
  exact not_reads_zero hne hreads

/-- **Nothing as short that reads back is closer.** -/
theorem FirstGrid.closest_of_precision_le {d' : Decimal} (h : x.FirstGrid d)
    (hne : x.isZero = false) (hreads : x.Reads d'.value) (hle : d'.precision ≤ d.precision) :
    |d.value - x.value| ≤ |d'.value - x.value| := by
  obtain ⟨k, hk, j, hvalue⟩ := Decimal.precision_le_iff.1 hle
  rw [hvalue] at hreads ⊢
  rcases lt_or_eq_of_le (h.exponent_le hreads) with hlt | rfl
  · -- then the number has one digit on a finer grid and stays below the power of ten
    obtain ⟨hone, hpower⟩ := h.single_digit hne hreads hk (by omega)
    rw [hone, pow_one] at hk
    have hpoint : (10 * (k * 10 ^ j) : ℚ) ≤ 9 * 10 ^ d.exponent := by
      have hstep : (10 : ℚ) ^ (j + 1) ≤ 10 ^ d.exponent := zpow_le_zpow_right₀ (by norm_num) hlt
      rw [zpow_add₀ (by norm_num), zpow_one] at hstep
      have hdigit : (k : ℚ) ≤ 9 := by exact_mod_cast Nat.le_of_lt_succ hk
      nlinarith [zpow_pos (by norm_num : (0 : ℚ) < 10) j]
    have hsize : (0 : ℚ) < 10 ^ d.exponent := zpow_pos (by norm_num) _
    have hclosest := h.closest 1 (by rw [Nat.cast_one, one_mul]; exact hpower)
    rw [Nat.cast_one, one_mul] at hclosest
    refine hclosest.trans ?_
    rcases le_or_gt (10 ^ d.exponent) x.value with hbelow | habove
    · rw [abs_of_nonpos (by linarith), abs_of_nonpos (by linarith)]
      linarith
    · have hnear := hpower.power_near hne habove
      rw [abs_of_pos (by linarith), abs_of_nonpos (by linarith)]
      linarith
  · exact h.closest k hreads

/-! ## The decimal that is printed -/

/-- **The shortest decimal reads back.** -/
theorem toBinary64_shortest (hx : x.Finite) : x.shortest.toBinary64 x.negative = x := by
  rw [toBinary64_eq_iff_reads hx]
  cases hne : x.isZero with
  | true =>
    have hzero : x.value = 0 := by
      have hmagnitude : x.magnitude = 0 := beq_iff_eq.1 hne
      rw [value, units_eq_codeUnits, hmagnitude]
      simp [codeUnits]
    have hshortest : x.shortest.value = x.value := by
      rw [shortest, if_pos hne, hzero, Decimal.value, Nat.cast_zero, zero_mul]
    rw [hshortest]
    exact x.reads_value
  | false => exact (firstGrid_shortest hx hne).reads

theorem coefficient_shortest_pos (hx : x.Finite) (hne : x.isZero = false) :
    0 < x.shortest.coefficient := by
  refine Nat.pos_of_ne_zero fun hzero => ?_
  have hreads := (firstGrid_shortest hx hne).reads
  rw [Decimal.value, hzero, Nat.cast_zero, zero_mul] at hreads
  exact not_reads_zero hne hreads

theorem precision_shortest_le (hx : x.Finite) (hne : x.isZero = false)
    (h : d.toBinary64 x.negative = x) : x.shortest.precision ≤ d.precision :=
  (firstGrid_shortest hx hne).precision_le hne ((toBinary64_eq_iff_reads hx).1 h)

theorem shortest_closest (hx : x.Finite) (hne : x.isZero = false)
    (h : d.toBinary64 x.negative = x) (hle : d.precision ≤ x.shortest.precision) :
    |x.shortest.value - x.value| ≤ |d.value - x.value| :=
  (firstGrid_shortest hx hne).closest_of_precision_le hne ((toBinary64_eq_iff_reads hx).1 h) hle

end Binary64

end ScriptLexer
