import ScriptLexer.Proofs.NumberLiterals
import ScriptLexer.Proofs.ShortestDecimal
import ScriptLexer.Token.Printer

/-!
# Printed doubles

A printed double is read back in two steps: the text denotes a decimal with a sign, without any
rounding (`Decimal.readSigned?`), and the decimal is rounded to the nearest double. The layout only
moves the point and writes zeros, so the first step gives back the value of the shortest decimal
(`Layout.write_spec`). What is known of that decimal is then known of the text: **it reads back as
the double it was printed from, sign included, no shorter one does, and none as short is closer**
(`printed_doubles_read_back`). So two doubles with one text are the same.
-/

namespace ScriptLexer

open Binary64

/-! ## Reading a printed number -/

/-- Reads a number of digits. -/
def readDigits? (text : List Char) : Option Nat :=
  if text.isEmpty || !text.all Char.isDigit then none else some (Nat.ofDigitChars 10 text 0)

/-- Reads an exponent: digits, with a sign in front if there is one. -/
def readExponent? : List Char → Option Int
  | '-' :: digits => (readDigits? digits).map fun n => -(n : Int)
  | '+' :: digits => (readDigits? digits).map fun n => (n : Int)
  | digits => (readDigits? digits).map fun n => (n : Int)

namespace Decimal

/-- Reads digits with or without a point, and an exponent behind them if there is one. -/
def readScaled? (text : List Char) : Option Decimal :=
  let mantissa := text.takeWhile (· != 'e')
  match text.dropWhile (· != 'e') with
  | [] => read? mantissa
  | _ :: exponent =>
    (read? mantissa).bind fun d =>
      (readExponent? exponent).map fun e => ⟨d.coefficient, d.exponent + e⟩

/-- Reads a decimal exactly, with a sign in front if it is negative. -/
def readSigned? : List Char → Option (Bool × Decimal)
  | '-' :: text => (readScaled? text).map fun d => (true, d)
  | text => (readScaled? text).map fun d => (false, d)

end Decimal

/-- The text is written as digits, a point and at least one digit, and has the value `v`. -/
def Positional (text : List Char) (v : ℚ) : Prop :=
  ∃ whole fraction, (Piece.number whole fraction).Shaped ∧ fraction ≠ [] ∧
    text = (Piece.number whole fraction).text ∧ numeralValue whole fraction = v

/-- The text is written with one digit before the point, if there is one, and with an exponent of
at least `width` digits behind its sign, and it has the value `v`. -/
def Scientific (width : Nat) (text : List Char) (v : ℚ) : Prop :=
  ∃ lead fraction sign exponent, (Piece.number [lead] fraction).Shaped ∧
    (sign = '+' ∨ sign = '-') ∧ (∀ c ∈ exponent, c.isDigit = true) ∧ width ≤ exponent.length ∧
    text = (Piece.number [lead] fraction).text ++ 'e' :: sign :: exponent ∧
    numeralValue [lead] fraction *
      10 ^ (if sign = '-' then -(Nat.ofDigitChars 10 exponent 0 : Int)
        else Nat.ofDigitChars 10 exponent 0) = v

variable {whole fraction text digits : List Char} {v : ℚ} {d : Decimal} {x y : Binary64}

theorem mem_text_number (hs : (Piece.number whole fraction).Shaped) :
    ∀ c ∈ (Piece.number whole fraction).text, c.isDigit = true ∨ c = '.' := by
  intro c hc
  obtain ⟨-, hwhole, hfraction⟩ := hs
  rw [Piece.text_number] at hc
  rcases List.mem_append.1 hc with hc | hc
  · exact Or.inl (hwhole c hc)
  · split at hc
    · cases hc
    · rcases List.mem_cons.1 hc with hc | hc
      · exact Or.inr hc
      · exact Or.inl (hfraction c hc)

theorem ne_e_of_mem_text (hs : (Piece.number whole fraction).Shaped) :
    ∀ c ∈ (Piece.number whole fraction).text, (c != 'e') = true := by
  intro c hc
  rw [bne_iff_ne]
  rintro rfl
  exact absurd (mem_text_number hs 'e' hc) (by decide)

theorem Positional.readScaled? (h : Positional text v) :
    ∃ d, Decimal.readScaled? text = some d ∧ d.value = v := by
  obtain ⟨whole, fraction, hs, -, rfl, rfl⟩ := h
  have hstop : ∀ c ∈ ([] : List Char).head?, (c != 'e') = false := by simp
  have hmantissa := Piece.takeWhile_append_stop (ne_e_of_mem_text hs) hstop
  have hrest := Piece.dropWhile_append_stop (ne_e_of_mem_text hs) hstop
  rw [List.append_nil] at hmantissa hrest
  refine ⟨_, ?_, Decimal.value_ofDigits whole fraction⟩
  rw [Decimal.readScaled?, hmantissa, hrest]
  exact Decimal.read?_text_number hs

theorem readDigits?_eq_some (hne : digits ≠ []) (h : ∀ c ∈ digits, c.isDigit = true) :
    readDigits? digits = some (Nat.ofDigitChars 10 digits 0) := by
  have hall : digits.all Char.isDigit = true := List.all_eq_true.2 h
  simp [readDigits?, hne, hall]

theorem Scientific.readScaled? {width : Nat} (hwidth : 0 < width) (h : Scientific width text v) :
    ∃ d, Decimal.readScaled? text = some d ∧ d.value = v := by
  obtain ⟨lead, fraction, sign, exponent, hs, hsign, hdigits, hlength, rfl, rfl⟩ := h
  have hstop : ∀ c ∈ ('e' :: sign :: exponent).head?, (c != 'e') = false := by simp
  have hmantissa := Piece.takeWhile_append_stop (ne_e_of_mem_text hs) hstop
  have hrest := Piece.dropWhile_append_stop (ne_e_of_mem_text hs) hstop
  have hne : exponent ≠ [] := List.ne_nil_of_length_pos (by omega)
  obtain ⟨e, he⟩ : ∃ e, e = if sign = '-' then -(Nat.ofDigitChars 10 exponent 0 : Int)
      else Nat.ofDigitChars 10 exponent 0 := ⟨_, rfl⟩
  have hexponent : readExponent? (sign :: exponent) = some e := by
    rcases hsign with rfl | rfl <;> simp [readExponent?, readDigits?_eq_some hne hdigits, he]
  let d := Decimal.ofDigits [lead] fraction
  refine ⟨⟨d.coefficient, d.exponent + e⟩, ?_, ?_⟩
  · rw [Decimal.readScaled?, hmantissa, hrest]
    simp only [Decimal.read?_text_number hs, hexponent, Option.bind_some, Option.map_some, d]
  · rw [← he, ← Decimal.value_ofDigits, Decimal.value, Decimal.value, zpow_add₀ (by norm_num),
      mul_assoc]

/-! ## The layouts -/

theorem numeralValue_eq (whole fraction : List Char) :
    numeralValue whole fraction =
      Nat.ofDigitChars 10 (whole ++ fraction) 0 * 10 ^ (-(fraction.length : Int)) :=
  (Decimal.value_ofDigits whole fraction).symm

namespace Layout

theorem positional_positional (hne : digits ≠ []) (h : ∀ c ∈ digits, c.isDigit = true)
    (place : Int) :
    Positional (positional digits place)
      (Nat.ofDigitChars 10 digits 0 * 10 ^ (place + 1 - digits.length)) := by
  have hpos := List.length_pos_iff.2 hne
  have hzero : Nat.ofDigitChars 10 ['0'] 0 = 0 := rfl
  rw [positional]
  split
  · next hneg =>
    -- zeros between the point and the digits
    refine ⟨['0'], List.replicate (-place - 1).toNat '0' ++ digits,
      ⟨by simp, by simp, isDigit_of_mem_append isDigit_of_mem_zeros h⟩, by simp [hne], ?_, ?_⟩
    · simp [Piece.text_number, hne]
    · have hexponent : -((List.replicate (-place - 1).toNat '0' ++ digits).length : Int) =
          place + 1 - digits.length := by
        rw [List.length_append, List.length_replicate]
        omega
      rw [numeralValue_eq, hexponent, Nat.ofDigitChars_append, hzero, Nat.ofDigitChars_append,
        Nat.ofDigitChars_replicate_zero, Nat.mul_zero]
  · next hnonneg =>
    simp only
    split
    · next hall =>
      -- zeros between the digits and the point
      have hlength : digits.length ≤ place.toNat + 1 := by simpa using hall
      refine ⟨digits ++ List.replicate (place.toNat + 1 - digits.length) '0', ['0'],
        ⟨by simp [hne], isDigit_of_mem_append h isDigit_of_mem_zeros, by simp⟩, by simp, ?_, ?_⟩
      · rw [List.take_of_length_le hlength]
        rfl
      · have hexponent : place + 1 - digits.length =
            (place.toNat + 1 - digits.length : Nat) := by omega
        rw [numeralValue, Nat.ofDigitChars_append, Nat.ofDigitChars_replicate_zero, hzero,
          hexponent, zpow_natCast, Nat.cast_zero, zero_div, add_zero, Nat.cast_mul, Nat.cast_pow,
          Nat.cast_ofNat, mul_comm]
    · next hmore =>
      -- the point stands between the digits
      have hlength : place.toNat + 1 < digits.length := by simpa using hmore
      refine ⟨digits.take (place.toNat + 1), digits.drop (place.toNat + 1),
        ⟨by simp [hne], fun c hc => h c (List.mem_of_mem_take hc),
          fun c hc => h c (List.mem_of_mem_drop hc)⟩, by simpa using hlength, ?_, ?_⟩
      · rw [Piece.text_number, if_neg (by simpa using hlength), List.rightpad,
          List.length_take_of_le hlength.le, Nat.sub_self, List.replicate_zero, List.append_nil]
      · have hexponent : -((digits.drop (place.toNat + 1)).length : Int) =
            place + 1 - digits.length := by
          rw [List.length_drop]
          omega
        rw [numeralValue_eq, hexponent, List.take_append_drop]

theorem scientific_scientific (layout : Layout) (hne : digits ≠ [])
    (h : ∀ c ∈ digits, c.isDigit = true) (place : Int) :
    Scientific layout.exponentWidth (layout.scientific digits place)
      (Nat.ofDigitChars 10 digits 0 * 10 ^ (place + 1 - digits.length)) := by
  obtain ⟨lead, fraction, rfl⟩ := List.exists_cons_of_ne_nil hne
  obtain ⟨hlead, hfraction⟩ := List.forall_mem_cons.1 h
  refine ⟨lead, fraction, if place < 0 then '-' else '+',
    (Nat.toDigits 10 place.natAbs).leftpad layout.exponentWidth '0', ⟨by simp, by simpa, hfraction⟩,
    ?_, ?_, ?_, ?_, ?_⟩
  · split <;> simp
  · refine isDigit_of_mem_append isDigit_of_mem_zeros fun c hc => ?_
    exact Nat.isDigit_of_mem_toDigits (by decide) (by decide) hc
  · rw [List.length_leftpad]
    exact Nat.le_max_left _ _
  · rw [scientific, Piece.text_number]
    rfl
  · have hexponent : Nat.ofDigitChars 10
        ((Nat.toDigits 10 place.natAbs).leftpad layout.exponentWidth '0') 0 = place.natAbs := by
      rw [List.leftpad, Nat.ofDigitChars_append, Nat.ofDigitChars_replicate_zero, Nat.mul_zero,
        Nat.ofDigitChars_ten_toDigits]
    -- the sign that is written is the sign that is read
    have hsigned : (if (if place < 0 then '-' else '+') = '-' then -(place.natAbs : Int)
        else place.natAbs) = place := by
      by_cases hneg : place < 0
      · rw [if_pos hneg, if_pos rfl]
        omega
      · rw [if_neg hneg, if_neg (by decide)]
        omega
    rw [hexponent, hsigned, numeralValue_eq, mul_assoc, ← zpow_add₀ (by norm_num),
      List.singleton_append, List.length_cons]
    congr 2
    push_cast
    ring

/-- The place of the first digit of a decimal. -/
def place (d : Decimal) : Int := d.exponent + (Nat.toDigits 10 d.coefficient).length - 1

/-- **The layout keeps the value.** -/
theorem write_spec (layout : Layout) (d : Decimal) :
    if layout.lowest ≤ place d ∧ place d < layout.highest then Positional (layout.write d) d.value
    else Scientific layout.exponentWidth (layout.write d) d.value := by
  have hvalue : d.value = Nat.ofDigitChars 10 (Nat.toDigits 10 d.coefficient) 0 *
      10 ^ (place d + 1 - (Nat.toDigits 10 d.coefficient).length) := by
    rw [Nat.ofDigitChars_ten_toDigits, Decimal.value, place]
    congr 2
    omega
  have hne : Nat.toDigits 10 d.coefficient ≠ [] := Nat.toDigits_ne_nil
  have hdigits : ∀ c ∈ Nat.toDigits 10 d.coefficient, c.isDigit = true := fun c hc =>
    Nat.isDigit_of_mem_toDigits (by decide) (by decide) hc
  have hwrite : layout.write d = if layout.lowest ≤ place d ∧ place d < layout.highest
      then positional (Nat.toDigits 10 d.coefficient) (place d)
      else layout.scientific (Nat.toDigits 10 d.coefficient) (place d) := rfl
  rw [hvalue, hwrite]
  split
  · exact positional_positional hne hdigits _
  · exact layout.scientific_scientific hne hdigits _

theorem place_spec (h : 0 < d.coefficient) :
    (10 : ℚ) ^ place d ≤ d.value ∧ d.value < 10 ^ (place d + 1) := by
  have hpos := List.length_pos_iff.2 (Nat.toDigits_ne_nil (b := 10) (n := d.coefficient))
  have hlow := pow_length_toDigits_le h
  have hhigh := lt_pow_length_toDigits d.coefficient
  generalize hlength : (Nat.toDigits 10 d.coefficient).length = length at hpos hlow hhigh
  have hfirst : place d = (length - 1 : Nat) + d.exponent := by
    rw [place, hlength]
    omega
  have hbehind : place d + 1 = length + d.exponent := by omega
  have hsize : (0 : ℚ) < 10 ^ d.exponent := zpow_pos (by norm_num) _
  rw [hbehind, hfirst, zpow_add₀ (by norm_num), zpow_add₀ (by norm_num), zpow_natCast,
    zpow_natCast, Decimal.value]
  exact ⟨mul_le_mul_of_nonneg_right (by exact_mod_cast hlow) hsize.le,
    mul_lt_mul_of_pos_right (by exact_mod_cast hhigh) hsize⟩

end Layout

/-! ## The text of a double -/

/-- What begins with a sign is not read without one. -/
theorem Decimal.readScaled?_minus (rest : List Char) :
    Decimal.readScaled? ('-' :: rest) = none := by
  have hread : Decimal.read? (('-' :: rest).takeWhile (· != 'e')) = none := rfl
  rw [Decimal.readScaled?, hread]
  split
  · rfl
  · rfl

theorem Decimal.readSigned?_of_readScaled? (h : Decimal.readScaled? text = some d)
    (negative : Bool) :
    Decimal.readSigned? (if negative then '-' :: text else text) = some (negative, d) := by
  cases negative with
  | true => rw [if_pos rfl, Decimal.readSigned?, h, Option.map_some]
  | false =>
    rw [if_neg (by decide), Decimal.readSigned?, h, Option.map_some]
    rintro rest rfl
    rw [Decimal.readScaled?_minus] at h
    cases h

namespace Binary64

theorem write_of_finite (hx : x.Finite) : x.write =
    if x.negative then '-' :: Layout.literal.write x.shortest
    else Layout.literal.write x.shortest := by
  rw [write, not_isNaN_of_finite hx, not_isInfinite_of_finite hx]
  rfl

theorem write_of_isNaN (hx : x.isNaN = true) : x.write = ['n', 'a', 'n'] := by
  rw [write, if_pos hx]

theorem write_of_infinite (hx : x.magnitude = infinityCode) : x.write =
    if x.negative then ['-', 'i', 'n', 'f'] else ['i', 'n', 'f'] := by
  rw [write, isNaN, isInfinite, hx]
  rfl

/-- What is known of the text `w` of a finite double: it denotes the decimal `d`, the first digit of
which is at `place`. -/
structure Printed (x : Binary64) (w : List Char) (d : Decimal) (place : Int) : Prop where
  read : Decimal.readSigned? w = some (x.negative, d)
  nearest : IsNearest x.negative d.value x
  shortest : x.isZero = false → ∀ d' : Decimal, IsNearest x.negative d'.value x →
    d.precision ≤ d'.precision
  closest : x.isZero = false → ∀ d' : Decimal, IsNearest x.negative d'.value x →
    d'.precision = d.precision → |d.value - x.value| ≤ |d'.value - x.value|
  leading : x.isZero = false → 10 ^ place ≤ d.value ∧ d.value < 10 ^ (place + 1)
  zero : x.isZero = true → place = 0 ∧
    w = if x.negative then ['-', '0', '.', '0'] else ['0', '.', '0']
  layout : ∃ text, w = (if x.negative then '-' :: text else text) ∧
    if -4 ≤ place ∧ place < 16 then Positional text d.value else Scientific 2 text d.value

theorem exists_printed (hx : x.Finite) : ∃ d place, x.Printed x.write d place := by
  have hlayout := Layout.literal.write_spec x.shortest
  obtain ⟨d, hread, hvalue⟩ : ∃ d, Decimal.readScaled? (Layout.literal.write x.shortest) = some d ∧
      d.value = x.shortest.value := by
    split at hlayout
    · exact hlayout.readScaled?
    · exact hlayout.readScaled? (by decide)
  have hprecision : d.precision = x.shortest.precision := Decimal.precision_congr hvalue
  have hnearest := Decimal.toBinary64_eq_iff.1 (toBinary64_shortest hx)
  refine ⟨d, Layout.place x.shortest, ?_, ?_, ?_, ?_, ?_, ?_, ?_⟩
  · rw [write_of_finite hx]
    exact Decimal.readSigned?_of_readScaled? hread x.negative
  · rw [hvalue]
    exact hnearest
  · intro hne d' hd'
    rw [hprecision]
    exact precision_shortest_le hx hne (Decimal.toBinary64_eq_iff.2 hd')
  · intro hne d' hd' heq
    rw [hvalue]
    exact shortest_closest hx hne (Decimal.toBinary64_eq_iff.2 hd') (heq.trans hprecision).le
  · intro hne
    rw [hvalue]
    exact Layout.place_spec (coefficient_shortest_pos hx hne)
  · intro hzero
    rw [write_of_finite hx, shortest, if_pos hzero]
    exact ⟨rfl, rfl⟩
  · rw [hvalue]
    exact ⟨_, write_of_finite hx, hlayout⟩

/-- Only what is finite is read as a number. -/
theorem readSigned?_write_of_not_finite (hx : ¬ x.Finite) :
    Decimal.readSigned? x.write = none := by
  cases hnan : x.isNaN with
  | true =>
    rw [write_of_isNaN hnan]
    rfl
  | false =>
    rw [write_of_infinite ((finite_or_infinite hnan).resolve_left hx)]
    split <;> rfl

theorem finite_of_write_eq (h : x.write = y.write) (hx : x.Finite) : y.Finite := by
  by_contra hy
  obtain ⟨d, place, hd⟩ := exists_printed hx
  have hread := hd.read
  rw [h, readSigned?_write_of_not_finite hy] at hread
  cases hread

/-- The names of what is not finite are told apart. -/
theorem eq_of_write_eq_of_not_finite (h : x.write = y.write) (hx : ¬ x.Finite) (hy : ¬ y.Finite) :
    x = y ∨ x.isNaN = true ∧ y.isNaN = true := by
  cases hnan : x.isNaN <;> cases hnan' : y.isNaN
  · have hx' := (finite_or_infinite hnan).resolve_left hx
    have hy' := (finite_or_infinite hnan').resolve_left hy
    rw [write_of_infinite hx', write_of_infinite hy'] at h
    refine Or.inl (eq_iff.2 ⟨?_, hx'.trans hy'.symm⟩)
    cases hsign : x.negative <;> cases hsign' : y.negative <;> simp [hsign, hsign'] at h ⊢
  · have hx' := (finite_or_infinite hnan).resolve_left hx
    rw [write_of_infinite hx', write_of_isNaN hnan'] at h
    split at h <;> cases h
  · have hy' := (finite_or_infinite hnan').resolve_left hy
    rw [write_of_infinite hy', write_of_isNaN hnan] at h
    split at h <;> cases h
  · exact Or.inr ⟨rfl, rfl⟩

/-- **The text of a double identifies it**, unless it is not a number. -/
theorem write_eq_iff : x.write = y.write ↔ x = y ∨ x.isNaN = true ∧ y.isNaN = true := by
  constructor
  · intro h
    by_cases hx : x.Finite
    · obtain ⟨d, place, hd⟩ := exists_printed hx
      obtain ⟨d', place', hd'⟩ := exists_printed (finite_of_write_eq h hx)
      have hread := hd.read
      rw [h, hd'.read] at hread
      obtain ⟨hsign, rfl⟩ := Prod.mk.inj (Option.some.inj hread)
      have hnearest := hd'.nearest
      rw [hsign] at hnearest
      exact Or.inl (hd.nearest.unique hnearest)
    · exact eq_of_write_eq_of_not_finite h hx fun hy => hx (finite_of_write_eq h.symm hy)
  · rintro (rfl | ⟨hx, hy⟩)
    · rfl
    · rw [write_of_isNaN hx, write_of_isNaN hy]

end Binary64

theorem Token.print_of_literal {t : Token} {value : Literal} (h : t.literal = some value) :
    t.print = t.kind.name.toList ++ '(' :: Text.quoted t.lexeme ++ (" -> ".toList ++ value.print) ++
      [')'] := by
  unfold Token.print
  simp only [h]

theorem Token.printFull_of_literal {t : Token} {value : Literal} (h : t.literal = some value) :
    t.printFull = "Token(".toList ++ t.kind.name.toList ++ ", ".toList ++ Text.quoted t.lexeme ++
      ", ".toList ++ value.print ++ ", ".toList ++ Text.ofInt t.line ++ [')'] := by
  unfold Token.printFull
  simp only [h]

/-- **Printed doubles read back.** The text of a finite double that a token carries is the text of
its literal in both printed forms. Read exactly and rounded to the nearest double it is that double
bit for bit. No decimal with fewer digits is rounded to it, and of those with as many none is
closer. Doubles that are numbers, infinite ones included, differ in their texts if they differ. -/
theorem printed_doubles_read_back :
    (∀ (t : Token) (x : Binary64), t.literal = some (.number x) → x.Finite →
      ∃ w d place, x.Printed w d place ∧
        t.print = t.kind.name.toList ++ '(' :: Text.quoted t.lexeme ++ (" -> ".toList ++ w) ++
          [')'] ∧
        t.printFull = "Token(".toList ++ t.kind.name.toList ++ ", ".toList ++
          Text.quoted t.lexeme ++ ", ".toList ++ w ++ ", ".toList ++ Text.ofInt t.line ++ [')']) ∧
    ∀ x y : Binary64, x.isNaN = false → y.isNaN = false → x ≠ y →
      (Literal.number x).print ≠ (Literal.number y).print := by
  constructor
  · intro t x hliteral hx
    obtain ⟨d, place, hprinted⟩ := exists_printed hx
    have hprint := Token.print_of_literal hliteral
    have hfull := Token.printFull_of_literal hliteral
    rw [Literal.print] at hprint hfull
    exact ⟨x.write, d, place, hprinted, hprint, hfull⟩
  · intro x y hx hy hne heq
    rcases write_eq_iff.1 heq with h | ⟨h, -⟩
    · exact hne h
    · rw [hx] at h
      cases h

/-- The smallest negative double, in a token that no scan gives. It is printed in scientific form,
and unlike the positive one of the same size. -/
theorem printed_doubles_read_back_of_smallest :
    let x := ofBits 0x8000000000000001
    let t : Token := ⟨.number, [], some (.number x), 1⟩
    t.print = "NUMBER('' -> -5e-324)".toList ∧ x.Finite ∧ (∃ w d place, x.Printed w d place ∧
      t.print = t.kind.name.toList ++ '(' :: Text.quoted t.lexeme ++ (" -> ".toList ++ w) ++
        [')']) ∧
      (Literal.number x).print ≠ (Literal.number (ofBits 1)).print := by
  intro x t
  have hshown : t.print = "NUMBER('' -> -5e-324)".toList := by decide +kernel
  have hfinite : x.Finite := by
    change 0x8000000000000001 % Nat.pow 2 63 < infinityCode
    decide
  obtain ⟨w, d, place, hprinted, hprint, -⟩ := printed_doubles_read_back.1 t x rfl hfinite
  refine ⟨hshown, hfinite, ⟨w, d, place, hprinted, hprint⟩, ?_⟩
  exact printed_doubles_read_back.2 x (ofBits 1) (by decide) (by decide) (by decide)

end ScriptLexer
