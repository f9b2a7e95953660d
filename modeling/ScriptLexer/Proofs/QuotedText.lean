import ScriptLexer.Text.Quoted
import Mathlib.Algebra.Group.Nat.Defs
import Mathlib.Data.List.Basic

/-!
# Quoted text

What a quoted text says is found by reading it from left to right: a character that is shown as
itself stands for itself, and what follows a backslash tells how many more characters belong to the
escape. So every written character is read back with the rest of the text untouched
(`readEscaped?_escape`), and as no written character begins with the mark, the mark ends the text.

**A quoted text ends where it ends, whatever comes behind it** (`quoted_append_inj`). That it holds
marks, backslashes or a picture of what usually follows it makes no difference.
-/

namespace ScriptLexer.Text

/-! ## Numbers in base sixteen -/

/-- The value of a digit in base sixteen. -/
def hexDigitValue (c : Char) : Nat := if c.isDigit then c.toNat - 48 else c.toNat - 87

/-- The number that digits in base sixteen denote. -/
def ofHexDigits (digits : List Char) : Nat :=
  digits.foldl (fun n c => 16 * n + hexDigitValue c) 0

theorem hexDigitValue_digitChar : ∀ d < 16, hexDigitValue (Nat.digitChar d) = d := by decide

theorem ofHexDigits_toDigits (n : Nat) : ofHexDigits (Nat.toDigits 16 n) = n := by
  induction n using Nat.strongRecOn with
  | ind n ih =>
    rcases Nat.lt_or_ge n 16 with hlt | hge
    · rw [Nat.toDigits_of_lt_base hlt]
      simp [ofHexDigits, hexDigitValue_digitChar n hlt]
    · have hrest := ih (n / 16) (Nat.div_lt_self (by omega) (by decide))
      rw [ofHexDigits] at hrest
      rw [Nat.toDigits_of_base_le (by decide) hge, ofHexDigits, List.foldl_append, hrest,
        List.foldl_cons, List.foldl_nil, hexDigitValue_digitChar _ (Nat.mod_lt n (by decide)),
        Nat.div_add_mod]

theorem ofHexDigits_hexPadded (width n : Nat) : ofHexDigits (hexPadded width n) = n := by
  have hzeros : ∀ k, ofHexDigits (List.replicate k '0') = 0 := by
    intro k
    induction k with
    | zero => rfl
    | succ k ih => exact ih
  rw [hexPadded, List.leftpad, ofHexDigits, List.foldl_append, ← ofHexDigits, hzeros]
  exact ofHexDigits_toDigits n

theorem length_hexPadded {width n : Nat} (hwidth : 0 < width) (h : n < 16 ^ width) :
    (hexPadded width n).length = width := by
  rw [hexPadded, List.length_leftpad]
  exact Nat.max_eq_left ((Nat.length_toDigits_le_iff (by decide) hwidth).2 h)

/-! ## Reading a written character -/

/-- Reads a code point of `width` digits in base sixteen. -/
def readCodePoint (width : Nat) (text : List Char) : Char × List Char :=
  (Char.ofNat (ofHexDigits (text.take width)), text.drop width)

/-- Reads the first character of a text inside quotation marks, and leaves the rest. -/
def readEscaped? : List Char → Option (Char × List Char)
  | [] => none
  | '\\' :: 'n' :: rest => some ('\n', rest)
  | '\\' :: 'r' :: rest => some ('\r', rest)
  | '\\' :: 't' :: rest => some ('\t', rest)
  | '\\' :: 'x' :: rest => some (readCodePoint 2 rest)
  | '\\' :: 'u' :: rest => some (readCodePoint 4 rest)
  | '\\' :: 'U' :: rest => some (readCodePoint 8 rest)
  | '\\' :: c :: rest => some (c, rest)
  | c :: rest => some (c, rest)

variable {mark c d : Char} {s t u v : List Char}

theorem readCodePoint_hexPadded {width : Nat} (hwidth : 0 < width) (h : c.toNat < 16 ^ width)
    (rest : List Char) : readCodePoint width (hexPadded width c.toNat ++ rest) = (c, rest) := by
  have hlength := length_hexPadded hwidth h
  rw [readCodePoint, List.take_left' hlength, List.drop_left' hlength, ofHexDigits_hexPadded,
    Char.ofNat_toNat]

/-- **A written character is read back**, whatever comes behind it. -/
theorem readEscaped?_escape (hmark : mark = '\'' ∨ mark = '"') (c : Char) (rest : List Char) :
    readEscaped? (escape mark c ++ rest) = some (c, rest) := by
  unfold escape
  split
  · next h =>
    rcases hmark with rfl | rfl <;> rcases h with rfl | rfl <;> rfl
  · next hplain =>
    obtain ⟨hbackslash, -⟩ := not_or.1 hplain
    split
    · next h => rw [h]; rfl
    split
    · next h => rw [h]; rfl
    split
    · next h => rw [h]; rfl
    split
    · rw [List.singleton_append]
      unfold readEscaped?
      split <;> simp_all
    · unfold escapeCodePoint
      split
      · next h => exact congrArg some (readCodePoint_hexPadded (by decide) h rest)
      split
      · next h => exact congrArg some (readCodePoint_hexPadded (by decide) h rest)
      · exact congrArg some (readCodePoint_hexPadded (by decide) c.val.toNat_lt rest)

/-- No written character begins with the mark. -/
theorem escape_append_ne (hmark : mark = '\'' ∨ mark = '"') (c : Char) :
    escape mark c ++ u ≠ mark :: v := by
  have hbackslash : '\\' ≠ mark := by
    rcases hmark with rfl | rfl <;> decide
  intro h
  unfold escape at h
  split at h
  · exact hbackslash (List.cons.inj h).1
  next hplain =>
    obtain ⟨-, hne⟩ := not_or.1 hplain
    split at h
    · exact hbackslash (List.cons.inj h).1
    split at h
    · exact hbackslash (List.cons.inj h).1
    split at h
    · exact hbackslash (List.cons.inj h).1
    split at h
    · exact hne (List.cons.inj h).1
    · unfold escapeCodePoint at h
      split at h
      · exact hbackslash (List.cons.inj h).1
      split at h
      · exact hbackslash (List.cons.inj h).1
      · exact hbackslash (List.cons.inj h).1

/-- Between two marks the written characters are told apart one by one. -/
theorem body_append_inj (hmark : mark = '\'' ∨ mark = '"')
    (h : s.flatMap (escape mark) ++ mark :: u = t.flatMap (escape mark) ++ mark :: v) :
    s = t ∧ u = v := by
  induction s generalizing t with
  | nil =>
    cases t with
    | nil => exact ⟨rfl, (List.cons.inj h).2⟩
    | cons d t =>
      rw [List.flatMap_cons, List.append_assoc] at h
      exact absurd h.symm (escape_append_ne hmark d)
  | cons c s ih =>
    cases t with
    | nil =>
      rw [List.flatMap_cons, List.append_assoc] at h
      exact absurd h (escape_append_ne hmark c)
    | cons d t =>
      rw [List.flatMap_cons, List.flatMap_cons, List.append_assoc, List.append_assoc] at h
      have hread := congrArg readEscaped? h
      rw [readEscaped?_escape hmark, readEscaped?_escape hmark] at hread
      obtain ⟨rfl, hrest⟩ := Prod.mk.inj (Option.some.inj hread)
      obtain ⟨rfl, hbehind⟩ := ih hrest
      exact ⟨rfl, hbehind⟩

theorem quoteMark_eq (s : List Char) : quoteMark s = '\'' ∨ quoteMark s = '"' := by
  rw [quoteMark]
  split
  · exact Or.inr rfl
  · exact Or.inl rfl

theorem quoted_append (s u : List Char) :
    quoted s ++ u = quoteMark s :: (s.flatMap (escape (quoteMark s)) ++ quoteMark s :: u) := by
  simp [quoted]

/-- **A quoted text ends where it ends.** -/
theorem quoted_append_inj (h : quoted s ++ u = quoted t ++ v) : s = t ∧ u = v := by
  rw [quoted_append, quoted_append] at h
  obtain ⟨hmark, hbody⟩ := List.cons.inj h
  rw [← hmark] at hbody
  exact body_append_inj (quoteMark_eq s) hbody

/-! ## Integers -/

theorem toDigits_injective {m n : Nat} (h : Nat.toDigits 10 m = Nat.toDigits 10 n) : m = n := by
  have hread := congrArg (Nat.ofDigitChars 10 · 0) h
  simpa only [Nat.ofDigitChars_ten_toDigits] using hread

theorem minus_mem_ofInt_iff {n : Int} : '-' ∈ ofInt n ↔ n < 0 := by
  cases n with
  | ofNat n =>
    refine iff_of_false (fun h => ?_) (Int.not_lt.2 (Int.natCast_nonneg n))
    exact absurd (Nat.isDigit_of_mem_toDigits (by decide) (by decide) h) (by decide)
  | negSucc n => exact iff_of_true List.mem_cons_self (Int.negSucc_lt_zero n)

theorem ofInt_injective {m n : Int} (h : ofInt m = ofInt n) : m = n := by
  have hsign : m < 0 ↔ n < 0 := by rw [← minus_mem_ofInt_iff, h, minus_mem_ofInt_iff]
  cases m with
  | ofNat m =>
    cases n with
    | ofNat n => rw [toDigits_injective h]
    | negSucc n =>
      exact absurd (hsign.2 (Int.negSucc_lt_zero n)) (Int.not_lt.2 (Int.natCast_nonneg m))
  | negSucc m =>
    cases n with
    | ofNat n =>
      exact absurd (hsign.1 (Int.negSucc_lt_zero m)) (Int.not_lt.2 (Int.natCast_nonneg n))
    | negSucc n => rw [Nat.succ.inj (toDigits_injective (List.cons.inj h).2)]

end ScriptLexer.Text
