import ScriptLexer.CharClass

/-!
# What each class holds

`classify` is a long case distinction. What it amounts to is said class by class in
`CharClass.Holds`, and the main statement is that the two agree: a character is put in a class
exactly if the class holds it. Everything else about classes is read off this.
-/

namespace ScriptLexer

/-- What a class holds. The last one holds what no class before it holds. -/
def CharClass.Holds : CharClass → Char → Prop
  | punctuation mark, c => c = mark.char
  | operator op, c => c = op.char
  | slash, c => c = '/'
  | whitespace, c => c = ' ' ∨ c = '\t' ∨ c = '\r'
  | newline, c => c = '\n'
  | quote, c => c = '"'
  | digit, c => c.isDigit = true
  | alpha, c => isWordStart c = true
  | other, c =>
    (∀ mark : Punctuation, c ≠ mark.char) ∧ (∀ op : Operator, c ≠ op.char) ∧
      c ∉ ['/', ' ', '\t', '\r', '\n', '"'] ∧ c.isDigit = false ∧ isWordStart c = false

theorem holds_classify (c : Char) : (classify c).Holds c := by
  unfold classify
  split
  all_goals try simp [CharClass.Holds, Punctuation.char, Operator.char]; done
  -- what is left is the last branch: a digit, a letter or neither
  split
  · assumption
  · split
    · assumption
    · refine ⟨fun mark => ?_, fun op => ?_, ?_, ?_, ?_⟩
      · cases mark <;> simpa [Punctuation.char]
      · cases op <;> simpa [Operator.char]
      · simp_all
      · simp_all
      · simp_all

/-- No digit can begin a word. -/
theorem isWordStart_eq_false_of_isDigit {c : Char} (h : c.isDigit = true) :
    isWordStart c = false := by
  have hc : 48 ≤ c.toNat ∧ c.toNat ≤ 57 := Char.isDigit_iff_toNat.1 h
  have hu : c ≠ '_' := by
    rintro rfl
    exact absurd hc.2 (by decide)
  -- both ranges of letters begin behind the digits
  have hupper : c.isUpper = false := by
    refine decide_eq_false fun h => ?_
    have hA : 65 ≤ c.toNat := UInt32.le_iff_toNat_le.1 h.1
    omega
  have hlower : c.isLower = false := by
    refine Bool.and_eq_false_imp.2 fun h => ?_
    have ha : 97 ≤ c.toNat := UInt32.le_iff_toNat_le.1 (of_decide_eq_true h)
    omega
  have ha : c.isAlpha = false := Bool.or_eq_false_iff.2 ⟨hupper, hlower⟩
  simp [isWordStart, ha, hu]

theorem classify_of_isDigit {c : Char} (h : c.isDigit = true) : classify c = .digit := by
  unfold classify
  split
  case h_21 => rw [if_pos h]
  all_goals exact absurd h (by decide)

theorem classify_of_isWordStart {c : Char} (h : isWordStart c = true) : classify c = .alpha := by
  have hd : ¬ c.isDigit = true := fun hd => by
    rw [isWordStart_eq_false_of_isDigit hd] at h
    cases h
  unfold classify
  split
  case h_21 => rw [if_neg hd, if_pos h]
  all_goals exact absurd h (by decide)

/-- **A character is put in a class exactly if the class holds it.** -/
theorem classify_eq_iff {c : Char} {k : CharClass} : classify c = k ↔ k.Holds c := by
  constructor
  · rintro rfl
    exact holds_classify c
  · intro h
    cases k with
    | punctuation mark => rw [show c = mark.char from h]; cases mark <;> rfl
    | operator op => rw [show c = op.char from h]; cases op <;> rfl
    | slash => rw [show c = '/' from h]; rfl
    | whitespace => rcases h with rfl | rfl | rfl <;> rfl
    | newline => rw [show c = '\n' from h]; rfl
    | quote => rw [show c = '"' from h]; rfl
    | digit => exact classify_of_isDigit h
    | alpha => exact classify_of_isWordStart h
    | other =>
      -- any other class would hold the character, which the five exclusions rule out
      obtain ⟨hmark, hop, hlist, hdigit, halpha⟩ := h
      have hc := holds_classify c
      cases hk : classify c with
      | other => rfl
      | punctuation mark => rw [hk] at hc; exact absurd hc (hmark mark)
      | operator op => rw [hk] at hc; exact absurd hc (hop op)
      | digit => rw [hk] at hc; exact absurd hc (Bool.eq_false_iff.1 hdigit)
      | alpha => rw [hk] at hc; exact absurd hc (Bool.eq_false_iff.1 halpha)
      | _ => rw [hk] at hc; simp_all [CharClass.Holds]

end ScriptLexer
