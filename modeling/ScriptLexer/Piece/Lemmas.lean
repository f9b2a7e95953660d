import ScriptLexer.CharClass.Lemmas
import ScriptLexer.Piece

/-!
# Cutting loses nothing

A piece begins with the character it was cut at and goes on with a part of what follows, so the
rest of the text begins right behind it. The pieces of a text, put together again, are the text.
-/

namespace ScriptLexer

namespace Piece

theorem text_number (whole fraction : List Char) :
    (number whole fraction).text =
      whole ++ (if fraction.isEmpty then [] else '.' :: fraction) := by
  cases fraction <;> simp [text]

/-! ## Parts of what follows -/

/-- A string ends with the first quote behind its opening one. -/
theorem isPrefix_takeWhile_quote {rest : List Char} (h : '"' ∈ rest) :
    rest.takeWhile (· != '"') ++ ['"'] <+: rest := by
  induction rest with
  | nil => cases h
  | cons d rest ih =>
    by_cases hd : d = '"'
    · subst hd
      simp
    · have hr : '"' ∈ rest := by simpa [Ne.symm hd] using h
      simpa [hd] using ih hr

/-- The point and the digits behind it are a part of the text there. -/
theorem isPrefix_fractionOf (rest : List Char) :
    (if (fractionOf rest).isEmpty then [] else '.' :: fractionOf rest) <+: rest := by
  split
  · exact List.nil_prefix
  · next h =>
    unfold fractionOf at h ⊢
    split
    · simpa using List.takeWhile_prefix _
    · simp at h

/-- A piece is its first character followed by a part of what comes behind that. -/
theorem text_next (c : Char) (rest : List Char) :
    ∃ more, (next c rest).text = c :: more ∧ more <+: rest := by
  unfold next
  split
  · next mark h => exact ⟨[], by rw [text, ← classify_eq_iff.1 h], List.nil_prefix⟩
  · next op h =>
    rw [show c = op.char from classify_eq_iff.1 h]
    cases hr : rest.head? == some '='
    · exact ⟨[], rfl, List.nil_prefix⟩
    · obtain ⟨tail, rfl⟩ : ∃ tail, rest = '=' :: tail := by
        cases rest with
        | nil => cases hr
        | cons d tail => exact ⟨tail, by simpa using hr⟩
      exact ⟨['='], rfl, by simp⟩
  · next h =>
    rw [show c = '/' from classify_eq_iff.1 h]
    split
    · exact ⟨_, rfl, by simpa using List.takeWhile_prefix _⟩
    · exact ⟨[], rfl, List.nil_prefix⟩
  · exact ⟨[], rfl, List.nil_prefix⟩
  · next h => exact ⟨[], by rw [show c = '\n' from classify_eq_iff.1 h]; rfl, List.nil_prefix⟩
  · next h =>
    rw [show c = '"' from classify_eq_iff.1 h]
    split
    · next hq => exact ⟨_, rfl, isPrefix_takeWhile_quote (by simpa using hq)⟩
    · exact ⟨rest, rfl, List.prefix_rfl⟩
  · -- the fraction begins where the first run of digits ends
    refine ⟨rest.takeWhile Char.isDigit ++ _, text_number _ _, ?_⟩
    conv => rhs; rw [← List.takeWhile_append_dropWhile (p := Char.isDigit) (l := rest)]
    exact (List.prefix_append_right_inj _).2 (isPrefix_fractionOf _)
  · exact ⟨_, rfl, List.takeWhile_prefix _⟩
  · exact ⟨[], rfl, List.nil_prefix⟩

/-- A piece and what lies behind it make up the text. -/
theorem text_next_append (c : Char) (rest : List Char) :
    (next c rest).text ++ rest.drop ((next c rest).text.length - 1) = c :: rest := by
  obtain ⟨more, htext, hmore⟩ := text_next c rest
  rw [htext]
  simpa using List.prefix_iff_eq_append.1 hmore

end Piece

/-- **The pieces of a text, put together, are the text.** -/
theorem flatMap_text_pieces (s : List Char) : (pieces s).flatMap Piece.text = s := by
  fun_induction pieces s with
  | case1 => rfl
  | case2 c rest piece ih =>
    rw [List.flatMap_cons, ih]
    exact Piece.text_next_append c rest

end ScriptLexer
