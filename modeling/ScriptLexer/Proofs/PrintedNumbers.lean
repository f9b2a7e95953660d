import ScriptLexer.Proofs.PrintedDoubles

/-!
# Printed numbers as sources

What a number literal is printed as is a text, and it can be scanned. If it is written positionally
then it is a number of the language with digits on both sides of its point, so the scan finds this
one number in it, and decodes it to the double it was printed from because printed doubles read
back. In the other layout the `e` ends the number and begins a word, and the name of infinity is a
word from its first letter on: **such a text is never scanned as one number**
(`scan_printed_number`).
-/

namespace ScriptLexer

open Binary64

variable {x : Binary64} {text : List Char} {v : ℚ}

/-! ## The layouts as pieces -/

theorem Positional.not_mem_e (h : Positional text v) : 'e' ∉ text := by
  obtain ⟨whole, fraction, hs, -, rfl, -⟩ := h
  intro hmem
  exact absurd rfl (bne_iff_ne.1 (ne_e_of_mem_text hs 'e' hmem))

theorem Scientific.mem_e {width : Nat} (h : Scientific width text v) : 'e' ∈ text := by
  obtain ⟨lead, fraction, sign, exponent, -, -, -, -, rfl, -⟩ := h
  simp

/-- A number with an exponent falls apart into four pieces. -/
theorem Scientific.exists_pieces {width : Nat} (hwidth : 0 < width) (h : Scientific width text v) :
    ∃ lead fraction sign exponent, text =
        [Piece.number [lead] fraction, .word ['e'], .punctuation sign,
          .number exponent []].flatMap Piece.text ∧
      MaximalCut [Piece.number [lead] fraction, .word ['e'], .punctuation sign,
        .number exponent []] := by
  obtain ⟨lead, fraction, sign, exponent, hs, hsign, hdigits, hlength, rfl, -⟩ := h
  have hne : exponent ≠ [] := List.ne_nil_of_length_pos (by omega)
  obtain ⟨mark, hmark, hword⟩ : ∃ mark : Punctuation, mark.char = sign ∧
      isWordChar mark.char = false := by
    rcases hsign with rfl | rfl
    · exact ⟨.plus, rfl, rfl⟩
    · exact ⟨.minus, rfl, rfl⟩
  subst hmark
  refine ⟨lead, fraction, mark, exponent, by simp [Piece.text], hs, ?_,
    ⟨'e', [], rfl, rfl, by simp⟩, ?_, trivial, trivial, ⟨hne, hdigits, by simp⟩,
    Piece.endsBefore_nil _, trivial⟩
  · refine ⟨fun d hd => ?_, fun _ d rest hrest => ?_⟩
    · obtain rfl := Option.some.inj hd
      rfl
    · cases hrest
  · intro d hd
    obtain rfl := Option.some.inj hd
    exact hword

namespace Binary64

/-- A number without a sign is printed in one of the two layouts, or as infinity. -/
theorem write_cases (hsign : x.negative = false) (hnan : x.isNaN = false) :
    (∃ v, IsNearest false v x ∧ Positional x.write v) ∨ (∃ v, Scientific 2 x.write v) ∨
      x.write = ['i', 'n', 'f'] := by
  rcases finite_or_infinite hnan with hfinite | hinfinite
  · obtain ⟨d, place, hprinted⟩ := exists_printed hfinite
    have hnearest := hprinted.nearest
    obtain ⟨text, htext, hlayout⟩ := hprinted.layout
    rw [hsign] at hnearest
    rw [hsign, if_neg Bool.false_ne_true] at htext
    rw [htext]
    split at hlayout
    · exact Or.inl ⟨d.value, hnearest, hlayout⟩
    · exact Or.inr (Or.inl ⟨d.value, hlayout⟩)
  · rw [write_of_infinite hinfinite, hsign]
    exact Or.inr (Or.inr rfl)

end Binary64

/-- The name of infinity is not read as a number. -/
theorem Positional.ne_infinity (h : Positional text v) : text ≠ ['i', 'n', 'f'] := by
  rintro rfl
  obtain ⟨d, hread, -⟩ := h.readScaled?
  cases hread

/-! ## Scanning what is printed -/

namespace Session

variable {s : Session}

theorem scan_of_positional (s : Session) (hx : IsNearest false v x) (h : Positional text v) :
    (s.withText text).scan.answer =
        .tokens [⟨.number, text, some (.number x), 1⟩, Token.endOfInput 1] ∧
      (s.withText text).scan.session = { s.withText text with errors := #[] } := by
  obtain ⟨whole, fraction, hs, -, rfl, rfl⟩ := h
  have hscan := s.scan_text_number hs
  rw [isNearest_numeralValue_iff.1 hx] at hscan
  exact hscan

theorem scan_of_scientific {width : Nat} (hstandard : s.source.keywords = .standard)
    (hwidth : 0 < width) (h : Scientific width text v) :
    ∃ (mark : Punctuation) (tokens : List Token), (s.withText text).scan.answer = .tokens tokens ∧
      tokens.map Token.kind = [.number, .identifier, mark.kind, .number, .eof] := by
  obtain ⟨lead, fraction, mark, exponent, rfl, hcut⟩ := h.exists_pieces hwidth
  obtain ⟨hanswer, -⟩ := s.scan_flatMap_text_of_clean hcut (by simp [Piece.fault?])
  rw [hstandard] at hanswer
  exact ⟨mark, _, hanswer, rfl⟩

theorem scan_of_infinity (hstandard : s.source.keywords = .standard) :
    ∃ tokens : List Token, (s.withText ['i', 'n', 'f']).scan.answer = .tokens tokens ∧
      tokens.map Token.kind = [.identifier, .eof] := by
  have hcut : MaximalCut [Piece.word ['i', 'n', 'f']] :=
    ⟨⟨'i', ['n', 'f'], rfl, rfl, List.all_eq_true.1 rfl⟩, Piece.endsBefore_nil _, trivial⟩
  obtain ⟨hanswer, -⟩ := s.scan_flatMap_text_of_clean hcut (by simp [Piece.fault?])
  rw [hstandard] at hanswer
  exact ⟨_, hanswer, rfl⟩

/-- **A printed number literal is a source of the same number**, unless it is printed with an
exponent or as infinity; then what is scanned is never one number. -/
theorem scan_printed_number (s : Session) (a : Step) (hstandard : s.source.keywords = .standard) :
    ∀ t ∈ (s.step a).answer.shown, t.BeginsWithDigit →
      ∃ x, t.kind = .number ∧ t.literal = some (.number x) ∧
        let r := (Literal.number x).print
        let again := (s.withText r).scan
        (r ≠ "inf".toList ∧ 'e' ∉ r →
          again.session = { s.withText r with errors := #[] } ∧
          ∃ t', again.answer = .tokens [t', Token.endOfInput 1] ∧ t'.kind = .number ∧
            t'.lexeme = r ∧ t'.literal = some (.number x) ∧ t'.line = 1 ∧
            t'.literal.map Literal.print = some r) ∧
        (r = "inf".toList ∨ 'e' ∈ r →
          ∃ tokens, again.answer = .tokens tokens ∧ (tokens.map Token.kind).count .number ≠ 1) := by
  intro t ht hdigit
  obtain ⟨whole, fraction, x, hx⟩ := decodes_of_shown ht hdigit
  refine ⟨x, hx.kind, hx.literal, ?_⟩
  intro r again
  rcases write_cases hx.nearest.sign hx.nearest.isNaN with
    ⟨v, hnearest, hlayout⟩ | ⟨v, hlayout⟩ | hinfinity
  · obtain ⟨hanswer, hsession⟩ := s.scan_of_positional hnearest hlayout
    refine ⟨fun _ => ⟨hsession, _, hanswer, rfl, rfl, rfl, rfl, rfl⟩, ?_⟩
    rintro (hinfinity | hmem)
    · exact absurd hinfinity hlayout.ne_infinity
    · exact absurd hmem hlayout.not_mem_e
  · refine ⟨fun h => absurd hlayout.mem_e h.2, fun _ => ?_⟩
    obtain ⟨mark, tokens, hanswer, hkinds⟩ := scan_of_scientific hstandard two_pos hlayout
    refine ⟨tokens, hanswer, ?_⟩
    rw [hkinds]
    cases mark <;> decide
  · refine ⟨fun h => absurd hinfinity h.1, fun _ => ?_⟩
    obtain ⟨tokens, hanswer, hkinds⟩ := scan_of_infinity hstandard
    rw [← hinfinity] at hanswer
    refine ⟨tokens, hanswer, ?_⟩
    rw [hkinds]
    decide

/-- The value of `0.10` is printed as `0.1`, which is another lexeme of the same double. -/
theorem scan_printed_number_of_tenth :
    let s := start { text := "0.10".toList }
    let x := ofBits 0x3FB999999999999A
    let t : Token := ⟨.number, "0.10".toList, some (.number x), 1⟩
    t ∈ (s.step .scan).answer.shown ∧ t.BeginsWithDigit ∧
      ∃ t' : Token, (s.withText "0.1".toList).scan.answer = .tokens [t', Token.endOfInput 1] ∧
        t'.literal = some (.number x) := by
  intro s x t
  have hshaped : (Piece.number ['0'] ['1', '0']).Shaped := by simp [Piece.Shaped]
  have hvalue : (Decimal.ofDigits ['0'] ['1', '0']).toBinary64 false = x := by decide +kernel
  have hprint : x.write = "0.1".toList := by decide +kernel
  have hshown : t ∈ (s.step .scan).answer.shown := by
    have hscan := s.shown_scan_text_number hshaped
    rw [hvalue] at hscan
    exact hscan ▸ List.mem_cons_self
  have hdigit : t.BeginsWithDigit := ⟨'0', rfl, rfl⟩
  obtain ⟨y, -, hliteral, hagain, -⟩ := scan_printed_number s .scan rfl t hshown hdigit
  obtain rfl : x = y := Literal.number.inj (Option.some.inj hliteral)
  rw [Literal.print, hprint] at hagain
  obtain ⟨-, t', hanswer, -, -, hsame, -⟩ := hagain ⟨by decide, by decide⟩
  exact ⟨hshown, hdigit, t', hanswer, hsame⟩

end Session

end ScriptLexer
