import ScriptLexer.Proofs.PrintedDoubles
import ScriptLexer.Proofs.QuotedText

/-!
# What a printed token says

A printed token is put together from parts that say themselves where they end: the name of the kind
has no comma in it, a quoted text ends with its mark, a number and `None` have no comma either. So
both printed forms can be taken apart from left to right, and **a printed token says everything
about the token** but which double that is no number it carries (`Token.printFull_eq_iff`,
`Token.print_eq_iff`).

Comparison is a little coarser than printing in general, because the two zeros are equal, and a
little finer, because what is no number equals nothing. Among the tokens that a session shows
neither occurs, and there the two agree (`printed_tokens_identify`).
-/

namespace ScriptLexer

open Binary64

/-- Values that print alike: the same, or two numbers that are none. -/
def PrintAlike (v w : Option Literal) : Prop :=
  v = w ∨ ∃ x y, v = some (.number x) ∧ w = some (.number y) ∧ x.isNaN = true ∧ y.isNaN = true

variable {x y : Binary64} {c : Char} {u v w : List Char} {a b t : Token}

/-! ## Parts that end before a comma -/

/-- What ends before the first occurrence of a character is found again. -/
theorem append_stop_inj {w' : List Char} (hw : c ∉ w) (hw' : c ∉ w')
    (h : w ++ c :: u = w' ++ c :: v) : w = w' ∧ u = v := by
  have hrun : ∀ {z behind : List Char}, c ∉ z → (z ++ c :: behind).takeWhile (· != c) = z := by
    intro z behind hz
    refine Piece.takeWhile_append_stop (fun d hd => bne_iff_ne.2 ?_) (by simp)
    rintro rfl
    exact hz hd
  have hfirst := congrArg (List.takeWhile (· != c)) h
  rw [hrun hw, hrun hw'] at hfirst
  rw [hfirst] at h
  exact ⟨hfirst, (List.cons.inj (List.append_cancel_left h)).2⟩

/-- The characters that a double is written with. -/
theorem mem_write (h : c ∈ x.write) :
    c.isDigit = true ∨ c ∈ ['.', 'e', '+', '-', 'i', 'n', 'f', 'a'] := by
  by_cases hx : x.Finite
  · -- a sign, and then one of the two layouts
    obtain ⟨d, place, hd⟩ := exists_printed hx
    obtain ⟨text, htext, hlayout⟩ := hd.layout
    have hmem : c = '-' ∨ c ∈ text := by
      rw [htext] at h
      split at h
      · exact List.mem_cons.1 h
      · exact Or.inr h
    rcases hmem with rfl | hmem
    · exact Or.inr (by decide)
    · split at hlayout
      · obtain ⟨whole, fraction, hs, -, rfl, -⟩ := hlayout
        exact (mem_text_number hs c hmem).imp_right fun h => by simp [h]
      · obtain ⟨lead, fraction, sign, exponent, hs, hsign, hdigits, -, rfl, -⟩ := hlayout
        simp only [List.mem_append, List.mem_cons] at hmem
        rcases hmem with hmem | rfl | rfl | hmem
        · exact (mem_text_number hs c hmem).imp_right fun h => by simp [h]
        · exact Or.inr (by decide)
        · rcases hsign with rfl | rfl <;> exact Or.inr (by decide)
        · exact Or.inl (hdigits c hmem)
  · -- the names of what is not finite are short enough to go through
    cases hnan : x.isNaN with
    | true =>
      rw [write_of_isNaN hnan] at h
      simp only [List.mem_cons, List.not_mem_nil, or_false] at h
      rcases h with rfl | rfl | rfl <;> exact Or.inr (by decide)
    | false =>
      rw [write_of_infinite ((finite_or_infinite hnan).resolve_left hx)] at h
      have hmem : c ∈ ['-', 'i', 'n', 'f'] := by
        split at h
        · exact h
        · exact List.mem_cons_of_mem _ h
      simp only [List.mem_cons, List.not_mem_nil, or_false] at hmem
      rcases hmem with rfl | rfl | rfl | rfl <;> exact Or.inr (by decide)

/-- Neither a comma nor a quotation mark stands in the text. -/
def Plain (w : List Char) : Prop := ',' ∉ w ∧ '\'' ∉ w ∧ '"' ∉ w

theorem plain_write (x : Binary64) : Plain x.write :=
  ⟨fun h => absurd (mem_write h) (by decide), fun h => absurd (mem_write h) (by decide),
    fun h => absurd (mem_write h) (by decide)⟩

/-- A quoted text does not begin like a plain one. -/
theorem quoted_append_ne {s : List Char} (hw : Plain w) :
    Text.quoted s ++ u ≠ w ++ ',' :: v := by
  intro h
  rw [Text.quoted_append] at h
  cases w with
  | nil =>
    have hmark := (List.cons.inj h).1
    rcases Text.quoteMark_eq s with hs | hs <;> rw [hs] at hmark <;> exact absurd hmark (by decide)
  | cons d w =>
    obtain ⟨-, hsingle, hdouble⟩ := hw
    have hmark : Text.quoteMark s ∈ d :: w := (List.cons.inj h).1 ▸ List.mem_cons_self
    rcases Text.quoteMark_eq s with hs | hs <;> rw [hs] at hmark
    · exact hsingle hmark
    · exact hdouble hmark

/-! ## Values -/

theorem printAlike_number_iff : PrintAlike (some (.number x)) (some (.number y)) ↔
    x = y ∨ x.isNaN = true ∧ y.isNaN = true := by
  constructor
  · rintro (h | ⟨x', y', hx, hy, hnan⟩)
    · exact Or.inl (Literal.number.inj (Option.some.inj h))
    · obtain rfl := Literal.number.inj (Option.some.inj hx)
      obtain rfl := Literal.number.inj (Option.some.inj hy)
      exact Or.inr hnan
  · rintro (rfl | hnan)
    · exact Or.inl rfl
    · exact Or.inr ⟨x, y, rfl, rfl, hnan⟩

/-- A value in the full printed form of a token. -/
def printValue : Option Literal → List Char
  | some v => v.print
  | none => "None".toList

/-- A value that is no text is printed without a comma and without marks. -/
theorem plain_printValue {value : Option Literal} (h : ∀ s, value ≠ some (.text s)) :
    Plain (printValue value) := by
  match value with
  | none => exact ⟨by decide, by decide, by decide⟩
  | some (.text s) => exact absurd rfl (h s)
  | some (.number x) => exact plain_write x

/-- Values that are no texts are told apart by what they are printed as. -/
theorem printAlike_of_printValue_eq {value value' : Option Literal}
    (h : ∀ s, value ≠ some (.text s)) (h' : ∀ s, value' ≠ some (.text s))
    (hsame : printValue value = printValue value') : PrintAlike value value' := by
  have hnone : ∀ x : Binary64, printValue none ≠ printValue (some (.number x)) := by
    intro x hx
    have hmem : 'N' ∈ x.write := by
      rw [← show "None".toList = x.write from hx]
      decide
    exact absurd (mem_write hmem) (by decide)
  match value, value' with
  | none, none => exact Or.inl rfl
  | some (.text s), _ => exact absurd rfl (h s)
  | _, some (.text s') => exact absurd rfl (h' s')
  | some (.number x), some (.number y) => exact printAlike_number_iff.2 (write_eq_iff.1 hsame)
  | none, some (.number y) => exact absurd hsame (hnone y)
  | some (.number x), none => exact absurd hsame.symm (hnone x)

/-- **A printed value ends before the comma behind it**, and it says which value it is. -/
theorem printValue_append_inj {value value' : Option Literal}
    (h : printValue value ++ ',' :: u = printValue value' ++ ',' :: v) :
    PrintAlike value value' ∧ u = v := by
  -- a text ends with its mark and all else before the comma; the first character tells which it is
  by_cases htext : ∃ s, value = some (.text s) <;> by_cases htext' : ∃ s, value' = some (.text s)
  · obtain ⟨s, rfl⟩ := htext
    obtain ⟨s', rfl⟩ := htext'
    obtain ⟨rfl, hrest⟩ := Text.quoted_append_inj h
    exact ⟨Or.inl rfl, (List.cons.inj hrest).2⟩
  · obtain ⟨s, rfl⟩ := htext
    exact absurd h (quoted_append_ne (plain_printValue (not_exists.1 htext')))
  · obtain ⟨s', rfl⟩ := htext'
    exact absurd h.symm (quoted_append_ne (plain_printValue (not_exists.1 htext)))
  · obtain ⟨hsame, hrest⟩ := append_stop_inj (plain_printValue (not_exists.1 htext)).1
      (plain_printValue (not_exists.1 htext')).1 h
    have halike :=
      printAlike_of_printValue_eq (not_exists.1 htext) (not_exists.1 htext') hsame
    exact ⟨halike, hrest⟩

theorem printValue_congr {value value' : Option Literal} (h : PrintAlike value value') :
    printValue value = printValue value' := by
  rcases h with rfl | ⟨x, y, rfl, rfl, hnan⟩
  · rfl
  · exact write_eq_iff.2 (Or.inr hnan)

/-- A value in the short printed form of a token. -/
def printArrow : Option Literal → List Char
  | some v => " -> ".toList ++ v.print
  | none => []

theorem printArrow_inj {value value' : Option Literal} (h : printArrow value = printArrow value') :
    PrintAlike value value' := by
  match value, value' with
  | none, none => exact Or.inl rfl
  | none, some v => cases h
  | some v, none => cases h
  | some v, some w =>
    have hprint : printValue (some v) = printValue (some w) := List.append_cancel_left h
    exact (printValue_append_inj (congrArg (· ++ [',']) hprint)).1

theorem printArrow_congr {value value' : Option Literal} (h : PrintAlike value value') :
    printArrow value = printArrow value' := by
  rcases h with rfl | ⟨x, y, rfl, rfl, hnan⟩
  · rfl
  · exact congrArg (" -> ".toList ++ ·) (write_eq_iff.2 (Or.inr hnan))

/-! ## Kinds -/

theorem Kind.ofName?_name : ∀ k : Kind, Kind.ofName? k.name = some k := by
  intro k
  cases k <;> rfl

theorem Kind.name_injective {k k' : Kind} (h : k.name.toList = k'.name.toList) : k = k' := by
  have hname := congrArg Kind.ofName? (String.toList_inj.1 h)
  rw [Kind.ofName?_name, Kind.ofName?_name] at hname
  exact Option.some.inj hname

theorem Kind.not_mem_name : ∀ k : Kind, ',' ∉ k.name.toList ∧ '(' ∉ k.name.toList := by
  intro k
  cases k <;> decide

/-! ## Tokens -/

namespace Token

theorem printFull_eq (t : Token) : t.printFull = "Token(".toList ++ (t.kind.name.toList ++
    ',' :: ' ' :: (Text.quoted t.lexeme ++ ',' :: ' ' :: (printValue t.literal ++
      ',' :: ' ' :: (Text.ofInt t.line ++ [')'])))) := by
  have hcomma : ", ".toList = [',', ' '] := rfl
  unfold printFull printValue
  cases t.literal <;> simp only [hcomma, List.append_assoc, List.cons_append, List.nil_append]

/-- **The full printed form identifies a token.** -/
theorem printFull_eq_iff : a.printFull = b.printFull ↔
    a.kind = b.kind ∧ a.lexeme = b.lexeme ∧ a.line = b.line ∧ PrintAlike a.literal b.literal := by
  rw [printFull_eq, printFull_eq]
  constructor
  · intro h
    -- part by part from the left; what is behind a part is `h` again
    obtain ⟨hkind, h⟩ := append_stop_inj (Kind.not_mem_name a.kind).1 (Kind.not_mem_name b.kind).1
      (List.append_cancel_left h)
    obtain ⟨hlexeme, h⟩ := Text.quoted_append_inj (List.cons.inj h).2
    obtain ⟨hliteral, h⟩ := printValue_append_inj (List.cons.inj (List.cons.inj h).2).2
    have hline := Text.ofInt_injective (List.append_cancel_right (List.cons.inj h).2)
    exact ⟨Kind.name_injective hkind, hlexeme, hline, hliteral⟩
  · rintro ⟨hkind, hlexeme, hline, hliteral⟩
    rw [hkind, hlexeme, hline, printValue_congr hliteral]

theorem print_eq (t : Token) : t.print =
    t.kind.name.toList ++ '(' :: (Text.quoted t.lexeme ++ (printArrow t.literal ++ [')'])) := by
  unfold print printArrow
  cases t.literal <;> simp only [List.append_assoc, List.cons_append]

/-- **The short printed form identifies a token up to its line.** -/
theorem print_eq_iff : a.print = b.print ↔
    a.kind = b.kind ∧ a.lexeme = b.lexeme ∧ PrintAlike a.literal b.literal := by
  rw [print_eq, print_eq]
  constructor
  · intro h
    obtain ⟨hkind, h⟩ := append_stop_inj (Kind.not_mem_name a.kind).2 (Kind.not_mem_name b.kind).2 h
    obtain ⟨hlexeme, h⟩ := Text.quoted_append_inj h
    exact ⟨Kind.name_injective hkind, hlexeme, printArrow_inj (List.append_cancel_right h)⟩
  · rintro ⟨hkind, hlexeme, hliteral⟩
    rw [hkind, hlexeme, printArrow_congr hliteral]

end Token

/-! ## Comparison -/

theorem Token.Faithful.nonneg (h : t.Faithful) (hx : t.literal = some (.number x)) :
    x.negative = false ∧ x.isNaN = false := by
  rcases h with ⟨whole, fraction, y, hy⟩ | ⟨-, hnot⟩
  · obtain rfl := Literal.number.inj (Option.some.inj (hy.literal.symm.trans hx))
    exact ⟨hy.nearest.sign, hy.nearest.isNaN⟩
  · exact absurd hx (hnot x)

/-- Of numbers without a sign only the same are equal. -/
theorem equalValue_iff_of_nonneg (hx : x.negative = false ∧ x.isNaN = false)
    (hy : y.negative = false ∧ y.isNaN = false) : x.equalValue y = true ↔ x = y := by
  rw [Binary64.equalValue, hx.2, hy.2]
  simp only [Bool.not_false, Bool.true_and, Bool.or_eq_true, beq_iff_eq, Bool.and_eq_true]
  refine or_iff_left_of_imp fun hzero => eq_iff.2 ⟨hx.1.trans hy.1.symm, ?_⟩
  exact (beq_iff_eq.1 hzero.1).trans (beq_iff_eq.1 hzero.2).symm

theorem Token.eq_iff : a = b ↔
    a.kind = b.kind ∧ a.lexeme = b.lexeme ∧ a.line = b.line ∧ a.literal = b.literal := by
  cases a
  cases b
  rw [Token.mk.injEq]
  exact and_congr_right fun _ => and_congr_right fun _ => and_comm

/-- Values are compared like what they hold. -/
theorem Literal.equalValue_iff_eq {v w : Literal}
    (h : ∀ x y, v = .number x → w = .number y → (x.equalValue y = true ↔ x = y)) :
    v.equalValue w = true ↔ v = w := by
  cases v with
  | text s => cases w <;> simp [Literal.equalValue]
  | number x =>
    cases w with
    | text s => simp [Literal.equalValue]
    | number y =>
      rw [Literal.equalValue, h x y rfl rfl, Literal.number.injEq]

/-- Faithful tokens are equal exactly if they are the same. -/
theorem Token.equalValue_iff_eq (ha : a.Faithful) (hb : b.Faithful) :
    a.equalValue b = true ↔ a = b := by
  have hnumber : ∀ x y, a.literal = some (.number x) → b.literal = some (.number y) →
      (x.equalValue y = true ↔ x = y) :=
    fun x y hx hy => equalValue_iff_of_nonneg (ha.nonneg hx) (hb.nonneg hy)
  rw [Token.equalValue, Token.eq_iff]
  simp only [Bool.and_eq_true, beq_iff_eq, and_assoc]
  refine and_congr_right fun _ => and_congr_right fun _ => and_congr_right fun _ => ?_
  cases hv : a.literal with
  | none => cases b.literal <;> simp
  | some v =>
    cases hw : b.literal with
    | none => simp
    | some w =>
      rw [Option.some.injEq]
      exact Literal.equalValue_iff_eq fun x y hx hy =>
        hnumber x y (hv.trans (congrArg some hx)) (hw.trans (congrArg some hy))

/-- **A printed token identifies the token.** Two tokens have the same full form exactly if they
have the same kind, lexeme and line and their values are the same or two numbers that are none; the
short form leaves out the line. Tokens that sessions show are equal exactly if their full forms
are. -/
theorem printed_tokens_identify :
    (∀ a b : Token, a.printFull = b.printFull ↔
      a.kind = b.kind ∧ a.lexeme = b.lexeme ∧ a.line = b.line ∧ PrintAlike a.literal b.literal) ∧
    (∀ a b : Token, a.print = b.print ↔
      a.kind = b.kind ∧ a.lexeme = b.lexeme ∧ PrintAlike a.literal b.literal) ∧
    ∀ (s s' : Session) (step step' : Step), ∀ a ∈ (s.step step).answer.shown,
      ∀ b ∈ (s'.step step').answer.shown, a.equalValue b = true ↔ a.printFull = b.printFull := by
  refine ⟨fun a b => Token.printFull_eq_iff, fun a b => Token.print_eq_iff, ?_⟩
  intro s s' step step' a ha b hb
  have hfaithful := Session.faithful_of_shown ha
  rw [Token.equalValue_iff_eq hfaithful (Session.faithful_of_shown hb)]
  constructor
  · rintro rfl
    rfl
  · intro h
    obtain ⟨hkind, hlexeme, hline, hliteral⟩ := Token.printFull_eq_iff.1 h
    -- a token that is shown never carries what is no number
    have hsame : a.literal = b.literal := by
      rcases hliteral with hsame | ⟨x, y, hx, -, hnan, -⟩
      · exact hsame
      · rw [(hfaithful.nonneg hx).2] at hnan
        cases hnan
    exact Token.eq_iff.2 ⟨hkind, hlexeme, hline, hsame⟩

/-- Two scanned tokens with different lexemes and one value. -/
theorem printed_tokens_identify_of_one :
    let s := Session.start { text := "1.0".toList }
    let s' := Session.start { text := "1.00".toList }
    let x := ofBits 0x3FF0000000000000
    let a : Token := ⟨.number, "1.0".toList, some (.number x), 1⟩
    let b : Token := ⟨.number, "1.00".toList, some (.number x), 1⟩
    a ∈ (s.step .scan).answer.shown ∧ b ∈ (s'.step .scan).answer.shown ∧
      (a.equalValue b = true ↔ a.printFull = b.printFull) := by
  intro s s' x a b
  have hshaped : (Piece.number ['1'] ['0']).Shaped := by simp [Piece.Shaped]
  have hshaped' : (Piece.number ['1'] ['0', '0']).Shaped := by simp [Piece.Shaped]
  have hvalue : (Decimal.ofDigits ['1'] ['0']).toBinary64 false = x := by decide +kernel
  have hvalue' : (Decimal.ofDigits ['1'] ['0', '0']).toBinary64 false = x := by decide +kernel
  have ha : a ∈ (s.step .scan).answer.shown := by
    have hscan := s.shown_scan_text_number hshaped
    rw [hvalue] at hscan
    exact hscan ▸ List.mem_cons_self
  have hb : b ∈ (s'.step .scan).answer.shown := by
    have hscan := s'.shown_scan_text_number hshaped'
    rw [hvalue'] at hscan
    exact hscan ▸ List.mem_cons_self
  exact ⟨ha, hb, printed_tokens_identify.2.2 s s' .scan .scan a ha b hb⟩

end ScriptLexer
