import ScriptLexer.Proofs.NearestDouble
import ScriptLexer.Proofs.ReservedWords

/-!
# Number literals

A token that begins with a digit is a number, whether a scan or a single reading shows it and
wherever the cursor stood: a reading that goes round the end of the source shows a slice, and what
it decodes is the slice (`Session.decodes_of_shown`). The value of the token is the double nearest
to the number that the digits of its lexeme denote, for any number of digits.

Nothing else about the lexeme counts. So zeros in front and zeros at the end of the fraction change
nothing, and a greater number never has a smaller literal (`Session.number_literals_exact`).
-/

namespace ScriptLexer

open Binary64

/-- The tokens that an answer shows. -/
def Answer.shown : Answer → List Token
  | tokens ts => ts
  | token t => t.toList
  | _ => []

/-- The lexeme begins with a digit. -/
def Token.BeginsWithDigit (t : Token) : Prop := ∃ c, t.lexeme.head? = some c ∧ c.isDigit = true

/-- The number that is written with the digits `whole` before the point and `fraction` behind. -/
def numeralValue (whole fraction : List Char) : ℚ :=
  Nat.ofDigitChars 10 whole 0 + Nat.ofDigitChars 10 fraction 0 / 10 ^ fraction.length

/-- The token is a number, and its value is the double nearest to what its digits denote. -/
structure Token.Decodes (t : Token) (whole fraction : List Char) (x : Binary64) : Prop where
  kind : t.kind = .number
  /-- There are digits before the point, and behind it if there is one. -/
  shaped : (Piece.number whole fraction).Shaped
  lexeme : t.lexeme = (Piece.number whole fraction).text
  literal : t.literal = some (.number x)
  nearest : IsNearest false (numeralValue whole fraction) x

variable {t t' : Token} {whole fraction whole' fraction' : List Char} {x x' : Binary64}

/-! ## What digits denote -/

theorem Decimal.value_ofDigits (whole fraction : List Char) :
    (Decimal.ofDigits whole fraction).value = numeralValue whole fraction := by
  rw [Decimal.value, Decimal.ofDigits, numeralValue, Nat.ofDigitChars_append,
    Nat.ofDigitChars_eq_ofDigitChars_zero, zpow_neg, zpow_natCast, Nat.cast_add, Nat.cast_mul,
    Nat.cast_pow, Nat.cast_ofNat]
  field_simp

/-- **Digits are decoded to the double nearest to what they denote.** -/
theorem isNearest_numeralValue_iff :
    IsNearest false (numeralValue whole fraction) x ↔
      (Decimal.ofDigits whole fraction).toBinary64 false = x := by
  rw [Decimal.toBinary64_eq_iff, Decimal.value_ofDigits]

/-- Zeros in front and zeros behind the last digit of the fraction add nothing. -/
theorem numeralValue_padded (whole fraction : List Char) (before behind : Nat) :
    numeralValue (List.replicate before '0' ++ whole) (fraction ++ List.replicate behind '0') =
      numeralValue whole fraction := by
  rw [numeralValue, numeralValue, Nat.ofDigitChars_append, Nat.ofDigitChars_append,
    Nat.ofDigitChars_replicate_zero, Nat.ofDigitChars_replicate_zero, Nat.mul_zero,
    List.length_append, List.length_replicate, pow_add, Nat.cast_mul, Nat.cast_pow,
    Nat.cast_ofNat]
  field_simp

theorem isDigit_of_mem_zeros {n : Nat} : ∀ c ∈ List.replicate n '0', c.isDigit = true := by
  intro c hc
  rw [List.eq_of_mem_replicate hc]
  rfl

theorem isDigit_of_mem_append {a b : List Char} (ha : ∀ c ∈ a, c.isDigit = true)
    (hb : ∀ c ∈ b, c.isDigit = true) : ∀ c ∈ a ++ b, c.isDigit = true :=
  fun c hc => (List.mem_append.1 hc).elim (ha c) (hb c)

theorem Piece.shaped_padded (h : (Piece.number whole fraction).Shaped) (before behind : Nat) :
    (Piece.number (List.replicate before '0' ++ whole)
      (fraction ++ List.replicate behind '0')).Shaped := by
  obtain ⟨hne, hwhole, hfraction⟩ := h
  exact ⟨List.append_ne_nil_of_right_ne_nil _ hne,
    isDigit_of_mem_append isDigit_of_mem_zeros hwhole,
    isDigit_of_mem_append hfraction isDigit_of_mem_zeros⟩

/-- Only the text of a number is read. -/
theorem Decimal.exists_of_read? {text : List Char} {d : Decimal} (h : Decimal.read? text = some d) :
    ∃ whole fraction, (Piece.number whole fraction).Shaped ∧
      text = (Piece.number whole fraction).text ∧ d = Decimal.ofDigits whole fraction := by
  have hwhole : ∀ c ∈ text.takeWhile Char.isDigit, c.isDigit = true := fun c hc =>
    List.mem_takeWhile_imp hc
  have hsplit := List.takeWhile_append_dropWhile (p := Char.isDigit) (l := text)
  rw [Decimal.read?] at h
  by_cases hempty : (text.takeWhile Char.isDigit).isEmpty = true
  · rw [if_pos hempty] at h
    cases h
  · rw [if_neg hempty] at h
    have hne : text.takeWhile Char.isDigit ≠ [] := fun hnil => hempty (by rw [hnil]; rfl)
    split at h
    · next hrest =>
      rw [hrest, List.append_nil] at hsplit
      exact ⟨_, [], ⟨hne, hwhole, by simp⟩, hsplit.symm, (Option.some.inj h).symm⟩
    · next fraction hrest =>
      split at h
      · cases h
      · next hdigits =>
        obtain ⟨hfne, hall⟩ : fraction ≠ [] ∧ fraction.all Char.isDigit = true := by
          simpa using hdigits
        obtain ⟨e, es, rfl⟩ := List.exists_cons_of_ne_nil hfne
        rw [hrest] at hsplit
        exact ⟨_, e :: es, ⟨hne, hwhole, List.all_eq_true.1 hall⟩, hsplit.symm,
          (Option.some.inj h).symm⟩
    · cases h

/-! ## Tokens of numbers -/

/-- The token of a number decodes it. -/
theorem Token.decodes_ofDigits (hs : (Piece.number whole fraction).Shaped) (line : Int) :
    Token.Decodes ⟨.number, (Piece.number whole fraction).text,
        some (.number ((Decimal.ofDigits whole fraction).toBinary64 false)), line⟩
      whole fraction ((Decimal.ofDigits whole fraction).toBinary64 false) where
  kind := rfl
  shaped := hs
  lexeme := rfl
  literal := rfl
  nearest := isNearest_numeralValue_iff.2 rfl

/-- A piece that begins with a digit is a number. -/
theorem Piece.isDigit_head_iff {p : Piece} {c : Char} (hs : p.Shaped) (h : p.text.head? = some c) :
    c.isDigit = true ↔ ∃ whole fraction, p = .number whole fraction := by
  have hclass := Piece.classify_of_head?_text hs h
  constructor
  · intro hdigit
    rw [classify_of_isDigit hdigit] at hclass
    cases p with
    | number whole fraction => exact ⟨whole, fraction, rfl⟩
    | _ => cases hclass
  · rintro ⟨whole, fraction, rfl⟩
    exact classify_eq_iff.1 hclass

theorem Token.Decodes.beginsWithDigit (h : t.Decodes whole fraction x) : t.BeginsWithDigit := by
  obtain ⟨c, more, htext⟩ := List.exists_cons_of_ne_nil (Piece.text_ne_nil h.shaped)
  have hhead : (Piece.number whole fraction).text.head? = some c := by rw [htext]; rfl
  exact ⟨c, h.lexeme ▸ hhead, (Piece.isDigit_head_iff h.shaped hhead).2 ⟨_, _, rfl⟩⟩

/-- A token is a number that decodes its digits, or else it neither begins with a digit nor has a
number as its value. -/
def Token.Faithful (t : Token) : Prop :=
  (∃ whole fraction x, t.Decodes whole fraction x) ∨
    ¬ t.BeginsWithDigit ∧ ∀ x, t.literal ≠ some (.number x)

theorem Piece.faithful_token? {p : Piece} {keywords : Keywords} {line : Int} (hs : p.Shaped)
    (h : p.token? keywords line = some t) : t.Faithful := by
  obtain ⟨kind, hkind, rfl⟩ := Option.map_eq_some_iff.1 h
  by_cases hnumber : ∃ whole fraction, p = .number whole fraction
  · obtain ⟨whole, fraction, rfl⟩ := hnumber
    obtain rfl := Option.some.inj hkind
    exact Or.inl ⟨_, _, _, Token.decodes_ofDigits hs line⟩
  · refine Or.inr ⟨?_, ?_⟩
    · rintro ⟨c, hhead, hdigit⟩
      exact hnumber ((Piece.isDigit_head_iff hs hhead).1 hdigit)
    · intro x hliteral
      cases p with
      | number whole fraction => exact hnumber ⟨whole, fraction, rfl⟩
      | _ => cases hliteral

theorem Token.faithful_endOfInput (line : Int) : (Token.endOfInput line).Faithful := by
  refine Or.inr ⟨?_, ?_⟩
  · rintro ⟨c, hhead, -⟩
    cases hhead
  · intro x hliteral
    cases hliteral

/-! ## Readings at any cursor -/

/-- The place that is read at a position is where a slice from it begins. -/
theorem Text.clampBound_of_index? {length i : Nat} {position : Int}
    (h : Text.index? length position = some i) :
    Text.clampBound length position = i ∧ i < length := by
  rw [Text.index?] at h
  rw [Text.clampBound]
  split at h
  · obtain rfl := Option.some.inj h
    rw [if_neg (by omega)]
    omega
  · split at h
    · obtain rfl := Option.some.inj h
      rw [if_pos (by omega)]
      omega
    · cases h

/-- A slice from a position shows first the character that is read there, if it shows any. -/
theorem Source.head?_slice {source : Source} {position bound : Int} {c d : Char} {rest : List Char}
    (hahead : source.ahead? position = some (c :: rest))
    (h : (Text.slice source.text position bound).head? = some d) : d = c := by
  obtain ⟨i, hindex, htext⟩ := Option.map_eq_some_iff.1 hahead
  obtain ⟨hstart, hinside⟩ := Text.clampBound_of_index? hindex
  have hread : source.text[i]? = some c := by
    rw [← List.head?_drop]
    split at htext
    · have hhead := congrArg List.head? htext
      rw [List.head?_append_of_ne_nil _ (by simpa using hinside)] at hhead
      exact hhead
    · rw [htext]
      rfl
  rw [Text.slice, hstart, List.head?_drop, List.getElem?_take] at h
  split at h
  · rw [hread] at h
    exact (Option.some.inj h).symm
  · cases h

theorem Source.faithful_of_tokenOf {source : Source} {cursor : Cursor} {r : Reading} {line : Int}
    (hread : source.read? cursor = some r) (h : source.tokenOf line r = .ok (some t)) :
    t.Faithful := by
  rw [Source.read?] at hread
  split at hread
  · next c rest hahead =>
    obtain rfl := Option.some.inj hread
    obtain ⟨more, htext, -⟩ := Piece.text_next c rest
    -- the lexeme begins with the character at the cursor, and that begins the piece
    have hother : (∀ whole fraction, Piece.next c rest ≠ .number whole fraction) →
        t.lexeme = Text.slice source.text cursor.current
          (cursor.current + (Piece.next c rest).text.length) →
        (∀ x, t.literal ≠ some (.number x)) → t.Faithful := by
      intro hnot hlexeme hliteral
      refine Or.inr ⟨?_, hliteral⟩
      rintro ⟨d, hhead, hdigit⟩
      rw [hlexeme] at hhead
      rw [Source.head?_slice hahead hhead] at hdigit
      have hfirst : (Piece.next c rest).text.head? = some c := by rw [htext]; rfl
      obtain ⟨whole, fraction, hnumber⟩ :=
        (Piece.isDigit_head_iff (Piece.shaped_next c rest) hfirst).1 hdigit
      exact hnot whole fraction hnumber
    simp only [Source.tokenOf] at h
    split at h
    · next body hpiece =>
      obtain rfl := Option.some.inj (Except.ok.inj h)
      exact hother (by simp [hpiece]) rfl (by simp)
    · -- the slice is read for itself, whatever the piece was
      split at h
      · next d hd =>
        obtain rfl := Option.some.inj (Except.ok.inj h)
        obtain ⟨whole, fraction, hs, hlexeme, rfl⟩ := Decimal.exists_of_read? hd
        rw [hlexeme]
        exact Or.inl ⟨whole, fraction, _, Token.decodes_ofDigits hs line⟩
      · cases h
    · next w hpiece =>
      obtain rfl := Option.some.inj (Except.ok.inj h)
      exact hother (by simp [hpiece]) rfl (by simp)
    · next hnot _ =>
      obtain ⟨kind, -, rfl⟩ := Option.map_eq_some_iff.1 (Except.ok.inj h)
      exact hother hnot rfl (by simp)
  · cases hread

theorem Token.Decodes.eq_toBinary64 (h : t.Decodes whole fraction x) :
    (Decimal.ofDigits whole fraction).toBinary64 false = x :=
  isNearest_numeralValue_iff.1 h.nearest

/-- The zeros that pad a number do not change what it is decoded to. -/
theorem Token.Decodes.toBinary64_padded (h : t.Decodes whole fraction x) (before behind : Nat) :
    (Decimal.ofDigits (List.replicate before '0' ++ whole)
      (fraction ++ List.replicate behind '0')).toBinary64 false = x := by
  rw [← h.eq_toBinary64]
  apply Decimal.toBinary64_congr
  rw [Decimal.value_ofDigits, Decimal.value_ofDigits, numeralValue_padded]

theorem Token.Decodes.magnitude_le (h : t.Decodes whole fraction x)
    (h' : t'.Decodes whole' fraction' x')
    (hle : numeralValue whole fraction ≤ numeralValue whole' fraction') :
    x.magnitude ≤ x'.magnitude := by
  rw [← h.eq_toBinary64, ← h'.eq_toBinary64]
  apply Decimal.magnitude_toBinary64_le
  rwa [Decimal.value_ofDigits, Decimal.value_ofDigits]

namespace Session

variable {s : Session} {a : Step}

theorem faithful_of_shown_scan (h : t ∈ s.scan.answer.shown) : t.Faithful := by
  have hmem : t ∈ s.source.scan.tokens := by
    simp only [scan] at h
    split at h
    · exact h
    · cases h
  obtain ⟨init, last, htokens, hinit⟩ :=
    exists_tokensFrom_eq_append s.source.keywords 1 (pieces s.source.text)
  rw [Source.scan, htokens] at hmem
  rcases List.mem_append.1 hmem with hmem | hmem
  · obtain ⟨p, hp, line, htoken⟩ := hinit t hmem
    exact Piece.faithful_token? (shaped_of_mem_maximalCut (maximalCut_pieces s.source.text) p hp)
      htoken
  · rw [List.mem_singleton.1 hmem]
    exact Token.faithful_endOfInput last

theorem faithful_of_shown_scanToken (h : t ∈ s.scanToken.answer.shown) : t.Faithful := by
  rw [scanToken] at h
  split at h
  · cases h
  · next r hread =>
    split at h
    · -- a fault shows no token
      simp only at h
      split at h <;> cases h
    · simp only at h
      split at h
      · next token htoken =>
        rw [Option.mem_toList.1 h] at htoken
        exact Source.faithful_of_tokenOf hread htoken
      · cases h

/-- A delivery shows no token, whether the sink accepts it or not. -/
theorem shown_outcome (reported : Reported) : reported.outcome.answer.shown = [] := by
  rw [Reported.outcome]
  split <;> rfl

/-- Every token that a session shows is faithful to its lexeme. -/
theorem faithful_of_shown (h : t ∈ (s.step a).answer.shown) : t.Faithful := by
  cases a with
  | scan => exact faithful_of_shown_scan h
  | scanToken => exact faithful_of_shown_scanToken h
  | edit index edit =>
    simp only [step, Session.edit] at h
    split at h <;> cases h
  | call line message =>
    rw [step, direct, shown_outcome] at h
    cases h
  | report d =>
    rw [step, direct, shown_outcome] at h
    cases h
  | reportAgain id =>
    rw [step, again] at h
    split at h
    · rw [shown_outcome] at h
      cases h
    · cases h
  | _ => cases h

theorem decodes_of_shown (h : t ∈ (s.step a).answer.shown) (hdigit : t.BeginsWithDigit) :
    ∃ whole fraction x, t.Decodes whole fraction x :=
  (faithful_of_shown h).resolve_right fun hnot => hnot.1 hdigit

theorem beginsWithDigit_iff_of_shown (h : t ∈ (s.step a).answer.shown) :
    t.BeginsWithDigit ↔ ∃ x, t.literal = some (.number x) := by
  constructor
  · intro hdigit
    obtain ⟨whole, fraction, x, hx⟩ := decodes_of_shown h hdigit
    exact ⟨x, hx.literal⟩
  · rintro ⟨x, hx⟩
    rcases faithful_of_shown h with ⟨whole, fraction, y, hy⟩ | ⟨-, hnot⟩
    · exact hy.beginsWithDigit
    · exact absurd hx (hnot x)

/-- A shown token with the lexeme of a number decodes it. -/
theorem literal_of_shown (h : t ∈ (s.step a).answer.shown)
    (hs : (Piece.number whole fraction).Shaped)
    (hlexeme : t.lexeme = (Piece.number whole fraction).text) :
    t.literal = some (.number ((Decimal.ofDigits whole fraction).toBinary64 false)) := by
  have hdigit : t.BeginsWithDigit := by
    rw [Token.BeginsWithDigit, hlexeme]
    exact (Token.decodes_ofDigits hs 1).beginsWithDigit
  obtain ⟨whole', fraction', x', hx'⟩ := decodes_of_shown h hdigit
  obtain ⟨rfl, rfl⟩ :=
    Piece.number.inj (Piece.eq_of_text_eq hx'.shaped hs (hx'.lexeme.symm.trans hlexeme))
  rw [hx'.literal, hx'.eq_toBinary64]

/-- A text of pieces without a fault among them is scanned as what the pieces give, and nothing is
delivered. -/
theorem scan_flatMap_text_of_clean (s : Session) {ps : List Piece} (hcut : MaximalCut ps)
    (hclean : ∀ p ∈ ps, ∀ line, p.fault? s.source.filename line = none) :
    let written := s.withText (ps.flatMap Piece.text)
    written.scan.answer = .tokens (tokensFrom s.source.keywords 1 ps) ∧
      written.scan.session = { written with errors := #[] } := by
  intro written
  have hpieces : pieces written.source.text = ps := pieces_of_maximalCut hcut
  have hscan : written.source.scan = ⟨tokensFrom s.source.keywords 1 ps, []⟩ := by
    rw [Source.scan, hpieces]
    exact congrArg (Scan.mk _) (Spaced.diagnosticsFrom_eq_nil hclean)
  obtain ⟨hanswer, hsession⟩ := scan_of_no_faults (s := written) (by rw [hscan])
  rw [hscan] at hanswer
  exact ⟨hanswer, hsession⟩

/-- A number that is all of a text is scanned as one token. -/
theorem scan_text_number (s : Session) (hs : (Piece.number whole fraction).Shaped) :
    let text := (Piece.number whole fraction).text
    let x := (Decimal.ofDigits whole fraction).toBinary64 false
    (s.withText text).scan.answer =
        .tokens [⟨.number, text, some (.number x), 1⟩, Token.endOfInput 1] ∧
      (s.withText text).scan.session = { s.withText text with errors := #[] } := by
  intro text x
  have hcut : MaximalCut [Piece.number whole fraction] := ⟨hs, Piece.endsBefore_nil _, trivial⟩
  have hscan := s.scan_flatMap_text_of_clean hcut fun p hp line => by
    rw [List.mem_singleton.1 hp]
    rfl
  rw [List.flatMap_singleton] at hscan
  exact hscan

theorem shown_scan_text_number (s : Session) (hs : (Piece.number whole fraction).Shaped) :
    let text := (Piece.number whole fraction).text
    let x := (Decimal.ofDigits whole fraction).toBinary64 false
    ((s.withText text).step .scan).answer.shown =
      [⟨.number, text, some (.number x), 1⟩, Token.endOfInput 1] :=
  congrArg Answer.shown (s.scan_text_number hs).1

/-- **Number literals are exact decodings.** A token that begins with a digit is a number, and no
other token has a number as its value. The value is the double nearest to what the digits denote:
infinite from half way behind the greatest finite double on, zero up to half the smallest one, and
never signed. Zeros that add nothing to the number change nothing, and the value is monotone. -/
theorem number_literals_exact (s : Session) (a : Step) :
    ∀ t ∈ (s.step a).answer.shown,
      (t.BeginsWithDigit ↔ ∃ x, t.literal = some (.number x)) ∧
      (t.BeginsWithDigit → ∃ whole fraction x, t.Decodes whole fraction x ∧
        (x.isZero = true ↔ numeralValue whole fraction ≤ 1 / 2 ^ 1075) ∧
        (∀ before behind,
          let padded := (Piece.number (List.replicate before '0' ++ whole)
            (fraction ++ List.replicate behind '0')).text
          (s.withText padded).scan.answer =
              .tokens [⟨.number, padded, t.literal, 1⟩, Token.endOfInput 1] ∧
            ∀ (s' : Session) (a' : Step), ∀ t' ∈ (s'.step a').answer.shown,
              t'.lexeme = padded → t'.literal = t.literal) ∧
        ∀ (s' : Session) (a' : Step), ∀ t' ∈ (s'.step a').answer.shown,
          ∀ whole' fraction' x', t'.Decodes whole' fraction' x' →
            numeralValue whole fraction ≤ numeralValue whole' fraction' →
            x.magnitude ≤ x'.magnitude ∧ (x'.Finite → x.Finite ∧ x.value ≤ x'.value)) := by
  intro t ht
  refine ⟨beginsWithDigit_iff_of_shown ht, fun hdigit => ?_⟩
  obtain ⟨whole, fraction, x, hx⟩ := decodes_of_shown ht hdigit
  refine ⟨whole, fraction, x, hx, ?_, ?_, ?_⟩
  · rw [← hx.eq_toBinary64, Decimal.isZero_toBinary64_iff, Decimal.value_ofDigits]
  · intro before behind padded
    have hs := Piece.shaped_padded hx.shaped before behind
    rw [hx.literal, ← hx.toBinary64_padded before behind]
    exact ⟨(s.scan_text_number hs).1, fun s' a' t' ht' => literal_of_shown ht' hs⟩
  · intro s' a' t' ht' whole' fraction' x' hx' hle
    have hmagnitude := hx.magnitude_le hx' hle
    exact ⟨hmagnitude, fun hfinite => ⟨hmagnitude.trans_lt hfinite, value_le_iff.2 hmagnitude⟩⟩

/-- An integer half way between two doubles is decoded to the even one, which is smaller. -/
theorem number_literals_exact_at_tie :
    let s := start { text := "9007199254740993".toList }
    let t : Token :=
      ⟨.number, "9007199254740993".toList, some (.number (ofBits 0x4340000000000000)), 1⟩
    (s.step .scan).answer.shown = [t, Token.endOfInput 1] ∧ t.BeginsWithDigit ∧
      ∃ whole fraction x, t.Decodes whole fraction x ∧
        (x.isZero = true ↔ numeralValue whole fraction ≤ 1 / 2 ^ 1075) := by
  intro s t
  have hshaped : (Piece.number "9007199254740993".toList []).Shaped := by
    simp [Piece.Shaped]
  have hvalue : (Decimal.ofDigits "9007199254740993".toList []).toBinary64 false =
      ofBits 0x4340000000000000 := by decide +kernel
  have hshown : (s.step .scan).answer.shown = [t, Token.endOfInput 1] := by
    have hscan := s.shown_scan_text_number hshaped
    rw [hvalue] at hscan
    exact hscan
  have hdigit : t.BeginsWithDigit := ⟨'9', rfl, rfl⟩
  obtain ⟨-, hexact⟩ := number_literals_exact s .scan t (by rw [hshown]; exact List.mem_cons_self)
  obtain ⟨whole, fraction, x, hx, hzero, -⟩ := hexact hdigit
  exact ⟨hshown, hdigit, whole, fraction, x, hx, hzero⟩

end Session

end ScriptLexer
