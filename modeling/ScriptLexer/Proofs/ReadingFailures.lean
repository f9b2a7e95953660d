import ScriptLexer.Proofs.WrappedReading

/-!
# When a reading fails

A reading fails for one of three reasons. The cursor may lie outside the source, the sink may refuse
a fault, and a number may show no number. The last needs a number that has run around the end: then
the source has between its two ends what was consumed of the number twice, and that is empty if the
number ends before its own first digit (`Source.LosesNumber`). Otherwise it is a number again.

So with a sink that refuses nothing, **the source and the cursor decide whether a reading fails and
how**, and a reading that fails moves nothing but the cursor (`Session.scanToken_fails_exactly`).
-/

namespace ScriptLexer

namespace Source

/-- A digit stands at the position. -/
def DigitAt (source : Source) (a : Int) : Prop := ∃ d, source.charAt? a = some d ∧ d.isDigit = true

/-- What lies ahead of `a` begins with a number, and no longer one than up to `b`. -/
def NumberUpTo (source : Source) (a b : Int) : Prop :=
  ∃ whole fraction after, (Piece.number whole fraction).Shaped ∧
    source.textAhead a = (Piece.number whole fraction).text ++ after ∧
    (Piece.number whole fraction).EndsBefore after ∧
    b = a + (Piece.number whole fraction).text.length

/-- The number that begins at `a` runs around the end of the text, up to `b`, and does not get
behind its own first digit again. -/
def LosesNumber (source : Source) (a b : Int) : Prop :=
  a < 0 ∧ (∃ d, source.text[(source.text.length + a).toNat]? = some d ∧ d.isDigit = true) ∧
    0 ≤ b ∧ b ≤ source.text.length + a

variable {source : Source} {a b : Int} {p : Piece} {after : List Char}

/-- The character at a negative position, counted from the front. -/
theorem charAt?_of_neg (hlow : -(source.text.length : Int) ≤ a) (hneg : a < 0) :
    source.charAt? a = source.text[(source.text.length + a).toNat]? := by
  rw [charAt?, Text.index?, if_neg (by omega), if_pos (by omega), Option.bind_some, Int.add_comm]

/-- The piece that lies ahead of a digit is a number. -/
theorem digitAt_iff (hs : p.Shaped) (hinside : ¬ source.Outside a)
    (hahead : source.textAhead a = p.text ++ after) :
    source.DigitAt a ↔ ∃ whole fraction, p = .number whole fraction := by
  obtain ⟨hlow, hhigh⟩ := inside_of_not_outside hinside
  obtain ⟨c, more, htext⟩ := List.exists_cons_of_ne_nil (Piece.text_ne_nil hs)
  have hsees := sees_of_ahead? (ahead?_of_inside hlow hhigh)
  rw [hahead, htext, List.cons_append] at hsees
  have hhead : p.text.head? = some c := by rw [htext]; rfl
  rw [← Piece.isDigit_head_iff hs hhead, DigitAt, hsees.charAt?_eq]
  simp

/-- Only a number can fail to be shown. -/
theorem exists_tokenOf (source : Source) (hnot : ∀ whole fraction, p ≠ .number whole fraction)
    (line lineAfter : Int) : ∃ t, source.tokenOf line ⟨p, a, b, lineAfter⟩ = .ok t := by
  cases p with
  | number whole fraction => exact absurd rfl (hnot whole fraction)
  | _ => exact ⟨_, rfl⟩

/-- **What is shown of a number is a number**, unless it is lost. -/
theorem exists_decodes {whole fraction : List Char} (hs : (Piece.number whole fraction).Shaped)
    (hinside : ¬ source.Outside a)
    (hahead : source.textAhead a = (Piece.number whole fraction).text ++ after)
    (hb : a + (Piece.number whole fraction).text.length = b) (hkept : ¬ source.LosesNumber a b)
    (line lineAfter : Int) :
    ∃ t w f x, source.tokenOf line ⟨.number whole fraction, a, b, lineAfter⟩ = .ok (some t) ∧
      t.Decodes w f x := by
  obtain ⟨hlow, hhigh⟩ := inside_of_not_outside hinside
  by_cases hside : 0 ≤ a ∨ b < 0
  · rw [← hb] at hside ⊢
    exact ⟨_, _, _, _, tokenOf_of_oneSide hs hlow hhigh hahead hside line lineAfter,
      Token.decodes_ofDigits hs line⟩
  · obtain ⟨hneg, hnonneg⟩ := not_or.1 hside
    have hdigit := (digitAt_iff hs hinside hahead).2 ⟨whole, fraction, rfl⟩
    rw [DigitAt, charAt?_of_neg hlow (Int.not_le.1 hneg)] at hdigit
    have hfar : source.text.length + a < b := by
      refine Int.not_le.1 fun hnear => hkept ?_
      exact ⟨Int.not_le.1 hneg, hdigit, Int.not_lt.1 hnonneg, hnear⟩
    have hlength := (sees_of_ahead? (ahead?_of_inside hlow hhigh)).length
    rw [hahead, List.length_append] at hlength
    obtain ⟨t, x, htoken, -, -, hdecodes⟩ := tokenOf_number_around hs hlow hahead
      (Int.not_le.1 hneg) hb hfar (by omega) line lineAfter
    exact ⟨t, _, _, x, htoken, hdecodes⟩

end Source

namespace Session

variable {s : Session}

/-- What becomes of a reading whose faults are accepted. -/
inductive Fate (s : Session) : Prop where
  | outside : s.source.Outside s.cursor.current →
      s.scanToken.answer = .failed (.atPosition .outsideSource s.cursor.current) →
      s.scanToken.session = s.withCursor { s.cursor with start := s.cursor.current } →
      s.scanToken.records = [] → Fate s
  | lost : ¬ s.source.Outside s.cursor.current →
      s.source.LosesNumber s.cursor.current s.scanToken.session.cursor.current →
      s.scanToken.answer = .failed (.notANumber []) →
      s.scanToken.session = s.withCursor
        ⟨s.cursor.current, s.scanToken.session.cursor.current, s.cursor.line⟩ →
      s.scanToken.records = [] → Fate s
  | read (t : Option Token) : ¬ s.source.Outside s.cursor.current →
      ¬ s.source.LosesNumber s.cursor.current s.scanToken.session.cursor.current →
      s.scanToken.answer = .token t →
      (s.source.DigitAt s.cursor.current → ∃ n whole fraction x, t = some n ∧
        n.lexeme = Text.slice s.source.text s.cursor.current s.scanToken.session.cursor.current ∧
        n.Decodes whole fraction x) → Fate s

theorem fate_of_outside (houtside : s.source.Outside s.cursor.current) : s.Fate := by
  have hread : s.source.read? s.cursor = none := by
    rw [Source.read?, Source.ahead?_eq_none_iff.2 houtside]
  refine .outside houtside ?_ ?_ ?_
  · simp only [scanToken, hread]
  · simp only [scanToken, hread]
    rfl
  · simp only [scanToken, hread]

variable {p : Piece} {after : List Char}

theorem fate_of_number {whole fraction : List Char} (hs : (Piece.number whole fraction).Shaped)
    (hinside : ¬ s.source.Outside s.cursor.current)
    (hahead : s.source.textAhead s.cursor.current = (Piece.number whole fraction).text ++ after)
    (hreads : s.ReadsAt (.number whole fraction)) : s.Fate := by
  have hend : s.cursor.current + (Piece.number whole fraction).text.length =
      s.scanToken.session.cursor.current := by
    rw [hreads.cursor]
  have hanswer := hreads.shown rfl
  rw [hend] at hanswer
  by_cases hlost : s.source.LosesNumber s.cursor.current s.scanToken.session.cursor.current
  · obtain ⟨hneg, -, hnonneg, hnear⟩ := id hlost
    obtain ⟨hlow, -⟩ := Source.inside_of_not_outside hinside
    refine .lost hinside hlost ?_ ?_ hreads.records
    · rw [hanswer, Source.tokenOf_number_lost hlow hneg hnonneg hnear]
      rfl
    · -- a number ends no line, and its cursor is the only thing that moves
      rw [← hend]
      exact hreads.session.trans (congrArg s.withCursor (congrArg (Cursor.mk _ _) (Int.add_zero _)))
  · obtain ⟨t, w, f, x, htoken, hdecodes⟩ := Source.exists_decodes hs hinside hahead hend hlost
      s.cursor.line (s.cursor.line + (Piece.number whole fraction).lines)
    obtain ⟨hlexeme, -⟩ := Source.lexeme_of_tokenOf htoken
    refine .read (some t) hinside hlost ?_ ?_
    · rw [hanswer, htoken]
      rfl
    · intro _
      exact ⟨t, w, f, x, rfl, hlexeme, hdecodes⟩

theorem fate_of_not_number (hs : p.Shaped) (hinside : ¬ s.source.Outside s.cursor.current)
    (hahead : s.source.textAhead s.cursor.current = p.text ++ after) (hreads : s.ReadsAt p)
    (hnot : ∀ whole fraction, p ≠ .number whole fraction) (hopen : s.sink.Open) : s.Fate := by
  have hdigit : ¬ s.source.DigitAt s.cursor.current := by
    intro hdigit
    obtain ⟨whole, fraction, hp⟩ := (Source.digitAt_iff hs hinside hahead).1 hdigit
    exact hnot whole fraction hp
  have hkept : ¬ s.source.LosesNumber s.cursor.current s.scanToken.session.cursor.current := by
    rintro ⟨hneg, hchar, -⟩
    rw [← Source.charAt?_of_neg (Source.inside_of_not_outside hinside).1 hneg] at hchar
    exact hdigit hchar
  obtain ⟨t, ht⟩ : ∃ t, s.scanToken.answer = .token t := by
    cases hfault : p.fault? s.source.filename s.cursor.line with
    | some d =>
      refine ⟨none, ?_⟩
      rw [hreads.fault (Option.isSome_of_eq_some hfault), hopen 0, if_pos rfl]
    | none =>
      obtain ⟨t, ht⟩ := s.source.exists_tokenOf hnot s.cursor.line (s.cursor.line + p.lines)
      refine ⟨t, (hreads.shown hfault).trans ?_⟩
      rw [ht]
      rfl
  exact .read t hinside hkept ht fun h => absurd h hdigit

theorem fate_of_open (hopen : s.sink.Open) : s.Fate := by
  by_cases houtside : s.source.Outside s.cursor.current
  · exact fate_of_outside houtside
  · obtain ⟨hlow, hhigh⟩ := Source.inside_of_not_outside houtside
    obtain ⟨p, after, hs, hahead, -, hreads, -⟩ := exists_readsAt hlow hhigh
    by_cases hnumber : ∃ whole fraction, p = .number whole fraction
    · obtain ⟨whole, fraction, rfl⟩ := hnumber
      exact fate_of_number hs houtside hahead hreads
    · refine fate_of_not_number hs houtside hahead hreads ?_ hopen
      intro whole fraction hp
      exact hnumber ⟨whole, fraction, hp⟩

/-- At a digit the longest number is read. -/
theorem numberUpTo_of_digitAt (hinside : ¬ s.source.Outside s.cursor.current)
    (hdigit : s.source.DigitAt s.cursor.current) :
    s.source.NumberUpTo s.cursor.current s.scanToken.session.cursor.current := by
  obtain ⟨hlow, hhigh⟩ := Source.inside_of_not_outside hinside
  obtain ⟨p, after, hs, hahead, hends, hreads, -⟩ := exists_readsAt hlow hhigh
  obtain ⟨whole, fraction, rfl⟩ := (Source.digitAt_iff hs hinside hahead).1 hdigit
  refine ⟨whole, fraction, after, hs, hahead, hends, ?_⟩
  rw [hreads.cursor]

theorem Fate.outside_iff (h : s.Fate) :
    (s.scanToken.answer = .failed .outsideSource ∨ s.scanToken.answer = .failed .tooWide) ↔
      s.source.Outside s.cursor.current := by
  cases h with
  | outside houtside hanswer =>
    refine iff_of_true ?_ houtside
    rw [hanswer, Failure.atPosition]
    split
    · exact Or.inl rfl
    · exact Or.inr rfl
  | lost hinside _ hanswer =>
    refine iff_of_false ?_ hinside
    rw [hanswer]
    simp
  | read t hinside _ hanswer =>
    refine iff_of_false ?_ hinside
    rw [hanswer]
    simp

theorem Fate.notANumber_iff (h : s.Fate) :
    (∃ text, s.scanToken.answer = .failed (.notANumber text)) ↔
      ¬ s.source.Outside s.cursor.current ∧
        s.source.LosesNumber s.cursor.current s.scanToken.session.cursor.current := by
  cases h with
  | outside houtside hanswer =>
    refine iff_of_false ?_ fun h => h.1 houtside
    rw [hanswer, Failure.atPosition]
    split <;> simp
  | lost hinside hlost hanswer => exact iff_of_true ⟨[], hanswer⟩ ⟨hinside, hlost⟩
  | read t _ hkept hanswer =>
    refine iff_of_false ?_ fun h => hkept h.2
    rw [hanswer]
    simp

theorem Fate.failure (h : s.Fate) {f : Failure} (hf : s.scanToken.answer = .failed f) :
    f = .outsideSource ∨ f = .tooWide ∨ f = .notANumber [] := by
  cases h with
  | outside _ hanswer =>
    rw [hanswer, Failure.atPosition] at hf
    obtain rfl := Answer.failed.inj hf
    split <;> simp
  | lost _ _ hanswer =>
    rw [hanswer] at hf
    exact Or.inr (Or.inr (Answer.failed.inj hf).symm)
  | read t _ _ hanswer =>
    rw [hanswer] at hf
    cases hf

/-- **How a reading fails, and when.** It fails at a cursor outside the source, where nothing but
the start of the piece is changed, and at a number that is lost, where the cursor has moved behind
it. At every other digit a number is shown, and no look-up on the way leaves the source. -/
theorem scanToken_fails_exactly (s : Session) (hopen : s.sink.Open) :
    let a := s.cursor.current
    let o := s.scanToken
    let b := o.session.cursor.current
    ((o.answer = .failed .outsideSource ∨ o.answer = .failed .tooWide) ↔ s.source.Outside a) ∧
      (s.source.Outside a →
        o.session = s.withCursor { s.cursor with start := a } ∧ o.records = []) ∧
      ((∃ text, o.answer = .failed (.notANumber text)) ↔
        ¬ s.source.Outside a ∧ s.source.LosesNumber a b) ∧
      (¬ s.source.Outside a → s.source.LosesNumber a b →
        o.session = s.withCursor ⟨a, b, s.cursor.line⟩ ∧ o.records = []) ∧
      (∀ f, o.answer = .failed f → f = .outsideSource ∨ f = .tooWide ∨ f = .notANumber []) ∧
      (¬ s.source.Outside a → ¬ s.source.LosesNumber a b → ∃ t, o.answer = .token t) ∧
      (¬ s.source.Outside a → s.source.DigitAt a → s.source.NumberUpTo a b ∧
        (¬ s.source.LosesNumber a b → ∃ t whole fraction x, o.answer = .token (some t) ∧
          t.lexeme = Text.slice s.source.text a b ∧ t.Decodes whole fraction x)) ∧
      o = s.walkToken ∧ (s.source.walk? s.cursor = none ↔ s.source.Outside a) := by
  intro a o b
  have hfate := fate_of_open hopen
  -- there are three ways to end, and each of the two conditions picks out one
  refine ⟨hfate.outside_iff, ?_, hfate.notANumber_iff, ?_, fun f => hfate.failure, ?_, ?_,
    scanToken_eq_walkToken s, Source.walk?_eq_none_iff⟩
  · intro houtside
    cases hfate with
    | outside _ _ hsession hrecords => exact ⟨hsession, hrecords⟩
    | lost hinside => exact absurd houtside hinside
    | read t hinside => exact absurd houtside hinside
  · intro hinside hlost
    cases hfate with
    | outside houtside => exact absurd houtside hinside
    | lost _ _ _ hsession hrecords => exact ⟨hsession, hrecords⟩
    | read t _ hkept => exact absurd hlost hkept
  · intro hinside hkept
    cases hfate with
    | outside houtside => exact absurd houtside hinside
    | lost _ hlost => exact absurd hlost hkept
    | read t _ _ hanswer => exact ⟨t, hanswer⟩
  · intro hinside hdigit
    refine ⟨numberUpTo_of_digitAt hinside hdigit, ?_⟩
    intro hkept
    cases hfate with
    | outside houtside => exact absurd houtside hinside
    | lost _ hlost => exact absurd hlost hkept
    | read t _ _ hanswer hshown =>
      obtain ⟨n, whole, fraction, x, rfl, hlexeme, hdecodes⟩ := hshown hdigit
      exact ⟨n, whole, fraction, x, hanswer, hlexeme, hdecodes⟩

/-- The last character of `a1`, counted from the back: the number ends where the text begins. -/
theorem scanToken_fails_exactly_of_lost_number :
    let s := (start { text := "a1".toList }).withCursor ⟨5, -1, 2⟩
    s.sink.Open ∧ s.source.LosesNumber (-1) 0 ∧
      (∃ text, s.scanToken.answer = .failed (.notANumber text)) ∧
      s.scanToken.session = s.withCursor ⟨-1, 0, 2⟩ := by
  intro s
  have hopen : s.sink.Open := fun _ => rfl
  have hinside : ¬ s.source.Outside s.cursor.current := by
    rw [Source.Outside]
    decide
  have hlost : s.source.LosesNumber (-1) 0 := ⟨by decide, ⟨'1', rfl, rfl⟩, by decide, by decide⟩
  obtain ⟨-, -, hnumber, hsession, -⟩ := scanToken_fails_exactly s hopen
  exact ⟨hopen, hlost, hnumber.2 ⟨hinside, hlost⟩, (hsession hinside hlost).1⟩

end Session

end ScriptLexer
