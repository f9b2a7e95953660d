import ScriptLexer.Proofs.CharacterWalk
import ScriptLexer.Proofs.PrintedDoubles

/-!
# Readings that run around the end

A reading depends on nothing but the text ahead of its cursor (`Source.textAhead`), so it finds the
same piece that a reading of that text alone finds from its beginning. What is shown of the piece
are slices of the source, and there positions count again: as long as both ends of the reading lie
on the same side of the beginning of the source, the slices are the text of the piece. Once the
reading has run around from a negative position to one that is not, they are what the source has
between its two ends, which may be nothing at all.

A number that has run around past its own first digit is the delicate case. The slice is then a part
of the number that was consumed twice, in front and behind, and **as a number has one point at most,
that part has none** (`Piece.isDigit_of_repeated`). So it is a number again.
-/

namespace ScriptLexer

namespace Text

variable {s : List Char} {a b : Int}

/-- A negative bound inside the text counts from the end. -/
theorem clampBound_add_length (hlow : -(s.length : Int) ≤ a) (hneg : a < 0) :
    clampBound s.length a = clampBound s.length (s.length + a) := by
  rw [clampBound, clampBound, if_pos hneg, if_neg (by omega), Int.add_comm]

/-- Both bounds may be counted from the front instead. -/
theorem slice_add_length (ha : -(s.length : Int) ≤ a ∧ a < 0) (hb : -(s.length : Int) ≤ b ∧ b < 0) :
    slice s a b = slice s (s.length + a) (s.length + b) := by
  rw [slice, slice, clampBound_add_length ha.1 ha.2, clampBound_add_length hb.1 hb.2]

/-- From a negative position up to one that is not. -/
theorem slice_around (ha : -(s.length : Int) ≤ a ∧ a < 0) (hb : 0 ≤ b ∧ b ≤ s.length) :
    slice s a b = (s.take b.toNat).drop (s.length + a).toNat := by
  have hstart : clampBound s.length a = (s.length + a).toNat := by
    rw [clampBound, if_pos ha.2]
    omega
  have hend : clampBound s.length b = b.toNat := by
    rw [clampBound, if_neg (by omega)]
    omega
  rw [slice, hstart, hend]

end Text

namespace Piece

variable {whole fraction : List Char}

theorem count_point_le_one (hs : (number whole fraction).Shaped) :
    (number whole fraction).text.count '.' ≤ 1 := by
  have hnone : ∀ w : List Char, (∀ d ∈ w, d.isDigit = true) → w.count '.' = 0 := by
    intro w hw
    refine List.count_eq_zero.2 fun hmem => ?_
    exact absurd (hw _ hmem) (by decide)
  obtain ⟨-, hwhole, hfraction⟩ := hs
  rw [text_number, List.count_append, hnone whole hwhole]
  split
  · simp
  · rw [List.count_cons_self, hnone fraction hfraction]

/-- What stands in a number twice has no point in it. -/
theorem isDigit_of_repeated {shown between : List Char} (hs : (number whole fraction).Shaped)
    (h : (number whole fraction).text = shown ++ between ++ shown) :
    ∀ d ∈ shown, d.isDigit = true := by
  have hcount := count_point_le_one hs
  rw [h, List.count_append, List.count_append] at hcount
  intro d hd
  have hmem : d ∈ (number whole fraction).text := by
    rw [h]
    exact List.mem_append_right _ hd
  rcases mem_text_number hs d hmem with hdigit | rfl
  · exact hdigit
  · -- a point would be counted in front and behind
    have hpos := List.count_pos_iff.2 hd
    omega

/-- Digits are a number without a fraction. -/
theorem shaped_of_digits (hne : whole ≠ []) (hdigits : ∀ d ∈ whole, d.isDigit = true) :
    (number whole []).Shaped := by
  refine ⟨hne, hdigits, ?_⟩
  intro d hd
  cases hd

end Piece

namespace Source

variable {source : Source} {a : Int} {p : Piece} {after : List Char}

/-! ## Readings on one side of the beginning -/

/-- A piece that ends before the text does stands in the text. -/
theorem text_eq_of_behind (hlow : -(source.text.length : Int) ≤ a) (hneg : a < 0)
    (hahead : source.textAhead a = p.text ++ after) (hend : a + p.text.length < 0) :
    ∃ after', source.text =
      source.text.take (source.text.length + a).toNat ++ (p.text ++ after') := by
  rw [textAhead, if_neg (Int.not_le.2 hneg)] at hahead
  have hprefix : p.text <+: source.text.drop (source.text.length + a).toNat := by
    refine List.prefix_of_prefix_length_le ⟨after, hahead.symm⟩ (List.prefix_append _ _) ?_
    rw [List.length_drop]
    omega
  obtain ⟨after', hafter⟩ := hprefix
  refine ⟨after', ?_⟩
  rw [hafter, List.take_append_drop]

/-- The token shows the same slices when both ends are counted from the front. -/
theorem tokenOf_add_length (hs : p.Shaped) (hlow : -(source.text.length : Int) ≤ a)
    (hend : a + p.text.length < 0) (line lineAfter : Int) :
    source.tokenOf line ⟨p, a, a + p.text.length, lineAfter⟩ =
      source.tokenOf line ⟨p, source.text.length + a, source.text.length + a + p.text.length,
        lineAfter⟩ := by
  have hpos := List.length_pos_iff.2 (Piece.text_ne_nil hs)
  have hlexeme : Text.slice source.text a (a + p.text.length) =
      Text.slice source.text (source.text.length + a)
        (source.text.length + a + p.text.length) := by
    rw [Text.slice_add_length (by omega) (by omega), Int.add_assoc]
  cases p with
  | string body =>
    have hlength : (Piece.string body).text.length = body.length + 2 := by simp [Piece.text]
    have hvalue : Text.slice source.text (a + 1) (a + (Piece.string body).text.length - 1) =
        Text.slice source.text (source.text.length + a + 1)
          (source.text.length + a + (Piece.string body).text.length - 1) := by
      rw [Text.slice_add_length (by omega) (by omega), Int.add_assoc, ← Int.add_sub_assoc,
        Int.add_assoc _ a]
    simp only [tokenOf, hlexeme, hvalue]
  | _ => simp only [tokenOf, hlexeme]

/-- **Where a reading does not run around, the source shows the piece.** -/
theorem tokenOf_of_oneSide (hs : p.Shaped) (hlow : -(source.text.length : Int) ≤ a)
    (hhigh : a < source.text.length) (hahead : source.textAhead a = p.text ++ after)
    (hside : 0 ≤ a ∨ a + p.text.length < 0) (line lineAfter : Int) :
    source.tokenOf line ⟨p, a, a + p.text.length, lineAfter⟩ =
      .ok (p.token? source.keywords line) := by
  -- from a negative position the reading has to be moved to the front first
  by_cases hneg : a < 0
  · have hend : a + p.text.length < 0 := hside.resolve_left (Int.not_le.2 hneg)
    obtain ⟨after', htext⟩ := text_eq_of_behind hlow hneg hahead hend
    have hbefore : ((source.text.take (source.text.length + a).toNat).length : Int) =
        source.text.length + a := by
      rw [List.length_take_of_le] <;> omega
    rw [tokenOf_add_length hs hlow hend, ← hbefore]
    exact tokenOf_at htext hs line lineAfter
  · have hnonneg := Int.not_lt.1 hneg
    have hbefore : ((source.text.take a.toNat).length : Int) = a := by
      rw [List.length_take_of_le] <;> omega
    have htext : source.text = source.text.take a.toNat ++ (p.text ++ after) := by
      rw [← hahead, textAhead, if_pos hnonneg, List.take_append_drop]
    have htoken := tokenOf_at htext hs line lineAfter
    rwa [hbefore] at htoken

/-! ## Readings that have run around -/

/-- How the token `t` of the text ahead is shown by a reading that has run around from `a` to `b`. -/
structure ShownAround (source : Source) (a b : Int) (t : Token) (answer : Answer) : Prop where
  /-- What is shown stands between the two ends, counted from the front. -/
  slice : Text.slice source.text a b =
    (source.text.take b.toNat).drop (source.text.length + a).toNat
  string : ∀ value, t.literal = some (.text value) →
    answer = .token (some ⟨t.kind, Text.slice source.text a b,
      some (.text (Text.slice source.text (a + 1) (b - 1))), t.line⟩)
  /-- What is shown of a number is decoded for itself. -/
  number : ∀ x, t.literal = some (.number x) → source.text.length + a < b →
    ∃ shown y, answer = .token (some shown) ∧ shown.lexeme = Text.slice source.text a b ∧
      shown.line = t.line ∧ shown.Decodes (Text.slice source.text a b) [] y
  noNumber : ∀ x, t.literal = some (.number x) → b ≤ source.text.length + a →
    answer = .failed (.notANumber [])
  /-- What is shown of a word is looked up for itself. -/
  word : t.literal = none → IsWord t.lexeme →
    answer = .token (some ⟨source.keywords.kindOf (Text.slice source.text a b),
      Text.slice source.text a b, none, t.line⟩)
  other : t.literal = none → ¬ IsWord t.lexeme →
    answer = .token (some ⟨t.kind, Text.slice source.text a b, none, t.line⟩)

/-- What is shown of a piece stands in it twice, in front and behind. -/
theorem text_eq_of_around {b : Int} (hlow : -(source.text.length : Int) ≤ a)
    (hahead : source.textAhead a = p.text ++ after) (hneg : a < 0)
    (hb : a + p.text.length = b) (hfar : source.text.length + a ≤ b)
    (hhigh : b ≤ source.text.length) :
    let shown := (source.text.take b.toNat).drop (source.text.length + a).toNat
    ∃ between, p.text = shown ++ between ++ shown := by
  intro shown
  let i := (source.text.length + a).toNat
  have hi : i = (source.text.length + a).toNat := rfl
  -- the piece begins with what lies behind `i` and ends with what lies before `b`
  have htake : source.text.take b.toNat = source.text.take i ++ shown := by
    have hmin : min i b.toNat = i := by omega
    rw [← List.take_append_drop i (source.text.take b.toNat), List.take_take, hmin]
  have hdrop : source.text.drop i = shown ++ source.text.drop b.toNat := by
    have hshown : shown = (source.text.drop i).take (b.toNat - i) := List.drop_take
    have hnext : i + (b.toNat - i) = b.toNat := by omega
    conv_lhs => rw [← List.take_append_drop (b.toNat - i) (source.text.drop i)]
    rw [hshown, List.drop_drop, hnext]
  have htext : p.text = source.text.drop i ++ source.text.take b.toNat := by
    rw [textAhead, if_neg (Int.not_le.2 hneg)] at hahead
    have hlength : p.text.length = (source.text.drop i).length + b.toNat := by
      rw [List.length_drop]
      omega
    calc p.text = (p.text ++ after).take p.text.length := List.take_left.symm
      _ = source.text.drop i ++ source.text.take b.toNat := by
        rw [← hahead, hlength, List.take_length_add_append]
  refine ⟨source.text.drop b.toNat ++ source.text.take i, ?_⟩
  rw [htext, htake, hdrop]
  simp only [List.append_assoc]

variable {line lineAfter b : Int} {t : Token}

/-- The answer for what is shown of a piece. -/
def answerFor : Except NotANumber (Option Token) → Answer
  | .ok token => .token token
  | .error e => .failed (.notANumber e.text)

theorem tokenOf_eq_none (h : p.token? source.keywords line = none) :
    source.tokenOf line ⟨p, a, b, lineAfter⟩ = .ok none := by
  have hkind : p.kind? source.keywords = none := Option.map_eq_none_iff.1 h
  cases p with
  | string body => cases hkind
  | number whole fraction => cases hkind
  | word w => cases hkind
  | _ => simp only [tokenOf, hkind, Option.map_none]

/-- A number that has run around shows a part of itself with no point in it. -/
theorem tokenOf_number_around {whole fraction : List Char}
    (hs : (Piece.number whole fraction).Shaped) (hlow : -(source.text.length : Int) ≤ a)
    (hahead : source.textAhead a = (Piece.number whole fraction).text ++ after) (hneg : a < 0)
    (hb : a + (Piece.number whole fraction).text.length = b) (hfar : source.text.length + a < b)
    (hhigh : b ≤ source.text.length) (line lineAfter : Int) :
    ∃ shown x, source.tokenOf line ⟨.number whole fraction, a, b, lineAfter⟩ = .ok (some shown) ∧
      shown.lexeme = Text.slice source.text a b ∧ shown.line = line ∧
      shown.Decodes (Text.slice source.text a b) [] x := by
  obtain ⟨between, htext⟩ := text_eq_of_around hlow hahead hneg hb (Int.le_of_lt hfar) hhigh
  rw [← Text.slice_around ⟨hlow, hneg⟩ (by omega)] at htext
  have hne : Text.slice source.text a b ≠ [] := by
    rw [Text.slice_around ⟨hlow, hneg⟩ (by omega), List.ne_nil_iff_length_pos, List.length_drop,
      List.length_take]
    omega
  have hshaped := Piece.shaped_of_digits hne (Piece.isDigit_of_repeated hs htext)
  have hread : Decimal.read? (Text.slice source.text a b) =
      some (Decimal.ofDigits (Text.slice source.text a b) []) :=
    Decimal.read?_text_number hshaped
  refine ⟨_, _, ?_, rfl, rfl, Token.decodes_ofDigits hshaped line⟩
  simp only [tokenOf, hread]
  rfl

/-- A number that ends before its own first digit shows nothing. -/
theorem tokenOf_number_lost {whole fraction : List Char}
    (hlow : -(source.text.length : Int) ≤ a) (hneg : a < 0) (hnonneg : 0 ≤ b)
    (hnear : b ≤ source.text.length + a) :
    source.tokenOf line ⟨.number whole fraction, a, b, lineAfter⟩ = .error ⟨[]⟩ := by
  have hnil : Text.slice source.text a b = [] := by
    rw [Text.slice_around ⟨hlow, hneg⟩ (by omega), List.drop_eq_nil_iff, List.length_take]
    omega
  simp only [tokenOf, hnil]
  rfl

theorem shownAround_of_token? (hs : p.Shaped) (hlow : -(source.text.length : Int) ≤ a)
    (hahead : source.textAhead a = p.text ++ after) (hneg : a < 0)
    (hb : a + p.text.length = b) (hnonneg : 0 ≤ b) (hhigh : b ≤ source.text.length)
    (ht : p.token? source.keywords line = some t) :
    source.ShownAround a b t (answerFor (source.tokenOf line ⟨p, a, b, lineAfter⟩)) := by
  have hslice := Text.slice_around ⟨hlow, hneg⟩ ⟨hnonneg, hhigh⟩
  have hword := isWord_text_iff hs
  obtain ⟨kind, hkind, rfl⟩ := Option.map_eq_some_iff.1 ht
  -- what is done with the slice depends on the piece that was consumed, not on the slice
  cases p with
  | string body =>
    obtain rfl := Option.some.inj hkind
    exact {
      slice := hslice
      string := fun _ _ => rfl
      number := fun _ h => by cases h
      noNumber := fun _ h => by cases h
      word := fun h => by cases h
      other := fun h => by cases h }
  | number whole fraction =>
    refine {
      slice := hslice
      string := fun _ h => by cases h
      number := ?_
      noNumber := ?_
      word := fun h => by cases h
      other := fun h => by cases h }
    -- only here it matters whether the reading has come back to its own first character
    · intro x _ hfar
      obtain ⟨shown, y, htoken, hshown⟩ :=
        tokenOf_number_around hs hlow hahead hneg hb hfar hhigh line lineAfter
      rw [htoken]
      exact ⟨shown, y, rfl, hshown⟩
    · intro x _ hnear
      rw [tokenOf_number_lost hlow hneg hnonneg hnear]
      rfl
  | word w =>
    exact {
      slice := hslice
      string := fun _ h => by cases h
      number := fun _ h => by cases h
      noNumber := fun _ h => by cases h
      word := fun _ _ => rfl
      other := fun _ hnot => absurd (hword.2 ⟨w, rfl⟩) hnot }
  | _ =>
    refine {
      slice := hslice
      string := fun _ h => by cases h
      number := fun _ h => by cases h
      noNumber := fun _ h => by cases h
      word := ?_
      other := ?_ }
    · intro _ hisWord
      obtain ⟨w, hw⟩ := hword.1 hisWord
      cases hw
    · intro _ _
      simp only [tokenOf, hkind]
      rfl

end Source

namespace Session

variable {s : Session} {c : Char} {rest : List Char}

/-! ## Two sessions with the same text ahead -/

/-- What a reading of the piece `p` does, wherever the cursor stands. -/
structure ReadsAt (s : Session) (p : Piece) : Prop where
  session : s.scanToken.session =
    (s.withCursor
      ⟨s.cursor.current, s.cursor.current + p.text.length, s.cursor.line + p.lines⟩).enterAll
        (p.fault? s.source.filename s.cursor.line).toList
  records : s.scanToken.records =
    (p.fault? s.source.filename s.cursor.line).toList.flatMap fun d =>
      (s.sink.deliver s.store.size d).records
  /-- A fault leaves it to the sink whether the reading fails. -/
  fault : (p.fault? s.source.filename s.cursor.line).isSome → s.scanToken.answer =
    if s.sink.willAccept 0 then .token none else .failed .sinkClosed
  shown : p.fault? s.source.filename s.cursor.line = none → s.scanToken.answer =
    Source.answerFor (s.source.tokenOf s.cursor.line
      ⟨p, s.cursor.current, s.cursor.current + p.text.length, s.cursor.line + p.lines⟩)

theorem readsAt_of_ahead? (h : s.source.ahead? s.cursor.current = some (c :: rest)) :
    s.ReadsAt (Piece.next c rest) := by
  have hread := Source.read?_of_ahead? h
  cases hfault : (Piece.next c rest).fault? s.source.filename s.cursor.line with
  | some d =>
    refine ⟨?_, ?_, ?_, ?_⟩
    · simp only [scanToken, hread, hfault]
      rfl
    · simp only [scanToken, hread, hfault]
      rw [records_fault, Option.toList_some, List.flatMap_singleton]
    · intro _
      simp only [scanToken, hread, hfault, accepted_fault]
    · simp [hfault]
  | none =>
    refine ⟨?_, ?_, ?_, ?_⟩
    · simp only [scanToken, hread, hfault]
      rfl
    · simp only [scanToken, hread, hfault]
      rfl
    · simp [hfault]
    · intro _
      simp only [scanToken, hread, hfault]
      rfl

theorem ReadsAt.cursor {p : Piece} (h : s.ReadsAt p) : s.scanToken.session.cursor =
    ⟨s.cursor.current, s.cursor.current + p.text.length, s.cursor.line + p.lines⟩ := by
  rw [h.session, enterAll_cursor, withCursor_cursor]

/-- A piece that gives a token is no fault. -/
theorem ReadsAt.answer_of_token? {p : Piece} {t : Token} (h : s.ReadsAt p)
    (ht : p.token? s.source.keywords s.cursor.line = some t) : s.scanToken.answer =
      Source.answerFor (s.source.tokenOf s.cursor.line
        ⟨p, s.cursor.current, s.cursor.current + p.text.length, s.cursor.line + p.lines⟩) := by
  refine h.shown ?_
  cases hfault : p.fault? s.source.filename s.cursor.line with
  | none => rfl
  | some d =>
    rw [Piece.token?_eq_none_of_fault? hfault] at ht
    cases ht

theorem ReadsAt.answer_of_none {p : Piece} (h : s.ReadsAt p)
    (hnone : p.token? s.source.keywords s.cursor.line = none) : s.scanToken.answer =
      if (p.fault? s.source.filename s.cursor.line).isNone || s.sink.willAccept 0 then .token none
      else .failed .sinkClosed := by
  cases hfault : p.fault? s.source.filename s.cursor.line with
  | some d => exact h.fault (Option.isSome_of_eq_some hfault)
  | none =>
    rw [h.shown hfault, Source.tokenOf_eq_none hnone]
    rfl

/-- A text that is read from its beginning. -/
theorem ahead_withText (s : Session) (text : List Char) (line : Int) :
    ((s.withText text).withCursor ⟨0, 0, line⟩).Ahead (pieces text) := by
  refine ⟨maximalCut_pieces text, [], ?_, rfl⟩
  rw [List.nil_append, flatMap_text_pieces]
  rfl

theorem ahead?_withText_cons (s : Session) (line : Int) :
    let alone := (s.withText (c :: rest)).withCursor ⟨0, 0, line⟩
    alone.source.ahead? alone.cursor.current = some (c :: rest) := by
  intro alone
  have hinside : (0 : Int) < alone.source.text.length :=
    Int.natCast_pos.2 (Nat.succ_pos rest.length)
  exact Source.ahead?_of_inside (Int.neg_nonpos_of_nonneg (Int.natCast_nonneg _)) hinside

/-- The text ahead alone begins with the piece that the whole source is read for. -/
theorem exists_readsAt (hlow : -(s.source.text.length : Int) ≤ s.cursor.current)
    (hhigh : s.cursor.current < s.source.text.length) :
    let ahead := s.source.textAhead s.cursor.current
    let alone := (s.withText ahead).withCursor ⟨0, 0, s.cursor.line⟩
    ∃ p after, p.Shaped ∧ ahead = p.text ++ after ∧ p.EndsBefore after ∧ s.ReadsAt p ∧
      alone.ReadsAt p ∧ alone.Reads p := by
  intro ahead alone
  obtain ⟨c, rest, hahead⟩ := Source.exists_ahead? hlow hhigh
  have htext : ahead = c :: rest :=
    Option.some.inj ((Source.ahead?_of_inside hlow hhigh).symm.trans hahead)
  have halone : alone = (s.withText (c :: rest)).withCursor ⟨0, 0, s.cursor.line⟩ := by
    rw [← htext]
  have hsplit := Piece.text_next_append c rest
  refine ⟨Piece.next c rest, _, Piece.shaped_next c rest, htext.trans hsplit.symm,
    Piece.endsBefore_next hsplit, readsAt_of_ahead? hahead, ?_, ?_⟩
  · rw [halone]
    exact readsAt_of_ahead? (ahead?_withText_cons s s.cursor.line)
  · have hpieces := ahead_withText s (c :: rest) s.cursor.line
    rw [pieces] at hpieces
    rw [halone]
    exact reads_of_ahead hpieces

/-- **A reading sees nothing but the text ahead of its cursor.** It does what a reading of that text
alone does from the beginning, and shows what that one shows, or what the source has in its place
between the two ends if it has run around. -/
theorem scanToken_sees_textAhead (s : Session)
    (hlow : -(s.source.text.length : Int) ≤ s.cursor.current)
    (hhigh : s.cursor.current < s.source.text.length) :
    let a := s.cursor.current
    let alone := (s.withText (s.source.textAhead a)).withCursor ⟨0, 0, s.cursor.line⟩
    let r := alone.scanToken
    let b := a + r.session.cursor.current
    s.scanToken = s.walkToken ∧
      (∃ ds, r.session = (alone.withCursor r.session.cursor).enterAll ds ∧
        s.scanToken.session = (s.withCursor ⟨a, b, r.session.cursor.line⟩).enterAll ds) ∧
      s.scanToken.records = r.records ∧
      (s.sink.Open → r.answer = .token r.token?) ∧
      (r.token? = none → s.scanToken.answer = r.answer) ∧
      ∀ t, r.token? = some t →
        t.line = s.cursor.line ∧
        (0 ≤ a ∨ b < 0 → s.scanToken.answer = .token (some t)) ∧
        (a < 0 → 0 ≤ b → s.source.ShownAround a b t s.scanToken.answer) := by
  intro a alone r b
  -- both sessions read the same piece
  obtain ⟨p, after, hs, hahead, -, hreads, hreadsAlone, hresult⟩ := exists_readsAt hlow hhigh
  have hcursor : r.session.cursor = ⟨0, p.text.length, s.cursor.line + p.lines⟩ :=
    hreadsAlone.cursor.trans (congrArg (Cursor.mk 0 · _) (Int.zero_add _))
  have hb : a + p.text.length = b := congrArg (a + Cursor.current ·) hcursor.symm
  have hbound : b ≤ s.source.text.length := by
    have hsees := Source.sees_of_ahead? (Source.ahead?_of_inside hlow hhigh)
    have hlength := hsees.length
    rw [hahead, List.length_append] at hlength
    omega
  have htoken : r.token? = p.token? s.source.keywords s.cursor.line := hresult.token
  refine ⟨scanToken_eq_walkToken s, ?_, ?_, ?_, ?_, ?_⟩
  -- a fault is made of the piece and of the line, which the two sessions share
  · refine ⟨(p.fault? s.source.filename s.cursor.line).toList, ?_, ?_⟩
    · rw [hreadsAlone.cursor]
      exact hreadsAlone.session
    · rw [← hb, hcursor]
      exact hreads.session
  · rw [hreads.records]
    exact hreadsAlone.records.symm
  · intro hopen
    have hfirst : alone.sink.willAccept 0 = true := hopen 0
    have hanswer := hresult.answer
    rwa [hfirst, Bool.or_true, if_pos rfl] at hanswer
  · intro hnone
    rw [htoken] at hnone
    rw [hreads.answer_of_none hnone]
    exact (hreadsAlone.answer_of_none hnone).symm
  -- a token is made of slices, and these are another matter where the reading has run around
  · intro t ht
    rw [htoken] at ht
    refine ⟨line_of_token? ht, ?_, ?_⟩
    · intro hside
      rw [← hb] at hside
      rw [hreads.answer_of_token? ht, Source.tokenOf_of_oneSide hs hlow hhigh hahead hside, ht]
      rfl
    · intro hneg hnonneg
      rw [← hb] at hnonneg hbound ⊢
      rw [hreads.answer_of_token? ht]
      exact Source.shownAround_of_token? hs hlow hahead hneg rfl hnonneg hbound ht

/-- With its cursor on the last digit of `2.51`, a reading runs around the end and consumes `12.51`.
The source has a single digit between the two ends. -/
theorem scanToken_sees_textAhead_around :
    let s := (start { text := "2.51".toList }).withCursor ⟨9, -1, 3⟩
    let twelve := (Decimal.ofDigits "12".toList "51".toList).toBinary64 false
    (-(s.source.text.length : Int) ≤ s.cursor.current ∧
      s.cursor.current < s.source.text.length) ∧
      s.source.textAhead (-1) = "12.51".toList ∧ s.scanToken.session.cursor = ⟨-1, 4, 3⟩ ∧
      s.source.ShownAround (-1) 4 ⟨.number, "12.51".toList, some (.number twelve), 3⟩
        s.scanToken.answer := by
  intro s twelve
  have hlow : -(s.source.text.length : Int) ≤ s.cursor.current := by decide
  have hhigh : s.cursor.current < s.source.text.length := by decide
  obtain ⟨-, -, -, -, -, htokens⟩ := scanToken_sees_textAhead s hlow hhigh
  obtain ⟨-, -, haround⟩ := htokens ⟨.number, "12.51".toList, some (.number twelve), 3⟩ rfl
  exact ⟨⟨hlow, hhigh⟩, rfl, rfl, haround (by decide) (by decide)⟩

end Session

end ScriptLexer
