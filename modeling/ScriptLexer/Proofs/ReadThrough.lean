import ScriptLexer.Proofs.Delivery
import ScriptLexer.Proofs.Lines
import Mathlib.Data.List.Forall2

/-!
# Reading piece by piece

A whole scan and the reading of one piece are two operations of a session. A scan works on the
text, a reading on a cursor, slices and the sink. This file ties them together: `ReadThrough` is
the loop that reads as long as the cursor stands before the end, and each turn of it reads the next
piece of the cut (`scanToken_ahead`).

The loop goes on after a refusal. What it yields is therefore the same for every sink.
-/

namespace ScriptLexer

/-! ## Slices between offsets -/

theorem Text.clampBound_natCast {n i : Nat} (h : i ≤ n) : Text.clampBound n i = i := by
  unfold Text.clampBound
  split <;> omega

theorem Text.slice_natCast {s : List Char} {a b : Nat} (hab : a ≤ b) (hb : b ≤ s.length) :
    Text.slice s a b = (s.take b).drop a := by
  rw [Text.slice, Text.clampBound_natCast hb, Text.clampBound_natCast (Nat.le_trans hab hb)]

theorem Text.slice_append (before w after : List Char) :
    Text.slice (before ++ (w ++ after)) before.length (before.length + w.length) = w := by
  have hslice := Text.slice_natCast (s := before ++ (w ++ after))
    (Nat.le_add_right before.length w.length) (by simp)
  rw [Int.natCast_add] at hslice
  rw [hslice]
  simp [List.take_append, List.take_of_length_le]

/-- The digits of a number are read back. -/
theorem Decimal.read?_text_number {whole fraction : List Char}
    (hs : (Piece.number whole fraction).Shaped) :
    Decimal.read? (Piece.number whole fraction).text = some (Decimal.ofDigits whole fraction) := by
  obtain ⟨hne, hwhole, hfraction⟩ := hs
  have hstop : ∀ d ∈ (if fraction.isEmpty then [] else '.' :: fraction).head?,
      d.isDigit = false := by
    cases fraction with
    | nil => simp
    | cons e es =>
      intro d hd
      obtain rfl : '.' = d := by simpa using hd
      rfl
  rw [Piece.text_number, Decimal.read?, Piece.takeWhile_append_stop hwhole hstop,
    Piece.dropWhile_append_stop hwhole hstop]
  cases fraction with
  | nil => simp [hne]
  | cons e es => simpa [hne] using hfraction

/-! ## Reading at an offset -/

/-- A fault gives no token. -/
theorem Piece.token?_eq_none_of_fault? {p : Piece} {d : Diagnostic} {filename : String} {line : Int}
    (h : p.fault? filename line = some d) (keywords : Keywords) :
    p.token? keywords line = none := by
  cases p with
  | stray c => rfl
  | openString body => rfl
  | _ => cases h

namespace Source

variable {source : Source} {before after : List Char} {p : Piece}

theorem read?_at {cursor : Cursor} (htext : source.text = before ++ (p.text ++ after))
    (hs : p.Shaped) (he : p.EndsBefore after) (hcur : cursor.current = before.length) :
    source.read? cursor =
      some ⟨p, ⟨before.length, before.length + p.text.length, cursor.line + p.lines⟩⟩ := by
  obtain ⟨c, more, hp⟩ := List.exists_cons_of_ne_nil (Piece.text_ne_nil hs)
  have hnext : Piece.next c (more ++ after) = p :=
    Piece.next_eq_of_shaped hs he (by rw [hp, List.cons_append])
  have hindex : Text.index? source.text.length cursor.current = some before.length := by
    rw [hcur, Text.index?, if_pos]
    · simp
    · simp only [htext, hp, List.length_append, List.length_cons]
      omega
  have hahead : source.ahead? cursor.current = some (c :: (more ++ after)) := by
    rw [ahead?, hindex, Option.map_some, if_neg (by omega), htext, List.drop_left, hp,
      List.cons_append]
  simp only [read?, hahead, hnext]
  rw [hcur]

theorem tokenOf_at (htext : source.text = before ++ (p.text ++ after)) (hs : p.Shaped)
    (line lineAfter : Int) :
    source.tokenOf line ⟨p, ⟨before.length, before.length + p.text.length, lineAfter⟩⟩ =
      .ok (p.token? source.keywords line) := by
  have hlexeme : Text.slice source.text before.length (before.length + p.text.length) = p.text := by
    rw [htext]
    exact Text.slice_append before p.text after
  cases p with
  | string body =>
    -- the value is the slice between the quotes
    have hvalue : Text.slice source.text (before.length + 1)
        (before.length + (Piece.string body).text.length - 1) = body := by
      have hslice := Text.slice_append (before ++ ['"']) body ('"' :: after)
      have hsplit : before ++ ['"'] ++ (body ++ '"' :: after) = source.text := by
        simp [htext, Piece.text]
      have hend : (before.length : Int) + (Piece.string body).text.length - 1 =
          (before ++ ['"']).length + body.length := by
        simp only [Piece.text, List.length_append, List.length_cons, List.length_nil]
        omega
      rw [hsplit] at hslice
      rw [hend]
      simpa using hslice
    simp only [tokenOf, hlexeme, hvalue]
    rfl
  | number whole fraction =>
    simp only [tokenOf, hlexeme, Decimal.read?_text_number hs]
    rfl
  | _ =>
    simp only [tokenOf, hlexeme]
    rfl

end Source

/-! ## The loop -/

/-- The token that a reading yields, if it yields one. -/
def Outcome.token? (o : Outcome) : Option Token :=
  match o.answer with
  | .token t => t
  | _ => none

/-- The errors that are on record behind a step. -/
def Outcome.errors (o : Outcome) : List Diagnostic := o.session.lookup o.session.errors

/-- The span that a reading consumed. -/
def Outcome.span (o : Outcome) : Int × Int := (o.session.cursor.start, o.session.cursor.current)

namespace Session

/-- The session with its cursor put elsewhere. -/
def withCursor (s : Session) (cursor : Cursor) : Session := { s with cursor := cursor }

@[simp] theorem withCursor_source (s : Session) (cursor : Cursor) :
    (s.withCursor cursor).source = s.source := rfl

@[simp] theorem withCursor_cursor (s : Session) (cursor : Cursor) :
    (s.withCursor cursor).cursor = cursor := rfl

/-- The session with another text to scan. -/
def withText (s : Session) (text : List Char) : Session :=
  { s with source := { s.source with text := text } }

/-- Reading on while the cursor stands before the end, whatever the sink makes of the faults. -/
inductive ReadThrough : Session → List Outcome → Session → Prop where
  | done {s : Session} : s.source.text.length ≤ s.cursor.current → ReadThrough s [] s
  | read {s final : Session} {os : List Outcome} : s.cursor.current < s.source.text.length →
      ReadThrough s.scanToken.session os final → ReadThrough s (s.scanToken :: os) final

/-- The pieces `ps` lie ahead of the cursor, and nothing else does. -/
def Ahead (s : Session) (ps : List Piece) : Prop :=
  MaximalCut ps ∧ ∃ before, s.source.text = before ++ ps.flatMap Piece.text ∧
    s.cursor.current = before.length

/-- What reading the piece `p` does to the session `s`. -/
structure Reads (s : Session) (p : Piece) : Prop where
  /-- The cursor moves behind the piece, and a fault is entered. -/
  session : s.scanToken.session =
    (s.withCursor
      ⟨s.cursor.current, s.cursor.current + p.text.length, s.cursor.line + p.lines⟩).enterAll
        (p.fault? s.source.filename s.cursor.line).toList
  /-- A token is yielded if the piece gives one. -/
  token : s.scanToken.token? = p.token? s.source.keywords s.cursor.line
  /-- Nothing fails unless there is a fault and the sink refuses it. -/
  answer : s.scanToken.answer =
    if (p.fault? s.source.filename s.cursor.line).isNone || s.sink.willAccept 0 then
      .token s.scanToken.token?
    else .failed .sinkClosed
  /-- The span shows the text of the piece. -/
  slice : Text.slice s.source.text s.cursor.current (s.cursor.current + p.text.length) = p.text

variable {s final : Session} {p : Piece} {ps : List Piece} {os : List Outcome}

theorem reads_of_ahead (h : s.Ahead (p :: ps)) : s.Reads p := by
  obtain ⟨⟨hs, he, -⟩, before, htext, hcur⟩ := h
  rw [List.flatMap_cons] at htext
  have hread : s.source.read? s.cursor = _ := Source.read?_at htext hs he hcur
  have hslice : Text.slice s.source.text s.cursor.current (s.cursor.current + p.text.length) =
      p.text := by
    rw [hcur, htext]
    exact Text.slice_append before p.text _
  cases hfault : p.fault? s.source.filename s.cursor.line with
  | some d =>
    -- the cursor has moved and the fault is entered before the sink is asked
    have hnone := Piece.token?_eq_none_of_fault? hfault s.source.keywords
    have hanswer : s.scanToken.answer =
        if s.sink.willAccept 0 then .token none else .failed .sinkClosed := by
      simp only [scanToken, hread, hfault, accepted_fault]
    refine ⟨?_, ?_, ?_, hslice⟩
    · simp only [scanToken, hread, hfault, hcur]
      rfl
    · rw [hnone, Outcome.token?, hanswer]
      cases s.sink.willAccept 0 <;> rfl
    · rw [Outcome.token?, hanswer, hfault]
      cases s.sink.willAccept 0 <;> rfl
  | none =>
    have htoken := Source.tokenOf_at htext hs s.cursor.line (s.cursor.line + p.lines)
    refine ⟨?_, ?_, ?_, hslice⟩
    · simp only [scanToken, hread, hfault, hcur]
      rfl
    · simp only [Outcome.token?, scanToken, hread, hfault, htoken]
    · rw [hfault]
      simp only [Outcome.token?, scanToken, hread, hfault, htoken, Option.isNone_none,
        Bool.true_or, if_true]

/-- **Each turn of the loop reads the next piece.** -/
theorem scanToken_ahead (h : s.Ahead (p :: ps)) : s.scanToken.session.Ahead ps := by
  have hreads := (reads_of_ahead h).session
  obtain ⟨⟨hs, he, hps⟩, before, htext, hcur⟩ := h
  refine ⟨hps, before ++ p.text, ?_, ?_⟩
  · rw [hreads, enterAll_source, List.append_assoc]
    exact htext
  · rw [hreads, enterAll_cursor, List.length_append, hcur]
    rfl

theorem current_of_ahead_nil (h : s.Ahead []) : s.cursor.current = s.source.text.length := by
  obtain ⟨-, before, htext, hcur⟩ := h
  simp [hcur, htext]

theorem current_lt_of_ahead_cons (h : s.Ahead (p :: ps)) :
    s.cursor.current < s.source.text.length := by
  obtain ⟨hps, before, htext, hcur⟩ := h
  have hpos := List.length_pos_iff.2 (Piece.text_ne_nil hps.1)
  have hlength : s.source.text.length =
      before.length + (p.text.length + (ps.flatMap Piece.text).length) := by
    rw [htext, List.length_append, List.flatMap_cons, List.length_append]
  omega

theorem ahead_nil_of_done (h : s.Ahead ps) (hdone : s.source.text.length ≤ s.cursor.current) :
    ps = [] := by
  cases ps with
  | nil => rfl
  | cons p ps => exact absurd hdone (Int.not_le.2 (current_lt_of_ahead_cons h))

/-- The loop ends, for every sink. -/
theorem exists_readThrough (h : s.Ahead ps) : ∃ os final, s.ReadThrough os final := by
  induction ps generalizing s with
  | nil => exact ⟨[], s, .done (Int.le_of_eq (current_of_ahead_nil h).symm)⟩
  | cons p ps ih =>
    obtain ⟨os, final, hrest⟩ := ih (scanToken_ahead h)
    exact ⟨s.scanToken :: os, final, .read (current_lt_of_ahead_cons h) hrest⟩

/-- The loop goes one way only. -/
theorem ReadThrough.unique {os' : List Outcome} {final' : Session} (h : s.ReadThrough os final)
    (h' : s.ReadThrough os' final') : os = os' ∧ final = final' := by
  induction h generalizing os' with
  | done hend =>
    cases h' with
    | done => exact ⟨rfl, rfl⟩
    | read hlt => exact absurd hend (Int.not_le.2 hlt)
  | read hlt _ ih =>
    cases h' with
    | done hend => exact absurd hend (Int.not_le.2 hlt)
    | read _ hrest =>
      obtain ⟨rfl, rfl⟩ := ih hrest
      exact ⟨rfl, rfl⟩

/-- To show something of the whole loop, show that each reading keeps it. -/
theorem ReadThrough.along {motive : Session → List Piece → List Outcome → Session → Prop}
    (done : ∀ s : Session, s.Ahead [] → motive s [] [] s)
    (read : ∀ (s : Session) (p : Piece) (ps : List Piece) (os : List Outcome) (final : Session),
      s.Ahead (p :: ps) → s.Reads p → motive s.scanToken.session ps os final →
      motive s (p :: ps) (s.scanToken :: os) final)
    (h : s.ReadThrough os final) (ha : s.Ahead ps) : motive s ps os final := by
  induction h generalizing ps with
  | @done s hdone =>
    obtain rfl := ahead_nil_of_done ha hdone
    exact done s ha
  | @read s final os hlt hrest ih =>
    cases ps with
    | nil =>
      -- with no piece ahead the cursor stands at the end
      rw [current_of_ahead_nil ha] at hlt
      exact absurd hlt (Int.lt_irrefl _)
    | cons p ps => exact read s p ps os final ha (reads_of_ahead ha) (ih (scanToken_ahead ha))

/-! ## What the loop yields -/

theorem Reads.line (h : s.Reads p) : s.scanToken.session.cursor.line = s.cursor.line + p.lines := by
  rw [h.session, enterAll_cursor, withCursor_cursor]

theorem Reads.source (h : s.Reads p) : s.scanToken.session.source = s.source := by
  rw [h.session, enterAll_source, withCursor_source]

theorem ReadThrough.line (h : s.ReadThrough os final) (ha : s.Ahead ps) :
    final.cursor.line = lastLine s.cursor.line ps := by
  refine ReadThrough.along (motive := fun s ps _ final =>
    final.cursor.line = lastLine s.cursor.line ps) ?_ ?_ h ha
  · intro s _
    rfl
  · intro s p ps os final _ hreads ih
    rw [ih, hreads.line, lastLine]

theorem ReadThrough.current (h : s.ReadThrough os final) (ha : s.Ahead ps) :
    final.cursor.current = s.source.text.length := by
  refine ReadThrough.along (motive := fun s _ _ final =>
    final.cursor.current = s.source.text.length) ?_ ?_ h ha
  · intro s hs
    exact current_of_ahead_nil hs
  · intro s p ps os final _ hreads ih
    rw [ih, hreads.source]

/-- The loop yields the tokens of the pieces. -/
theorem ReadThrough.tokens (h : s.ReadThrough os final) (ha : s.Ahead ps) :
    tokensFrom s.source.keywords s.cursor.line ps =
      os.filterMap Outcome.token? ++ [Token.endOfInput final.cursor.line] := by
  refine ReadThrough.along (motive := fun s ps os final =>
    tokensFrom s.source.keywords s.cursor.line ps =
      os.filterMap Outcome.token? ++ [Token.endOfInput final.cursor.line]) ?_ ?_ h ha
  · intro s _
    rfl
  · intro s p ps os final _ hreads ih
    rw [hreads.source, hreads.line] at ih
    rw [tokensFrom, ih, List.filterMap_cons, hreads.token]
    cases p.token? s.source.keywords s.cursor.line <;> simp

/-- Nothing stands in the way of a reading but the sink. -/
theorem ReadThrough.answer (h : s.ReadThrough os final) (ha : s.Ahead ps) :
    ∀ o ∈ os, o.answer = .token o.token? ∨ o.answer = .failed .sinkClosed := by
  refine ReadThrough.along (motive := fun _ _ os _ =>
    ∀ o ∈ os, o.answer = .token o.token? ∨ o.answer = .failed .sinkClosed) ?_ ?_ h ha
  · intro s _ o ho
    cases ho
  · intro s p ps os final _ hreads ih o ho
    rcases List.mem_cons.1 ho with rfl | ho
    · rw [hreads.answer]
      split
      · exact Or.inl rfl
      · exact Or.inr rfl
    · exact ih o ho

theorem Reads.withCursor (h : s.Reads p) (cursor : Cursor) :
    s.scanToken.session.withCursor cursor =
      (s.withCursor cursor).enterAll (p.fault? s.source.filename s.cursor.line).toList := by
  rw [h.session]
  simp only [Session.withCursor, enterAll_eq]

/-- The loop enters the faults of the pieces, and apart from that only moves the cursor. -/
theorem ReadThrough.session (h : s.ReadThrough os final) (ha : s.Ahead ps) (cursor : Cursor) :
    final.withCursor cursor =
      (s.withCursor cursor).enterAll (diagnosticsFrom s.source.filename s.cursor.line ps) := by
  refine ReadThrough.along (motive := fun s ps _ final =>
    final.withCursor cursor =
      (s.withCursor cursor).enterAll (diagnosticsFrom s.source.filename s.cursor.line ps))
    ?_ ?_ h ha
  · intro s _
    rfl
  · intro s p ps os final _ hreads ih
    rw [ih, diagnosticsFrom, enterAll_append, hreads.source, hreads.line, hreads.withCursor]

/-! ## Where the loop reads -/

/-- The spans are not empty and lie one behind the other, from `a` to `b`. -/
def Tiles : Int → Int → List (Int × Int) → Prop
  | a, b, [] => a = b
  | a, b, span :: spans => span.1 = a ∧ span.1 < span.2 ∧ Tiles span.2 b spans

theorem Reads.span (h : s.Reads p) :
    s.scanToken.span = (s.cursor.current, s.cursor.current + p.text.length) := by
  rw [Outcome.span, h.session, enterAll_cursor, withCursor_cursor]

theorem ReadThrough.tiles (h : s.ReadThrough os final) (ha : s.Ahead ps) :
    Tiles s.cursor.current s.source.text.length (os.map Outcome.span) := by
  refine ReadThrough.along (motive := fun s _ os _ =>
    Tiles s.cursor.current s.source.text.length (os.map Outcome.span)) ?_ ?_ h ha
  · intro s hs
    exact current_of_ahead_nil hs
  · intro s p ps os final hahead hreads ih
    have hpos := List.length_pos_iff.2 (Piece.text_ne_nil hahead.1.1)
    have hcur : s.scanToken.session.cursor.current = s.cursor.current + p.text.length :=
      congrArg Prod.snd hreads.span
    rw [hcur, hreads.source] at ih
    rw [List.map_cons, hreads.span]
    exact ⟨rfl, by simp only; omega, ih⟩

/-- The count of lines that a session keeps is the line that its cursor stands on. -/
def OnLine (s : Session) : Prop := s.cursor.line = lineAt s.source.text s.cursor.current.toNat

theorem onLine_scanToken (h : s.Ahead (p :: ps)) (hline : s.OnLine) :
    s.scanToken.session.OnLine := by
  have hreads := reads_of_ahead h
  have hcur : s.scanToken.session.cursor.current = s.cursor.current + p.text.length :=
    congrArg Prod.snd hreads.span
  obtain ⟨⟨hs, -, -⟩, before, htext, hpos⟩ := h
  rw [List.flatMap_cons] at htext
  have hnat : (s.cursor.current + p.text.length).toNat = before.length + p.text.length := by omega
  have hstart : s.cursor.current.toNat = before.length := by omega
  rw [OnLine, hstart] at hline
  rw [OnLine, hreads.line, hreads.source, hcur, hnat, hline, htext]
  exact lineAt_add_lines hs

/-- What one reading shows of the piece `p` it read. -/
structure Shows (source : Source) (p : Piece) (o : Outcome) : Prop where
  text : Text.slice source.text o.span.1 o.span.2 = p.text
  answer : o.answer = .token (p.token? source.keywords (lineAt source.text o.span.1.toNat))

theorem ReadThrough.shows (h : s.ReadThrough os final) (ha : s.Ahead ps) (hopen : s.sink.Open)
    (hline : s.OnLine) : List.Forall₂ (Shows s.source) ps os := by
  refine ReadThrough.along (motive := fun s ps os _ =>
    s.sink.Open → s.OnLine → List.Forall₂ (Shows s.source) ps os) ?_ ?_ h ha hopen hline
  · intro s _ _ _
    exact .nil
  · intro s p ps os final hahead hreads ih hopen hline
    have hopen' : s.scanToken.session.sink.Open := by
      rw [hreads.session, enterAll_sink]
      exact Sink.open_deliverAll hopen _ _
    have hrest := ih hopen' (onLine_scanToken hahead hline)
    rw [hreads.source] at hrest
    refine .cons ⟨?_, ?_⟩ hrest
    · rw [hreads.span]
      exact hreads.slice
    · rw [hreads.answer, hopen 0, Bool.or_true, if_pos rfl, hreads.token, hreads.span, ← hline]

end Session

end ScriptLexer
