import ScriptLexer.Proofs.FirstPieces
import ScriptLexer.Proofs.WholeScan

/-!
# Two characters of lookahead

Where a piece ends is decided by the two characters behind it, and by whether there are any
(`Piece.EndsBefore.of_take_two`). So a piece that ends two characters before the end of the text is
final: whatever is put behind the text, the piece and all before it stay as they are.

For the loop of single readings this means that the two texts cannot be told apart up to there.
Every reading leaves the same cursor, answers with the same token, enters the same faults and is
treated in the same way by the sink (`ReadThrough.take_withText`).
-/

namespace ScriptLexer

/-! ## Pieces -/

/-- **Whether a piece ends is decided by the next two characters.** -/
theorem Piece.EndsBefore.of_take_two {p : Piece} {after after' : List Char}
    (h : p.EndsBefore after) (htwo : after'.take 2 = after.take 2) : p.EndsBefore after' := by
  refine h.imp ?_ ?_ ?_
  · intro d hd
    have hhead := congrArg List.head? htwo
    rw [List.head?_take, List.head?_take, if_neg (by decide), if_neg (by decide)] at hhead
    rw [hhead] at hd
    exact Or.inl hd
  · rintro d rest rfl -
    rcases after with _ | ⟨e, _ | ⟨e', after⟩⟩
    · cases htwo
    · cases htwo
    · obtain ⟨rfl, hrest⟩ := List.cons.inj htwo
      obtain ⟨rfl, -⟩ := List.cons.inj hrest
      exact ⟨after, rfl⟩
  · -- nothing follows an open string, and only nothing begins like nothing
    rintro body rfl
    obtain rfl : after = [] := h
    cases after' with
    | nil => rfl
    | cons d after' => cases htwo

/-- More text changes nothing for pieces that end two characters before it. -/
theorem CutBefore.append {ps : List Piece} {after : List Char} (h : CutBefore after ps)
    (htwo : 2 ≤ after.length) (more : List Char) : CutBefore (after ++ more) ps := by
  refine h.imp ?_
  intro p _ between he
  refine he.of_take_two ?_
  rw [← List.append_assoc, List.take_append_of_le_length]
  rw [List.length_append]
  omega

/-! ## Readings -/

/-- The outcome of a step in the session with another text. -/
def Outcome.withText (o : Outcome) (text : List Char) : Outcome :=
  { o with session := o.session.withText text }

namespace Session

variable {s final final' : Session} {text : List Char} {p : Piece} {ps qs qs' : List Piece}
  {os os' : List Outcome}

/-- If the same piece lies ahead in both texts, reading it is the same step. -/
theorem scanToken_withText (h : s.Ahead (p :: qs)) (h' : (s.withText text).Ahead (p :: qs')) :
    (s.withText text).scanToken = s.scanToken.withText text := by
  obtain ⟨⟨hs, he, -⟩, before, htext, hcur⟩ := h
  obtain ⟨⟨-, he', -⟩, before', htext', hcur'⟩ := h'
  rw [List.flatMap_cons] at htext htext'
  have hbefore : (before'.length : Int) = before.length := hcur'.symm.trans hcur
  have hread := Source.read?_at htext hs he hcur
  have hread' := Source.read?_at htext' hs he' hcur'
  rw [hbefore] at hread'
  have hsame : (s.withText text).source.read? s.cursor = s.source.read? s.cursor :=
    hread'.trans hread.symm
  have hcursor : (s.withText text).cursor = s.cursor := rfl
  have hname : (s.withText text).source.filename = s.source.filename := rfl
  unfold scanToken
  cases hfault : p.fault? s.source.filename s.cursor.line with
  | some d =>
    -- faults are entered and delivered without a look at the text
    simp only [hcursor, hname, hsame, hread, hfault]
    rfl
  | none =>
    have htoken := Source.tokenOf_at htext hs s.cursor.line (s.cursor.line + p.lines)
    have htoken' := Source.tokenOf_at htext' hs s.cursor.line (s.cursor.line + p.lines)
    rw [hbefore] at htoken'
    simp only [hcursor, hname, hsame, hread, hfault, htoken, htoken']
    rfl

/-- **As long as the same pieces lie ahead, the loops over both texts go the same way.** -/
theorem ReadThrough.take_withText (ha : s.Ahead (ps ++ qs))
    (ha' : (s.withText text).Ahead (ps ++ qs')) (h : s.ReadThrough os final)
    (h' : (s.withText text).ReadThrough os' final') :
    os'.take ps.length = (os.take ps.length).map fun o => o.withText text := by
  induction ps generalizing s os os' with
  | nil => rfl
  | cons p ps ih =>
    cases h with
    | done hend => exact absurd hend (Int.not_le.2 (current_lt_of_ahead_cons ha))
    | read _ hrest =>
      cases h' with
      | done hend => exact absurd hend (Int.not_le.2 (current_lt_of_ahead_cons ha'))
      | read _ hrest' =>
        have hstep := scanToken_withText ha ha'
        have hahead' := scanToken_ahead ha'
        rw [hstep] at hrest' hahead'
        have hothers := ih (scanToken_ahead ha) hahead' hrest hrest'
        rw [List.length_cons, List.take_succ_cons, List.take_succ_cons, List.map_cons, hstep,
          hothers]

theorem ReadThrough.length_eq (h : s.ReadThrough os final) (ha : s.Ahead ps) :
    os.length = ps.length := by
  refine ReadThrough.along (motive := fun _ ps os _ => os.length = ps.length) ?_ ?_ h ha
  · intro s _
    rfl
  · intro s p ps os final _ _ ih
    rw [List.length_cons, List.length_cons, ih]

/-- Where the reading with number `n` stops. -/
theorem ReadThrough.span_snd (h : s.ReadThrough os final) (ha : s.Ahead ps) :
    ∀ (n : Nat) (o : Outcome), os[n]? = some o →
      o.span.2 = s.cursor.current + ((ps.take (n + 1)).flatMap Piece.text).length := by
  refine ReadThrough.along (motive := fun s ps os _ => ∀ (n : Nat) (o : Outcome),
    os[n]? = some o →
      o.span.2 = s.cursor.current + ((ps.take (n + 1)).flatMap Piece.text).length) ?_ ?_ h ha
  · intro s _ n o ho
    cases ho
  · intro s p ps os final _ hreads ih n o ho
    have hspan := hreads.span
    cases n with
    | zero =>
      obtain rfl : s.scanToken = o := Option.some.inj ho
      rw [hspan]
      simp
    | succ n =>
      have hcur : s.scanToken.session.cursor.current = s.cursor.current + p.text.length :=
        congrArg Prod.snd hspan
      rw [ih n o ho, hcur, List.take_succ_cons, List.flatMap_cons, List.length_append]
      omega

/-- The faults that are entered when the reading with number `n` is over. -/
theorem ReadThrough.session_getElem? (h : s.ReadThrough os final) (ha : s.Ahead ps)
    (cursor : Cursor) : ∀ (n : Nat) (o : Outcome), os[n]? = some o →
      o.session.withCursor cursor = (s.withCursor cursor).enterAll
        (diagnosticsFrom s.source.filename s.cursor.line (ps.take (n + 1))) := by
  refine ReadThrough.along (motive := fun s ps os _ => ∀ (n : Nat) (o : Outcome),
    os[n]? = some o → o.session.withCursor cursor = (s.withCursor cursor).enterAll
      (diagnosticsFrom s.source.filename s.cursor.line (ps.take (n + 1)))) ?_ ?_ h ha
  · intro s _ n o ho
    cases ho
  · intro s p ps os final _ hreads ih n o ho
    rw [List.take_succ_cons, diagnosticsFrom, enterAll_append, ← hreads.withCursor]
    cases n with
    | zero =>
      obtain rfl : s.scanToken = o := Option.some.inj ho
      rfl
    | succ n => rw [ih n o ho, hreads.source, hreads.line]

/-! ## What is final -/

/-- A scan yields these tokens and faults first, and perhaps others behind them. -/
def ScanBegins (s : Session) (tokens : List Token) (faults : List Diagnostic) : Prop :=
  ∃ (later : List Token) (laterFaults : List Diagnostic),
    s.scan.answer = .tokens (tokens ++ later) ∧ s.scan.errors = faults ++ laterFaults

/-- A scan begins with what its first readings yield. -/
theorem ReadThrough.scanBegins (h : s.rewound.ReadThrough os final) (hopen : s.sink.Open) {n : Nat}
    {o : Outcome} (ho : os[n]? = some o) :
    s.ScanBegins ((os.take (n + 1)).filterMap Outcome.token?) o.errors := by
  have hahead := ahead_rewound s
  obtain ⟨hanswer, -⟩ := scan_eq_readThrough hopen h
  -- the faults entered up to here are those of the first pieces
  have hsession := h.session_getElem? hahead o.session.cursor n o ho
  have herrors : o.errors =
      diagnosticsFrom s.source.filename 1 ((pieces s.source.text).take (n + 1)) :=
    (congrArg (fun t : Session => t.lookup t.errors) hsession).trans (lookup_enterAll rfl _)
  have hsplit := List.take_append_drop (n + 1) (pieces s.source.text)
  refine ⟨(os.drop (n + 1)).filterMap Outcome.token? ++ [Token.endOfInput final.cursor.line],
    diagnosticsFrom s.source.filename (lastLine 1 ((pieces s.source.text).take (n + 1)))
      ((pieces s.source.text).drop (n + 1)), ?_, ?_⟩
  · rw [hanswer, ← List.append_assoc, ← List.filterMap_append, List.take_append_drop]
  · rw [herrors, ← diagnosticsFrom_append, hsplit]
    exact lookup_scan_of_open hopen

/-- The pieces up to a reading that stops two characters before the end begin every longer text. -/
theorem ReadThrough.pieces_append (h : s.rewound.ReadThrough os final) {n : Nat} {o : Outcome}
    (ho : os[n]? = some o) (htwo : o.span.2 + 2 ≤ s.source.text.length) (more : List Char) :
    ∃ later, pieces (s.source.text ++ more) = (pieces s.source.text).take (n + 1) ++ later := by
  have hend := h.span_snd (ahead_rewound s) n o ho
  have hstart : s.rewound.cursor.current = 0 := rfl
  rw [hstart, Int.zero_add] at hend
  have hsplit := List.take_append_drop (n + 1) (pieces s.source.text)
  have htext : ((pieces s.source.text).take (n + 1)).flatMap Piece.text ++
      ((pieces s.source.text).drop (n + 1)).flatMap Piece.text = s.source.text := by
    rw [← List.flatMap_append, hsplit, flatMap_text_pieces]
  have hlength := congrArg List.length htext
  rw [List.length_append] at hlength
  have hcut := (cutBefore_of_pieces_eq hsplit.symm).append (by omega) more
  have hpieces := pieces_append_of_cutBefore hcut
  rw [← List.append_assoc, htext] at hpieces
  exact ⟨_, hpieces⟩

/-- A reading that stops two characters before the end is the same over every longer text, and so
are all before it. -/
theorem ReadThrough.take_longer {more : List Char} (h : s.rewound.ReadThrough os final)
    (h' : (s.withText (s.source.text ++ more)).rewound.ReadThrough os' final') {n : Nat}
    {o : Outcome} (ho : os[n]? = some o) (htwo : o.span.2 + 2 ≤ s.source.text.length) :
    os'.take (n + 1) = (os.take (n + 1)).map fun o => o.withText (s.source.text ++ more) := by
  have hahead := ahead_rewound s
  have hahead' := ahead_rewound (s.withText (s.source.text ++ more))
  obtain ⟨later, hlater⟩ := h.pieces_append ho htwo more
  have hcount : ((pieces s.source.text).take (n + 1)).length = n + 1 := by
    have hn := (List.getElem?_eq_some_iff.1 ho).1
    rw [h.length_eq hahead] at hn
    rw [List.length_take]
    omega
  -- the same pieces lie ahead of both loops
  rw [← List.take_append_drop (n + 1) (pieces s.source.text)] at hahead
  rw [show pieces (s.withText (s.source.text ++ more)).source.text = _ from hlater] at hahead'
  have htake := h.take_withText hahead hahead' h'
  rwa [hcount] at htake

/-- **Two characters of lookahead suffice.** What has been read two characters before the end of
the text is read in the same way in every longer text. -/
theorem two_characters_suffice (s : Session) (more : List Char) :
    let longer := s.withText (s.source.text ++ more)
    ∃ (os : List Outcome) (final : Session) (os' : List Outcome) (final' : Session),
      s.rewound.ReadThrough os final ∧ longer.rewound.ReadThrough os' final' ∧
      ∀ (n : Nat) (o : Outcome), os[n]? = some o → o.span.2 + 2 ≤ s.source.text.length →
        os'.take (n + 1) = ((os.take (n + 1)).map fun o => o.withText longer.source.text) ∧
        (s.sink.Open →
          s.ScanBegins ((os.take (n + 1)).filterMap Outcome.token?) o.errors ∧
          longer.ScanBegins ((os.take (n + 1)).filterMap Outcome.token?) o.errors) := by
  intro longer
  obtain ⟨os, final, hloop⟩ := exists_readThrough (ahead_rewound s)
  obtain ⟨os', final', hloop'⟩ := exists_readThrough (ahead_rewound longer)
  refine ⟨os, final, os', final', hloop, hloop', ?_⟩
  intro n o ho htwo
  have hsame := hloop.take_longer hloop' ho htwo
  refine ⟨hsame, ?_⟩
  intro hopen
  refine ⟨hloop.scanBegins hopen ho, ?_⟩
  have ho' : os'[n]? = some (o.withText longer.source.text) := by
    rw [← List.getElem?_take_of_lt (Nat.lt_succ_self n), hsame, List.getElem?_map,
      List.getElem?_take_of_lt (Nat.lt_succ_self n), ho]
    rfl
  have hbegins := hloop'.scanBegins hopen ho'
  rw [hsame, List.filterMap_map] at hbegins
  exact hbegins

/-- Behind the number two more characters are known, a point and a quote. So it stays the second
piece, though what follows makes the point a token and the open string a closed one. -/
theorem two_characters_suffice_behind_number :
    let s := start { text := ['@', '1', '.', '"'] } (some .newCollector)
    let longer := s.withText ['@', '1', '.', '"', '5', '"']
    s.sink.Open ∧ ∃ (os : List Outcome) (final : Session) (os' : List Outcome) (final' : Session),
      s.rewound.ReadThrough os final ∧ longer.rewound.ReadThrough os' final' ∧
      ∃ o : Outcome, os[1]? = some o ∧ o.span.2 + 2 ≤ s.source.text.length ∧
        os'.take 2 = ((os.take 2).map fun o => o.withText longer.source.text) ∧
        longer.ScanBegins ((os.take 2).filterMap Outcome.token?) o.errors := by
  intro s longer
  have hopen : s.sink.Open := fun k => rfl
  have hpieces : pieces s.source.text =
      [.stray '@', .number ['1'] [], .punctuation .dot, .openString []] := by decide +kernel
  have hahead : s.rewound.Ahead _ := ahead_rewound s
  rw [hpieces] at hahead
  obtain ⟨os, final, os', final', hloop, hloop', hfinal⟩ := two_characters_suffice s ['5', '"']
  obtain ⟨o, ho⟩ : ∃ o, os[1]? = some o := by
    refine ⟨_, List.getElem?_eq_getElem ?_⟩
    rw [hloop.length_eq hahead]
    decide
  -- the number ends behind the second character, and the point and a quote are left
  have hend : o.span.2 = 0 + (2 : Nat) := hloop.span_snd hahead 1 o ho
  have htwo : o.span.2 + 2 ≤ s.source.text.length := by
    rw [hend]
    decide
  obtain ⟨hsame, hbegins⟩ := hfinal 1 o ho htwo
  exact ⟨hopen, os, final, os', final', hloop, hloop', o, ho, htwo, hsame, (hbegins hopen).2⟩

end Session

end ScriptLexer
