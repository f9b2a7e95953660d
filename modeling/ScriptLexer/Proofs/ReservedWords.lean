import ScriptLexer.Proofs.Adjacency

/-!
# Tables of reserved words

A table is asked about words, and only for their kind. So two tables cut a text in the same way,
and what they make of it differs at most in the kinds of words, each of them looked up as a whole
(`Token.Renamed`, `tokensFrom_renamed`).

Two things that seem to hold of every scan are therefore up to the table. **The end of the input is
the only token of its kind exactly if no word is reserved for that kind**, and what counts as a
keyword or as a literal is known for the kinds of the standard words only (`scan_reserved`).
-/

namespace ScriptLexer

/-- A text that is written as a word. -/
def IsWord (w : List Char) : Prop :=
  ∃ c cs, w = c :: cs ∧ isWordStart c = true ∧ ∀ d ∈ cs, isWordChar d = true

/-- A text that is written as a string. -/
def IsString (w : List Char) : Prop := ∃ body, '"' ∉ body ∧ w = (Piece.string body).text

/-- A text that is written as a number. -/
def IsNumber (w : List Char) : Prop :=
  ∃ whole fraction, (Piece.number whole fraction).Shaped ∧ w = (Piece.number whole fraction).text

/-- The tokens agree in all but the kind of a word, which each of them has from its table. -/
structure Token.Renamed (keywords others : Keywords) (t t' : Token) : Prop where
  lexeme : t'.lexeme = t.lexeme
  literal : t'.literal = t.literal
  line : t'.line = t.line
  word : IsWord t.lexeme → t.kind = keywords.kindOf t.lexeme ∧ t'.kind = others.kindOf t.lexeme
  other : ¬ IsWord t.lexeme → t'.kind = t.kind

variable {keywords others : Keywords} {p : Piece} {ps : List Piece} {t t' : Token} {kind : Kind}
  {w : List Char}

/-! ## Forms of lexemes -/

theorem isWord_text_iff (hs : p.Shaped) : IsWord p.text ↔ ∃ w, p = .word w := by
  constructor
  · intro h
    exact ⟨p.text, Piece.eq_of_text_eq hs h rfl⟩
  · rintro ⟨w, rfl⟩
    exact hs

theorem isString_text_iff (hs : p.Shaped) : IsString p.text ↔ ∃ body, p = .string body := by
  constructor
  · rintro ⟨body, hbody, htext⟩
    exact ⟨body, Piece.eq_of_text_eq hs hbody htext⟩
  · rintro ⟨body, rfl⟩
    exact ⟨body, hs, rfl⟩

theorem isNumber_text_iff (hs : p.Shaped) :
    IsNumber p.text ↔ ∃ whole fraction, p = .number whole fraction := by
  constructor
  · rintro ⟨whole, fraction, hshaped, htext⟩
    exact ⟨whole, fraction, Piece.eq_of_text_eq hs hshaped htext⟩
  · rintro ⟨whole, fraction, rfl⟩
    exact ⟨whole, fraction, hs, rfl⟩

theorem not_isWord_nil : ¬ IsWord [] := by
  rintro ⟨c, cs, hnil, -⟩
  cases hnil

/-- A word that is all of the text. -/
theorem pieces_of_isWord (hw : IsWord w) : pieces w = [.word w] := by
  have hcut : MaximalCut [.word w] := ⟨hw, Piece.endsBefore_nil _, trivial⟩
  have hpieces := pieces_of_maximalCut hcut
  rw [List.flatMap_singleton] at hpieces
  exact hpieces

/-! ## Two tables -/

/-- Where the tables agree on the lexeme the tokens are the same. -/
theorem Token.Renamed.eq (h : t.Renamed keywords others t')
    (hsame : IsWord t.lexeme → others.kindOf t.lexeme = keywords.kindOf t.lexeme) : t' = t := by
  have hkind : t'.kind = t.kind := by
    by_cases hword : IsWord t.lexeme
    · rw [(h.word hword).1, (h.word hword).2, hsame hword]
    · exact h.other hword
  cases t
  cases t'
  rw [Token.mk.injEq]
  exact ⟨hkind, h.lexeme, h.literal, h.line⟩

theorem Piece.token?_renamed (hs : p.Shaped) (line : Int) :
    List.Forall₂ (Token.Renamed keywords others) (p.token? keywords line).toList
      (p.token? others line).toList := by
  by_cases hword : ∃ w, p = .word w
  · obtain ⟨w, rfl⟩ := hword
    exact .cons ⟨rfl, rfl, rfl, fun _ => ⟨rfl, rfl⟩, fun h => absurd hs h⟩ .nil
  · -- without a word the table is not asked
    have hsame : p.kind? others = p.kind? keywords := by
      cases p with
      | word w => exact absurd ⟨w, rfl⟩ hword
      | _ => rfl
    rw [Piece.token?, Piece.token?, hsame]
    cases p.kind? keywords with
    | none => exact .nil
    | some kind =>
      exact .cons ⟨rfl, rfl, rfl, fun h => absurd ((isWord_text_iff hs).1 h) hword, fun _ => rfl⟩
        .nil

/-- **Only the kinds of words depend on the table.** -/
theorem tokensFrom_renamed (hps : ∀ p ∈ ps, p.Shaped) (line : Int) :
    List.Forall₂ (Token.Renamed keywords others) (tokensFrom keywords line ps)
      (tokensFrom others line ps) := by
  induction ps generalizing line with
  | nil => exact .cons ⟨rfl, rfl, rfl, fun h => absurd h not_isWord_nil, fun _ => rfl⟩ .nil
  | cons p ps ih =>
    obtain ⟨hs, hrest⟩ := List.forall_mem_cons.1 hps
    exact List.rel_append (Piece.token?_renamed hs line) (ih hrest _)

/-! ## One table -/

theorem kindOf_eq_eof_iff : keywords.kindOf w = .eof ↔ keywords.lookup w = some .eof := by
  rw [Keywords.kindOf]
  cases keywords.lookup w with
  | none => simp
  | some kind => simp

theorem kindOf_mem_keywords_iff
    (hvalues : ∀ x kind, keywords.lookup x = some kind → kind ∈ Kind.keywords) :
    keywords.kindOf w ∈ Kind.keywords ↔ (keywords.lookup w).isSome = true := by
  rw [Keywords.kindOf]
  cases hfound : keywords.lookup w with
  | none => decide
  | some kind => simpa using hvalues w kind hfound

/-- No standard reserved word has the kind of a literal. -/
theorem not_mem_literals_of_mem_keywords : ∀ kind ∈ Kind.keywords, kind ∉ Kind.literals := by
  decide

theorem kindOf_mem_literals_iff
    (hvalues : ∀ x kind, keywords.lookup x = some kind → kind ∈ Kind.keywords) :
    keywords.kindOf w ∈ Kind.literals ↔ keywords.lookup w = none := by
  rw [Keywords.kindOf]
  cases hfound : keywords.lookup w with
  | none => decide
  | some kind => simpa using not_mem_literals_of_mem_keywords kind (hvalues w kind hfound)

/-- What is known of a kind that no table gives. -/
theorem Piece.kind?_of_not_word (hword : ∀ w, p ≠ .word w) (h : p.kind? keywords = some kind) :
    kind ≠ .eof ∧ kind ∉ Kind.keywords ∧
      (kind ∈ Kind.literals ↔ (∃ body, p = .string body) ∨
        ∃ whole fraction, p = .number whole fraction) := by
  cases p with
  | word w => exact absurd rfl (hword w)
  | punctuation mark =>
    obtain rfl := Option.some.inj h
    cases mark <;> simp [Punctuation.kind, Kind.keywords, Kind.literals, Keywords.standard]
  | operator op withEqual =>
    obtain rfl := Option.some.inj h
    cases op <;> cases withEqual <;>
      simp [Operator.kind, Kind.keywords, Kind.literals, Keywords.standard]
  | slash =>
    obtain rfl := Option.some.inj h
    simp [Kind.keywords, Kind.literals, Keywords.standard]
  | string body =>
    obtain rfl := Option.some.inj h
    simp [Kind.keywords, Kind.literals, Keywords.standard]
  | number whole fraction =>
    obtain rfl := Option.some.inj h
    simp [Kind.keywords, Kind.literals, Keywords.standard]
  | _ => cases h

/-! ## The tokens of a scan -/

/-- Behind the tokens of the pieces comes the one that ends the input. -/
theorem exists_tokensFrom_eq_append (keywords : Keywords) (line : Int) (ps : List Piece) :
    ∃ (init : List Token) (last : Int),
      tokensFrom keywords line ps = init ++ [Token.endOfInput last] ∧
      ∀ t ∈ init, ∃ p ∈ ps, ∃ line', p.token? keywords line' = some t := by
  induction ps generalizing line with
  | nil => exact ⟨[], line, rfl, fun t ht => by cases ht⟩
  | cons p ps ih =>
    obtain ⟨init, last, hrest, hinit⟩ := ih (line + p.lines)
    refine ⟨(p.token? keywords line).toList ++ init, last, ?_, ?_⟩
    · rw [tokensFrom, hrest, List.append_assoc]
    · intro t ht
      rcases List.mem_append.1 ht with ht | ht
      · exact ⟨p, List.mem_cons_self, line, Option.mem_toList.1 ht⟩
      · obtain ⟨q, hq, htoken⟩ := hinit t ht
        exact ⟨q, List.mem_cons_of_mem p hq, htoken⟩

/-- What is known of the tokens of a piece if no word is reserved for the end of the input. -/
theorem Piece.kind_ne_eof_of_token? {line : Int} (hs : p.Shaped)
    (heof : ∀ x, IsWord x → keywords.lookup x ≠ some .eof)
    (h : p.token? keywords line = some t) : t.kind ≠ .eof := by
  obtain ⟨kind, hkind, rfl⟩ := Option.map_eq_some_iff.1 h
  by_cases hword : ∃ w, p = .word w
  · obtain ⟨w, rfl⟩ := hword
    obtain rfl := Option.some.inj hkind
    exact fun hend => heof w hs (kindOf_eq_eof_iff.1 hend)
  · exact (Piece.kind?_of_not_word (fun w hw => hword ⟨w, hw⟩) hkind).1

/-- What the two predicates say of a token, for a table with the kinds of standard words. -/
structure Token.Classed (keywords : Keywords) (t : Token) : Prop where
  isKeyword : t.isKeyword = true ↔ IsWord t.lexeme ∧ (keywords.lookup t.lexeme).isSome = true
  isLiteral : t.isLiteral = true ↔
    IsString t.lexeme ∨ IsNumber t.lexeme ∨ IsWord t.lexeme ∧ keywords.lookup t.lexeme = none

theorem Token.classed_iff_mem : t.Classed keywords ↔
    (t.kind ∈ Kind.keywords ↔ IsWord t.lexeme ∧ (keywords.lookup t.lexeme).isSome = true) ∧
    (t.kind ∈ Kind.literals ↔
      IsString t.lexeme ∨ IsNumber t.lexeme ∨
        IsWord t.lexeme ∧ keywords.lookup t.lexeme = none) := by
  rw [← List.contains_iff_mem, ← List.contains_iff_mem]
  exact ⟨fun h => ⟨h.isKeyword, h.isLiteral⟩, fun h => ⟨h.1, h.2⟩⟩

theorem Token.classed_endOfInput (keywords : Keywords) (line : Int) :
    (Token.endOfInput line).Classed keywords := by
  have hkeyword : Kind.eof ∉ Kind.keywords := by decide
  have hliteral : Kind.eof ∉ Kind.literals := by decide
  refine Token.classed_iff_mem.2 ⟨iff_of_false hkeyword fun h => not_isWord_nil h.1,
    iff_of_false hliteral ?_⟩
  rintro (⟨body, -, hnil⟩ | ⟨whole, fraction, hs, hnil⟩ | ⟨h, -⟩)
  · cases hnil
  · exact Piece.text_ne_nil hs hnil.symm
  · exact not_isWord_nil h

theorem Piece.classed_token? {line : Int} (hs : p.Shaped)
    (hvalues : ∀ x kind, keywords.lookup x = some kind → kind ∈ Kind.keywords)
    (h : p.token? keywords line = some t) : t.Classed keywords := by
  obtain ⟨kind, hkind, rfl⟩ := Option.map_eq_some_iff.1 h
  rw [Token.classed_iff_mem]
  simp only [isString_text_iff hs, isNumber_text_iff hs]
  by_cases hword : ∃ w, p = .word w
  · obtain ⟨w, rfl⟩ := hword
    obtain rfl := Option.some.inj hkind
    have hw : IsWord (Piece.word w).text := hs
    refine ⟨(kindOf_mem_keywords_iff hvalues).trans (and_iff_right hw).symm, ?_⟩
    refine (kindOf_mem_literals_iff hvalues).trans ⟨fun hnone => Or.inr (Or.inr ⟨hw, hnone⟩), ?_⟩
    rintro (⟨body, hbody⟩ | ⟨whole, fraction, hnumber⟩ | ⟨-, hnone⟩)
    · cases hbody
    · cases hnumber
    · exact hnone
  · -- the table has no part in it
    obtain ⟨-, hkeyword, hliteral⟩ := Piece.kind?_of_not_word (fun w hw => hword ⟨w, hw⟩) hkind
    rw [isWord_text_iff hs]
    refine ⟨iff_of_false hkeyword fun h => hword h.1, hliteral.trans ?_⟩
    exact or_congr_right (or_iff_left fun h => hword h.1).symm

namespace Session

variable {s : Session}

/-- The session with another table of reserved words. -/
def withKeywords (s : Session) (keywords : Keywords) : Session :=
  { s with source := { s.source with keywords := keywords } }

/-- **The end of the input is the only token of its kind exactly if no word is reserved for that
kind.** -/
theorem ends_once_iff (h : s.sink.Open) :
    (∀ text, ∃ (init : List Token) (last : Int),
        (s.withText text).scan.answer = .tokens (init ++ [Token.endOfInput last]) ∧
        ∀ t ∈ init, t.kind ≠ .eof) ↔
      ∀ x, IsWord x → s.source.keywords.lookup x ≠ some .eof := by
  constructor
  · intro honce x hx hfound
    obtain ⟨init, last, hanswer, hinit⟩ := honce x
    -- the word alone is a text with two such tokens
    have htokens := Answer.tokens.inj ((scan_withText h x).1.symm.trans hanswer)
    rw [pieces_of_isWord hx] at htokens
    have hword : init = [⟨s.source.keywords.kindOf x, x, none, 1⟩] :=
      (List.append_inj_left' htokens rfl).symm
    rw [hword] at hinit
    exact hinit _ List.mem_cons_self (kindOf_eq_eof_iff.2 hfound)
  · intro heof text
    obtain ⟨hanswer, -⟩ := scan_withText h text
    obtain ⟨init, last, htokens, hinit⟩ :=
      exists_tokensFrom_eq_append s.source.keywords 1 (pieces text)
    refine ⟨init, last, hanswer.trans (congrArg Answer.tokens htokens), ?_⟩
    intro t ht
    obtain ⟨p, hp, line, htoken⟩ := hinit t ht
    exact Piece.kind_ne_eof_of_token? (shaped_of_mem_maximalCut (maximalCut_pieces text) p hp)
      heof htoken

theorem classed_of_scan {tokens : List Token}
    (hvalues : ∀ x kind, s.source.keywords.lookup x = some kind → kind ∈ Kind.keywords)
    (h : s.scan.answer = .tokens tokens) : ∀ t ∈ tokens, t.Classed s.source.keywords := by
  obtain rfl := tokens_eq_of_scan h
  obtain ⟨init, last, htokens, hinit⟩ :=
    exists_tokensFrom_eq_append s.source.keywords 1 (pieces s.source.text)
  intro t ht
  have hmem : t ∈ init ++ [Token.endOfInput last] := htokens ▸ ht
  rcases List.mem_append.1 hmem with hmem | hmem
  · obtain ⟨p, hp, line, htoken⟩ := hinit t hmem
    have hs := shaped_of_mem_maximalCut (maximalCut_pieces s.source.text) p hp
    exact Piece.classed_token? hs hvalues htoken
  · rw [List.mem_singleton.1 hmem]
    exact Token.classed_endOfInput s.source.keywords last

/-- **A table of reserved words can only rename words.** Scans with two tables find the same
diagnostics and as many tokens, alike but for the kinds that the tables give to whole words. An
entry whose key is no word, or only a part of one, changes nothing. What the table decides is
whether the end of the input is marked by one token alone, and which words are keywords and which
are literals. -/
theorem scan_reserved (h : s.sink.Open) :
    let table := s.source.keywords
    (∀ others : Keywords, ∃ tokens tokens' : List Token,
      s.scan.answer = .tokens tokens ∧ (s.withKeywords others).scan.answer = .tokens tokens' ∧
      (s.withKeywords others).scan.errors = s.scan.errors ∧
      List.Forall₂ (Token.Renamed table others) tokens tokens' ∧
      ∀ changed : List Char → Prop,
        (∀ x, ¬ changed x → others.kindOf x = table.kindOf x) →
        List.Forall₂ (fun t t' => ¬ (IsWord t.lexeme ∧ changed t.lexeme) → t' = t)
          tokens tokens') ∧
    ((∀ text, ∃ (init : List Token) (last : Int),
        (s.withText text).scan.answer = .tokens (init ++ [Token.endOfInput last]) ∧
        ∀ t ∈ init, t.kind ≠ .eof) ↔
      ∀ x, IsWord x → table.lookup x ≠ some .eof) ∧
    ((∀ x kind, table.lookup x = some kind → kind ∈ Kind.keywords) →
      ∀ tokens, s.scan.answer = .tokens tokens → ∀ t ∈ tokens, t.Classed table) := by
  intro table
  refine ⟨?_, ends_once_iff h, fun hvalues tokens => classed_of_scan hvalues⟩
  intro others
  have hopen : (s.withKeywords others).sink.Open := h
  have hshaped := shaped_of_mem_maximalCut (maximalCut_pieces s.source.text)
  have hrenamed : List.Forall₂ (Token.Renamed table others) s.source.scan.tokens
      (s.withKeywords others).source.scan.tokens := tokensFrom_renamed hshaped 1
  refine ⟨_, _, (scan_of_open h).1, (scan_of_open hopen).1, ?_, hrenamed, ?_⟩
  · exact (lookup_scan_of_open hopen).trans (lookup_scan_of_open h).symm
  · intro changed hsame
    refine hrenamed.imp fun t t' hpair hunchanged => hpair.eq fun hword => ?_
    exact hsame t.lexeme fun hchanged => hunchanged ⟨hword, hchanged⟩

/-- A reserved word alone, at the beginning of a longer word, and in a string, under a table without
the standard words and under one that reserves the word for the end of the input. The second table
has a key that is no word, and it does nothing. -/
theorem scan_reserved_of_prefix :
    let s := start { text := "if iffy \"if\" or".toList, keywords := [("if".toList, .whileWord)] }
      (some .newCollector)
    let others : Keywords := [("if".toList, .eof), ("\"if\"".toList, .andWord)]
    s.sink.Open ∧
      (∀ x kind, s.source.keywords.lookup x = some kind → kind ∈ Kind.keywords) ∧
      (∃ tokens tokens' : List Token, s.scan.answer = .tokens tokens ∧
        (s.withKeywords others).scan.answer = .tokens tokens' ∧
        tokens.map Token.kind = [.whileWord, .identifier, .string, .identifier, .eof] ∧
        tokens'.map Token.kind = [.eof, .identifier, .string, .identifier, .eof] ∧
        List.Forall₂ (fun t t' => t.lexeme ≠ "if".toList → t' = t) tokens tokens' ∧
        ∀ t ∈ tokens, t.Classed s.source.keywords) ∧
      (∀ text, ∃ (init : List Token) (last : Int),
        (s.withText text).scan.answer = .tokens (init ++ [Token.endOfInput last]) ∧
        ∀ t ∈ init, t.kind ≠ .eof) ∧
      ¬ ∀ text, ∃ (init : List Token) (last : Int),
        ((s.withKeywords others).withText text).scan.answer =
          .tokens (init ++ [Token.endOfInput last]) ∧
        ∀ t ∈ init, t.kind ≠ .eof := by
  intro s others
  have hopen : s.sink.Open := fun k => rfl
  have hopen' : (s.withKeywords others).sink.Open := fun k => rfl
  have hpieces : pieces s.source.text = [.word "if".toList, .blank ' ', .word "iffy".toList,
      .blank ' ', .string "if".toList, .blank ' ', .word "or".toList] := by decide +kernel
  have hvalue : ∀ x kind, s.source.keywords.lookup x = some kind → kind = .whileWord := by
    intro x kind hfound
    change List.lookup x [("if".toList, Kind.whileWord)] = some kind at hfound
    rw [List.lookup_cons] at hfound
    cases hx : x == "if".toList <;> rw [hx] at hfound
    · cases hfound
    · exact (Option.some.inj hfound).symm
  have hvalues : ∀ x kind, s.source.keywords.lookup x = some kind → kind ∈ Kind.keywords := by
    intro x kind hfound
    rw [hvalue x kind hfound]
    decide
  have hsame : ∀ x, ¬ (x = "if".toList ∨ x = "\"if\"".toList) →
      others.kindOf x = s.source.keywords.kindOf x := by
    intro x hx
    obtain ⟨hword, hstring⟩ := not_or.1 hx
    change Keywords.kindOf [("if".toList, Kind.eof), ("\"if\"".toList, .andWord)] x =
      Keywords.kindOf [("if".toList, .whileWord)] x
    simp only [Keywords.kindOf, List.lookup_cons, beq_eq_false_iff_ne.2 hword,
      beq_eq_false_iff_ne.2 hstring]
  obtain ⟨htables, honce, hclassed⟩ := scan_reserved hopen
  obtain ⟨-, honce', -⟩ := scan_reserved hopen'
  obtain ⟨tokens, tokens', hanswer, hanswer', -, -, hchanged⟩ := htables others
  obtain ⟨hfound, -⟩ := scan_withText hopen s.source.text
  obtain ⟨hfound', -⟩ := scan_withText hopen' s.source.text
  rw [hpieces] at hfound hfound'
  have htokens := Answer.tokens.inj (hanswer.symm.trans hfound)
  have htokens' := Answer.tokens.inj (hanswer'.symm.trans hfound')
  refine ⟨hopen, hvalues, ⟨tokens, tokens', hanswer, hanswer', ?_, ?_, ?_,
    hclassed hvalues tokens hanswer⟩, honce.2 ?_, ?_⟩
  · rw [htokens]
    decide
  · rw [htokens']
    decide
  · refine (hchanged _ hsame).imp fun t t' hpair hlexeme => hpair ?_
    rintro ⟨⟨c, cs, hword, hstart, -⟩, hif | hquoted⟩
    · exact hlexeme hif
    · -- the quoted word is not a word
      rw [hword] at hquoted
      obtain ⟨rfl, -⟩ := List.cons.inj hquoted
      exact absurd hstart (by decide)
  · intro x _ hfound
    cases hvalue x .eof hfound
  · intro hall
    exact honce'.1 hall "if".toList ⟨'i', ['f'], rfl, rfl, List.forall_mem_singleton.2 rfl⟩ rfl

end Session

end ScriptLexer
