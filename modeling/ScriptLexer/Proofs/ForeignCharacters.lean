import ScriptLexer.Proofs.WholeScan

/-!
# Characters outside the alphabet

No piece can begin with a character of the class `other`, and no piece stops at one for its own
sake. Strings and comments run over such a character, everything else ends before it, and that is
all a scan ever finds out about it. In particular none of them, NUL included, is taken for the end
of the input.

Two texts are alike if they differ only in which such characters stand where. **They have alike
pieces** (`alike_pieces`), so a scan of one shows the other with the characters exchanged: they can
be seen in the values of strings and in the hints of diagnostics, and nowhere else.
-/

namespace ScriptLexer

/-- The same character, or two that no piece can begin with. -/
def AlikeChar (c d : Char) : Prop := c = d ∨ classify c = .other ∧ classify d = .other

/-- Two texts of one length that are alike in every place. -/
abbrev AlikeText (text text' : List Char) : Prop := List.Forall₂ AlikeChar text text'

variable {c d x : Char} {text text' after after' : List Char}

theorem AlikeChar.eq_iff (h : AlikeChar c d) (hx : classify x ≠ .other) : c = x ↔ d = x := by
  rcases h with rfl | ⟨hc, hd⟩
  · exact Iff.rfl
  · constructor
    · rintro rfl
      exact absurd hc hx
    · rintro rfl
      exact absurd hd hx

namespace AlikeText

theorem split {u v w : List Char} (h : AlikeText (u ++ v) w) :
    ∃ u' v', w = u' ++ v' ∧ AlikeText u u' ∧ AlikeText v v' := by
  refine ⟨w.take u.length, w.drop u.length, (List.take_append_drop _ _).symm, ?_, ?_⟩
  · have htake := List.forall₂_take u.length h
    rwa [List.take_left] at htake
  · have hdrop := List.forall₂_drop u.length h
    rwa [List.drop_left] at hdrop

/-- A character of the alphabet stands in the same places of both texts. -/
theorem head?_eq_iff (h : AlikeText text text') (hx : classify x ≠ .other) :
    text.head? = some x ↔ text'.head? = some x := by
  cases h with
  | nil => exact Iff.rfl
  | cons hc _ => simpa using hc.eq_iff hx

/-- A run of characters of the alphabet stops at the same place of both texts. -/
theorem stop {q : Char → Bool} (hq : ∀ c, q c = true → classify c ≠ .other)
    (h : AlikeText text text') (hstop : ∀ d ∈ text.head?, q d = false) :
    ∀ d ∈ text'.head?, q d = false := by
  intro d hd
  by_cases hrun : q d = true
  · exact hstop d ((h.head?_eq_iff (hq d hrun)).2 hd)
  · exact Bool.eq_false_iff.2 hrun

theorem mem_iff (h : AlikeText text text') (hx : classify x ≠ .other) :
    x ∈ text ↔ x ∈ text' := by
  induction h with
  | nil => exact Iff.rfl
  | cons hc _ ih => simp only [List.mem_cons, ih, eq_comm (a := x), hc.eq_iff hx]

theorem count_eq (h : AlikeText text text') (hx : classify x ≠ .other) :
    text.count x = text'.count x := by
  induction h with
  | nil => rfl
  | cons hc _ ih => simp only [List.count_cons, ih, beq_iff_eq, hc.eq_iff hx]

/-- Nothing can be exchanged in a text of the alphabet. -/
theorem eq_of_alphabet (h : AlikeText text text') (hall : ∀ c ∈ text, classify c ≠ .other) :
    text' = text := by
  induction h with
  | nil => rfl
  | cons hc _ ih =>
    obtain ⟨hhead, hrest⟩ := List.forall_mem_cons.1 hall
    rw [ih hrest, (hc.eq_iff hhead).1 rfl]

end AlikeText

namespace Piece

/-- Two pieces of one form, with alike texts in comments and strings. -/
inductive Alike : Piece → Piece → Prop where
  | refl (p : Piece) : Alike p p
  | comment {body body' : List Char} : AlikeText body body' → Alike (comment body) (comment body')
  | string {body body' : List Char} : AlikeText body body' → Alike (string body) (string body')
  | openString {body body' : List Char} : AlikeText body body' →
      Alike (openString body) (openString body')
  | stray {c d : Char} : classify c = .other → classify d = .other → Alike (stray c) (stray d)

theorem classify_ne_other_of_isDigit (h : c.isDigit = true) : classify c ≠ .other := by
  rw [classify_of_isDigit h]
  decide

theorem classify_ne_other_of_isWordChar (h : isWordChar c = true) : classify c ≠ .other := by
  rcases classify_of_isWordChar h with h | h <;> rw [h] <;> decide

/-- **Where a piece ends does not depend on which foreign characters follow.** -/
theorem EndsBefore.alike {p : Piece} (h : p.EndsBefore after) (ha : AlikeText after after') :
    p.EndsBefore after' := by
  cases p with
  | operator op withEqual =>
    cases withEqual with
    | true => trivial
    | false => exact fun heq => h ((ha.head?_eq_iff (by decide)).2 heq)
  | slash => exact fun heq => h ((ha.head?_eq_iff (by decide)).2 heq)
  | comment body =>
    cases ha with
    | nil => exact h
    | cons hc _ =>
      intro e he
      obtain rfl := Option.some.inj he
      exact (hc.eq_iff (by decide)).1 (h _ rfl)
  | openString body =>
    obtain rfl : after = [] := h
    exact List.forall₂_nil_left_iff.1 ha
  | number whole fraction =>
    obtain ⟨hstop, hpoint⟩ := h
    have hdigit : ∀ c : Char, c.isDigit = true → classify c ≠ .other := fun c =>
      classify_ne_other_of_isDigit
    refine ⟨ha.stop hdigit hstop, ?_⟩
    -- a point with a digit behind it would stand in the other text as well
    rintro hfraction e rest rfl
    cases ha with
    | @cons b _ bs _ hb hbs =>
      obtain rfl : b = '.' := (hb.eq_iff (by decide)).2 rfl
      refine AlikeText.stop hdigit hbs ?_ e rfl
      intro a hhead
      obtain ⟨as, rfl⟩ := List.head?_eq_some_iff.1 hhead
      exact hpoint hfraction a as rfl
  | word w => exact ha.stop (fun c => classify_ne_other_of_isWordChar) h
  | _ => trivial

theorem classify_quote : classify '"' ≠ .other := by decide

/-- What is alike the text of a piece is the text of an alike piece, which ends in the same
places. -/
theorem exists_alike {p : Piece} {w : List Char} (hs : p.Shaped) (h : AlikeText p.text w) :
    ∃ q, q.text = w ∧ p.Alike q ∧ q.Shaped ∧ ∀ after, p.EndsBefore after → q.EndsBefore after := by
  -- foreign characters stand only in bodies and by themselves
  have hsame : p.hasBody = false → (∀ b, p ≠ stray b) →
      ∃ q, q.text = w ∧ p.Alike q ∧ q.Shaped ∧
        ∀ after, p.EndsBefore after → q.EndsBefore after := by
    intro hbody hstray
    have hall : ∀ c ∈ p.text, classify c ≠ .other := by
      intro c hc
      rcases classify_of_mem_text hs hbody hc with rfl | rfl | ⟨hother, -⟩
      · rw [show classify c = .whitespace from classify_eq_iff.2 hs]
        decide
      · exact absurd rfl (hstray c)
      · exact hother
    exact ⟨p, (h.eq_of_alphabet hall).symm, .refl p, hs, fun _ he => he⟩
  cases p with
  | comment body =>
    obtain ⟨marks, body', rfl, hmarks, hbody⟩ := h.split (u := ['/', '/'])
    have hslash : classify '/' ≠ .other := by decide
    obtain rfl := hmarks.eq_of_alphabet
      (List.forall_mem_cons.2 ⟨hslash, List.forall_mem_singleton.2 hslash⟩)
    have hclosed : '\n' ∉ body' := fun hmem => hs ((hbody.mem_iff (by decide)).2 hmem)
    exact ⟨comment body', rfl, .comment hbody, hclosed, fun _ he => he⟩
  | string body =>
    obtain ⟨opened, closing, rfl, hopened, hclosing⟩ := h.split (u := '"' :: body)
    obtain ⟨opening, body', rfl, hopening, hbody⟩ := hopened.split (u := ['"'])
    obtain rfl := hopening.eq_of_alphabet (List.forall_mem_singleton.2 classify_quote)
    obtain rfl := hclosing.eq_of_alphabet (List.forall_mem_singleton.2 classify_quote)
    have hclosed : '"' ∉ body' := fun hmem => hs ((hbody.mem_iff classify_quote).2 hmem)
    exact ⟨string body', rfl, .string hbody, hclosed, fun _ he => he⟩
  | openString body =>
    obtain ⟨opening, body', rfl, hopening, hbody⟩ := h.split (u := ['"'])
    obtain rfl := hopening.eq_of_alphabet (List.forall_mem_singleton.2 classify_quote)
    have hclosed : '"' ∉ body' := fun hmem => hs ((hbody.mem_iff classify_quote).2 hmem)
    exact ⟨openString body', rfl, .openString hbody, hclosed, fun _ he => he⟩
  | stray b =>
    have hb : classify b = .other := classify_eq_iff.2 hs
    cases h with
    | @cons _ e _ _ he hnil =>
      obtain rfl := List.forall₂_nil_left_iff.1 hnil
      have hother : classify e = .other := by
        rcases he with rfl | ⟨-, he⟩
        · exact hb
        · exact he
      exact ⟨stray e, rfl, .stray hb hother, classify_eq_iff.1 hother, fun _ he => he⟩
  | _ => exact hsame rfl (by simp)

end Piece

theorem exists_alike_maximalCut {ps : List Piece} (h : MaximalCut ps)
    (ht : AlikeText (ps.flatMap Piece.text) text') :
    ∃ qs, qs.flatMap Piece.text = text' ∧ MaximalCut qs ∧ List.Forall₂ Piece.Alike ps qs := by
  induction ps generalizing text' with
  | nil =>
    obtain rfl := List.forall₂_nil_left_iff.1 ht
    exact ⟨[], rfl, trivial, .nil⟩
  | cons p ps ih =>
    obtain ⟨hs, he, hps⟩ := h
    rw [List.flatMap_cons] at ht
    obtain ⟨w, rest, rfl, hw, hrest⟩ := ht.split
    obtain ⟨q, rfl, halike, hshaped, hends⟩ := Piece.exists_alike hs hw
    obtain ⟨qs, rfl, hcut, hothers⟩ := ih hps hrest
    exact ⟨q :: qs, rfl, ⟨hshaped, hends _ (he.alike hrest), hcut⟩, .cons halike hothers⟩

/-- **Alike texts have alike pieces.** -/
theorem alike_pieces (h : AlikeText text text') :
    List.Forall₂ Piece.Alike (pieces text) (pieces text') := by
  rw [← flatMap_text_pieces text] at h
  obtain ⟨qs, htext, hcut, halike⟩ := exists_alike_maximalCut (maximalCut_pieces text) h
  rwa [maximalCut_iff.1 ⟨htext, hcut⟩] at halike

/-! ## What alike pieces give -/

/-- The same token, or two tokens of strings on one line with alike bodies. -/
inductive Token.Alike : Token → Token → Prop where
  | refl (t : Token) : Alike t t
  | string {body body' : List Char} (line : Int) : AlikeText body body' →
      Alike ⟨.string, '"' :: body ++ ['"'], some (.text body), line⟩
        ⟨.string, '"' :: body' ++ ['"'], some (.text body'), line⟩

/-- The same diagnostic, apart from the hint. -/
def Diagnostic.Alike (d d' : Diagnostic) : Prop :=
  { d with helpText := none } = { d' with helpText := none }

variable {keywords : Keywords} {filename : String} {line : Int}

/-- The exchanged character shows in the hint alone. -/
theorem Diagnostic.alike_unexpected (help help' : String) :
    Alike (unexpected help line filename) (unexpected help' line filename) := rfl

namespace Piece.Alike

variable {p q : Piece}

theorem length_text (h : p.Alike q) : q.text.length = p.text.length := by
  cases h with
  | refl => rfl
  | comment h => simp [text, h.length_eq]
  | string h => simp [text, h.length_eq]
  | openString h => simp [text, h.length_eq]
  | stray => rfl

theorem lines_eq (h : p.Alike q) : q.lines = p.lines := by
  cases h with
  | string h => exact (h.count_eq (by decide)).symm
  | openString h => exact (h.count_eq (by decide)).symm
  | _ => rfl

theorem token? (h : p.Alike q) :
    List.Forall₂ Token.Alike (p.token? keywords line).toList (q.token? keywords line).toList := by
  cases h with
  | refl => exact List.forall₂_same.2 fun t _ => .refl t
  | string h => exact .cons (.string line h) .nil
  | _ => exact .nil

theorem fault? (h : p.Alike q) :
    List.Forall₂ Diagnostic.Alike (p.fault? filename line).toList
      (q.fault? filename line).toList := by
  have hlines := h.lines_eq
  cases h with
  | refl => exact List.forall₂_same.2 fun d _ => rfl
  | openString =>
    simp only [Piece.fault?, hlines]
    exact .cons rfl .nil
  | stray => exact .cons (Diagnostic.alike_unexpected _ _) .nil
  | _ => exact .nil

end Piece.Alike

variable {ps qs : List Piece}

theorem alike_tokensFrom (h : List.Forall₂ Piece.Alike ps qs) (line : Int) :
    List.Forall₂ Token.Alike (tokensFrom keywords line ps) (tokensFrom keywords line qs) := by
  induction h generalizing line with
  | nil => exact .cons (.refl _) .nil
  | cons hp _ ih =>
    rw [tokensFrom, tokensFrom, hp.lines_eq]
    exact List.rel_append hp.token? (ih _)

theorem alike_diagnosticsFrom (h : List.Forall₂ Piece.Alike ps qs) (line : Int) :
    List.Forall₂ Diagnostic.Alike (diagnosticsFrom filename line ps)
      (diagnosticsFrom filename line qs) := by
  induction h generalizing line with
  | nil => exact .nil
  | cons hp _ ih =>
    rw [diagnosticsFrom, diagnosticsFrom, hp.lines_eq]
    exact List.rel_append hp.fault? (ih _)

/-- The spans of a list of pieces that begins at offset `i`. -/
def spansFrom : Int → List Piece → List (Int × Int)
  | _, [] => []
  | i, p :: ps => (i, i + p.text.length) :: spansFrom (i + p.text.length) ps

theorem spansFrom_alike (h : List.Forall₂ Piece.Alike ps qs) (i : Int) :
    spansFrom i qs = spansFrom i ps := by
  induction h generalizing i with
  | nil => rfl
  | cons hp _ ih => rw [spansFrom, spansFrom, hp.length_text, ih]

namespace Session

theorem ReadThrough.map_span {s final : Session} {os : List Outcome} (h : s.ReadThrough os final)
    (ha : s.Ahead ps) : os.map Outcome.span = spansFrom s.cursor.current ps := by
  refine ReadThrough.along (motive := fun s ps os _ =>
    os.map Outcome.span = spansFrom s.cursor.current ps) ?_ ?_ h ha
  · intro s _
    rfl
  · intro s p ps os final _ hreads ih
    have hcur : s.scanToken.session.cursor.current = s.cursor.current + p.text.length :=
      congrArg Prod.snd hreads.span
    rw [List.map_cons, ih, hreads.span, hcur, spansFrom]

variable {s : Session}

/-- **Characters outside the alphabet are interchangeable.** Scans of alike texts read the same
spans, up to the end of the text, and answer with alike tokens and diagnostics. -/
theorem scan_alike (h : s.sink.Open) (ht : AlikeText s.source.text text') :
    let other := s.withText text'
    ∃ (os : List Outcome) (final : Session) (os' : List Outcome) (final' : Session)
      (tokens tokens' : List Token),
      s.rewound.ReadThrough os final ∧ other.rewound.ReadThrough os' final' ∧
      os'.map Outcome.span = os.map Outcome.span ∧
      Tiles 0 s.source.text.length (os.map Outcome.span) ∧
      s.scan.answer = .tokens tokens ∧ other.scan.answer = .tokens tokens' ∧
      List.Forall₂ Token.Alike tokens tokens' ∧
      List.Forall₂ Diagnostic.Alike s.scan.errors other.scan.errors := by
  intro other
  have hpieces := alike_pieces ht
  have hahead := ahead_rewound s
  have hahead' := ahead_rewound other
  obtain ⟨os, final, hloop⟩ := exists_readThrough hahead
  obtain ⟨os', final', hloop'⟩ := exists_readThrough hahead'
  obtain ⟨hanswer, herrors⟩ := scan_withText h s.source.text
  obtain ⟨hanswer', herrors'⟩ := scan_withText h text'
  refine ⟨os, final, os', final', _, _, hloop, hloop', ?_, hloop.tiles hahead, hanswer, hanswer',
    alike_tokensFrom hpieces 1, ?_⟩
  · rw [hloop.map_span hahead, hloop'.map_span hahead']
    exact spansFrom_alike hpieces 0
  · rw [show s.scan.errors = _ from herrors, herrors']
    exact alike_diagnosticsFrom hpieces 1

/-- A NUL in a string and a NUL as a fault, against a letter with an accent and a `#` in their
places. -/
theorem scan_alike_around_nul :
    let s := start { text := ['"', '\x00', '"', '\x00', 'x'] } (some .newCollector)
    let other := s.withText ['"', 'é', '"', '#', 'x']
    s.sink.Open ∧ AlikeText s.source.text ['"', 'é', '"', '#', 'x'] ∧
      ∃ (os : List Outcome) (final : Session) (os' : List Outcome) (final' : Session),
        s.rewound.ReadThrough os final ∧ other.rewound.ReadThrough os' final' ∧
        os'.map Outcome.span = [(0, 3), (3, 4), (4, 5)] ∧
        other.scan.answer =
          .tokens [⟨.string, ['"', 'é', '"'], some (.text ['é']), 1⟩,
            ⟨.identifier, ['x'], none, 1⟩, Token.endOfInput 1] ∧
        List.Forall₂ Diagnostic.Alike [.unexpectedCharacter '\x00' 1 "<unknown>"]
          other.scan.errors := by
  intro s other
  have hopen : s.sink.Open := fun k => rfl
  have halike : AlikeText s.source.text ['"', 'é', '"', '#', 'x'] :=
    .cons (Or.inl rfl) (.cons (Or.inr ⟨rfl, rfl⟩) (.cons (Or.inl rfl)
      (.cons (Or.inr ⟨rfl, rfl⟩) (.cons (Or.inl rfl) .nil))))
  have hpieces : pieces s.source.text = [.string ['\x00'], .stray '\x00', .word ['x']] := by
    decide +kernel
  have hpieces' : pieces ['"', 'é', '"', '#', 'x'] = [.string ['é'], .stray '#', .word ['x']] := by
    decide +kernel
  obtain ⟨os, final, os', final', tokens, tokens', hloop, hloop', hspans, -, -, -, -, herrors⟩ :=
    scan_alike hopen halike
  have hfound : s.scan.errors = _ := (scan_withText hopen s.source.text).2
  have hahead : s.rewound.Ahead _ := ahead_rewound s
  obtain ⟨hanswer', -⟩ := scan_withText hopen ['"', 'é', '"', '#', 'x']
  rw [hpieces] at hfound hahead
  rw [hpieces'] at hanswer'
  rw [hloop.map_span hahead] at hspans
  rw [hfound] at herrors
  exact ⟨hopen, halike, os, final, os', final', hloop, hloop', hspans, hanswer', herrors⟩

end Session

end ScriptLexer
