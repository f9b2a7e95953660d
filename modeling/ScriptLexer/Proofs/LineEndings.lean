import ScriptLexer.Proofs.FirstPieces
import ScriptLexer.Proofs.WholeScan

/-!
# Line endings

Some texts end their lines with a line feed and some with carriage returns in front of it. What a
scan makes of such a carriage return depends on where it stands: in code it is a blank, a comment
swallows it, and a string keeps it. `plainEnds` takes all of them out, wherever they stand.

**The pieces of the plain text are those of the text without these carriage returns**
(`exists_maximalCut_plainEnds`). No border moves, because what a piece ends before is still there
or has become a line feed, and a line feed ends everything but strings. So tokens and diagnostics
stay, on the same lines, and only the texts inside strings show the difference.
-/

namespace ScriptLexer

/-- Nothing but carriage returns stands in front of the next line feed. -/
def atLineEnd (rest : List Char) : Bool := (rest.dropWhile (· == '\r')).head? == some '\n'

/-- The text without the carriage returns directly in front of line feeds. -/
def plainEnds : List Char → List Char
  | [] => []
  | c :: rest =>
    if c = '\r' ∧ atLineEnd rest = true then plainEnds rest else c :: plainEnds rest

/-- The text with a carriage return put in front of every line feed. -/
def returnEnds (text : List Char) : List Char :=
  text.flatMap fun c => if c = '\n' then ['\r', '\n'] else [c]

variable {c d x : Char} {text rest after : List Char}

/-! ## What is taken out -/

theorem plainEnds_cons_of_ne (h : c ≠ '\r') (rest : List Char) :
    plainEnds (c :: rest) = c :: plainEnds rest := by
  rw [plainEnds, if_neg fun hc => h hc.1]

theorem plainEnds_append_of_not_mem (h : '\r' ∉ text) (rest : List Char) :
    plainEnds (text ++ rest) = text ++ plainEnds rest := by
  induction text with
  | nil => rfl
  | cons c text ih =>
    have hc : c ≠ '\r' := fun heq => h (heq ▸ List.mem_cons_self)
    have htext : '\r' ∉ text := fun hmem => h (List.mem_cons_of_mem c hmem)
    rw [List.cons_append, plainEnds_cons_of_ne hc, ih htext, List.cons_append]

theorem plainEnds_eq_self (h : '\r' ∉ text) : plainEnds text = text := by
  have happend := plainEnds_append_of_not_mem h []
  rwa [List.append_nil, plainEnds, List.append_nil] at happend

/-- What is taken out of a text is taken out character by character, whatever comes behind it. -/
theorem exists_plainEnds_append (text rest : List Char) :
    ∃ w, plainEnds (text ++ rest) = w ++ plainEnds rest ∧ w.Sublist text := by
  induction text with
  | nil => exact ⟨[], rfl, .slnil⟩
  | cons c text ih =>
    obtain ⟨w, hw, hsub⟩ := ih
    rw [List.cons_append, plainEnds]
    split
    · exact ⟨w, hw, hsub.cons c⟩
    · exact ⟨c :: w, by rw [hw, List.cons_append], hsub.cons_cons c⟩

theorem plainEnds_sublist (text : List Char) : (plainEnds text).Sublist text := by
  obtain ⟨w, hw, hsub⟩ := exists_plainEnds_append text []
  rw [List.append_nil, plainEnds, List.append_nil] at hw
  rwa [hw]

/-- A character that is no part of a line end keeps the texts on its two sides apart. -/
theorem plainEnds_append_cons (hr : x ≠ '\r') (hn : x ≠ '\n') (text rest : List Char) :
    plainEnds (text ++ x :: rest) = plainEnds text ++ x :: plainEnds rest := by
  induction text with
  | nil => exact plainEnds_cons_of_ne hr rest
  | cons c text ih =>
    have hend : atLineEnd (text ++ x :: rest) = atLineEnd text := by
      rw [atLineEnd, atLineEnd, List.dropWhile_append]
      split
      · next hempty =>
        rw [List.isEmpty_iff.1 hempty]
        simp [hr, hn]
      · next hempty =>
        obtain ⟨d, ds, hd⟩ := List.exists_cons_of_ne_nil fun h => hempty (List.isEmpty_iff.2 h)
        rw [hd]
        rfl
    rw [List.cons_append, plainEnds, plainEnds, hend, ih]
    split
    · rfl
    · rfl

/-- Line feeds stay. -/
theorem count_plainEnds (text : List Char) : (plainEnds text).count '\n' = text.count '\n' := by
  fun_induction plainEnds text with
  | case1 => rfl
  | case2 c rest h ih =>
    rw [ih, h.1]
    rfl
  | case3 c rest h ih => rw [List.count_cons, List.count_cons, ih]

theorem head?_plainEnds_of_atLineEnd (h : atLineEnd rest = true) :
    (plainEnds rest).head? = some '\n' := by
  induction rest with
  | nil => cases h
  | cons c rest ih =>
    by_cases hc : c = '\r'
    · subst hc
      have hrest : atLineEnd rest = true := h
      rw [plainEnds, if_pos ⟨rfl, hrest⟩]
      exact ih hrest
    · have hdrop : (c :: rest).dropWhile (· == '\r') = c :: rest :=
        List.dropWhile_cons_of_neg (by simpa using hc)
      rw [atLineEnd, hdrop] at h
      rw [plainEnds_cons_of_ne hc]
      exact eq_of_beq h

/-- What the plain text begins with, the text begins with too, unless it is a line feed. -/
theorem head?_plainEnds (h : (plainEnds text).head? = some d) :
    text.head? = some d ∨ d = '\n' := by
  cases text with
  | nil => exact Or.inl h
  | cons c rest =>
    rw [plainEnds] at h
    split at h
    · next hc =>
      rw [head?_plainEnds_of_atLineEnd hc.2] at h
      exact Or.inr (Option.some.inj h).symm
    · exact Or.inl h

/-- The two ways of ending a line are the same to `plainEnds`. -/
theorem plainEnds_returnEnds (text : List Char) : plainEnds (returnEnds text) = plainEnds text := by
  have hend : ∀ w : List Char, atLineEnd (returnEnds w) = atLineEnd w := by
    intro w
    induction w with
    | nil => rfl
    | cons c w ih =>
      rw [returnEnds, List.flatMap_cons]
      by_cases hn : c = '\n'
      · subst hn
        rfl
      · rw [if_neg hn]
        by_cases hr : c = '\r'
        · subst hr
          exact ih
        · simp [atLineEnd, hr]
  induction text with
  | nil => rfl
  | cons c text ih =>
    rw [returnEnds, List.flatMap_cons]
    by_cases hn : c = '\n'
    · subst hn
      rw [if_pos rfl, List.cons_append, plainEnds, if_pos ⟨rfl, rfl⟩, List.cons_append,
        plainEnds_cons_of_ne (by decide), plainEnds_cons_of_ne (by decide)]
      exact congrArg _ ih
    · rw [if_neg hn, List.cons_append, List.nil_append, plainEnds, plainEnds]
      have hsame : atLineEnd (text.flatMap fun c => if c = '\n' then ['\r', '\n'] else [c]) =
          atLineEnd text := hend text
      rw [hsame, show plainEnds (text.flatMap _) = _ from ih]

/-! ## Pieces of the plain text -/

namespace Piece

/-- No border moves. -/
theorem EndsBefore.plain {p : Piece} (h : p.EndsBefore after) :
    p.EndsBefore (plainEnds after) := by
  refine h.imp ?_ ?_ ?_
  · intro d hd
    exact head?_plainEnds hd
  · rintro d rest heq hdigit
    cases after with
    | nil => cases heq
    | cons c after =>
      rw [plainEnds] at heq
      split at heq
      · next hc =>
        -- a line feed stands there and no point
        have hhead := head?_plainEnds_of_atLineEnd hc.2
        rw [heq] at hhead
        cases hhead
      · obtain ⟨rfl, hrest⟩ := List.cons.inj heq
        have hd : (plainEnds after).head? = some d := by
          rw [hrest]
          rfl
        rcases head?_plainEnds hd with hd | rfl
        · obtain ⟨rest', rfl⟩ := List.head?_eq_some_iff.1 hd
          exact ⟨rest', rfl⟩
        · cases hdigit
  · rintro body rfl
    obtain rfl : after = [] := h
    rfl

/-- What becomes of a piece that is not taken out as a whole. -/
inductive Reduces : Piece → Piece → Prop where
  | same {p : Piece} : '\r' ∉ p.text → Reduces p p
  | blank (c : Char) : Reduces (blank c) (blank c)
  | comment (body body' : List Char) : Reduces (comment body) (comment body')
  | string (body : List Char) : Reduces (string body) (string (plainEnds body))
  | openString (body : List Char) : Reduces (openString body) (openString (plainEnds body))

/-- Outside bodies a carriage return is a piece by itself. -/
theorem return_not_mem_text {p : Piece} (hs : p.Shaped) (hbody : p.hasBody = false)
    (hblank : p ≠ blank '\r') : '\r' ∉ p.text := by
  intro hmem
  rcases classify_of_mem_text hs hbody hmem with h | rfl | ⟨-, hclass⟩
  · exact hblank h
  · have hother : classify '\r' = .other := classify_eq_iff.2 hs
    exact absurd hother (by decide)
  · exact hclass rfl

theorem plainEnds_string (body rest : List Char) :
    plainEnds ((string body).text ++ rest) = (string (plainEnds body)).text ++ plainEnds rest := by
  simp only [text, List.cons_append, List.append_assoc, List.nil_append]
  rw [plainEnds_cons_of_ne (by decide), plainEnds_append_cons (by decide) (by decide)]

/-- **A piece in front of `after` becomes another piece in front of what `after` becomes**, unless
it is one of the carriage returns. -/
theorem exists_reduces {p : Piece} (hs : p.Shaped) (he : p.EndsBefore after) :
    (p = blank '\r' ∧ plainEnds (p.text ++ after) = plainEnds after) ∨
      ∃ q, plainEnds (p.text ++ after) = q.text ++ plainEnds after ∧
        q.Shaped ∧ q.EndsBefore (plainEnds after) ∧ p.Reduces q := by
  -- a piece without a return in it stays as it is
  have hsame : p.hasBody = false → p ≠ blank '\r' →
      ∃ q, plainEnds (p.text ++ after) = q.text ++ plainEnds after ∧
        q.Shaped ∧ q.EndsBefore (plainEnds after) ∧ p.Reduces q := by
    intro hbody hblank
    have hreturn := return_not_mem_text hs hbody hblank
    exact ⟨p, plainEnds_append_of_not_mem hreturn after, hs, he.plain, .same hreturn⟩
  cases p with
  | blank c =>
    by_cases hc : c = '\r' ∧ atLineEnd after = true
    · obtain ⟨rfl, hend⟩ := hc
      exact Or.inl ⟨rfl, if_pos ⟨rfl, hend⟩⟩
    · exact Or.inr ⟨blank c, if_neg hc, hs, trivial, .blank c⟩
  | comment body =>
    obtain ⟨body', hbody', hsub⟩ := exists_plainEnds_append body after
    have hclosed : '\n' ∉ body' := fun hmem => hs (hsub.subset hmem)
    refine Or.inr ⟨comment body', ?_, hclosed, he.plain, .comment body body'⟩
    simp only [text, List.cons_append]
    rw [plainEnds_cons_of_ne (by decide), plainEnds_cons_of_ne (by decide), hbody']
  | string body =>
    have hclosed : '"' ∉ plainEnds body := fun hmem => hs ((plainEnds_sublist body).subset hmem)
    exact Or.inr ⟨string (plainEnds body), plainEnds_string body after, hclosed, trivial,
      .string body⟩
  | openString body =>
    obtain rfl : after = [] := he
    have hclosed : '"' ∉ plainEnds body := fun hmem => hs ((plainEnds_sublist body).subset hmem)
    refine Or.inr ⟨openString (plainEnds body), ?_, hclosed, rfl, .openString body⟩
    simp only [text, List.append_nil, plainEnds]
    exact plainEnds_cons_of_ne (by decide) body
  | _ => exact Or.inr (hsame rfl (by simp))

end Piece

/-- The pieces behind the change: each becomes another one, and the carriage returns that were
pieces by themselves are gone. -/
inductive Reduced : List Piece → List Piece → Prop where
  | nil : Reduced [] []
  | dropped {ps qs : List Piece} : Reduced ps qs → Reduced (.blank '\r' :: ps) qs
  | kept {p q : Piece} {ps qs : List Piece} : p.Reduces q → Reduced ps qs →
      Reduced (p :: ps) (q :: qs)

theorem exists_maximalCut_plainEnds {ps : List Piece} (h : MaximalCut ps) :
    ∃ qs, qs.flatMap Piece.text = plainEnds (ps.flatMap Piece.text) ∧ MaximalCut qs ∧
      Reduced ps qs := by
  induction ps with
  | nil => exact ⟨[], rfl, trivial, .nil⟩
  | cons p ps ih =>
    obtain ⟨hs, he, hps⟩ := h
    obtain ⟨qs, htext, hcut, hreduced⟩ := ih hps
    rw [List.flatMap_cons]
    rcases Piece.exists_reduces hs he with ⟨rfl, hgone⟩ | ⟨q, hq, hshaped, hends, hbecomes⟩
    · exact ⟨qs, htext.trans hgone.symm, hcut, .dropped hreduced⟩
    · rw [← htext] at hq hends
      exact ⟨q :: qs, hq.symm, ⟨hshaped, hends, hcut⟩, .kept hbecomes hreduced⟩

theorem reduced_pieces (text : List Char) : Reduced (pieces text) (pieces (plainEnds text)) := by
  obtain ⟨qs, htext, hcut, hreduced⟩ := exists_maximalCut_plainEnds (maximalCut_pieces text)
  rw [flatMap_text_pieces] at htext
  rwa [maximalCut_iff.1 ⟨htext, hcut⟩] at hreduced

/-! ## What the pieces give -/

/-- The value with plain line ends. -/
def Literal.plain : Literal → Literal
  | .text s => .text (plainEnds s)
  | .number x => .number x

/-- The token with plain line ends. -/
def Token.plain (t : Token) : Token :=
  { t with lexeme := plainEnds t.lexeme, literal := t.literal.map Literal.plain }

variable {keywords : Keywords} {filename : String} {line : Int}

namespace Piece.Reduces

variable {p q : Piece}

theorem lines_eq (h : p.Reduces q) : q.lines = p.lines := by
  cases h with
  | string body => exact count_plainEnds body
  | openString body => exact count_plainEnds body
  | _ => rfl

theorem token? (h : p.Reduces q) :
    q.token? keywords line = (p.token? keywords line).map Token.plain := by
  cases h with
  | same hreturn =>
    -- nothing is taken out of the lexeme or of the value
    have htext := plainEnds_eq_self hreturn
    have hliteral : p.literal?.map Literal.plain = p.literal? := by
      cases p with
      | string body =>
        have hbody : '\r' ∉ body := fun hmem => hreturn (by simp [Piece.text, hmem])
        simp [literal?, Literal.plain, plainEnds_eq_self hbody]
      | _ => rfl
    simp only [Piece.token?, Option.map_map]
    congr 1
    funext kind
    simp only [Function.comp, Token.plain, htext, hliteral]
  | string body =>
    have hlexeme := plainEnds_string body []
    rw [List.append_nil, plainEnds, List.append_nil] at hlexeme
    simp only [Piece.token?, kind?, Option.map_some, Token.plain, hlexeme]
    rfl
  | _ => rfl

theorem fault? (h : p.Reduces q) : q.fault? filename line = p.fault? filename line := by
  have hlines := h.lines_eq
  cases h with
  | openString body => simp only [Piece.fault?, hlines]
  | _ => rfl

end Piece.Reduces

variable {ps qs : List Piece}

theorem tokensFrom_reduced (h : Reduced ps qs) (line : Int) :
    tokensFrom keywords line qs = (tokensFrom keywords line ps).map Token.plain := by
  induction h generalizing line with
  | nil => rfl
  | dropped _ ih =>
    have hline : line + (Piece.blank '\r').lines = line := Int.add_zero line
    rw [tokensFrom, hline]
    exact ih line
  | kept hp _ ih =>
    rw [tokensFrom, tokensFrom, hp.lines_eq, hp.token?, ih, List.map_append, Option.toList_map]

theorem diagnosticsFrom_reduced (h : Reduced ps qs) (line : Int) :
    diagnosticsFrom filename line qs = diagnosticsFrom filename line ps := by
  induction h generalizing line with
  | nil => rfl
  | dropped _ ih =>
    have hline : line + (Piece.blank '\r').lines = line := Int.add_zero line
    rw [diagnosticsFrom, hline]
    exact ih line
  | kept hp _ ih =>
    rw [diagnosticsFrom, diagnosticsFrom, hp.lines_eq, hp.fault?, ih]

namespace Session

variable {s : Session}

/-- What a scan of a text finds is found in the plain text too. -/
theorem scan_withText_plainEnds (h : s.sink.Open) (text : List Char) :
    ∃ tokens, (s.withText text).scan.answer = .tokens tokens ∧
      (s.withText (plainEnds text)).scan.answer = .tokens (tokens.map Token.plain) ∧
      (s.withText (plainEnds text)).scan.errors = (s.withText text).scan.errors := by
  obtain ⟨hanswer, herrors⟩ := scan_withText h text
  obtain ⟨hanswer', herrors'⟩ := scan_withText h (plainEnds text)
  have hreduced := reduced_pieces text
  refine ⟨_, hanswer, ?_, ?_⟩
  · rw [hanswer', tokensFrom_reduced hreduced]
  · rw [herrors', herrors, diagnosticsFrom_reduced hreduced]

/-- **The style of line endings does not matter.** The first part compares a text with its plain
form, the second with the form in which every line feed has a carriage return in front. -/
theorem scan_plainEnds (h : s.sink.Open) :
    let plain := s.withText (plainEnds s.source.text)
    let returned := s.withText (returnEnds s.source.text)
    ∃ tokens tokens', s.scan.answer = .tokens tokens ∧
      (plain.scan.answer = .tokens (tokens.map Token.plain) ∧
        plain.scan.errors = s.scan.errors) ∧
      returned.scan.answer = .tokens tokens' ∧
        tokens'.map Token.plain = tokens.map Token.plain ∧
        returned.scan.errors = s.scan.errors := by
  intro plain returned
  obtain ⟨tokens, hanswer, hplain, herrors⟩ := scan_withText_plainEnds h s.source.text
  obtain ⟨tokens', hanswer', hplain', herrors'⟩ :=
    scan_withText_plainEnds h (returnEnds s.source.text)
  -- both texts have the same plain form
  rw [plainEnds_returnEnds] at hplain' herrors'
  refine ⟨tokens, tokens', hanswer, ⟨hplain, herrors⟩, hanswer', ?_, herrors'.symm.trans herrors⟩
  exact Answer.tokens.inj (hplain'.symm.trans hplain)

/-- Carriage returns before a line feed in code, in a string and in a comment, and one that no line
feed follows, in an open string. -/
theorem scan_plainEnds_of_all_places :
    let text := ['/', '\r', '\n', '"', '\r', '\r', '\n', '"', '/', '/', '\r', '\n', '@', '"', '\r']
    let s := start { text := text } (some .newCollector)
    let plain := s.withText
      ['/', '\n', '"', '\n', '"', '/', '/', '\n', '@', '"', '\r']
    s.sink.Open ∧
      s.scan.answer =
        .tokens [⟨.slash, ['/'], none, 1⟩,
          ⟨.string, ['"', '\r', '\r', '\n', '"'], some (.text ['\r', '\r', '\n']), 2⟩,
          Token.endOfInput 4] ∧
      plain.scan.answer =
        .tokens [⟨.slash, ['/'], none, 1⟩,
          ⟨.string, ['"', '\n', '"'], some (.text ['\n']), 2⟩, Token.endOfInput 4] ∧
      plain.scan.errors =
        [.unexpectedCharacter '@' 4 "<unknown>", .unterminatedString 4 "<unknown>"] := by
  intro text s plain
  have hopen : s.sink.Open := fun k => rfl
  have hpieces : pieces text =
      [.slash, .blank '\r', .newline, .string ['\r', '\r', '\n'], .comment ['\r'], .newline,
        .stray '@', .openString ['\r']] := by decide +kernel
  obtain ⟨hfound, herrors⟩ := scan_withText hopen text
  rw [hpieces] at hfound herrors
  obtain ⟨tokens, -, hanswer, ⟨hplain, hsame⟩, -⟩ := scan_plainEnds hopen
  obtain rfl := Answer.tokens.inj (hanswer.symm.trans hfound)
  exact ⟨hopen, hanswer, hplain, hsame.trans herrors⟩

end Session

end ScriptLexer
