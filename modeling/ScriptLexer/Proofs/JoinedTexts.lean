import ScriptLexer.Proofs.FirstPieces
import ScriptLexer.Proofs.WholeScan

/-!
# Two texts joined by a line feed

Only a string goes on over a line feed. Behind a text that leaves no string open, a line feed ends
the last piece just as the end of the input does, whether that piece is a comment, a number with a
point behind it or a lone operator. What stands behind the line feed is scanned as a text of its
own, only further down.

**The pieces of the two texts are put one behind the other** (`pieces_append_newline`), and so are
their tokens and faults, with the lines of the second counted on.
-/

namespace ScriptLexer

/-- The token `k` lines further down. -/
def Token.addLines (k : Int) (t : Token) : Token := { t with line := t.line + k }

/-- The diagnostic `k` lines further down. -/
def Diagnostic.addLines (k : Int) (d : Diagnostic) : Diagnostic := { d with line := d.line + k }

/-! ## Counting on -/

variable {keywords : Keywords} {filename : String}

theorem Piece.token?_add (line k : Int) (p : Piece) :
    p.token? keywords (line + k) = (p.token? keywords line).map (Token.addLines k) := by
  rw [token?, token?, Option.map_map]
  rfl

theorem Piece.fault?_add (line k : Int) (p : Piece) :
    p.fault? filename (line + k) = (p.fault? filename line).map (Diagnostic.addLines k) := by
  cases p with
  | stray c => rfl
  | openString body =>
    have hline : line + k + (openString body).lines = line + (openString body).lines + k := by omega
    rw [fault?, fault?, hline]
    rfl
  | _ => rfl

theorem tokensFrom_add (line k : Int) (ps : List Piece) :
    tokensFrom keywords (line + k) ps = (tokensFrom keywords line ps).map (Token.addLines k) := by
  induction ps generalizing line with
  | nil => rfl
  | cons p ps ih =>
    have hline : line + k + p.lines = line + p.lines + k := by omega
    rw [tokensFrom, tokensFrom, hline, ih, p.token?_add, List.map_append]
    cases p.token? keywords line <;> rfl

theorem diagnosticsFrom_add (line k : Int) (ps : List Piece) :
    diagnosticsFrom filename (line + k) ps =
      (diagnosticsFrom filename line ps).map (Diagnostic.addLines k) := by
  induction ps generalizing line with
  | nil => rfl
  | cons p ps ih =>
    have hline : line + k + p.lines = line + p.lines + k := by omega
    rw [diagnosticsFrom, diagnosticsFrom, hline, ih, p.fault?_add, List.map_append]
    cases p.fault? filename line <;> rfl

/-! ## The line feed between -/

/-- Where the input may end, a line feed may stand as well, unless a string is open. -/
theorem Piece.EndsBefore.append_newline {p : Piece} {between after : List Char}
    (h : p.EndsBefore between) (hopen : ∀ body, p ≠ openString body) :
    p.EndsBefore (between ++ '\n' :: after) := by
  refine h.imp ?_ ?_ ?_
  · intro d hd
    cases between with
    | nil => exact Or.inr (by simpa using hd.symm)
    | cons e between => exact Or.inl hd
  · -- a digit behind a point stood there before
    rintro d rest heq hdigit
    rcases between with _ | ⟨e, _ | ⟨e', between⟩⟩
    · exact absurd (List.cons.inj heq).1 (by decide)
    · obtain ⟨-, hrest⟩ := List.cons.inj heq
      obtain ⟨rfl, -⟩ := List.cons.inj hrest
      exact absurd hdigit (by decide)
    · obtain ⟨rfl, hrest⟩ := List.cons.inj heq
      obtain ⟨rfl, -⟩ := List.cons.inj hrest
      exact ⟨between, rfl⟩
  · intro body hp
    exact absurd hp (hopen body)

theorem pieces_append_newline {a : List Char} (hopen : ∀ body, Piece.openString body ∉ pieces a)
    (b : List Char) : pieces (a ++ '\n' :: b) = pieces a ++ Piece.newline :: pieces b := by
  have hwhole : CutBefore [] (pieces a) :=
    cutBefore_of_pieces_eq (List.append_nil (pieces a)).symm
  have hcut : CutBefore ('\n' :: b) (pieces a) := by
    refine hwhole.imp ?_
    intro p hp between he
    rw [List.append_nil] at he
    refine he.append_newline ?_
    rintro body rfl
    exact hopen body hp
  have hpieces := pieces_append_of_cutBefore hcut
  rw [flatMap_text_pieces] at hpieces
  rw [hpieces]
  exact congrArg (pieces a ++ ·) (pieces_text_append (p := .newline) trivial trivial)

/-- An open string among the pieces is reported. -/
theorem exists_unterminated_of_mem {ps : List Piece} {body : List Char}
    (h : Piece.openString body ∈ ps) (line : Int) :
    ∃ d ∈ diagnosticsFrom filename line ps, d.code = some "L002" := by
  induction ps generalizing line with
  | nil => cases h
  | cons p ps ih =>
    rw [diagnosticsFrom]
    rcases List.mem_cons.1 h with rfl | h
    · exact ⟨_, List.mem_append_left _ (List.mem_singleton_self _), rfl⟩
    · obtain ⟨d, hd, hcode⟩ := ih h (line + p.lines)
      exact ⟨d, List.mem_append_right _ hd, hcode⟩

namespace Session

variable {s : Session}

/-- **Scanning is compositional at line feeds.** -/
theorem scan_append_newline (h : s.sink.Open) {a : List Char}
    (hclosed : ∀ d ∈ (s.withText a).scan.errors, d.code ≠ some "L002") (b : List Char) :
    let joined := s.withText (a ++ '\n' :: b)
    let k : Int := 1 + (a.count '\n' : Nat)
    ∃ tokens tokens' : List Token,
      (s.withText a).scan.answer = .tokens (tokens ++ [Token.endOfInput k]) ∧
      (s.withText b).scan.answer = .tokens tokens' ∧
      joined.scan.answer = .tokens (tokens ++ tokens'.map (Token.addLines k)) ∧
      joined.scan.errors =
        (s.withText a).scan.errors ++ (s.withText b).scan.errors.map (Diagnostic.addLines k) := by
  intro joined k
  obtain ⟨hanswer, herrors⟩ := scan_withText h a
  obtain ⟨hanswer', herrors'⟩ := scan_withText h b
  obtain ⟨hjoined, hjoined'⟩ := scan_withText h (a ++ '\n' :: b)
  have hpieces : pieces (a ++ '\n' :: b) = pieces a ++ Piece.newline :: pieces b := by
    refine pieces_append_newline ?_ b
    intro body hbody
    obtain ⟨d, hd, hcode⟩ := exists_unterminated_of_mem hbody (1 : Int)
    rw [← herrors] at hd
    exact hclosed d hd hcode
  -- the line feed stands on the last line of `a`, and `b` begins on the one behind it
  have hlast : lastLine 1 (pieces a) = k := by
    rw [lastLine_pieces, lineAt_length]
  have hbegin : lastLine 1 (pieces a) + Piece.newline.lines = 1 + k := by
    rw [hlast]
    exact Int.add_comm k 1
  refine ⟨(tokensFrom s.source.keywords 1 (pieces a)).dropLast,
    tokensFrom s.source.keywords 1 (pieces b), ?_, hanswer', ?_, ?_⟩
  · rw [hanswer, ← hlast, ← tokensFrom_eq_dropLast]
  · rw [hjoined, hpieces, tokensFrom_append, ← tokensFrom_add, ← hbegin]
    rfl
  · rw [hjoined', hpieces, diagnosticsFrom_append, herrors, herrors', ← diagnosticsFrom_add,
      ← hbegin]
    rfl

/-- The first text ends with a slash and the second begins with one. With the newline between them
they are two tokens and no comment. -/
theorem scan_append_newline_behind_slash :
    let s := start { text := [] } (some .newCollector)
    let a := ['@', '\n', '/']
    let joined := s.withText (a ++ '\n' :: ['/', '"'])
    s.sink.Open ∧ (∀ d ∈ (s.withText a).scan.errors, d.code ≠ some "L002") ∧
      joined.scan.answer =
        .tokens [⟨.slash, ['/'], none, 2⟩, ⟨.slash, ['/'], none, 3⟩, Token.endOfInput 3] ∧
      joined.scan.errors =
        [.unexpectedCharacter '@' 1 "<unknown>", .unterminatedString 3 "<unknown>"] := by
  intro s a joined
  have hopen : s.sink.Open := fun k => rfl
  have ha : pieces a = [.stray '@', .newline, .slash] := by decide +kernel
  have hb : pieces ['/', '"'] = [.slash, .openString []] := by decide +kernel
  obtain ⟨hanswer, herrors⟩ := scan_withText hopen a
  obtain ⟨hanswer', herrors'⟩ := scan_withText hopen ['/', '"']
  rw [ha] at hanswer herrors
  rw [hb] at hanswer' herrors'
  have hclosed : ∀ d ∈ (s.withText a).scan.errors, d.code ≠ some "L002" := by
    rw [herrors]
    intro d hd
    obtain rfl := List.mem_singleton.1 hd
    exact fun hcode => absurd hcode (by decide)
  obtain ⟨tokens, tokens', htokens, htokens', hjoined, hjoined'⟩ :=
    scan_append_newline hopen hclosed ['/', '"']
  rw [hanswer] at htokens
  rw [hanswer'] at htokens'
  obtain rfl : [⟨.slash, ['/'], none, 2⟩] = tokens :=
    List.append_cancel_right (Answer.tokens.inj htokens)
  obtain rfl := Answer.tokens.inj htokens'
  refine ⟨hopen, hclosed, hjoined, ?_⟩
  rw [hjoined', herrors, herrors']
  rfl

end Session

end ScriptLexer
