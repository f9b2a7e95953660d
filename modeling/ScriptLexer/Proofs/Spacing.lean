import ScriptLexer.Proofs.Lines

/-!
# Lexemes and the gaps between them

The other direction of scanning: a list of lexemes is written down, with blanks, newlines and
closed comments between them, and scanned again. Every piece is known beforehand, so all there is
to check are the borders. A gap keeps any two lexemes apart, except that a comment directly behind
a slash would make the slash part of the comment.

**Scanning undoes printing** (`scan_text`): what comes back are the lexemes, on the lines they were
written on, and no fault. Since the lexemes of any text can be written down in this way, the tokens
of any scan survive being joined with spaces and scanned again.
-/

namespace ScriptLexer

/-! ## Lexemes -/

/-- The pieces that give a token. -/
def Piece.isToken : Piece → Bool
  | punctuation _ | operator _ _ | slash | string _ | number _ _ | word _ => true
  | _ => false

theorem Piece.isSome_kind? (p : Piece) (keywords : Keywords) :
    (p.kind? keywords).isSome = p.isToken := by
  cases p <;> rfl

theorem Piece.token?_eq_none_of_isToken {p : Piece} (h : p.isToken = false) (keywords : Keywords)
    (line : Int) : p.token? keywords line = none := by
  have hkind : p.kind? keywords = none := by
    rw [← Option.not_isSome_iff_eq_none, p.isSome_kind? keywords, h]
    exact Bool.false_ne_true
  rw [token?, hkind]
  rfl

/-- A piece that gives a token, and is written as one. -/
structure Lexeme where
  piece : Piece
  shaped : piece.Shaped
  isToken : piece.isToken = true

namespace Lexeme

/-- The source text of a lexeme. -/
def text (x : Lexeme) : List Char := x.piece.text

/-- The kind of its token, which it has because its piece gives one. -/
def kind (keywords : Keywords) (x : Lexeme) : Kind :=
  (x.piece.kind? keywords).get ((x.piece.isSome_kind? keywords).trans x.isToken)

/-- The token that a lexeme on `line` denotes. -/
def token (keywords : Keywords) (line : Int) (x : Lexeme) : Token :=
  ⟨x.kind keywords, x.text, x.piece.literal?, line⟩

theorem token?_piece (keywords : Keywords) (line : Int) (x : Lexeme) :
    x.piece.token? keywords line = some (x.token keywords line) := by
  obtain ⟨kind, hkind⟩ := Option.isSome_iff_exists.1
    ((x.piece.isSome_kind? keywords).trans x.isToken)
  simp [Piece.token?, token, Lexeme.kind, hkind, text]

theorem fault?_piece (filename : String) (line : Int) (x : Lexeme) :
    x.piece.fault? filename line = none := by
  obtain ⟨p, hs, htoken⟩ := x
  cases p with
  | stray c => cases htoken
  | openString body => cases htoken
  | _ => rfl

end Lexeme

/-! ## Gaps -/

/-- What may stand between two lexemes. A comment is closed by its newline. -/
inductive Filler where
  | blank (c : Char) (h : c = ' ' ∨ c = '\t' ∨ c = '\r')
  | newline
  | comment (body : List Char) (h : '\n' ∉ body)

namespace Filler

/-- How a filler is written. -/
def text : Filler → List Char
  | blank c _ => [c]
  | newline => ['\n']
  | comment body _ => '/' :: '/' :: body ++ ['\n']

/-- The pieces that it is cut into. A comment does not take in the newline that closes it. -/
def pieces : Filler → List Piece
  | blank c _ => [.blank c]
  | newline => [.newline]
  | comment body _ => [.comment body, .newline]

/-- The filler begins with a slash, which a slash before it would join. -/
def isComment : Filler → Bool
  | comment _ _ => true
  | _ => false

theorem flatMap_text_pieces (f : Filler) : f.pieces.flatMap Piece.text = f.text := by
  cases f <;> simp [pieces, text, Piece.text]

/-- A filler begins with a character that no lexeme but the slash goes on with. -/
theorem exists_text_eq_cons (f : Filler) :
    ∃ d more, f.text = d :: more ∧ d ∈ [' ', '\t', '\r', '\n', '/'] ∧
      (d = '/' → f.isComment = true) := by
  cases f with
  | blank c h => exact ⟨c, [], rfl, by rcases h with rfl | rfl | rfl <;> simp, by
      rcases h with rfl | rfl | rfl <;> decide⟩
  | newline => exact ⟨'\n', [], rfl, by simp, by decide⟩
  | comment body h => exact ⟨'/', '/' :: (body ++ ['\n']), rfl, by simp, fun _ => rfl⟩

end Filler

/-- What stands between two lexemes. -/
abbrev Gap := List Filler

namespace Gap

/-- How a gap is written. -/
def text (g : Gap) : List Char := g.flatMap Filler.text

/-- The pieces of all its fillers. -/
def pieces (g : Gap) : List Piece := g.flatMap Filler.pieces

/-- The gap begins with a comment. -/
def opensComment (g : Gap) : Bool := g.head?.any Filler.isComment

theorem flatMap_text_pieces (g : Gap) : g.pieces.flatMap Piece.text = g.text := by
  rw [pieces, List.flatMap_assoc, text]
  simp only [Filler.flatMap_text_pieces]

/-- A gap is cut into its own pieces, whatever comes behind it. -/
theorem maximalCut_append (g : Gap) {ps : List Piece} (h : MaximalCut ps) :
    MaximalCut (g.pieces ++ ps) := by
  induction g with
  | nil => exact h
  | cons f g ih =>
    rw [pieces, List.flatMap_cons, List.append_assoc]
    cases f with
    | blank c hc => exact ⟨hc, trivial, ih⟩
    | newline => exact ⟨trivial, trivial, ih⟩
    | comment body hbody =>
      refine ⟨hbody, ?_, trivial, trivial, ih⟩
      intro d hd
      obtain rfl : '\n' = d := by simpa [Piece.text] using hd
      rfl

end Gap

/-! ## Borders -/

/-- **A lexeme ends where a gap begins**, unless it is a slash and the gap opens a comment. -/
theorem Lexeme.endsBefore (x : Lexeme) {after : List Char}
    (hgap : ∀ d ∈ after.head?, d ∈ [' ', '\t', '\r', '\n', '/'])
    (hslash : x.piece = .slash → after.head? ≠ some '/') : x.piece.EndsBefore after := by
  obtain ⟨p, hs, htoken⟩ := x
  -- what holds of the five characters that a gap can begin with
  have hfirst : ∀ d ∈ after.head?,
      isWordChar d = false ∧ d.isDigit = false ∧ d ≠ '=' ∧ d ≠ '.' := by
    intro d hd
    have hmem := hgap d hd
    simp only [List.mem_cons, List.not_mem_nil, or_false] at hmem
    rcases hmem with rfl | rfl | rfl | rfl | rfl <;> exact ⟨rfl, rfl, by decide, by decide⟩
  cases p with
  | operator op withEqual =>
    cases withEqual with
    | true => trivial
    | false =>
      intro heq
      exact (hfirst '=' heq).2.2.1 rfl
  | slash => exact hslash rfl
  | number whole fraction =>
    refine ⟨fun d hd => (hfirst d hd).2.1, fun _ d rest heq => ?_⟩
    exact absurd rfl (hfirst '.' (by simp [heq])).2.2.2
  | word w => exact fun d hd => (hfirst d hd).1
  | comment body => cases htoken
  | openString body => cases htoken
  | _ => trivial

/-- Lexemes with gaps behind them. Between two lexemes there is a gap, and behind a slash it opens
no comment. -/
def Apart : List (Lexeme × Gap) → Prop
  | [] => True
  | (x, g) :: items =>
    (items ≠ [] → g ≠ []) ∧ (x.piece = .slash → g.opensComment = false) ∧ Apart items

/-- Lexemes that are written down with gaps around them. -/
structure Spaced where
  lead : Gap
  items : List (Lexeme × Gap)
  apart : Apart items

namespace Spaced

/-- Each lexeme with its gap behind it. -/
def itemsText (items : List (Lexeme × Gap)) : List Char :=
  items.flatMap fun x => x.1.text ++ x.2.text

/-- The pieces that this is cut into (`maximalCut_itemsPieces`). -/
def itemsPieces (items : List (Lexeme × Gap)) : List Piece :=
  items.flatMap fun x => x.1.piece :: x.2.pieces

/-- The tokens that `items` denote when they are written behind the text `before`. -/
def tokensBehind (keywords : Keywords) (before : List Char) : List (Lexeme × Gap) → List Token
  | [] => [Token.endOfInput (lineAt before before.length)]
  | (x, g) :: items =>
    x.token keywords (lineAt before before.length) ::
      tokensBehind keywords (before ++ (x.text ++ g.text)) items

/-- The text that is written down. -/
def text (w : Spaced) : List Char := w.lead.text ++ itemsText w.items

/-- The tokens that are written down. -/
def tokens (keywords : Keywords) (w : Spaced) : List Token :=
  tokensBehind keywords w.lead.text w.items

theorem itemsPieces_cons (x : Lexeme) (g : Gap) (items : List (Lexeme × Gap)) :
    itemsPieces ((x, g) :: items) = x.piece :: (g.pieces ++ itemsPieces items) := by
  simp [itemsPieces]

theorem flatMap_text_itemsPieces (items : List (Lexeme × Gap)) :
    (itemsPieces items).flatMap Piece.text = itemsText items := by
  rw [itemsPieces, List.flatMap_assoc, itemsText]
  simp only [List.flatMap_cons, Gap.flatMap_text_pieces, Lexeme.text]

theorem head?_gap_append {g : Gap} {items : List (Lexeme × Gap)} (h : items ≠ [] → g ≠ []) :
    ∀ d ∈ (g.text ++ itemsText items).head?,
      d ∈ [' ', '\t', '\r', '\n', '/'] ∧ (d = '/' → g.opensComment = true) := by
  cases g with
  | nil =>
    have hitems : items = [] := by
      by_contra hne
      exact h hne rfl
    subst hitems
    intro d hd
    cases hd
  | cons f g =>
    obtain ⟨e, more, htext, hmem, hcomment⟩ := f.exists_text_eq_cons
    intro d hd
    obtain rfl : e = d := by simpa [Gap.text, htext] using hd
    exact ⟨hmem, hcomment⟩

theorem maximalCut_itemsPieces {items : List (Lexeme × Gap)} (h : Apart items) :
    MaximalCut (itemsPieces items) := by
  induction items with
  | nil => trivial
  | cons item items ih =>
    obtain ⟨x, g⟩ := item
    obtain ⟨hgap, hslash, hitems⟩ := h
    have hhead := head?_gap_append hgap
    rw [itemsPieces_cons]
    refine ⟨x.shaped, ?_, Gap.maximalCut_append g (ih hitems)⟩
    rw [List.flatMap_append, Gap.flatMap_text_pieces, flatMap_text_itemsPieces]
    refine x.endsBefore (fun d hd => (hhead d hd).1) (fun hx hd => ?_)
    have hopens := (hhead '/' hd).2 rfl
    rw [hslash hx] at hopens
    cases hopens

theorem pieces_text (w : Spaced) :
    pieces w.text = w.lead.pieces ++ itemsPieces w.items := by
  have hcut := Gap.maximalCut_append w.lead (maximalCut_itemsPieces w.apart)
  have htext : (w.lead.pieces ++ itemsPieces w.items).flatMap Piece.text = w.text := by
    rw [List.flatMap_append, Gap.flatMap_text_pieces, flatMap_text_itemsPieces, text]
  exact (maximalCut_iff.1 ⟨htext, hcut⟩).symm

/-! ## What comes back -/

theorem tokensFrom_gap_append (keywords : Keywords) (line : Int) (g : Gap) (ps : List Piece) :
    tokensFrom keywords line (g.pieces ++ ps) =
      tokensFrom keywords (line + (g.text.count '\n' : Nat)) ps := by
  induction g generalizing line with
  | nil => simp [Gap.pieces, Gap.text]
  | cons f g ih =>
    rw [Gap.pieces, List.flatMap_cons, List.append_assoc, Gap.text, List.flatMap_cons,
      List.count_append, Int.natCast_add, ← Int.add_assoc]
    rw [Gap.pieces, Gap.text] at ih
    cases f with
    | blank c h =>
      have hc : c ≠ '\n' := by rcases h with rfl | rfl | rfl <;> decide
      simp [Filler.pieces, Filler.text, tokensFrom, Piece.token?, Piece.kind?, Piece.lines, hc, ih]
    | newline =>
      simp [Filler.pieces, Filler.text, tokensFrom, Piece.token?, Piece.kind?, Piece.lines, ih]
    | comment body h =>
      have hbody : body.count '\n' = 0 := List.count_eq_zero.2 h
      simp [Filler.pieces, Filler.text, tokensFrom, Piece.token?, Piece.kind?, Piece.lines, hbody,
        ih]

theorem diagnosticsFrom_eq_nil {filename : String} {line : Int} {ps : List Piece}
    (h : ∀ p ∈ ps, ∀ line, p.fault? filename line = none) :
    diagnosticsFrom filename line ps = [] := by
  induction ps generalizing line with
  | nil => rfl
  | cons p ps ih =>
    rw [diagnosticsFrom, h p (by simp), ih fun q hq => h q (List.mem_cons_of_mem _ hq)]
    rfl

theorem fault?_of_mem_gap {g : Gap} {p : Piece} (h : p ∈ g.pieces) (filename : String)
    (line : Int) : p.fault? filename line = none := by
  obtain ⟨f, -, hp⟩ := List.mem_flatMap.1 h
  cases f with
  | blank c hc =>
    obtain rfl := List.mem_singleton.1 hp
    rfl
  | newline =>
    obtain rfl := List.mem_singleton.1 hp
    rfl
  | comment body hbody =>
    simp only [Filler.pieces, List.mem_cons, List.not_mem_nil, or_false] at hp
    rcases hp with rfl | rfl <;> rfl

theorem fault?_of_mem_pieces (w : Spaced) {p : Piece}
    (h : p ∈ w.lead.pieces ++ itemsPieces w.items) (filename : String) (line : Int) :
    p.fault? filename line = none := by
  rcases List.mem_append.1 h with h | h
  · exact fault?_of_mem_gap h filename line
  · obtain ⟨⟨x, g⟩, -, hp⟩ := List.mem_flatMap.1 h
    rcases List.mem_cons.1 hp with rfl | hp
    · exact x.fault?_piece filename line
    · exact fault?_of_mem_gap hp filename line

theorem tokensFrom_itemsPieces (keywords : Keywords) (before : List Char)
    (items : List (Lexeme × Gap)) :
    tokensFrom keywords (lineAt before before.length) (itemsPieces items) =
      tokensBehind keywords before items := by
  induction items generalizing before with
  | nil => rfl
  | cons item items ih =>
    obtain ⟨x, g⟩ := item
    have hrest := ih (before ++ (x.text ++ g.text))
    have hline : lineAt before before.length + x.piece.lines + (g.text.count '\n' : Nat) =
        lineAt (before ++ (x.text ++ g.text)) (before ++ (x.text ++ g.text)).length := by
      rw [lineAt_length, lineAt_length, Piece.lines_eq_count x.shaped, List.count_append,
        List.count_append, Lexeme.text]
      omega
    rw [itemsPieces_cons, tokensFrom, x.token?_piece, tokensFrom_gap_append, hline, hrest]
    rfl

/-- What is written down comes back, and nothing is reported. -/
theorem scan_text (source : Source) (w : Spaced) :
    { source with text := w.text }.scan = ⟨w.tokens source.keywords, []⟩ := by
  have hline : (1 : Int) + (w.lead.text.count '\n' : Nat) =
      lineAt w.lead.text w.lead.text.length := (lineAt_length w.lead.text).symm
  have htokens : tokensFrom source.keywords 1 (pieces w.text) = w.tokens source.keywords := by
    rw [pieces_text, tokensFrom_gap_append, hline, tokensFrom_itemsPieces]
    rfl
  have hfaults : diagnosticsFrom source.filename 1 (pieces w.text) = [] := by
    rw [pieces_text]
    exact diagnosticsFrom_eq_nil fun p hp line => fault?_of_mem_pieces w hp source.filename line
  rw [Source.scan, htokens, hfaults]

end Spaced

end ScriptLexer
