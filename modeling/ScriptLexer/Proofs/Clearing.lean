import ScriptLexer.Proofs.FirstPieces
import ScriptLexer.Proofs.Spacing
import ScriptLexer.Proofs.WholeScan
import Mathlib.Data.List.Forall2

/-!
# Clearing pieces away

Comments, blanks and stray characters give no token and end no line. All they do for the pieces
around them is to keep them apart, and blanks do that as well. So any of them can be cleared away,
that is, written over with blanks. Of a comment nothing has to be left at all: the line feed behind
it, or the end of the text, keeps apart what the comment did.

`Piece.Clears` says what may be written in the place of a piece when the pieces that are to go are
given. **All other pieces stay what they were** (`exists_cleared`), because a piece that ends before
the old text ends before the new one, which begins in the same way or with a separator. Tokens and
their lines stay, and of the diagnostics only those of cleared pieces are lost.

The first use is on comments and blanks: **they carry no meaning** (`scan_respaced`).
-/

namespace ScriptLexer

/-- A text of spaces, tabs and carriage returns. -/
def IsBlank (w : List Char) : Prop := ∀ c ∈ w, c = ' ' ∨ c = '\t' ∨ c = '\r'

/-- What may be written for a piece when the pieces in `gone` are cleared away. -/
inductive Piece.Clears (gone : Piece → Bool) : Piece → List Char → Prop where
  | kept {p : Piece} : gone p = false → Clears gone p p.text
  | comment {body w : List Char} : gone (comment body) = true → IsBlank w →
      Clears gone (comment body) w
  | blank {c : Char} {w : List Char} : gone (blank c) = true → IsBlank w → w ≠ [] →
      Clears gone (blank c) w
  | stray {c : Char} {w : List Char} : gone (stray c) = true → IsBlank w → w ≠ [] →
      Clears gone (stray c) w

/-- The pieces when those in `gone` have been cleared away: blanks in their places, and all others
as they were. -/
inductive Cleared (gone : Piece → Bool) : List Piece → List Piece → Prop where
  | nil : Cleared gone [] []
  | kept {p : Piece} {ps qs : List Piece} : gone p = false → Cleared gone ps qs →
      Cleared gone (p :: ps) (p :: qs)
  | blanks {p : Piece} {ps qs : List Piece} (w : List Char) : gone p = true → p.isToken = false →
      p.lines = 0 → Cleared gone ps qs → Cleared gone (p :: ps) (w.map Piece.blank ++ qs)

variable {gone : Piece → Bool} {p : Piece} {ps qs : List Piece} {w : List Char}
  {ws : List (List Char)}

/-! ## Borders -/

theorem mem_separators_of_isBlank {c : Char} (h : IsBlank (c :: w)) : c ∈ separators := by
  rcases h c List.mem_cons_self with rfl | rfl | rfl <;> decide

/-- The piece meant nothing but a gap, and the blanks `w` can stand for it. -/
structure Piece.Vacates (p : Piece) (w : List Char) : Prop where
  isToken : p.isToken = false
  lines : p.lines = 0
  isBlank : IsBlank w
  /-- Only a comment goes without leaving something. -/
  comment : w = [] → ∃ body, p = Piece.comment body

theorem Piece.Clears.kept_or_vacates (h : p.Clears gone w) :
    (gone p = false ∧ w = p.text) ∨ (gone p = true ∧ p.Vacates w) := by
  cases h with
  | kept hkept => exact Or.inl ⟨hkept, rfl⟩
  | @comment body _ hgone hw => exact Or.inr ⟨hgone, rfl, rfl, hw, fun _ => ⟨body, rfl⟩⟩
  | blank hgone hw hne => exact Or.inr ⟨hgone, rfl, rfl, hw, fun hnil => absurd hnil hne⟩
  | stray hgone hw hne => exact Or.inr ⟨hgone, rfl, rfl, hw, fun hnil => absurd hnil hne⟩

/-- The new text begins with a separator or as the old one does, and then it goes on in the same
way. -/
theorem begins_of_clears (h : MaximalCut ps) (hw : List.Forall₂ (Piece.Clears gone) ps ws)
    {d : Char} {rest : List Char} (heq : ws.flatten = d :: rest) :
    d ∈ separators ∨ ∃ rest', ps.flatMap Piece.text = d :: rest' ∧
      ∀ e ∈ rest.head?, e ∈ rest'.head? ∨ e ∈ separators := by
  induction hw generalizing d rest with
  | nil => cases heq
  | @cons p w ps ws hp _ ih =>
    obtain ⟨hs, he, hps⟩ := h
    rw [List.flatten_cons] at heq
    rw [List.flatMap_cons]
    rcases hp.kept_or_vacates with ⟨-, rfl⟩ | ⟨-, hblank⟩
    · obtain ⟨c, more, htext⟩ := List.exists_cons_of_ne_nil (Piece.text_ne_nil hs)
      rw [htext] at heq ⊢
      obtain ⟨rfl, rfl⟩ := List.cons.inj heq
      refine Or.inr ⟨_, rfl, ?_⟩
      intro e hhead
      cases more with
      | cons e' more => exact Or.inl hhead
      | nil =>
        -- the piece is one character long, so the next ones are compared
        obtain ⟨rest, hrest⟩ := List.head?_eq_some_iff.1 hhead
        rcases ih hps hrest with hsep | ⟨rest', hrest', -⟩
        · exact Or.inr hsep
        · rw [hrest']
          exact Or.inl rfl
    · cases w with
      | cons c more =>
        obtain ⟨rfl, -⟩ := List.cons.inj heq
        exact Or.inl (mem_separators_of_isBlank hblank.isBlank)
      | nil =>
        -- a comment has gone, and behind it stands a line feed if anything does
        obtain ⟨body, rfl⟩ := hblank.comment rfl
        rcases ih hps heq with hsep | ⟨rest', hrest', -⟩
        · exact Or.inl hsep
        · rw [hrest'] at he
          rw [he d rfl]
          exact Or.inl (by decide)

/-- A line feed stays where it is. -/
theorem newline_of_clears (hps : ∀ p ∈ ps, p.Shaped)
    (hw : List.Forall₂ (Piece.Clears gone) ps ws)
    (h : ∀ d ∈ (ps.flatMap Piece.text).head?, d = '\n') : ∀ d ∈ ws.flatten.head?, d = '\n' := by
  cases hw with
  | nil => exact h
  | @cons p w ps ws hp _ =>
    have hs := hps p List.mem_cons_self
    rw [List.flatMap_cons] at h
    rw [List.flatten_cons]
    cases hp with
    | kept =>
      obtain ⟨c, more, htext⟩ := List.exists_cons_of_ne_nil (Piece.text_ne_nil hs)
      rw [htext] at h ⊢
      exact h
    | comment => exact absurd (h '/' rfl) (by decide)
    | @blank c _ _ _ =>
      obtain rfl := h c rfl
      rcases hs with hs | hs | hs <;> exact absurd hs (by decide)
    | @stray c _ _ _ =>
      obtain rfl := h c rfl
      exact absurd (List.mem_cons_of_mem _ (by decide)) hs.2.2.1

/-- **No border moves.** -/
theorem Piece.EndsBefore.clears (he : p.EndsBefore (ps.flatMap Piece.text)) (h : MaximalCut ps)
    (hw : List.Forall₂ (Piece.Clears gone) ps ws) : p.EndsBefore ws.flatten := by
  refine he.loosen ?_ ?_ ?_ ?_
  · intro d hd
    obtain ⟨rest, hrest⟩ := List.head?_eq_some_iff.1 hd
    rcases begins_of_clears h hw hrest with hsep | ⟨rest', hrest', -⟩
    · exact Or.inr hsep
    · rw [hrest']
      exact Or.inl rfl
  · intro d rest hrest hdigit
    rcases begins_of_clears h hw hrest with hsep | ⟨rest', hrest', hnext⟩
    · exact absurd hsep (by decide)
    · rcases hnext d rfl with hd | hsep
      · obtain ⟨more, rfl⟩ := List.head?_eq_some_iff.1 hd
        exact ⟨more, hrest'⟩
      · rw [(stop_of_mem_separators d hsep).2.2.1] at hdigit
        cases hdigit
  · rintro body rfl
    exact newline_of_clears (shaped_of_mem_maximalCut h) hw he
  · -- nothing stands behind an open string, before and after
    rintro body rfl
    obtain rfl := eq_nil_of_endsBefore_openString he h
    rw [List.forall₂_nil_left_iff.1 hw]
    rfl

theorem maximalCut_blanks_append (hw : IsBlank w) (h : MaximalCut qs) :
    MaximalCut (w.map Piece.blank ++ qs) := by
  induction w with
  | nil => exact h
  | cons c w ih =>
    obtain ⟨hc, hrest⟩ := List.forall_mem_cons.1 hw
    exact ⟨hc, trivial, ih hrest⟩

theorem flatMap_text_blanks (w : List Char) : (w.map Piece.blank).flatMap Piece.text = w := by
  rw [List.flatMap_map]
  exact List.flatMap_singleton' w

/-- **What is not cleared away stays as it was.** -/
theorem exists_cleared (h : MaximalCut ps) (hw : List.Forall₂ (Piece.Clears gone) ps ws) :
    ∃ qs, qs.flatMap Piece.text = ws.flatten ∧ MaximalCut qs ∧ Cleared gone ps qs := by
  induction hw with
  | nil => exact ⟨[], rfl, trivial, .nil⟩
  | @cons p w ps ws hp hws ih =>
    obtain ⟨hs, he, hps⟩ := h
    obtain ⟨qs, htext, hcut, hcleared⟩ := ih hps
    rcases hp.kept_or_vacates with ⟨hkept, rfl⟩ | ⟨hgone, hblank⟩
    · refine ⟨p :: qs, ?_, ⟨hs, ?_, hcut⟩, .kept hkept hcleared⟩
      · rw [List.flatMap_cons, htext, List.flatten_cons]
      · rw [htext]
        exact he.clears hps hws
    · -- blanks are cut one by one, whatever stands behind them
      refine ⟨w.map Piece.blank ++ qs, ?_, maximalCut_blanks_append hblank.isBlank hcut,
        .blanks w hgone hblank.isToken hblank.lines hcleared⟩
      rw [List.flatMap_append, flatMap_text_blanks, htext, List.flatten_cons]

theorem cleared_pieces {text : List Char}
    (hw : List.Forall₂ (Piece.Clears gone) (pieces text) ws) :
    Cleared gone (pieces text) (pieces ws.flatten) := by
  obtain ⟨qs, htext, hcut, hcleared⟩ := exists_cleared (maximalCut_pieces text) hw
  rwa [maximalCut_iff.1 ⟨htext, hcut⟩] at hcleared

/-! ## What is left -/

variable {keywords : Keywords} {filename : String}

theorem tokensFrom_blanks_append (line : Int) (w : List Char) (qs : List Piece) :
    tokensFrom keywords line (w.map Piece.blank ++ qs) = tokensFrom keywords line qs := by
  induction w with
  | nil => rfl
  | cons c w ih =>
    have hline : line + (Piece.blank c).lines = line := Int.add_zero line
    rw [List.map_cons, List.cons_append, tokensFrom, hline, ih]
    rfl

theorem diagnosticsFrom_blanks_append (line : Int) (w : List Char) (qs : List Piece) :
    diagnosticsFrom filename line (w.map Piece.blank ++ qs) = diagnosticsFrom filename line qs := by
  induction w with
  | nil => rfl
  | cons c w ih =>
    have hline : line + (Piece.blank c).lines = line := Int.add_zero line
    rw [List.map_cons, List.cons_append, diagnosticsFrom, hline, ih]
    rfl

/-- No token is lost, and none moves to another line. -/
theorem tokensFrom_cleared (h : Cleared gone ps qs) (line : Int) :
    tokensFrom keywords line qs = tokensFrom keywords line ps := by
  induction h generalizing line with
  | nil => rfl
  | kept _ _ ih => rw [tokensFrom, tokensFrom, ih]
  | @blanks p ps qs w _ htoken hlines _ ih =>
    have hline : line + p.lines = line := by
      rw [hlines]
      exact Int.add_zero line
    rw [tokensFrom_blanks_append, ih, tokensFrom, hline,
      Piece.token?_eq_none_of_isToken htoken keywords line]
    rfl

/-- The diagnostics that are lost are those of the pieces in `gone`. -/
theorem diagnosticsFrom_cleared (stays : Diagnostic → Bool)
    (hstays : ∀ p line, ∀ d ∈ p.fault? filename line, stays d = !gone p)
    (h : Cleared gone ps qs) (line : Int) :
    diagnosticsFrom filename line qs = (diagnosticsFrom filename line ps).filter stays := by
  induction h generalizing line with
  | nil => rfl
  | @kept p ps qs hkept _ ih =>
    have hfault : (p.fault? filename line).toList.filter stays =
        (p.fault? filename line).toList := by
      refine List.filter_eq_self.2 ?_
      intro d hd
      rw [hstays p line d (Option.mem_toList.1 hd), hkept]
      rfl
    rw [diagnosticsFrom, diagnosticsFrom, List.filter_append, hfault, ih]
  | @blanks p ps qs w hgone _ hlines _ ih =>
    have hline : line + p.lines = line := by
      rw [hlines]
      exact Int.add_zero line
    have hfault : (p.fault? filename line).toList.filter stays = [] := by
      refine List.filter_eq_nil_iff.2 ?_
      intro d hd
      rw [hstays p line d (Option.mem_toList.1 hd), hgone]
      exact Bool.false_ne_true
    rw [diagnosticsFrom_blanks_append, ih, diagnosticsFrom, List.filter_append, hline, hfault,
      List.nil_append]

/-! ## Comments and blanks -/

/-- Comments and blanks. -/
def Piece.isSpacing : Piece → Bool
  | comment _ | blank _ => true
  | _ => false

/-- No diagnostic is about comments or blanks. -/
theorem Piece.isSpacing_of_fault? {d : Diagnostic} {line : Int}
    (h : d ∈ p.fault? filename line) : p.isSpacing = false := by
  cases p with
  | comment body => cases h
  | blank c => cases h
  | _ => rfl

theorem scan_of_clears_spacing (source : Source)
    (hw : List.Forall₂ (Piece.Clears Piece.isSpacing) (pieces source.text) ws) :
    { source with text := ws.flatten }.scan = source.scan := by
  have hcleared := cleared_pieces hw
  have hfaults : diagnosticsFrom source.filename 1 (pieces ws.flatten) =
      diagnosticsFrom source.filename 1 (pieces source.text) := by
    rw [diagnosticsFrom_cleared (fun _ => true) ?_ hcleared, List.filter_true]
    intro p line d hd
    rw [Piece.isSpacing_of_fault? hd]
    rfl
  rw [Source.scan, Source.scan, tokensFrom_cleared hcleared, hfaults]

namespace Session

variable {s : Session}

/-- **Comments and blanks carry no meaning.** Write anything blank for every comment, and anything
blank but nothing for every blank: with every sink the scan answers as before, with the same tokens
if the sink refuses nothing, and leaves the same errors and the same session but for the text. -/
theorem scan_respaced
    (hw : List.Forall₂ (Piece.Clears Piece.isSpacing) (pieces s.source.text) ws) :
    let other := s.withText ws.flatten
    other.scan.answer = s.scan.answer ∧ other.scan.errors = s.scan.errors ∧
      other.scan.session = s.scan.session.withText ws.flatten ∧
      (s.sink.Open → ∃ tokens,
        s.scan.answer = .tokens tokens ∧ other.scan.answer = .tokens tokens) := by
  intro other
  obtain ⟨hanswer, hsession⟩ := scan_withText_of_scan_eq (scan_of_clears_spacing s.source hw)
  refine ⟨hanswer, ?_, hsession, ?_⟩
  · rw [Outcome.errors, hsession]
    rfl
  · intro hopen
    obtain ⟨hfound, -⟩ := scan_of_open hopen
    exact ⟨_, hfound, hanswer.trans hfound⟩

/-- A comment behind a number with its point and one at the end are dropped, and a tab becomes two
other blanks. The string between them holds a comment opener and stays as it is. -/
theorem scan_respaced_around_string :
    let text := ['1', '.', '/', '/', '2', '\n', '"', '/', '/', '"', '\t', '@', '=', '/', '/', '=']
    let s := start { text := text } (some .newCollector)
    let ws := [['1'], ['.'], [], ['\n'], ['"', '/', '/', '"'], [' ', '\r'], ['@'], ['='], []]
    let other := s.withText ws.flatten
    List.Forall₂ (Piece.Clears Piece.isSpacing) (pieces s.source.text) ws ∧ s.sink.Open ∧
      other.scan.answer =
        .tokens [⟨.number, ['1'], some (.number ((Decimal.ofDigits ['1'] []).toBinary64 false)), 1⟩,
          ⟨.dot, ['.'], none, 1⟩, ⟨.string, ['"', '/', '/', '"'], some (.text ['/', '/']), 2⟩,
          ⟨.equal, ['='], none, 2⟩, Token.endOfInput 2] ∧
      other.scan.errors = [.unexpectedCharacter '@' 2 "<unknown>"] := by
  intro text s ws other
  have hopen : s.sink.Open := fun k => rfl
  have hpieces : pieces text =
      [.number ['1'] [], .punctuation .dot, .comment ['2'], .newline, .string ['/', '/'],
        .blank '\t', .stray '@', .operator .equal false, .comment ['=']] := by decide +kernel
  have hw : List.Forall₂ (Piece.Clears Piece.isSpacing) (pieces text) ws := by
    have hnone : IsBlank [] := fun c hc => by cases hc
    have hblank : IsBlank [' ', '\r'] := by simp [IsBlank]
    rw [hpieces]
    exact .cons (.kept rfl) (.cons (.kept rfl) (.cons (.comment rfl hnone) (.cons (.kept rfl)
      (.cons (.kept rfl) (.cons (.blank rfl hblank (List.cons_ne_nil _ _)) (.cons (.kept rfl)
        (.cons (.kept rfl) (.cons (.comment rfl hnone) .nil))))))))
  obtain ⟨-, herrors, -, htokens⟩ := scan_respaced (s := s) hw
  obtain ⟨tokens, hanswer, hother⟩ := htokens hopen
  obtain ⟨hfound, hfaults⟩ := scan_withText hopen text
  rw [hpieces] at hfound hfaults
  obtain rfl := Answer.tokens.inj (hanswer.symm.trans hfound)
  exact ⟨hw, hopen, hother, herrors.trans hfaults⟩

end Session

end ScriptLexer
