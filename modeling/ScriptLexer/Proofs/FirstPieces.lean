import ScriptLexer.Proofs.Lines

/-!
# The first pieces of a text

A maximal cut takes in a text as a whole. Two texts are mostly compared by a beginning that they
share, so here the first pieces of a text are looked at with the rest of it in place: `CutBefore`
says of them what `MaximalCut` says of all, with more text behind the last one.

Scanning begins with pieces that are cut before what follows (`pieces_append_of_cutBefore`), and
the first pieces of any text are cut before those behind them (`cutBefore_of_pieces_eq`). What the
pieces behind them give does not depend on them, except that lines are counted from the one that was
reached.
-/

namespace ScriptLexer

/-- Every piece is shaped and ends before the text of those behind it, which `after` follows. -/
def CutBefore (after : List Char) : List Piece → Prop
  | [] => True
  | p :: ps =>
    p.Shaped ∧ p.EndsBefore (ps.flatMap Piece.text ++ after) ∧ CutBefore after ps

variable {ps qs : List Piece} {after after' : List Char}

theorem cutBefore_of_maximalCut_append (h : MaximalCut (ps ++ qs)) :
    CutBefore (qs.flatMap Piece.text) ps := by
  induction ps with
  | nil => trivial
  | cons p ps ih =>
    rw [List.cons_append] at h
    obtain ⟨hs, he, hps⟩ := h
    rw [List.flatMap_append] at he
    exact ⟨hs, he, ih hps⟩

/-- **Scanning begins with the pieces `ps` if they are cut before what follows.** -/
theorem pieces_append_of_cutBefore (h : CutBefore after ps) :
    pieces (ps.flatMap Piece.text ++ after) = ps ++ pieces after := by
  induction ps with
  | nil => rfl
  | cons p ps ih =>
    obtain ⟨hs, he, hps⟩ := h
    rw [List.flatMap_cons, List.append_assoc, pieces_text_append hs he, ih hps, List.cons_append]

/-- The first pieces of a text are cut before the others. -/
theorem cutBefore_of_pieces_eq {text : List Char} (h : pieces text = ps ++ qs) :
    CutBefore (qs.flatMap Piece.text) ps := by
  have hcut := maximalCut_pieces text
  rw [h] at hcut
  exact cutBefore_of_maximalCut_append hcut

/-- Another text may follow if every piece that ended before the old one ends before the new. -/
theorem CutBefore.imp (h : CutBefore after ps)
    (hend : ∀ p ∈ ps, ∀ between : List Char,
      p.EndsBefore (between ++ after) → p.EndsBefore (between ++ after')) :
    CutBefore after' ps := by
  induction ps with
  | nil => trivial
  | cons p ps ih =>
    obtain ⟨hs, he, hps⟩ := h
    refine ⟨hs, hend p (by simp) _ he, ih hps ?_⟩
    intro q hq
    exact hend q (List.mem_cons_of_mem p hq)

/-! ## Exchanging what follows -/

/-- The characters between tokens. -/
def separators : List Char := [' ', '\t', '\r', '\n']

/-- Only a comment goes on with a separator. -/
theorem stop_of_mem_separators :
    ∀ d ∈ separators, d ≠ '=' ∧ d ≠ '/' ∧ d.isDigit = false ∧ isWordChar d = false := by
  intro d hd
  simp only [separators, List.mem_cons, List.not_mem_nil, or_false] at hd
  rcases hd with rfl | rfl | rfl | rfl <;> decide

/-- What follows a piece may be exchanged if the new text begins as the old one does, or with a
separator. A point must have the same character behind it if that is a digit. Behind a comment only
a line feed will do. -/
theorem Piece.EndsBefore.loosen {p : Piece} (h : p.EndsBefore after)
    (hhead : ∀ d ∈ after'.head?, d ∈ after.head? ∨ d ∈ separators)
    (hpoint : ∀ d rest, after' = '.' :: d :: rest → d.isDigit = true →
      ∃ rest', after = '.' :: d :: rest')
    (hcomment : ∀ body, p = comment body → ∀ d ∈ after'.head?, d = '\n')
    (hopen : ∀ body, p = openString body → after' = []) : p.EndsBefore after' := by
  cases p with
  | operator op withEqual =>
    cases withEqual with
    | true => trivial
    | false =>
      intro heq
      rcases hhead '=' heq with hd | hd
      · exact h hd
      · exact (stop_of_mem_separators '=' hd).1 rfl
  | slash =>
    intro heq
    rcases hhead '/' heq with hd | hd
    · exact h hd
    · exact (stop_of_mem_separators '/' hd).2.1 rfl
  | comment body => exact hcomment body rfl
  | openString body => exact hopen body rfl
  | number whole fraction =>
    obtain ⟨hstop, hfirst⟩ := h
    refine ⟨?_, ?_⟩
    · intro d hd
      rcases hhead d hd with hd | hd
      · exact hstop d hd
      · exact (stop_of_mem_separators d hd).2.2.1
    · intro hfraction d rest heq
      by_cases hdigit : d.isDigit = true
      · obtain ⟨rest', hrest'⟩ := hpoint d rest heq hdigit
        exact hfirst hfraction d rest' hrest'
      · exact Bool.eq_false_iff.2 hdigit
  | word w =>
    intro d hd
    rcases hhead d hd with hd | hd
    · exact h d hd
    · exact (stop_of_mem_separators d hd).2.2.2
  | _ => trivial

/-- A line feed ends every piece but a string, comments as well. -/
theorem Piece.EndsBefore.imp {p : Piece} (h : p.EndsBefore after)
    (hhead : ∀ d ∈ after'.head?, d ∈ after.head? ∨ d = '\n')
    (hpoint : ∀ d rest, after' = '.' :: d :: rest → d.isDigit = true →
      ∃ rest', after = '.' :: d :: rest')
    (hopen : ∀ body, p = openString body → after' = []) : p.EndsBefore after' := by
  refine h.loosen ?_ hpoint ?_ hopen
  · intro d hd
    rcases hhead d hd with hd | rfl
    · exact Or.inl hd
    · exact Or.inr (by decide)
  · rintro body rfl d hd
    rcases hhead d hd with hd | rfl
    · exact h d hd
    · rfl

/-! ## What the pieces give -/

variable {keywords : Keywords} {filename : String}

theorem tokensFrom_ne_nil (line : Int) (ps : List Piece) : tokensFrom keywords line ps ≠ [] := by
  cases ps with
  | nil => exact List.cons_ne_nil _ _
  | cons p ps =>
    rw [tokensFrom]
    exact List.append_ne_nil_of_right_ne_nil _ (tokensFrom_ne_nil _ ps)

/-- The end of the input gives its token only once, behind all pieces. -/
theorem tokensFrom_append (line : Int) (ps qs : List Piece) :
    tokensFrom keywords line (ps ++ qs) =
      (tokensFrom keywords line ps).dropLast ++
        tokensFrom keywords (lastLine line ps) qs := by
  induction ps generalizing line with
  | nil => rfl
  | cons p ps ih =>
    rw [List.cons_append, tokensFrom, tokensFrom, ih, lastLine,
      List.dropLast_append_of_ne_nil (tokensFrom_ne_nil _ ps), List.append_assoc]

theorem tokensFrom_eq_dropLast (line : Int) (ps : List Piece) :
    tokensFrom keywords line ps =
      (tokensFrom keywords line ps).dropLast ++ [Token.endOfInput (lastLine line ps)] := by
  have h : tokensFrom keywords line (ps ++ []) = _ := tokensFrom_append line ps []
  rwa [List.append_nil] at h

theorem diagnosticsFrom_append (line : Int) (ps qs : List Piece) :
    diagnosticsFrom filename line (ps ++ qs) =
      diagnosticsFrom filename line ps ++ diagnosticsFrom filename (lastLine line ps) qs := by
  induction ps generalizing line with
  | nil => rfl
  | cons p ps ih =>
    rw [List.cons_append, diagnosticsFrom, diagnosticsFrom, ih, lastLine, List.append_assoc]

end ScriptLexer
