import ScriptLexer.Proofs.Spacing

/-!
# Scanning what was scanned

The lexemes of the tokens of any scan can be written down again with single spaces between them.
Blanks, comments, newlines and faults are gone then, and so are the line numbers; kind, lexeme and
value of every token come back.
-/

namespace ScriptLexer

/-- A token without its line. -/
def Token.content (t : Token) : Kind × List Char × Option Literal := (t.kind, t.lexeme, t.literal)

/-- The lexemes of some tokens with single spaces between them. -/
def rejoin (ts : List Token) : List Char := [' '].intercalate (ts.map Token.lexeme)

namespace Spaced

/-- One space. -/
def space : Gap := [.blank ' ' (Or.inl rfl)]

/-- Lexemes with single spaces between them and a given gap behind the last. -/
def spaceOut (last : Gap) : List Lexeme → List (Lexeme × Gap)
  | [] => []
  | [x] => [(x, last)]
  | x :: y :: xs => (x, space) :: spaceOut last (y :: xs)

theorem map_fst_spaceOut (last : Gap) (xs : List Lexeme) :
    (spaceOut last xs).map Prod.fst = xs := by
  fun_induction spaceOut last xs with
  | case1 => rfl
  | case2 x => rfl
  | case3 x y xs ih => rw [List.map_cons, ih]

theorem apart_spaceOut {last : Gap} (h : last.opensComment = false) (xs : List Lexeme) :
    Apart (spaceOut last xs) := by
  fun_induction spaceOut last xs with
  | case1 => trivial
  | case2 x => exact ⟨fun hne => absurd rfl hne, fun _ => h, trivial⟩
  | case3 x y xs ih => exact ⟨fun _ => List.cons_ne_nil _ _, fun _ => rfl, ih⟩

theorem itemsText_cons (x : Lexeme) (g : Gap) (items : List (Lexeme × Gap)) :
    itemsText ((x, g) :: items) = x.text ++ (g.text ++ itemsText items) := by
  rw [itemsText, List.flatMap_cons, List.append_assoc, itemsText]

theorem itemsText_spaceOut_nil (xs : List Lexeme) :
    itemsText (spaceOut [] xs) = [' '].intercalate (xs.map Lexeme.text) := by
  fun_induction spaceOut [] xs with
  | case1 => rfl
  | case2 x => simp [itemsText, Gap.text]
  | case3 x y xs ih =>
    rw [itemsText_cons, ih]
    simp only [List.map_cons, List.intercalate_cons_cons]
    simp [space, Gap.text, Filler.text]

theorem itemsText_spaceOut_space (xs : List Lexeme) :
    itemsText (spaceOut space xs) = [' '].intercalate (xs.map Lexeme.text ++ [[]]) := by
  fun_induction spaceOut space xs with
  | case1 => rfl
  | case2 x => simp [itemsText, space, Gap.text, Filler.text]
  | case3 x y xs ih =>
    rw [itemsText_cons, ih]
    simp only [List.map_cons, List.cons_append, List.intercalate_cons_cons]
    simp [space, Gap.text, Filler.text]

theorem map_content_tokensBehind (keywords : Keywords) (before : List Char)
    (items : List (Lexeme × Gap)) :
    (tokensBehind keywords before items).map Token.content =
      (items.map Prod.fst).map (fun x => (x.token keywords 0).content) ++
        [(Token.endOfInput 0).content] := by
  induction items generalizing before with
  | nil => rfl
  | cons item items ih =>
    rw [tokensBehind, List.map_cons, ih]
    rfl

end Spaced

/-- The lexemes of a text, in order. -/
theorem exists_lexemes {ps : List Piece} (h : MaximalCut ps) :
    ∃ xs : List Lexeme, ∀ (keywords : Keywords) (line : Int),
      (tokensFrom keywords line ps).map Token.content =
        xs.map (fun x => (x.token keywords 0).content) ++ [(Token.endOfInput 0).content] := by
  induction ps with
  | nil => exact ⟨[], fun keywords line => rfl⟩
  | cons p ps ih =>
    obtain ⟨hs, -, hps⟩ := h
    obtain ⟨xs, hxs⟩ := ih hps
    by_cases htoken : p.isToken = true
    · refine ⟨⟨p, hs, htoken⟩ :: xs, fun keywords line => ?_⟩
      have hp := Lexeme.token?_piece keywords line ⟨p, hs, htoken⟩
      rw [tokensFrom, hp, List.map_append, hxs]
      rfl
    · -- blanks, comments and faults leave nothing to write down
      refine ⟨xs, fun keywords line => ?_⟩
      have hnone := Piece.token?_eq_none_of_isToken (Bool.eq_false_iff.2 htoken) keywords line
      rw [tokensFrom, hnone, List.map_append, hxs]
      rfl

/-- Whether the token that ends the input is joined as well makes no difference but a space. -/
theorem exists_rejoin_eq {tokens ts : List Token} {keywords : Keywords} {xs : List Lexeme}
    (hxs : tokens.map Token.content =
      xs.map (fun x => (x.token keywords 0).content) ++ [(Token.endOfInput 0).content])
    (hts : ts = tokens ∨ ts = tokens.dropLast) :
    ∃ last : Gap, last.opensComment = false ∧
      rejoin ts = Spaced.itemsText (Spaced.spaceOut last xs) := by
  have hlexemes : tokens.map Token.lexeme = xs.map Lexeme.text ++ [[]] := by
    have h := congrArg (List.map fun c : Kind × List Char × Option Literal => c.2.1) hxs
    rw [List.map_map, List.map_append, List.map_map] at h
    exact h
  rcases hts with rfl | rfl
  · -- the lexeme at the end of the input is empty, so a space comes before it
    refine ⟨Spaced.space, rfl, ?_⟩
    rw [rejoin, hlexemes, Spaced.itemsText_spaceOut_space]
  · refine ⟨[], rfl, ?_⟩
    rw [rejoin, List.map_dropLast, hlexemes, List.dropLast_concat, Spaced.itemsText_spaceOut_nil]

theorem rescan_content (source : Source) {ts : List Token}
    (hts : ts = source.scan.tokens ∨ ts = source.scan.tokens.dropLast) :
    let again := { source with text := rejoin ts }.scan
    again.diagnostics = [] ∧
      again.tokens.map Token.content = source.scan.tokens.map Token.content := by
  obtain ⟨xs, hxs⟩ := exists_lexemes (maximalCut_pieces source.text)
  have hcontent := hxs source.keywords 1
  obtain ⟨last, hlast, hrejoin⟩ := exists_rejoin_eq hcontent hts
  have hscan := Spaced.scan_text source
    ⟨[], Spaced.spaceOut last xs, Spaced.apart_spaceOut hlast xs⟩
  have htext : Spaced.text ⟨[], Spaced.spaceOut last xs, Spaced.apart_spaceOut hlast xs⟩ =
      rejoin ts := hrejoin.symm
  rw [htext] at hscan
  simp only [hscan]
  refine ⟨trivial, ?_⟩
  rw [Source.scan, hcontent, Spaced.tokens, Spaced.map_content_tokensBehind,
    Spaced.map_fst_spaceOut]

end ScriptLexer
