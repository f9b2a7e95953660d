import ScriptLexer.Proofs.Automaton
import ScriptLexer.Proofs.Clearing

/-!
# Recovery from stray characters

A stray character is reported and skipped, and scanning goes on behind it as if a space had stood
there. It neither joins the pieces on its two sides nor takes anything from them.

The offsets of these characters are read off a scan (`unexpectedAt`), and a space is written at each
of them (`spacedAt`). Written piece by piece, this is a clearing away of the stray pieces, so
**all tokens stay where they are, and of the diagnostics only the open string is left**
(`scan_spacedAt`).
-/

namespace ScriptLexer

/-- A character that no piece can begin with. -/
def Piece.isStray : Piece → Bool
  | stray _ => true
  | _ => false

/-- The offsets of the characters that a scan reports as unexpected. -/
def unexpectedAt (source : Source) : List Nat :=
  ((located 0 (pieces source.text)).filter fun x =>
    (x.2.faultAt source.filename source.text x.1).any (·.code == some "L001")).map Prod.fst

/-- The text with spaces at the offsets, if it begins at offset `i`. -/
def spacedFrom (i : Nat) (offsets : List Nat) (text : List Char) : List Char :=
  text.mapIdx fun j c => if i + j ∈ offsets then ' ' else c

/-- The text with spaces at the offsets. -/
abbrev spacedAt (offsets : List Nat) (text : List Char) : List Char := spacedFrom 0 offsets text

/-! ## Offset by offset and piece by piece -/

/-- A space for a stray piece, and every other piece as it is. -/
def Piece.spaced (p : Piece) : List Char := if p.isStray then [' '] else p.text

variable {i : Nat} {offsets : List Nat} {ps : List Piece}

theorem unexpectedAt_eq (source : Source) :
    unexpectedAt source = offsetsOf Piece.isStray 0 (pieces source.text) := by
  have hcode : ∀ (p : Piece) (i : Nat),
      (p.faultAt source.filename source.text i).any (·.code == some "L001") = p.isStray := by
    intro p i
    cases p <;> rfl
  simp only [unexpectedAt, offsetsOf, hcode]

theorem spacedFrom_append (i : Nat) (offsets : List Nat) (text rest : List Char) :
    spacedFrom i offsets (text ++ rest) =
      spacedFrom i offsets text ++ spacedFrom (i + text.length) offsets rest := by
  simp only [spacedFrom, List.mapIdx_append, Nat.add_assoc, Nat.add_comm text.length]

theorem spacedFrom_eq_self {text : List Char}
    (h : ∀ j, i ≤ j → j < i + text.length → j ∉ offsets) : spacedFrom i offsets text = text := by
  refine List.ext_getElem (List.length_mapIdx) ?_
  intro k _ hk
  have hkept : i + k ∉ offsets := h (i + k) (Nat.le_add_right i k) (Nat.add_lt_add_left hk i)
  simp only [spacedFrom, List.getElem_mapIdx, if_neg hkept]

/-- Spaces at the offsets of the stray pieces are spaces for these pieces. -/
theorem spacedFrom_flatMap_text
    (hoffsets : ∀ j, i ≤ j → (j ∈ offsets ↔ j ∈ offsetsOf Piece.isStray i ps)) :
    spacedFrom i offsets (ps.flatMap Piece.text) = (ps.map Piece.spaced).flatten := by
  induction ps generalizing i with
  | nil => rfl
  | cons p ps ih =>
    simp only [offsetsOf_cons, List.mem_append] at hoffsets
    rw [List.flatMap_cons, spacedFrom_append, List.map_cons, List.flatten_cons]
    by_cases hp : p.isStray = true
    · obtain ⟨c, rfl⟩ : ∃ c, p = .stray c := by
        cases p with
        | stray c => exact ⟨c, rfl⟩
        | _ => cases hp
      -- its own offset is the first one, and all others lie behind it
      have hfirst : i ∈ offsets :=
        (hoffsets i (Nat.le_refl i)).2 (Or.inl (List.mem_singleton_self i))
      rw [ih]
      · simp [spacedFrom, Piece.text, Piece.spaced, Piece.isStray, hfirst]
      · intro j hj
        have hne : j ≠ i := Nat.ne_of_gt hj
        rw [hoffsets j (Nat.le_of_succ_le hj)]
        simp [Piece.isStray, hne]
    · rw [if_neg hp] at hoffsets
      have hspaced : p.spaced = p.text := if_neg hp
      rw [ih, hspaced, spacedFrom_eq_self]
      · intro j hj hlt hmem
        rcases (hoffsets j hj).1 hmem with h | h
        · cases h
        · exact absurd (le_of_mem_offsetsOf h) (Nat.not_le.2 hlt)
      · intro j hj
        rw [hoffsets j (Nat.le_trans (Nat.le_add_right i _) hj)]
        simp

/-- The spaces stand where the stray pieces were. -/
theorem spacedAt_unexpectedAt (source : Source) :
    spacedAt (unexpectedAt source) source.text =
      ((pieces source.text).map Piece.spaced).flatten := by
  have hspaced : spacedFrom 0 (unexpectedAt source) ((pieces source.text).flatMap Piece.text) = _ :=
    spacedFrom_flatMap_text fun j _ => by rw [unexpectedAt_eq]
  rwa [flatMap_text_pieces] at hspaced

theorem Piece.clears_spaced (p : Piece) : p.Clears isStray p.spaced := by
  cases p with
  | stray c =>
    have hblank : IsBlank [' '] := fun c hc => Or.inl (List.mem_singleton.1 hc)
    exact .stray rfl hblank (List.cons_ne_nil _ _)
  | _ => exact .kept rfl

/-! ## What is left -/

/-- The diagnostic is about a string that is left open. -/
def Diagnostic.isUnterminated (d : Diagnostic) : Bool := d.code == some "L002"

/-- A diagnostic is either about a stray character or about an open string. -/
theorem isUnterminated_of_fault? {filename : String} (p : Piece) (line : Int) :
    ∀ d ∈ p.fault? filename line, d.isUnterminated = !p.isStray := by
  intro d hd
  cases p with
  | stray c =>
    obtain rfl := Option.some.inj hd
    rfl
  | openString body =>
    obtain rfl := Option.some.inj hd
    rfl
  | _ => cases hd

theorem scan_spacedAt_eq (source : Source) :
    { source with text := spacedAt (unexpectedAt source) source.text }.scan =
      ⟨source.scan.tokens, source.scan.diagnostics.filter Diagnostic.isUnterminated⟩ := by
  have hclears : List.Forall₂ (Piece.Clears Piece.isStray) (pieces source.text)
      ((pieces source.text).map Piece.spaced) :=
    List.forall₂_map_right_iff.2 (List.forall₂_same.2 fun p _ => p.clears_spaced)
  have hcleared := cleared_pieces hclears
  rw [← spacedAt_unexpectedAt] at hcleared
  rw [Source.scan, tokensFrom_cleared hcleared,
    diagnosticsFrom_cleared Diagnostic.isUnterminated isUnterminated_of_fault? hcleared]
  rfl

/-- At most one string is open, and a scan reports it whatever else it reports. -/
theorem filter_faultsOf (filename : String) (text : List Char) :
    (faultsOf filename text).filter Diagnostic.isUnterminated =
      if Mode.code.run text = .string then
        [.unterminatedString (lineAt text text.length) filename]
      else [] := by
  have hstray : ∀ xs : List (Nat × Char), (xs.map fun x =>
      Diagnostic.unexpectedCharacter x.2 (lineAt text x.1) filename).filter
        Diagnostic.isUnterminated = [] := by
    intro xs
    refine List.filter_eq_nil_iff.2 ?_
    intro d hd
    obtain ⟨x, -, rfl⟩ := List.mem_map.1 hd
    exact Bool.false_ne_true
  rw [faultsOf, List.filter_append, hstray, List.nil_append]
  split <;> rfl

theorem filter_diagnostics_of_mem {source : Source} {d : Diagnostic}
    (hd : d ∈ source.scan.diagnostics) (hcode : d.code = some "L002") :
    source.scan.diagnostics.filter Diagnostic.isUnterminated = [d] := by
  have hmem : d ∈ source.scan.diagnostics.filter Diagnostic.isUnterminated :=
    List.mem_filter.2 ⟨hd, beq_iff_eq.2 hcode⟩
  rw [diagnostics_scan_eq_faultsOf, filter_faultsOf] at hmem ⊢
  by_cases hstring : Mode.code.run source.text = .string
  · rw [if_pos hstring] at hmem ⊢
    rw [List.mem_singleton.1 hmem]
  · rw [if_neg hstring] at hmem
    cases hmem

namespace Session

variable {s : Session}

/-- **Recovery from a stray character is local.** With a space for every character that a scan
reports as unexpected, the scan answers with the same tokens. It finds the open string if there is
one, and nothing else. -/
theorem scan_spacedAt (h : s.sink.Open) :
    let other := s.withText (spacedAt (unexpectedAt s.source) s.source.text)
    ∃ tokens, s.scan.answer = .tokens tokens ∧ other.scan.answer = .tokens tokens ∧
      (s.scan.errors = (located 0 (pieces s.source.text)).filterMap fun x =>
        x.2.faultAt s.source.filename s.source.text x.1) ∧
      (∀ d ∈ other.scan.errors, d.code ≠ some "L001") ∧
      (∀ d ∈ s.scan.errors, d.code = some "L002" → other.scan.errors = [d]) ∧
      ((∀ d ∈ s.scan.errors, d.code ≠ some "L002") → other.scan.errors = []) := by
  intro other
  have hopen : other.sink.Open := h
  have hscan : other.source.scan = _ := scan_spacedAt_eq s.source
  have herrors : s.scan.errors = s.source.scan.diagnostics := lookup_scan_of_open h
  have hleft : other.scan.errors = s.scan.errors.filter Diagnostic.isUnterminated := by
    rw [herrors]
    exact (lookup_scan_of_open hopen).trans (congrArg Scan.diagnostics hscan)
  refine ⟨s.source.scan.tokens, (scan_of_open h).1, ?_, ?_, ?_, ?_, ?_⟩
  · rw [(scan_of_open hopen).1, hscan]
  · exact herrors.trans s.source.diagnostics_scan_eq_located
  · intro d hd
    rw [hleft] at hd
    have hcode : d.code = some "L002" := beq_iff_eq.1 (List.mem_filter.1 hd).2
    rw [hcode]
    decide
  · intro d hd hcode
    rw [herrors] at hd
    rw [hleft, herrors]
    exact filter_diagnostics_of_mem hd hcode
  · intro hnone
    rw [hleft]
    refine List.filter_eq_nil_iff.2 ?_
    intro d hd hcode
    exact hnone d hd (beq_iff_eq.1 hcode)

/-- Stray characters where the scanner looks ahead: between `!` and `=`, behind a point that follows
digits, and between two slashes. The one in the open string is no fault of its own and stays. -/
theorem scan_spacedAt_at_lookahead :
    let s := start { text := ['!', '@', '=', '1', '.', '#', '2', '/', 'é', '/', '"', '@', '\n'] }
      (some .newCollector)
    let other := s.withText (spacedAt (unexpectedAt s.source) s.source.text)
    s.sink.Open ∧
      other = s.withText ['!', ' ', '=', '1', '.', ' ', '2', '/', ' ', '/', '"', '@', '\n'] ∧
      s.scan.errors =
        [.unexpectedCharacter '@' 1 "<unknown>", .unexpectedCharacter '#' 1 "<unknown>",
          .unexpectedCharacter 'é' 1 "<unknown>", .unterminatedString 2 "<unknown>"] ∧
      other.scan.errors = [.unterminatedString 2 "<unknown>"] ∧
      ∃ tokens, s.scan.answer = .tokens tokens ∧ other.scan.answer = .tokens tokens ∧
        tokens.map Token.lexeme = [['!'], ['='], ['1'], ['.'], ['2'], ['/'], ['/'], []] := by
  intro s other
  have hopen : s.sink.Open := fun k => rfl
  have hpieces : pieces s.source.text =
      [.operator .bang false, .stray '@', .operator .equal false, .number ['1'] [],
        .punctuation .dot, .stray '#', .number ['2'] [], .slash, .stray 'é', .slash,
        .openString ['@', '\n']] := by decide +kernel
  obtain ⟨hfound, herrors⟩ := scan_withText hopen s.source.text
  rw [hpieces] at hfound herrors
  obtain ⟨tokens, hanswer, hother, -, -, hone, -⟩ := scan_spacedAt hopen
  obtain rfl := Answer.tokens.inj (hanswer.symm.trans hfound)
  have herrors' : s.scan.errors = _ := herrors
  have hspaced := spacedAt_unexpectedAt s.source
  rw [hpieces] at hspaced
  refine ⟨hopen, congrArg s.withText hspaced, herrors,
    hone (.unterminatedString 2 "<unknown>") ?_ rfl, _, hanswer, hother, rfl⟩
  rw [herrors']
  exact List.mem_of_elem_eq_true (by decide)

end Session

end ScriptLexer
