import ScriptLexer.Proofs.MaximalMunch
import ScriptLexer.Scan

/-!
# Offsets and lines

Scanning keeps a running count of lines: newlines and strings add to it, comments must not. Here
the count is traded for the place. `located` gives every piece the offset it begins at, and
`lineAt` reads the line of an offset off the text: one more than the line feeds before it.

**In a maximal cut the two agree** (`tokensFrom_eq_located`, `diagnosticsFrom_eq_located`), so
tokens and diagnostics depend on the text before a piece only through its line feeds.
-/

namespace ScriptLexer

/-- The line that offset `i` of the text lies on. -/
def lineAt (text : List Char) (i : Nat) : Int := 1 + ((text.take i).count '\n' : Nat)

/-- The pieces of a list, each with the offset it begins at. -/
def located : Nat → List Piece → List (Nat × Piece)
  | _, [] => []
  | i, p :: ps => (i, p) :: located (i + p.text.length) ps

/-- The offsets of the pieces of one sort. -/
def offsetsOf (sort : Piece → Bool) (i : Nat) (ps : List Piece) : List Nat :=
  ((located i ps).filter fun x => sort x.2).map Prod.fst

theorem offsetsOf_cons (sort : Piece → Bool) (i : Nat) (p : Piece) (ps : List Piece) :
    offsetsOf sort i (p :: ps) =
      (if sort p then [i] else []) ++ offsetsOf sort (i + p.text.length) ps := by
  rw [offsetsOf, located, List.filter_cons]
  split <;> rfl

theorem le_of_mem_offsetsOf {sort : Piece → Bool} {i j : Nat} {ps : List Piece}
    (h : j ∈ offsetsOf sort i ps) : i ≤ j := by
  induction ps generalizing i with
  | nil => cases h
  | cons p ps ih =>
    rw [offsetsOf_cons] at h
    rcases List.mem_append.1 h with h | h
    · split at h
      · exact Nat.le_of_eq (List.mem_singleton.1 h).symm
      · cases h
    · exact Nat.le_of_add_right_le (ih h)

/-! ## What a piece adds to the count -/

theorem count_newline_eq_zero_of {w : List Char} {p : Char → Bool} (hw : ∀ d ∈ w, p d = true)
    (hp : p '\n' = false) : w.count '\n' = 0 := by
  rw [List.count_eq_zero]
  intro hmem
  rw [hw _ hmem] at hp
  cases hp

/-- A piece adds as many lines as its text has line feeds. -/
theorem Piece.lines_eq_count {p : Piece} (hs : p.Shaped) : p.lines = p.text.count '\n' := by
  cases p with
  | punctuation mark => cases mark <;> rfl
  | operator op withEqual => cases op <;> cases withEqual <;> rfl
  | slash => rfl
  | comment body => simpa [lines, text] using (List.count_eq_zero.2 hs).symm
  | blank c => rcases hs with rfl | rfl | rfl <;> rfl
  | newline => rfl
  | string body => simp [lines, text]
  | openString body => simp [lines, text]
  | number whole fraction =>
    obtain ⟨-, hwhole, hfraction⟩ := hs
    have h1 := count_newline_eq_zero_of hwhole rfl
    have h2 := count_newline_eq_zero_of hfraction rfl
    cases fraction with
    | nil => simp [lines, text, h1]
    | cons d ds => simp [lines, text, h1, h2]
  | word w =>
    obtain ⟨c, cs, rfl, hstart, hcs⟩ := hs
    have hall : ∀ d ∈ c :: cs, isWordChar d = true := by
      intro d hd
      rcases List.mem_cons.1 hd with rfl | hd
      · exact isWordChar_of_isWordStart hstart
      · exact hcs d hd
    exact (count_newline_eq_zero_of hall rfl).symm
  | stray c =>
    have hc : c ≠ '\n' := fun heq => hs.2.2.1 (by simp [heq])
    simp [lines, text, hc]

/-- The line behind a piece. -/
theorem lineAt_add_lines {p : Piece} {before after : List Char} (hs : p.Shaped) :
    lineAt (before ++ (p.text ++ after)) before.length + p.lines =
      lineAt (before ++ (p.text ++ after)) (before.length + p.text.length) := by
  rw [Piece.lines_eq_count hs]
  simp [lineAt, List.take_append, List.take_of_length_le]
  omega

theorem lineAt_length (text : List Char) :
    lineAt text text.length = 1 + (text.count '\n' : Nat) := by
  rw [lineAt, List.take_length]

/-- Only the places of the line feeds matter. -/
theorem lineAt_congr {text other : List Char}
    (h : other.map (· == '\n') = text.map (· == '\n')) (i : Nat) :
    lineAt other i = lineAt text i := by
  have hcount : ∀ s : List Char, (s.take i).count '\n' =
      ((s.map (· == '\n')).take i).count true := by
    intro s
    rw [← List.map_take, List.count_eq_countP, List.count_eq_countP, List.countP_map]
    congr 1
    funext c
    simp
  rw [lineAt, lineAt, hcount, hcount, h]

/-! ## Counting along a list of pieces -/

/-- The line that is reached behind all pieces. -/
def lastLine : Int → List Piece → Int
  | line, [] => line
  | line, p :: ps => lastLine (line + p.lines) ps

theorem le_lastLine (line : Int) (ps : List Piece) : line ≤ lastLine line ps := by
  induction ps generalizing line with
  | nil => exact Int.le_refl line
  | cons p ps ih =>
    have := ih (line + p.lines)
    rw [lastLine]
    omega

theorem lastLine_eq_lineAt {ps : List Piece} (h : MaximalCut ps) (before : List Char) :
    lastLine (lineAt (before ++ ps.flatMap Piece.text) before.length) ps =
      lineAt (before ++ ps.flatMap Piece.text) (before ++ ps.flatMap Piece.text).length := by
  induction ps generalizing before with
  | nil => simp [lastLine]
  | cons p ps ih =>
    obtain ⟨hs, -, hps⟩ := h
    -- the piece moves over to the text behind which the others stand
    have hrest := ih hps (before ++ p.text)
    rw [List.append_assoc, List.length_append] at hrest
    rw [List.flatMap_cons, lastLine, lineAt_add_lines hs, hrest]

theorem tokensFrom_eq_located (keywords : Keywords) {ps : List Piece} (h : MaximalCut ps)
    (before : List Char) :
    let text := before ++ ps.flatMap Piece.text
    tokensFrom keywords (lineAt text before.length) ps =
      ((located before.length ps).filterMap fun x => x.2.token? keywords (lineAt text x.1)) ++
        [Token.endOfInput (lineAt text text.length)] := by
  induction ps generalizing before with
  | nil => simp [tokensFrom, located]
  | cons p ps ih =>
    obtain ⟨hs, -, hps⟩ := h
    have hrest := ih hps (before ++ p.text)
    simp only [List.append_assoc, List.length_append] at hrest
    simp only [List.flatMap_cons, tokensFrom, located, List.length_append]
    rw [lineAt_add_lines hs, hrest, List.filterMap_cons]
    cases p.token? keywords (lineAt (before ++ (p.text ++ ps.flatMap Piece.text)) before.length)
      <;> simp

/-- The diagnostic of a piece at offset `i` of the text, if it is a fault. -/
def Piece.faultAt (filename : String) (text : List Char) (i : Nat) : Piece → Option Diagnostic
  | stray c => some (.unexpectedCharacter c (lineAt text i) filename)
  | openString _ => some (.unterminatedString (lineAt text text.length) filename)
  | _ => none

theorem Piece.fault?_eq_faultAt (filename : String) {p : Piece} {before after : List Char}
    (hs : p.Shaped) (he : p.EndsBefore after) :
    p.fault? filename (lineAt (before ++ (p.text ++ after)) before.length) =
      p.faultAt filename (before ++ (p.text ++ after)) before.length := by
  cases p with
  | openString body =>
    -- an open string is the last piece
    obtain rfl : after = [] := he
    rw [fault?, lineAt_add_lines hs, faultAt]
    simp
  | _ => rfl

theorem diagnosticsFrom_eq_located (filename : String) {ps : List Piece} (h : MaximalCut ps)
    (before : List Char) :
    let text := before ++ ps.flatMap Piece.text
    diagnosticsFrom filename (lineAt text before.length) ps =
      (located before.length ps).filterMap fun x => x.2.faultAt filename text x.1 := by
  induction ps generalizing before with
  | nil => rfl
  | cons p ps ih =>
    obtain ⟨hs, he, hps⟩ := h
    have hrest := ih hps (before ++ p.text)
    simp only [List.append_assoc, List.length_append] at hrest
    simp only [List.flatMap_cons, diagnosticsFrom, located]
    rw [lineAt_add_lines hs, hrest, Piece.fault?_eq_faultAt filename hs he, List.filterMap_cons]
    cases p.faultAt filename (before ++ (p.text ++ ps.flatMap Piece.text)) before.length <;> simp

/-- What a scan reports, each fault at the place of its piece. -/
theorem Source.diagnostics_scan_eq_located (source : Source) :
    source.scan.diagnostics = (located 0 (pieces source.text)).filterMap fun x =>
      x.2.faultAt source.filename source.text x.1 := by
  have hlocated := diagnosticsFrom_eq_located source.filename (maximalCut_pieces source.text) []
  simp only [List.nil_append, flatMap_text_pieces] at hlocated
  exact hlocated

/-- A piece stands in the text where it is located. -/
theorem text_of_mem_located {ps : List Piece} (before : List Char) {x : Nat × Piece}
    (hx : x ∈ located before.length ps) :
    ((before ++ ps.flatMap Piece.text).drop x.1).take x.2.text.length = x.2.text := by
  induction ps generalizing before with
  | nil => cases hx
  | cons p ps ih =>
    rcases List.mem_cons.1 hx with rfl | hx
    · simp
    · have hrest := ih (before ++ p.text) (by rwa [List.length_append])
      rwa [List.append_assoc] at hrest

/-! ## Lines never decrease -/

variable {keywords : Keywords} {filename : String}

theorem line_of_token? {p : Piece} {line : Int} {t : Token}
    (h : t ∈ p.token? keywords line) : t.line = line := by
  obtain ⟨kind, -, rfl⟩ := Option.map_eq_some_iff.1 h
  rfl

theorem line_of_fault? {p : Piece} {line : Int} {d : Diagnostic}
    (h : d ∈ p.fault? filename line) : line ≤ d.line ∧ d.line ≤ line + p.lines := by
  cases p with
  | stray c =>
    obtain rfl := Option.some.inj h
    refine ⟨Int.le_refl _, ?_⟩
    simp [Diagnostic.unexpectedCharacter, Diagnostic.unexpected, Piece.lines]
  | openString body =>
    obtain rfl := Option.some.inj h
    refine ⟨?_, Int.le_refl _⟩
    simp only [Diagnostic.unterminatedString]
    omega
  | _ => cases h

theorem line_of_mem_tokensFrom {line : Int} {ps : List Piece} {t : Token}
    (h : t ∈ tokensFrom keywords line ps) : line ≤ t.line ∧ t.line ≤ lastLine line ps := by
  induction ps generalizing line with
  | nil =>
    obtain rfl := List.mem_singleton.1 h
    exact ⟨Int.le_refl _, Int.le_refl _⟩
  | cons p ps ih =>
    have hlast := le_lastLine (line + p.lines) ps
    rw [lastLine]
    rcases List.mem_append.1 h with h | h
    · rw [line_of_token? (Option.mem_toList.1 h)]
      omega
    · have := ih h
      omega

theorem line_of_mem_diagnosticsFrom {line : Int} {ps : List Piece} {d : Diagnostic}
    (h : d ∈ diagnosticsFrom filename line ps) :
    line ≤ d.line ∧ d.line ≤ lastLine line ps := by
  induction ps generalizing line with
  | nil => cases h
  | cons p ps ih =>
    have hlast := le_lastLine (line + p.lines) ps
    rw [lastLine]
    rcases List.mem_append.1 h with h | h
    · have := line_of_fault? (Option.mem_toList.1 h)
      omega
    · have := ih h
      omega

theorem tokensFrom_lines_sorted (line : Int) (ps : List Piece) :
    (tokensFrom keywords line ps).Pairwise fun a b => a.line ≤ b.line := by
  induction ps generalizing line with
  | nil => exact List.pairwise_singleton _ _
  | cons p ps ih =>
    refine List.pairwise_append.2 ⟨?_, ih _, ?_⟩
    · cases p.token? keywords line <;> simp
    · intro a ha b hb
      have h1 := line_of_token? (Option.mem_toList.1 ha)
      have h2 := line_of_mem_tokensFrom hb
      omega

theorem diagnosticsFrom_lines_sorted (line : Int) (ps : List Piece) :
    (diagnosticsFrom filename line ps).Pairwise fun a b => a.line ≤ b.line := by
  induction ps generalizing line with
  | nil => exact List.Pairwise.nil
  | cons p ps ih =>
    refine List.pairwise_append.2 ⟨?_, ih _, ?_⟩
    · cases p.fault? filename line <;> simp
    · intro a ha b hb
      have h1 := line_of_fault? (Option.mem_toList.1 ha)
      have h2 := line_of_mem_diagnosticsFrom hb
      omega

end ScriptLexer
