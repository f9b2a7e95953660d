import ScriptLexer.Proofs.ReadThrough

/-!
# A whole scan

With a sink that refuses nothing, a scan is the loop of single readings from the beginning of the
text. Two results follow.

**Maximal munch.** The loop consumes the text span by span without a gap, the spans are the pieces
of the only maximal cut, and the scan answers with the tokens that the readings yield.

**Lines are exact.** A token stands on the line of its first character, a stray character on its
own line, and an open string on the last line of the text. Only line feeds count.
-/

namespace ScriptLexer

namespace Session

/-- The session before a scan: no errors, and a cursor of its own at the beginning. -/
def rewound (s : Session) : Session := { s with errors := #[], cursor := {} }

theorem ahead_rewound (s : Session) : s.rewound.Ahead (pieces s.source.text) := by
  refine ⟨maximalCut_pieces _, [], ?_, rfl⟩
  rw [flatMap_text_pieces]
  rfl

theorem onLine_rewound (s : Session) : s.rewound.OnLine := rfl

variable {s : Session}

theorem scan_of_open (h : s.sink.Open) :
    s.scan.answer = .tokens s.source.scan.tokens ∧
      s.scan.session = { s with errors := #[] }.enterAll s.source.scan.diagnostics :=
  scan_of_accepting fun k _ => h k

theorem lookup_scan_of_open (h : s.sink.Open) :
    s.scan.session.lookup s.scan.session.errors = s.source.scan.diagnostics := by
  rw [(scan_of_open h).2]
  exact lookup_enterAll rfl _

/-- What a scan of another text answers and finds. -/
theorem scan_withText (h : s.sink.Open) (text : List Char) :
    (s.withText text).scan.answer = .tokens (tokensFrom s.source.keywords 1 (pieces text)) ∧
      (s.withText text).scan.errors = diagnosticsFrom s.source.filename 1 (pieces text) := by
  have hopen : (s.withText text).sink.Open := h
  exact ⟨(scan_of_open hopen).1, lookup_scan_of_open hopen⟩

theorem faults_withText (s : Session) (text : List Char) (ds : List Diagnostic) :
    (s.withText text).faults ds =
      { s.faults ds with session := (s.faults ds).session.withText text } :=
  faults_map (f := fun s => s.withText text) (fun _ _ => rfl) s ds

/-- Two texts that scan alike cannot be told apart, whatever the sink refuses. -/
theorem scan_withText_of_scan_eq {text : List Char}
    (h : { s.source with text := text }.scan = s.source.scan) :
    (s.withText text).scan.answer = s.scan.answer ∧
      (s.withText text).scan.session = s.scan.session.withText text := by
  have hscan : (s.withText text).source.scan = s.source.scan := h
  have hfaults : faults { s.withText text with errors := #[] } s.source.scan.diagnostics = _ :=
    faults_withText { s with errors := #[] } text s.source.scan.diagnostics
  constructor
  · rw [answer_scan, answer_scan, hscan, hfaults]
  · rw [session_scan, session_scan, hscan, hfaults]

/-- A scan is the loop, after which the cursor is put back. -/
theorem scan_eq_readThrough {os : List Outcome} {final : Session} (h : s.sink.Open)
    (hloop : s.rewound.ReadThrough os final) :
    s.scan.answer =
        .tokens (os.filterMap Outcome.token? ++ [Token.endOfInput final.cursor.line]) ∧
      s.scan.session = final.withCursor s.cursor := by
  obtain ⟨hanswer, hsession⟩ := scan_of_open h
  have hahead := ahead_rewound s
  constructor
  · rw [hanswer, Source.scan]
    exact congrArg Answer.tokens (hloop.tokens hahead)
  · rw [hsession, hloop.session hahead s.cursor]
    rfl

/-- **A scan makes the only maximal cut of the text**, and answers with what its pieces give. -/
theorem scan_maximal_munch (h : s.sink.Open) :
    ∃ (os : List Outcome) (final : Session), s.rewound.ReadThrough os final ∧
      Tiles 0 s.source.text.length (os.map Outcome.span) ∧
      List.Forall₂ (Shows s.source) (pieces s.source.text) os ∧
      (∀ ps, ps.flatMap Piece.text = s.source.text ∧ MaximalCut ps ↔
        ps = pieces s.source.text) ∧
      s.scan.answer =
        .tokens (os.filterMap Outcome.token? ++ [Token.endOfInput final.cursor.line]) ∧
      s.scan.session = final.withCursor s.cursor := by
  have hahead := ahead_rewound s
  obtain ⟨os, final, hloop⟩ := exists_readThrough hahead
  obtain ⟨hanswer, hsession⟩ := scan_eq_readThrough h hloop
  refine ⟨os, final, hloop, ?_, ?_, fun ps => maximalCut_iff, hanswer, hsession⟩
  · exact hloop.tiles hahead
  · exact hloop.shows hahead h (onLine_rewound s)

/-- A number that does not take in the point behind it, a NUL, and a string that the end of the
input cuts off. -/
theorem scan_maximal_munch_around_nul :
    let s := start { text := ['1', '.', '\x00', '"', '\n'] } (some .newCollector)
    s.sink.Open ∧ ∃ (os : List Outcome) (final : Session), s.rewound.ReadThrough os final ∧
      List.Forall₂ (Shows s.source)
        [.number ['1'] [], .punctuation .dot, .stray '\x00', .openString ['\n']] os ∧
      s.scan.answer =
        .tokens (os.filterMap Outcome.token? ++ [Token.endOfInput final.cursor.line]) := by
  intro s
  have hopen : s.sink.Open := fun k => rfl
  have hpieces : pieces s.source.text =
      [.number ['1'] [], .punctuation .dot, .stray '\x00', .openString ['\n']] := by decide +kernel
  obtain ⟨os, final, hloop, -, hshows, -, hanswer, -⟩ := scan_maximal_munch hopen
  rw [hpieces] at hshows
  exact ⟨hopen, os, final, hloop, hshows, hanswer⟩

theorem lastLine_pieces (text : List Char) :
    lastLine 1 (pieces text) = lineAt text text.length := by
  have hlast := lastLine_eq_lineAt (maximalCut_pieces text) []
  rwa [List.nil_append, flatMap_text_pieces] at hlast

/-- **Lines are exact**, for every token and every diagnostic of a scan. -/
theorem scan_lines_exact (h : s.sink.Open) :
    let text := s.source.text
    let spots := located 0 (pieces text)
    let diagnostics := s.scan.session.lookup s.scan.session.errors
    ∃ tokens, s.scan.answer = .tokens tokens ∧
      (∀ x ∈ spots, (text.drop x.1).take x.2.text.length = x.2.text) ∧
      (∀ other i, other.map (· == '\n') = text.map (· == '\n') →
        lineAt other i = lineAt text i) ∧
      tokens =
        (spots.filterMap fun x => x.2.token? s.source.keywords (lineAt text x.1)) ++
          [Token.endOfInput (lineAt text text.length)] ∧
      diagnostics = (spots.filterMap fun x => x.2.faultAt s.source.filename text x.1) ∧
      (tokens.Pairwise fun a b => a.line ≤ b.line) ∧
      (∀ t ∈ tokens, 1 ≤ t.line ∧ t.line ≤ lineAt text text.length) ∧
      (diagnostics.Pairwise fun a b => a.line ≤ b.line) ∧
      ∀ d ∈ diagnostics, 1 ≤ d.line ∧ d.line ≤ lineAt text text.length := by
  intro text spots diagnostics
  obtain ⟨hanswer, -⟩ := scan_of_open h
  have hdiagnostics : diagnostics = s.source.scan.diagnostics := lookup_scan_of_open h
  have hcut := maximalCut_pieces text
  have htext : [] ++ (pieces text).flatMap Piece.text = text := flatMap_text_pieces text
  have hone : lineAt text 0 = 1 := rfl
  -- what is known of a list of pieces behind some text, for all pieces behind none
  have hlast := lastLine_pieces text
  have htokens := tokensFrom_eq_located s.source.keywords hcut []
  have hfaults := diagnosticsFrom_eq_located s.source.filename hcut []
  simp only [htext, List.length_nil, hone] at htokens hfaults
  rw [hdiagnostics]
  refine ⟨s.source.scan.tokens, hanswer, ?_, fun other i hother => lineAt_congr hother i, htokens,
    hfaults, tokensFrom_lines_sorted 1 _, ?_, diagnosticsFrom_lines_sorted 1 _, ?_⟩
  · intro x hx
    have hstands := text_of_mem_located [] hx
    rwa [htext] at hstands
  · intro t ht
    have hline := line_of_mem_tokensFrom ht
    rwa [hlast] at hline
  · intro d hd
    have hline := line_of_mem_diagnosticsFrom hd
    rwa [hlast] at hline

/-- A string with a line feed in it, a token and a stray character on its last line, and an open
string, whose fault is on the line that it reaches. -/
theorem scan_lines_exact_behind_string :
    let s := start { text := ['"', '\n', '"', '*', '#', '"', '\r', '\n'] } (some .newCollector)
    s.sink.Open ∧ ∃ tokens, s.scan.answer = .tokens tokens ∧
      tokens.map Token.line = [1, 2, 3] ∧
      (s.scan.session.lookup s.scan.session.errors).map Diagnostic.line = [2, 3] := by
  intro s
  have hopen : s.sink.Open := fun k => rfl
  have hspots : located 0 (pieces s.source.text) =
      [(0, .string ['\n']), (3, .punctuation .star), (4, .stray '#'),
        (5, .openString ['\r', '\n'])] := by decide +kernel
  obtain ⟨tokens, hanswer, -, -, htokens, hdiagnostics, -⟩ := scan_lines_exact hopen
  refine ⟨hopen, tokens, hanswer, ?_, ?_⟩
  · rw [htokens, hspots]
    rfl
  · rw [hdiagnostics, hspots]
    rfl

end Session

end ScriptLexer
