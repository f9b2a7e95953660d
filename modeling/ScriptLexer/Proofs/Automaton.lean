import ScriptLexer.Proofs.WholeScan

/-!
# Faults without pieces

Which characters of a text are faults can be told without cutting it. `Mode` is an automaton with
four states that reads one character at a time and never looks ahead: it tells code from comments
and strings, and remembers a slash that may open a comment.

Scanning and the automaton go together at the borders of pieces. There the automaton reads on as in
code, although its mode may be another one: it remembers a slash that no slash follows, or it is in
a comment that the next line feed ends (`Mode.Ready`). **A scan reports the characters that are
faulty for the automaton, and an open string if it ends in one**
(`located_faultAt_eq_faults`).
-/

namespace ScriptLexer

/-- What the automaton takes the next character for. -/
inductive Mode where
  | code
  /-- Code behind a slash. -/
  | slash
  | comment
  | string
deriving DecidableEq

namespace Mode

/-- The mode behind a character of code. -/
def behindCode (c : Char) : Mode :=
  if c = '/' then slash else if c = '"' then string else code

/-- Reads one character. -/
def step : Mode → Char → Mode
  | code, c => behindCode c
  | slash, c => if c = '/' then comment else behindCode c
  | comment, c => if c = '\n' then code else comment
  | string, c => if c = '"' then code else string

/-- The automaton cannot make anything of the character. -/
def isFaulty : Mode → Char → Bool
  | code, c | slash, c => classify c == .other
  | comment, _ | string, _ => false

/-- The mode behind a text. -/
def run (m : Mode) (text : List Char) : Mode := text.foldl step m

/-- The faulty characters of a text that begins at offset `i`, each with its own offset. -/
def faults : Mode → Nat → List Char → List (Nat × Char)
  | _, _, [] => []
  | m, i, c :: rest => (if m.isFaulty c then [(i, c)] else []) ++ (m.step c).faults (i + 1) rest

variable {m : Mode} {text rest : List Char}

theorem run_append (m : Mode) (text rest : List Char) :
    m.run (text ++ rest) = (m.run text).run rest := List.foldl_append

theorem faults_append (m : Mode) (i : Nat) (text rest : List Char) :
    m.faults i (text ++ rest) = m.faults i text ++ (m.run text).faults (i + text.length) rest := by
  induction text generalizing m i with
  | nil => rfl
  | cons c text ih =>
    have hlength : i + 1 + text.length = i + (c :: text).length := by
      rw [List.length_cons]
      omega
    rw [List.cons_append, faults, ih, faults, List.append_assoc, hlength]
    rfl

/-- Nothing happens as long as every character leaves the mode as it is. -/
theorem run_of_stays (h : ∀ c ∈ text, m.step c = m ∧ m.isFaulty c = false) (i : Nat) :
    m.run text = m ∧ m.faults i text = [] := by
  induction text generalizing i with
  | nil => exact ⟨rfl, rfl⟩
  | cons c text ih =>
    obtain ⟨hstep, hfaulty⟩ := h c (by simp)
    obtain ⟨hrun, hfaults⟩ := ih (fun d hd => h d (List.mem_cons_of_mem c hd)) (i + 1)
    constructor
    · rw [run, List.foldl_cons, hstep]
      exact hrun
    · rw [faults, hstep, hfaults, hfaulty]
      rfl

/-! ## Over a piece -/

/-- A character of code that is no slash, no quote and no fault. -/
def IsPlain (c : Char) : Prop :=
  classify c ≠ .slash ∧ classify c ≠ .quote ∧ classify c ≠ .other

theorem code_step_of_isPlain {c : Char} (h : IsPlain c) :
    code.step c = code ∧ code.isFaulty c = false := by
  obtain ⟨hslash, hquote, hother⟩ := h
  have hs : c ≠ '/' := by
    rintro rfl
    exact hslash rfl
  have hq : c ≠ '"' := by
    rintro rfl
    exact hquote rfl
  constructor
  · rw [step, behindCode, if_neg hs, if_neg hq]
  · rw [isFaulty]
    exact beq_false_of_ne hother

theorem isPlain_of_isDigit {c : Char} (h : c.isDigit = true) : IsPlain c := by
  unfold IsPlain
  rw [classify_of_isDigit h]
  exact ⟨by decide, by decide, by decide⟩

theorem isPlain_of_isWordChar {c : Char} (h : isWordChar c = true) : IsPlain c := by
  rcases Bool.or_eq_true_iff.1 h with h | h
  · exact isPlain_of_isDigit h
  · unfold IsPlain
    rw [classify_of_isWordStart h]
    exact ⟨by decide, by decide, by decide⟩

theorem comment_run_of_not_mem (h : '\n' ∉ text) (i : Nat) :
    comment.run text = comment ∧ comment.faults i text = [] := by
  refine run_of_stays ?_ i
  intro c hc
  have hne : c ≠ '\n' := fun heq => h (heq ▸ hc)
  exact ⟨if_neg hne, rfl⟩

theorem string_run_of_not_mem (h : '"' ∉ text) (i : Nat) :
    string.run text = string ∧ string.faults i text = [] := by
  refine run_of_stays ?_ i
  intro c hc
  have hne : c ≠ '"' := fun heq => h (heq ▸ hc)
  exact ⟨if_neg hne, rfl⟩

/-- The mode behind a piece that was read as code. -/
def behind : Piece → Mode
  | .slash => slash
  | .comment _ => comment
  | .openString _ => string
  | _ => code

/-- The fault that a piece at offset `i` is, apart from open strings. -/
def strayAt (i : Nat) : Piece → List (Nat × Char)
  | .stray c => [(i, c)]
  | _ => []

/-- **Reading a piece as code** finds a fault only if the piece is one. -/
theorem code_run_text {p : Piece} (hs : p.Shaped) (i : Nat) :
    code.run p.text = behind p ∧ code.faults i p.text = strayAt i p := by
  -- pieces that are plain from end to end leave the automaton in code
  have hplain : (∀ c ∈ p.text, IsPlain c) →
      code.run p.text = code ∧ code.faults i p.text = [] := fun h =>
    run_of_stays (fun c hc => code_step_of_isPlain (h c hc)) i
  cases p with
  | punctuation mark => cases mark <;> exact ⟨rfl, rfl⟩
  | operator op withEqual => cases op <;> cases withEqual <;> exact ⟨rfl, rfl⟩
  | slash => exact ⟨rfl, rfl⟩
  | comment body => exact comment_run_of_not_mem hs (i + 1 + 1)
  | blank c => rcases hs with rfl | rfl | rfl <;> exact ⟨rfl, rfl⟩
  | newline => exact ⟨rfl, rfl⟩
  | string body =>
    obtain ⟨hrun, hfaults⟩ := string_run_of_not_mem hs (i + 1)
    constructor
    · -- the closing quote leads back to code
      have hclose := string.run_append body ['"']
      rw [hrun] at hclose
      exact hclose
    · have hclose := string.faults_append (i + 1) body ['"']
      rw [hrun, hfaults] at hclose
      exact hclose
  | openString body => exact string_run_of_not_mem hs (i + 1)
  | number whole fraction =>
    obtain ⟨-, hwhole, hfraction⟩ := hs
    refine hplain ?_
    intro c hc
    rw [Piece.text_number] at hc
    rcases List.mem_append.1 hc with hc | hc
    · exact isPlain_of_isDigit (hwhole c hc)
    · split at hc
      · cases hc
      · rcases List.mem_cons.1 hc with rfl | hc
        · exact ⟨by decide, by decide, by decide⟩
        · exact isPlain_of_isDigit (hfraction c hc)
  | word w =>
    obtain ⟨b, cs, rfl, hstart, hcs⟩ := hs
    refine hplain ?_
    intro c hc
    rcases List.mem_cons.1 hc with rfl | hc
    · exact isPlain_of_isWordChar (Piece.isWordChar_of_isWordStart hstart)
    · exact isPlain_of_isWordChar (hcs c hc)
  | stray c =>
    have hclass : classify c = .other := classify_eq_iff.2 hs
    have hslash : c ≠ '/' := by
      rintro rfl
      cases hclass
    have hquote : c ≠ '"' := by
      rintro rfl
      cases hclass
    constructor
    · exact (if_neg hslash).trans (if_neg hquote)
    · rw [Piece.text, faults, isFaulty, hclass]
      rfl

/-! ## At the borders -/

/-- The automaton reads the text as it reads code. It may remember a slash that is none of a
comment, or stand in a comment that is over. -/
def Ready (rest : List Char) : Mode → Prop
  | code => True
  | slash => rest.head? ≠ some '/'
  | comment => ∀ d ∈ rest.head?, d = '\n'
  | string => False

theorem run_of_ready (h : m.Ready text) (hne : text ≠ []) (i : Nat) :
    m.run text = code.run text ∧ m.faults i text = code.faults i text := by
  obtain ⟨c, rest, rfl⟩ := List.exists_cons_of_ne_nil hne
  -- only the first character is read in the mode `m`
  have hfirst : m.step c = code.step c ∧ m.isFaulty c = code.isFaulty c := by
    cases m with
    | code => exact ⟨rfl, rfl⟩
    | slash =>
      have hc : c ≠ '/' := by
        rintro rfl
        exact h rfl
      exact ⟨if_neg hc, rfl⟩
    | comment =>
      obtain rfl : c = '\n' := h c rfl
      exact ⟨rfl, rfl⟩
    | string => exact h.elim
  obtain ⟨hstep, hfaulty⟩ := hfirst
  constructor
  · rw [run, run, List.foldl_cons, List.foldl_cons, hstep]
  · rw [faults, faults, hstep, hfaulty]

theorem ready_behind {p : Piece} {after : List Char} (he : p.EndsBefore after)
    (hopen : ∀ body, p ≠ .openString body) : (behind p).Ready after := by
  cases p with
  | slash => exact he
  | comment body => exact he
  | openString body => exact absurd rfl (hopen body)
  | _ => trivial

end Mode

/-! ## Over a text -/

/-- **The faults of the pieces are those that the automaton finds**, from any mode in which it reads
on as in code. -/
theorem located_faultAt_eq_faults (filename : String) (text : List Char) {ps : List Piece}
    (h : MaximalCut ps) {m : Mode} (hm : m.Ready (ps.flatMap Piece.text)) (i : Nat) :
    ((located i ps).filterMap fun x => x.2.faultAt filename text x.1) =
      ((m.faults i (ps.flatMap Piece.text)).map fun x =>
        .unexpectedCharacter x.2 (lineAt text x.1) filename) ++
        if m.run (ps.flatMap Piece.text) = .string then
          [.unterminatedString (lineAt text text.length) filename]
        else [] := by
  induction ps generalizing m i with
  | nil =>
    have hstring : m ≠ .string := by
      rintro rfl
      exact hm
    rw [show m.run (List.flatMap Piece.text []) = m from rfl, if_neg hstring]
    rfl
  | cons p ps ih =>
    obtain ⟨hs, he, hps⟩ := h
    have hne : p.text ++ ps.flatMap Piece.text ≠ [] :=
      List.append_ne_nil_of_left_ne_nil (Piece.text_ne_nil hs) _
    rw [List.flatMap_cons] at hm ⊢
    obtain ⟨hrun, hfaults⟩ := Mode.run_of_ready hm hne i
    obtain ⟨hrunp, hfaultsp⟩ := Mode.code_run_text hs i
    rw [hrun, hfaults, Mode.run_append, Mode.faults_append, hrunp, hfaultsp, located,
      List.filterMap_cons]
    by_cases hopen : ∃ body, p = .openString body
    · -- nothing comes behind an open string
      obtain ⟨body, rfl⟩ := hopen
      obtain rfl := eq_nil_of_endsBefore_openString he hps
      rfl
    · have hready := Mode.ready_behind he (fun body hp => hopen ⟨body, hp⟩)
      rw [ih hps hready (i + p.text.length), List.map_append, List.append_assoc]
      cases p with
      | openString body => exact absurd ⟨body, rfl⟩ hopen
      | _ => rfl

/-- What is to be reported of a text: every faulty character on its line, and on the last line the
string that is left open. -/
def faultsOf (filename : String) (text : List Char) : List Diagnostic :=
  ((Mode.code.faults 0 text).map fun x =>
    .unexpectedCharacter x.2 (lineAt text x.1) filename) ++
    if Mode.code.run text = .string then
      [.unterminatedString (lineAt text text.length) filename]
    else []

theorem diagnostics_scan_eq_faultsOf (source : Source) :
    source.scan.diagnostics = faultsOf source.filename source.text := by
  have hready : Mode.code.Ready ((pieces source.text).flatMap Piece.text) := trivial
  have hfaults := located_faultAt_eq_faults source.filename source.text
    (maximalCut_pieces source.text) hready 0
  rw [flatMap_text_pieces] at hfaults
  exact source.diagnostics_scan_eq_located.trans hfaults

variable {filename : String} {text : List Char}

theorem faultsOf_eq_nil_iff :
    faultsOf filename text = [] ↔
      Mode.code.faults 0 text = [] ∧ Mode.code.run text ≠ .string := by
  unfold faultsOf
  rw [List.append_eq_nil_iff, List.map_eq_nil_iff]
  by_cases hstring : Mode.code.run text = .string
  · simp [hstring]
  · simp [hstring]

theorem head?_faultsOf_iff {d : Diagnostic} :
    (faultsOf filename text).head? = some d ↔
      (∃ x, (Mode.code.faults 0 text).head? = some x ∧
        d = .unexpectedCharacter x.2 (lineAt text x.1) filename) ∨
      (Mode.code.faults 0 text = [] ∧ Mode.code.run text = .string ∧
        d = .unterminatedString (lineAt text text.length) filename) := by
  unfold faultsOf
  cases hfaults : Mode.code.faults 0 text with
  | nil =>
    by_cases hstring : Mode.code.run text = .string
    · simp [hstring, eq_comm]
    · simp [hstring]
  | cons x xs => simp [eq_comm]

/-! ## Treating the first fault as fatal -/

theorem Source.tokenize_eq_ok_iff {source : Source} {tokens : List Token} :
    source.tokenize = .ok tokens ↔
      tokens = source.scan.tokens ∧ source.scan.diagnostics = [] := by
  unfold tokenize
  cases source.scan.diagnostics with
  | nil => simp [eq_comm]
  | cons d ds => simp

theorem Source.tokenize_eq_error_iff {source : Source} {d : Diagnostic} :
    source.tokenize = .error d ↔ source.scan.diagnostics.head? = some d := by
  unfold tokenize
  cases source.scan.diagnostics with
  | nil => simp
  | cons e es => simp

namespace Session

/-- **The automaton accepts what can be tokenized and blames the right place.** Its faulty
characters and its last mode decide whether there are tokens, which fault is fatal if not, and what
a scan finds altogether. -/
theorem tokenize_iff_automaton {s : Session} (h : s.sink.Open) :
    let text := s.source.text
    let faults := Mode.code.faults 0 text
    let last := Mode.code.run text
    ∃ tokens, s.scan.answer = .tokens tokens ∧
      (∀ ts, s.source.tokenize = .ok ts ↔ ts = tokens ∧ faults = [] ∧ last ≠ .string) ∧
      (∀ d, s.source.tokenize = .error d ↔
        (∃ x, faults.head? = some x ∧
          d = .unexpectedCharacter x.2 (lineAt text x.1) s.source.filename) ∨
        (faults = [] ∧ last = .string ∧
          d = .unterminatedString (lineAt text text.length) s.source.filename)) ∧
      s.scan.errors =
        (faults.map fun x => .unexpectedCharacter x.2 (lineAt text x.1) s.source.filename) ++
          if last = .string then
            [.unterminatedString (lineAt text text.length) s.source.filename]
          else [] := by
  intro text faults last
  have hdiagnostics := diagnostics_scan_eq_faultsOf s.source
  refine ⟨s.source.scan.tokens, (scan_of_open h).1, ?_, ?_, ?_⟩
  · intro ts
    rw [Source.tokenize_eq_ok_iff, hdiagnostics, faultsOf_eq_nil_iff]
  · intro d
    rw [Source.tokenize_eq_error_iff, hdiagnostics]
    exact head?_faultsOf_iff
  · exact (lookup_scan_of_open h).trans hdiagnostics

/-- A string that holds a comment opener and a stray character, a comment that holds another, and
then both faults on the last line. The stray character is blamed, because it comes first. -/
theorem tokenize_iff_automaton_of_both_faults :
    let s := start { text := ['/', '"', '/', '/', '#', '"', '\n', '/', '/', '@', '\n', '#', '"'] }
    s.sink.Open ∧
      s.source.tokenize = .error (.unexpectedCharacter '#' 3 "<unknown>") ∧
      s.scan.errors =
        [.unexpectedCharacter '#' 3 "<unknown>", .unterminatedString 3 "<unknown>"] := by
  intro s
  have hopen : s.sink.Open := fun k => rfl
  have hfaults : Mode.code.faults 0 s.source.text = [(11, '#')] := by decide +kernel
  have hlast : Mode.code.run s.source.text = .string := by decide +kernel
  obtain ⟨tokens, -, -, herror, herrors⟩ := tokenize_iff_automaton hopen
  rw [hfaults, hlast] at herrors
  refine ⟨hopen, (herror _).2 (Or.inl ⟨(11, '#'), ?_, rfl⟩), herrors⟩
  rw [hfaults]
  rfl

end Session

end ScriptLexer
