import ScriptLexer.Proofs.NumberLiterals

/-!
# What a lexeme denotes

The kind and the value of a token are laid down by the text of its lexeme and by the table of
reserved words. Here they are described without the scanner (`Denotes`). A mark or an operator is
looked up in a table of the language, and a word in the table that the host supplies. A string
denotes what is between its quotes, and a number the double nearest to what its digits say.

**A lexeme denotes one kind and one value, and those are what its token has**
(`Lexeme.denotes_iff`). The proof goes through the pieces: every way to denote something is the way
of a piece with that text, and a shaped piece is known by its text.

So the tokens of a text that was written down can be told without scanning it. Scanning answers with
those and no others, whatever stands between the lexemes (`Session.scan_undoes_printing`).
-/

namespace ScriptLexer

open Binary64

/-- The marks of punctuation and their kinds. -/
def marks : List (Char × Kind) := [
  ('(', .leftParen), (')', .rightParen), ('{', .leftBrace), ('}', .rightBrace), (',', .comma),
  ('.', .dot), ('-', .minus), ('+', .plus), (';', .semicolon), ('*', .star)]

/-- The operators, each with its kind and with the kind that it has when a `=` is added. -/
def operators : List (Char × Kind × Kind) := [
  ('!', .bang, .bangEqual), ('=', .equal, .equalEqual), ('>', .greater, .greaterEqual),
  ('<', .less, .lessEqual)]

/-- One or more digits. -/
def IsDigits (text : List Char) : Prop := text ≠ [] ∧ ∀ c ∈ text, c.isDigit = true

/-- The kind and the value that a lexeme denotes under a table of reserved words. -/
inductive Denotes (keywords : Keywords) : List Char → Kind → Option Literal → Prop where
  | mark {c : Char} {kind : Kind} : (c, kind) ∈ marks → Denotes keywords [c] kind none
  | operator {c : Char} {kind longer : Kind} : (c, kind, longer) ∈ operators →
      Denotes keywords [c] kind none
  | operatorEqual {c : Char} {kind longer : Kind} : (c, kind, longer) ∈ operators →
      Denotes keywords [c, '='] longer none
  | slash : Denotes keywords ['/'] .slash none
  | string {body : List Char} : '"' ∉ body →
      Denotes keywords ('"' :: body ++ ['"']) .string (some (.text body))
  | integer {whole : List Char} {x : Binary64} : IsDigits whole →
      IsNearest false (numeralValue whole []) x →
      Denotes keywords whole .number (some (.number x))
  | decimal {whole fraction : List Char} {x : Binary64} : IsDigits whole → IsDigits fraction →
      IsNearest false (numeralValue whole fraction) x →
      Denotes keywords (whole ++ '.' :: fraction) .number (some (.number x))
  | reserved {w : List Char} {kind : Kind} : IsWord w → keywords.lookup w = some kind →
      Denotes keywords w kind none
  | identifier {w : List Char} : IsWord w → keywords.lookup w = none →
      Denotes keywords w .identifier none

variable {keywords : Keywords} {text : List Char} {kind : Kind} {literal : Option Literal}

/-! ## One kind and one value -/

theorem marks_eq : marks = Punctuation.all.map fun mark => (mark.char, mark.kind) := rfl

theorem operators_eq :
    operators = Operator.all.map fun op => (op.char, op.kind false, op.kind true) := rfl

theorem mem_marks_iff {c : Char} :
    (c, kind) ∈ marks ↔ ∃ mark : Punctuation, mark.char = c ∧ mark.kind = kind := by
  constructor
  · intro h
    rw [marks_eq] at h
    obtain ⟨mark, -, heq⟩ := List.mem_map.1 h
    exact ⟨mark, Prod.mk.inj heq⟩
  · rintro ⟨mark, rfl, rfl⟩
    cases mark <;> decide

theorem mem_operators_iff {c : Char} {longer : Kind} : (c, kind, longer) ∈ operators ↔
    ∃ op : Operator, op.char = c ∧ op.kind false = kind ∧ op.kind true = longer := by
  constructor
  · intro h
    rw [operators_eq] at h
    obtain ⟨op, -, heq⟩ := List.mem_map.1 h
    obtain ⟨hchar, hkinds⟩ := Prod.mk.inj heq
    exact ⟨op, hchar, Prod.mk.inj hkinds⟩
  · rintro ⟨op, rfl, rfl, rfl⟩
    cases op <;> decide

/-- What a piece gives is what its text denotes. -/
theorem Piece.denotes {p : Piece} (hs : p.Shaped) (h : p.kind? keywords = some kind) :
    Denotes keywords p.text kind p.literal? := by
  cases p with
  | punctuation mark =>
    obtain rfl := Option.some.inj h
    exact .mark (mem_marks_iff.2 ⟨mark, rfl, rfl⟩)
  | operator op withEqual =>
    obtain rfl := Option.some.inj h
    have hop := mem_operators_iff.2 ⟨op, rfl, rfl, rfl⟩
    cases withEqual with
    | true => exact .operatorEqual hop
    | false => exact .operator hop
  | slash =>
    obtain rfl := Option.some.inj h
    exact .slash
  | string body =>
    obtain rfl := Option.some.inj h
    exact .string hs
  | number whole fraction =>
    obtain rfl := Option.some.inj h
    obtain ⟨hne, hwhole, hfraction⟩ := hs
    -- without a fraction there is no point either
    cases fraction with
    | nil => exact .integer ⟨hne, hwhole⟩ (isNearest_numeralValue_iff.2 rfl)
    | cons d ds =>
      exact .decimal ⟨hne, hwhole⟩ ⟨List.cons_ne_nil d ds, hfraction⟩
        (isNearest_numeralValue_iff.2 rfl)
  | word w =>
    obtain rfl := Option.some.inj h
    rw [Keywords.kindOf]
    cases hlookup : keywords.lookup w with
    | none => exact .identifier hs hlookup
    | some kind => exact .reserved hs hlookup
  | _ => cases h

/-- What a text denotes is what some piece with that text gives. -/
theorem Denotes.exists_piece (h : Denotes keywords text kind literal) :
    ∃ p : Piece, p.Shaped ∧ p.text = text ∧ p.kind? keywords = some kind ∧
      p.literal? = literal := by
  cases h with
  | mark hmark =>
    obtain ⟨mark, rfl, rfl⟩ := mem_marks_iff.1 hmark
    exact ⟨.punctuation mark, trivial, rfl, rfl, rfl⟩
  | operator hop =>
    obtain ⟨op, rfl, rfl, rfl⟩ := mem_operators_iff.1 hop
    exact ⟨.operator op false, trivial, rfl, rfl, rfl⟩
  | operatorEqual hop =>
    obtain ⟨op, rfl, rfl, rfl⟩ := mem_operators_iff.1 hop
    exact ⟨.operator op true, trivial, rfl, rfl, rfl⟩
  | slash => exact ⟨.slash, trivial, rfl, rfl, rfl⟩
  | string hbody => exact ⟨.string _, hbody, rfl, rfl, rfl⟩
  | integer hwhole hx =>
    obtain rfl := isNearest_numeralValue_iff.1 hx
    exact ⟨.number _ [], ⟨hwhole.1, hwhole.2, by simp⟩, rfl, rfl, rfl⟩
  | @decimal whole fraction x hwhole hfraction hx =>
    obtain rfl := isNearest_numeralValue_iff.1 hx
    obtain ⟨d, ds, rfl⟩ := List.exists_cons_of_ne_nil hfraction.1
    exact ⟨.number whole (d :: ds), ⟨hwhole.1, hwhole.2, hfraction.2⟩, rfl, rfl, rfl⟩
  | reserved hword hlookup =>
    refine ⟨.word text, hword, rfl, ?_, rfl⟩
    rw [Piece.kind?, Keywords.kindOf, hlookup]
    rfl
  | identifier hword hlookup =>
    refine ⟨.word text, hword, rfl, ?_, rfl⟩
    rw [Piece.kind?, Keywords.kindOf, hlookup]
    rfl

/-- **A lexeme denotes one kind and one value**, those of its token. -/
theorem Lexeme.denotes_iff {x : Lexeme} :
    Denotes keywords x.text kind literal ↔
      kind = x.kind keywords ∧ literal = x.piece.literal? := by
  have hkind : x.piece.kind? keywords = some (x.kind keywords) := (Option.some_get _).symm
  constructor
  · intro h
    obtain ⟨p, hs, htext, hp, rfl⟩ := h.exists_piece
    -- the lexeme has no other piece with this text
    obtain rfl := Piece.eq_of_text_eq hs x.shaped htext
    exact ⟨Option.some.inj (hp.symm.trans hkind), rfl⟩
  · rintro ⟨rfl, rfl⟩
    exact Piece.denotes x.shaped hkind

/-! ## What is written down -/

namespace Spaced

/-- The tokens that `items` denote when they are written behind the text `before`. -/
inductive DenotesBehind (keywords : Keywords) :
    List Char → List (Lexeme × Gap) → List Token → Prop where
  | nil (before : List Char) :
      DenotesBehind keywords before [] [Token.endOfInput (lineAt before before.length)]
  | cons {before : List Char} {x : Lexeme} {g : Gap} {items : List (Lexeme × Gap)}
      {kind : Kind} {literal : Option Literal} {ts : List Token} :
      Denotes keywords x.text kind literal →
      DenotesBehind keywords (before ++ (x.text ++ g.text)) items ts →
      DenotesBehind keywords before ((x, g) :: items)
        (⟨kind, x.text, literal, lineAt before before.length⟩ :: ts)

/-- The tokens that are denoted by what is written down. -/
def Denotes (keywords : Keywords) (w : Spaced) (ts : List Token) : Prop :=
  DenotesBehind keywords w.lead.text w.items ts

theorem denotesBehind_iff {before : List Char} {items : List (Lexeme × Gap)} {ts : List Token} :
    DenotesBehind keywords before items ts ↔ ts = tokensBehind keywords before items := by
  constructor
  · intro h
    induction h with
    | nil before => rfl
    | cons hx _ ih =>
      obtain ⟨rfl, rfl⟩ := Lexeme.denotes_iff.1 hx
      rw [tokensBehind, ih]
      rfl
  · rintro rfl
    induction items generalizing before with
    | nil => exact .nil before
    | cons item items ih =>
      obtain ⟨x, g⟩ := item
      exact .cons (Lexeme.denotes_iff.2 ⟨rfl, rfl⟩) ih

end Spaced

namespace Session

/-- **Scanning undoes printing.** Lexemes with gaps between them are scanned without a fault, as the
tokens that they denote and no others. So are the lexemes of any scan when they are joined with
spaces, and these come back as they were but for their lines. -/
theorem scan_undoes_printing (s : Session) :
    (∀ w : Spaced,
      let written := { s with source := { s.source with text := w.text } }
      (∃ tokens, written.scan.answer = .tokens tokens ∧
          ∀ ts, w.Denotes s.source.keywords ts ↔ ts = tokens) ∧
        written.scan.session = { written with errors := #[] }) ∧
    ∀ ts, ts = s.source.scan.tokens ∨ ts = s.source.scan.tokens.dropLast →
      let written := { s with source := { s.source with text := rejoin ts } }
      (∃ tokens, written.scan.answer = .tokens tokens ∧
          tokens.map Token.content = s.source.scan.tokens.map Token.content) ∧
        written.scan.session = { written with errors := #[] } := by
  constructor
  · intro w written
    have hscan : written.source.scan = ⟨w.tokens s.source.keywords, []⟩ :=
      Spaced.scan_text s.source w
    obtain ⟨hanswer, hsession⟩ := scan_of_no_faults (s := written) (by rw [hscan])
    rw [hscan] at hanswer
    exact ⟨⟨_, hanswer, fun ts => Spaced.denotesBehind_iff⟩, hsession⟩
  · intro ts hts written
    obtain ⟨hfaults, hcontent⟩ := rescan_content s.source hts
    obtain ⟨hanswer, hsession⟩ := scan_of_no_faults (s := written) hfaults
    exact ⟨⟨_, hanswer, hcontent⟩, hsession⟩

/-- A comment in front, a slash before an operator, a string that holds a comment opener and a
newline, a reserved word and a number, on four lines. And a source with a fault, which is gone when
its lexemes are joined. -/
theorem scan_undoes_printing_behind_comment :
    let s := start { text := ['a', '@', '=', '='] } (some .newCollector)
    let w : Spaced :=
      { lead := [.comment ['/'] (by decide)]
        items := [(⟨.slash, trivial, rfl⟩, [.blank ' ' (by decide)]),
          (⟨.operator .equal false, trivial, rfl⟩, [.newline]),
          (⟨.string ['/', '/', '\n'], by simp [Piece.Shaped], rfl⟩, [.blank '\t' (by decide)]),
          (⟨.word ['o', 'r'], ⟨'o', ['r'], rfl, rfl, List.forall_mem_singleton.2 rfl⟩, rfl⟩,
            [.newline]),
          (⟨.number ['1'] ['5'], by simp [Piece.Shaped], rfl⟩, [])]
        apart := by simp [Apart, Gap.opensComment, Filler.isComment] }
    let quoted : List Char := ['"', '/', '/', '\n', '"']
    w.text = ['/', '/', '/', '\n', '/', ' ', '=', '\n'] ++ quoted ++
        ['\t', 'o', 'r', '\n', '1', '.', '5'] ∧
      { s with source := { s.source with text := w.text } }.scan.answer =
        .tokens [⟨.slash, ['/'], none, 2⟩, ⟨.equal, ['='], none, 2⟩,
          ⟨.string, quoted, some (.text ['/', '/', '\n']), 3⟩, ⟨.orWord, ['o', 'r'], none, 4⟩,
          ⟨.number, ['1', '.', '5'], some (.number (ofBits 0x3FF8000000000000)), 5⟩,
          Token.endOfInput 5] ∧
      rejoin s.source.scan.tokens = ['a', ' ', '=', '=', ' '] ∧
      let written := { s with source := { s.source with text := ['a', ' ', '=', '=', ' '] } }
      ∃ tokens, written.scan.answer = .tokens tokens ∧
        tokens.map Token.content =
          [(.identifier, ['a'], none), (.equalEqual, ['=', '='], none), (.eof, [], none)] := by
  intro s w quoted
  have hpieces : pieces s.source.text =
      [.word ['a'], .stray '@', .operator .equal true] := by decide +kernel
  have htokens : s.source.scan.tokens =
      [⟨.identifier, ['a'], none, 1⟩, ⟨.equalEqual, ['=', '='], none, 1⟩,
        Token.endOfInput 1] := by
    rw [Source.scan, hpieces]
    rfl
  have hhalf : IsNearest false (numeralValue ['1'] ['5']) (ofBits 0x3FF8000000000000) := by
    rw [isNearest_numeralValue_iff]
    decide +kernel
  have hdenotes : w.Denotes s.source.keywords [⟨.slash, ['/'], none, 2⟩, ⟨.equal, ['='], none, 2⟩,
      ⟨.string, quoted, some (.text ['/', '/', '\n']), 3⟩, ⟨.orWord, ['o', 'r'], none, 4⟩,
      ⟨.number, ['1', '.', '5'], some (.number (ofBits 0x3FF8000000000000)), 5⟩,
      Token.endOfInput 5] := by
    have hequal : ('=', Kind.equal, Kind.equalEqual) ∈ operators := by decide
    have hstring : '"' ∉ ['/', '/', '\n'] := by decide
    have hor : IsWord ['o', 'r'] := ⟨'o', ['r'], rfl, rfl, List.forall_mem_singleton.2 rfl⟩
    have hone : IsDigits ['1'] := by simp [IsDigits]
    have hfive : IsDigits ['5'] := by simp [IsDigits]
    exact .cons .slash (.cons (.operator hequal) (.cons (.string hstring)
      (.cons (.reserved hor (by decide)) (.cons (.decimal hone hfive hhalf) (.nil _)))))
  obtain ⟨hwritten, hrejoined⟩ := scan_undoes_printing s
  -- the scan answers with the only tokens that are denoted, and these are
  obtain ⟨⟨tokens, hanswer, honly⟩, -⟩ := hwritten w
  obtain rfl := (honly _).1 hdenotes
  obtain ⟨⟨tokens, hagain, hcontent⟩, -⟩ := hrejoined _ (Or.inl rfl)
  have hrejoin : rejoin s.source.scan.tokens = ['a', ' ', '=', '=', ' '] := by
    rw [htokens]
    rfl
  rw [hrejoin] at hagain
  rw [htokens] at hcontent
  exact ⟨rfl, hanswer, hrejoin, tokens, hagain, hcontent⟩

end Session

end ScriptLexer
