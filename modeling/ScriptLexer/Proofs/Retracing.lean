import ScriptLexer.Proofs.Adjacency
import ScriptLexer.Proofs.FirstPieces
import ScriptLexer.Token.Printer

/-!
# Retracing a scan

Tokens can be laid over the text they were scanned from without a scanner. The walk skips blanks,
line feeds and comments, and looks whether the next lexeme stands where they end. It does not know
where a number, a word or a string ends, and it does not know what a fault is.

**The walk gets as far as the first fault** (`reached_walk`). Up to there it stops wherever the
scanner did. There it is stuck, because no lexeme begins with a stray character, and behind an open
string there is none. So the walk gets to the end of the text exactly if the scan reports nothing
(`scan_retraced`).
-/

namespace ScriptLexer

/-! ## The walk -/

theorem length_takeWhile_pos_of_comment {text : List Char}
    (h : ['/', '/'].isPrefixOf text = true) : 0 < (text.takeWhile (· != '\n')).length := by
  obtain ⟨rest, rfl⟩ := List.isPrefixOf_iff_prefix.1 h
  exact Nat.zero_lt_succ _

/-- The offset behind the blanks, line feeds and comments that stand at offset `i`. -/
def skip (text : List Char) (i : Nat) : Nat :=
  if h : i < text.length then
    if text[i] ∈ separators then skip text (i + 1)
    else if hcomment : ['/', '/'].isPrefixOf (text.drop i) = true then
      skip text (i + ((text.drop i).takeWhile (· != '\n')).length)
    else i
  else i
termination_by text.length - i
decreasing_by
  · omega
  · have := length_takeWhile_pos_of_comment hcomment
    omega

/-- A token that does not stand where the walk looks for it. -/
structure Astray where
  token : Token
  offset : Nat
deriving DecidableEq

/-- What is said about a token that was not found. -/
def Astray.message (e : Astray) : String :=
  String.ofList e.token.printFull ++ " does not start at offset " ++ toString e.offset

/-- A walk along all tokens: where their lexemes were found, and where it stopped. -/
structure Walk where
  starts : List Nat
  stop : Nat
deriving DecidableEq

/-- Walks along the tokens from offset `i` on. -/
def walk (text : List Char) : Nat → List Token → Except Astray Walk
  | i, [] => .ok ⟨[], skip text i⟩
  | i, t :: ts =>
    let start := skip text i
    if t.lexeme.isPrefixOf (text.drop start) then
      (walk text (start + t.lexeme.length) ts).map fun w => { w with starts := start :: w.starts }
    else .error ⟨t, start⟩

/-- Walks along all tokens but the last one, which stands for the end of the text. -/
def retrace (text : List Char) (tokens : List Token) : Except Astray Walk :=
  walk text 0 tokens.dropLast

/-- How far a walk gets, whether it finds all tokens or not. -/
def reached : Except Astray Walk → Nat
  | .ok w => w.stop
  | .error e => e.offset

/-! ## Three kinds of pieces -/

namespace Piece

/-- What may lie between two lexemes. -/
def isGap : Piece → Bool
  | comment _ | blank _ | newline => true
  | _ => false

/-- What a scan reports. -/
def isFault : Piece → Bool
  | stray _ | openString _ => true
  | _ => false

theorem kinds (p : Piece) :
    (p.isGap = true ∧ p.isToken = false ∧ p.isFault = false) ∨
      (p.isGap = false ∧ p.isToken = true ∧ p.isFault = false) ∨
      (p.isGap = false ∧ p.isToken = false ∧ p.isFault = true) := by
  cases p with
  | comment body => exact Or.inl ⟨rfl, rfl, rfl⟩
  | blank c => exact Or.inl ⟨rfl, rfl, rfl⟩
  | newline => exact Or.inl ⟨rfl, rfl, rfl⟩
  | openString body => exact Or.inr (Or.inr ⟨rfl, rfl, rfl⟩)
  | stray c => exact Or.inr (Or.inr ⟨rfl, rfl, rfl⟩)
  | _ => exact Or.inr (Or.inl ⟨rfl, rfl, rfl⟩)

end Piece

/-- The offset of the first fault, or of the end of the pieces if there is none. -/
def firstFault : Nat → List Piece → Nat
  | i, [] => i
  | i, p :: ps => if p.isFault then i else firstFault (i + p.text.length) ps

variable {p : Piece} {ps : List Piece} {t : Token} {ts : List Token} {before after : List Char}

theorem isSome_fault? (filename : String) (line : Int) (p : Piece) :
    (p.fault? filename line).isSome = p.isFault := by
  cases p <;> rfl

theorem diagnosticsFrom_eq_nil_iff {filename : String} {line : Int} :
    diagnosticsFrom filename line ps = [] ↔ ∀ p ∈ ps, p.isFault = false := by
  induction ps generalizing line with
  | nil => simp [diagnosticsFrom]
  | cons p ps ih =>
    rw [diagnosticsFrom, List.append_eq_nil_iff, ih, List.forall_mem_cons, Option.toList_eq_nil_iff,
      ← isSome_fault? filename line, Option.isSome_eq_false_iff, Option.isNone_iff_eq_none]

/-- A fault lies before the end. -/
theorem firstFault_lt (hps : ∀ p ∈ ps, p.Shaped) (h : ∃ p ∈ ps, p.isFault = true) (i : Nat) :
    firstFault i ps < i + (ps.flatMap Piece.text).length := by
  induction ps generalizing i with
  | nil => simp at h
  | cons p ps ih =>
    have hpos := List.length_pos_iff.2 (Piece.text_ne_nil (hps p List.mem_cons_self))
    rw [firstFault, List.flatMap_cons, List.length_append]
    by_cases hp : p.isFault = true
    · rw [if_pos hp]
      omega
    · rw [if_neg hp]
      obtain ⟨q, hq, hfault⟩ := h
      rcases List.mem_cons.1 hq with rfl | hq
      · exact absurd hfault hp
      · have := ih (fun r hr => hps r (List.mem_cons_of_mem p hr)) ⟨q, hq, hfault⟩
          (i + p.text.length)
        omega

/-! ## One piece -/

theorem skip_length (text : List Char) : skip text text.length = text.length := by
  rw [skip, dif_neg (Nat.lt_irrefl _)]

theorem skip_append (before : List Char) (c : Char) (rest : List Char) :
    skip (before ++ c :: rest) before.length =
      if c ∈ separators then skip (before ++ c :: rest) (before.length + 1)
      else if ['/', '/'].isPrefixOf (c :: rest) then
        skip (before ++ c :: rest)
          (before.length + ((c :: rest).takeWhile (· != '\n')).length)
      else before.length := by
  rw [skip, dif_pos (by simp)]
  simp

/-- A gap is skipped. -/
theorem skip_gap (hgap : p.isGap = true) (hs : p.Shaped) (he : p.EndsBefore after) :
    skip (before ++ (p.text ++ after)) before.length =
      skip (before ++ (p.text ++ after)) (before.length + p.text.length) := by
  cases p with
  | blank c =>
    have hc : c ∈ separators := by rcases hs with rfl | rfl | rfl <;> decide
    exact (skip_append before c after).trans (if_pos hc)
  | newline => exact (skip_append before '\n' after).trans (if_pos (by decide))
  | comment body =>
    -- the rest of the line is the text of the comment
    have hline : ('/' :: '/' :: (body ++ after)).takeWhile (· != '\n') = '/' :: '/' :: body := by
      have hbody : ∀ d ∈ body, (d != '\n') = true := by
        intro d hd
        simp only [bne_iff_ne]
        rintro rfl
        exact hs hd
      have hstop : ∀ d ∈ after.head?, (d != '\n') = false := by
        intro d hd
        simp [he d hd]
      simpa using Piece.takeWhile_append_stop hbody hstop
    have hskip := skip_append before '/' ('/' :: (body ++ after))
    rw [if_neg (by decide), if_pos (by simp), hline] at hskip
    exact hskip
  | _ => cases hgap

/-- The class of a separator is that of a gap. -/
theorem classify_of_mem_separators :
    ∀ c ∈ separators, classify c = .whitespace ∨ classify c = .newline := by
  intro c hc
  simp only [separators, List.mem_cons, List.not_mem_nil, or_false] at hc
  rcases hc with rfl | rfl | rfl | rfl <;> decide

/-- Anything else is not. -/
theorem skip_of_not_gap (hgap : p.isGap = false) (hs : p.Shaped) (he : p.EndsBefore after) :
    skip (before ++ (p.text ++ after)) before.length = before.length := by
  obtain ⟨c, more, htext⟩ := List.exists_cons_of_ne_nil (Piece.text_ne_nil hs)
  have hclass : classify c = p.classOf := Piece.classify_of_head?_text hs (by rw [htext]; rfl)
  have hsep : c ∉ separators := by
    intro hmem
    have hgapClass := classify_of_mem_separators c hmem
    rw [hclass] at hgapClass
    cases p with
    | blank b => cases hgap
    | newline => cases hgap
    | _ => rcases hgapClass with h | h <;> cases h
  have hcomment : ¬ ['/', '/'].isPrefixOf (c :: (more ++ after)) = true := by
    intro hprefix
    obtain ⟨rest, hrest⟩ := List.isPrefixOf_iff_prefix.1 hprefix
    obtain ⟨rfl, hsecond⟩ := List.cons.inj hrest
    have hslash : classify '/' = .slash := rfl
    rw [hslash] at hclass
    cases p with
    | comment body => cases hgap
    | slash =>
      -- the second slash would have to follow the first one
      obtain rfl : [] = more := (List.cons.inj htext).2
      exact he (congrArg List.head? hsecond.symm)
    | _ => cases hclass
  rw [htext, List.cons_append, skip_append, if_neg hsep, if_neg hcomment]

/-! ## One step of the walk -/

/-- The walk begins by skipping. -/
theorem walk_congr {text : List Char} {i j : Nat} (h : skip text i = skip text j)
    (ts : List Token) : walk text i ts = walk text j ts := by
  cases ts with
  | nil => rw [walk, walk, h]
  | cons t ts => rw [walk, walk, h]

theorem walk_gap (hgap : p.isGap = true) (hs : p.Shaped) (he : p.EndsBefore after)
    (ts : List Token) :
    walk (before ++ (p.text ++ after)) before.length ts =
      walk (before ++ p.text ++ after) (before ++ p.text).length ts := by
  rw [List.append_assoc, List.length_append]
  exact walk_congr (skip_gap hgap hs he) ts

/-- A lexeme is found where its piece stands. -/
theorem walk_token (hgap : p.isGap = false) (hs : p.Shaped) (he : p.EndsBefore after)
    (ht : t.lexeme = p.text) (ts : List Token) :
    walk (before ++ (p.text ++ after)) before.length (t :: ts) =
      (walk (before ++ p.text ++ after) (before ++ p.text).length ts).map
        fun w => { w with starts := before.length :: w.starts } := by
  have hfound : p.text.isPrefixOf ((before ++ (p.text ++ after)).drop before.length) = true := by
    rw [List.drop_left, List.isPrefixOf_iff_prefix]
    exact List.prefix_append _ _
  rw [walk, skip_of_not_gap hgap hs he, ht]
  simp only [hfound, if_true, List.append_assoc, List.length_append]

/-- No lexeme begins with a stray character. -/
theorem not_isPrefixOf_of_stray {c : Char} {q : Piece} (hc : (Piece.stray c).Shaped)
    (hq : q.Shaped) (htoken : q.isToken = true) (rest : List Char) :
    ¬ q.text.isPrefixOf (c :: rest) = true := by
  intro hprefix
  obtain ⟨more, hmore⟩ := List.isPrefixOf_iff_prefix.1 hprefix
  obtain ⟨d, ds, htext⟩ := List.exists_cons_of_ne_nil (Piece.text_ne_nil hq)
  rw [htext] at hmore
  obtain ⟨rfl, -⟩ := List.cons.inj hmore
  have hclass : classify d = q.classOf := Piece.classify_of_head?_text hq (by rw [htext]; rfl)
  have hother : classify d = .other := classify_eq_iff.2 hc
  rw [hother] at hclass
  cases q with
  | stray e => cases htoken
  | _ => cases hclass

/-- **At a fault the walk is stuck**, whatever tokens are left. -/
theorem reached_walk_fault (hgap : p.isGap = false) (hfault : p.isFault = true)
    (hcut : MaximalCut (p :: ps))
    (hts : ts.map Token.lexeme = (ps.filter Piece.isToken).map Piece.text) :
    reached (walk (before ++ (p.text ++ ps.flatMap Piece.text)) before.length ts) =
      before.length := by
  obtain ⟨hs, he, hps⟩ := hcut
  have hskip : skip (before ++ (p.text ++ ps.flatMap Piece.text)) before.length = before.length :=
    skip_of_not_gap hgap hs he
  cases ts with
  | nil => rw [walk, hskip, reached]
  | cons t ts =>
    -- the next lexeme is that of some piece behind the fault
    have hmem : t.lexeme ∈ (ps.filter Piece.isToken).map Piece.text := by
      rw [← hts]
      exact List.mem_cons_self
    obtain ⟨q, hq, hlexeme⟩ := List.mem_map.1 hmem
    obtain ⟨hqmem, htoken⟩ := List.mem_filter.1 hq
    have hstuck : ¬ t.lexeme.isPrefixOf
        ((before ++ (p.text ++ ps.flatMap Piece.text)).drop before.length) = true := by
      rw [List.drop_left, ← hlexeme]
      cases p with
      | stray c =>
        exact not_isPrefixOf_of_stray hs (shaped_of_mem_maximalCut hps q hqmem) htoken _
      | openString body =>
        rw [eq_nil_of_endsBefore_openString he hps] at hqmem
        cases hqmem
      | _ => cases hfault
    rw [walk, hskip]
    simp only [hstuck]
    rfl

/-! ## The whole walk -/

theorem reached_map (w : Except Astray Walk) (start : Nat) :
    reached (w.map fun w => { w with starts := start :: w.starts }) = reached w := by
  cases w <;> rfl

/-- **The walk gets as far as the first fault.** -/
theorem reached_walk (h : MaximalCut ps) (before : List Char)
    (hts : ts.map Token.lexeme = (ps.filter Piece.isToken).map Piece.text) :
    reached (walk (before ++ ps.flatMap Piece.text) before.length ts) =
      firstFault before.length ps := by
  induction ps generalizing before ts with
  | nil =>
    obtain rfl : ts = [] := List.map_eq_nil_iff.1 hts
    rw [List.flatMap_nil, List.append_nil, walk, skip_length]
    rfl
  | cons p ps ih =>
    have hcut := h
    obtain ⟨hs, he, hps⟩ := h
    rw [List.flatMap_cons, firstFault, ← List.length_append]
    rcases p.kinds with ⟨hgap, htoken, hfault⟩ | ⟨hgap, htoken, hfault⟩ | ⟨hgap, htoken, hfault⟩
    · rw [List.filter_cons_of_neg (Bool.eq_false_iff.1 htoken)] at hts
      rw [walk_gap hgap hs he, ih hps _ hts, hfault]
      rfl
    · rw [List.filter_cons_of_pos htoken, List.map_cons] at hts
      obtain ⟨t, ts, rfl, ht, hts⟩ := List.map_eq_cons_iff.1 hts
      rw [walk_token hgap hs he ht, reached_map, ih hps _ hts, hfault]
      rfl
    · rw [List.filter_cons_of_neg (Bool.eq_false_iff.1 htoken)] at hts
      rw [reached_walk_fault hgap hfault hcut hts, if_pos hfault]

/-- Without a fault the walk finds every token where its piece begins. -/
theorem walk_of_no_fault (h : MaximalCut ps) (hclean : ∀ p ∈ ps, p.isFault = false)
    (before : List Char)
    (hts : ts.map Token.lexeme = (ps.filter Piece.isToken).map Piece.text) :
    walk (before ++ ps.flatMap Piece.text) before.length ts =
      .ok ⟨offsetsOf Piece.isToken before.length ps, (before ++ ps.flatMap Piece.text).length⟩ := by
  induction ps generalizing before ts with
  | nil =>
    obtain rfl : ts = [] := List.map_eq_nil_iff.1 hts
    rw [List.flatMap_nil, List.append_nil, walk, skip_length]
    rfl
  | cons p ps ih =>
    obtain ⟨hs, he, hps⟩ := h
    obtain ⟨hp, hclean⟩ := List.forall_mem_cons.1 hclean
    rw [List.flatMap_cons, offsetsOf_cons, ← List.length_append]
    rcases p.kinds with ⟨hgap, htoken, -⟩ | ⟨hgap, htoken, -⟩ | ⟨-, -, hfault⟩
    · rw [List.filter_cons_of_neg (Bool.eq_false_iff.1 htoken)] at hts
      rw [walk_gap hgap hs he, ih hps hclean _ hts, htoken, List.append_assoc]
      rfl
    · rw [List.filter_cons_of_pos htoken, List.map_cons] at hts
      obtain ⟨t, ts, rfl, ht, hts⟩ := List.map_eq_cons_iff.1 hts
      rw [walk_token hgap hs he ht, ih hps hclean _ hts, htoken, List.append_assoc]
      rfl
    · rw [hp] at hfault
      cases hfault

section Pieces

variable {text : List Char} {w : Walk}

theorem reached_walk_pieces
    (hts : ts.map Token.lexeme = ((pieces text).filter Piece.isToken).map Piece.text) :
    reached (walk text 0 ts) = firstFault 0 (pieces text) := by
  have hreached := reached_walk (maximalCut_pieces text) [] hts
  rwa [List.nil_append, flatMap_text_pieces] at hreached

theorem walk_pieces_of_no_fault (hclean : ∀ p ∈ pieces text, p.isFault = false)
    (hts : ts.map Token.lexeme = ((pieces text).filter Piece.isToken).map Piece.text) :
    walk text 0 ts = .ok ⟨offsetsOf Piece.isToken 0 (pieces text), text.length⟩ := by
  have hwalk := walk_of_no_fault (maximalCut_pieces text) hclean [] hts
  rwa [List.nil_append, flatMap_text_pieces] at hwalk

/-- A walk that gets to the end has met no fault. -/
theorem no_fault_of_walk_pieces
    (hts : ts.map Token.lexeme = ((pieces text).filter Piece.isToken).map Piece.text)
    (hw : walk text 0 ts = .ok w) (hstop : w.stop = text.length) :
    ∀ p ∈ pieces text, p.isFault = false := by
  intro p hp
  by_cases hfault : p.isFault = true
  · have hshort := firstFault_lt (shaped_of_mem_maximalCut (maximalCut_pieces text))
      ⟨p, hp, hfault⟩ 0
    have hfar : reached (.ok w) = text.length := hstop
    rw [← reached_walk_pieces hts, hw, hfar, flatMap_text_pieces, Nat.zero_add] at hshort
    exact absurd hshort (Nat.lt_irrefl _)
  · exact Bool.eq_false_iff.2 hfault

end Pieces

/-! ## Scans -/

namespace Session

variable {s final : Session} {os : List Outcome}

/-- The loop begins its tokens where their pieces begin. -/
theorem ReadThrough.starts_tokens (h : s.ReadThrough os final) (ha : s.Ahead ps) {i : Nat}
    (hi : s.cursor.current = i) :
    os.filterMap (fun o => o.token?.map fun _ => o.span.1) =
      (offsetsOf Piece.isToken i ps).map Nat.cast := by
  refine ReadThrough.along (motive := fun s ps os _ => ∀ i : Nat, s.cursor.current = i →
    os.filterMap (fun o => o.token?.map fun _ => o.span.1) =
      (offsetsOf Piece.isToken i ps).map Nat.cast) ?_ ?_ h ha i hi
  · intro s _ i _
    rfl
  · intro s p ps os final _ hreads ih i hi
    have hspan := hreads.span
    rw [hi] at hspan
    have hrest := ih (i + p.text.length) (congrArg Prod.snd hspan)
    rw [List.filterMap_cons, offsetsOf_cons, hrest, hreads.token, hspan]
    by_cases htoken : p.isToken = true
    · rw [if_pos htoken]
      rw [← p.isSome_kind? s.source.keywords] at htoken
      obtain ⟨kind, hkind⟩ := Option.isSome_iff_exists.1 htoken
      rw [Piece.token?, hkind]
      rfl
    · rw [if_neg htoken, Piece.token?_eq_none_of_isToken (Bool.eq_false_iff.2 htoken)]
      rfl

/-- **A scan can be retraced exactly if it reports nothing.** The walk along its tokens, which knows
only about blanks, line feeds and comments, gets to the end of the text, and every lexeme is found
where the scanner began the token. Otherwise it gets no further than the first fault. -/
theorem scan_retraced (h : s.sink.Open) :
    ∃ (os : List Outcome) (final : Session) (tokens : List Token),
      s.rewound.ReadThrough os final ∧ s.scan.answer = .tokens tokens ∧
      tokens.dropLast = os.filterMap Outcome.token? ∧
      ((∃ w, retrace s.source.text tokens = .ok w ∧ w.stop = s.source.text.length) ↔
        s.scan.errors = []) ∧
      (∀ w, retrace s.source.text tokens = .ok w → w.stop = s.source.text.length →
        w.starts.map Nat.cast = os.filterMap fun o => o.token?.map fun _ => o.span.1) ∧
      reached (retrace s.source.text tokens) = firstFault 0 (pieces s.source.text) := by
  have hahead := ahead_rewound s
  obtain ⟨os, final, hloop⟩ := exists_readThrough hahead
  obtain ⟨hanswer, -⟩ := scan_eq_readThrough h hloop
  have herrors : s.scan.errors = [] ↔ ∀ p ∈ pieces s.source.text, p.isFault = false := by
    rw [← diagnosticsFrom_eq_nil_iff]
    exact Eq.congr_left (lookup_scan_of_open h)
  have hlexemes : (os.filterMap Outcome.token?).map Token.lexeme =
      ((pieces s.source.text).filter Piece.isToken).map Piece.text := by
    have hall := map_lexeme_tokensFrom s.source.keywords 1 (pieces s.source.text)
    have htokens : tokensFrom s.source.keywords 1 (pieces s.source.text) = _ := hloop.tokens hahead
    rw [htokens, List.map_append] at hall
    exact List.append_cancel_right hall
  refine ⟨os, final, _, hloop, hanswer, List.dropLast_concat, ?_⟩
  rw [retrace, List.dropLast_concat]
  refine ⟨⟨?_, ?_⟩, ?_, reached_walk_pieces hlexemes⟩
  · rintro ⟨w, hw, hstop⟩
    exact herrors.2 (no_fault_of_walk_pieces hlexemes hw hstop)
  · intro hnone
    exact ⟨_, walk_pieces_of_no_fault (herrors.1 hnone) hlexemes, rfl⟩
  · intro w hw hstop
    have hclean := no_fault_of_walk_pieces hlexemes hw hstop
    obtain rfl := Except.ok.inj ((walk_pieces_of_no_fault hclean hlexemes).symm.trans hw)
    exact (hloop.starts_tokens hahead rfl).symm

/-- A comment that holds a quote, and a string that holds a comment opener, are both walked past. In
the other text a stray character stops the walk before the lexeme that comes next. -/
theorem scan_retraced_past_comment :
    let s := start { text := ['a', '/', '/', '"', '\n', '"', '/', '/', '"', '\t', '/'] }
      (some .newCollector)
    let other := s.withText ['a', '@', 'a', '/', '/', 'a']
    s.sink.Open ∧ other.sink.Open ∧
      (∃ (tokens : List Token) (os : List Outcome) (final : Session) (w : Walk),
        s.scan.answer = .tokens tokens ∧ s.rewound.ReadThrough os final ∧
        retrace s.source.text tokens = .ok w ∧ w.stop = 11 ∧
        w.starts.map Nat.cast = os.filterMap fun o => o.token?.map fun _ => o.span.1) ∧
      ∃ tokens : List Token, other.scan.answer = .tokens tokens ∧
        (¬ ∃ w, retrace other.source.text tokens = .ok w ∧ w.stop = 6) ∧
        ∃ e, retrace other.source.text tokens = .error e ∧
          e.message = "Token(IDENTIFIER, 'a', None, 1) does not start at offset 1" := by
  intro s other
  have hopen : s.sink.Open := fun k => rfl
  have hopen' : other.sink.Open := fun k => rfl
  have hpieces : pieces s.source.text = [.word ['a'], .comment ['"'], .newline,
      .string ['/', '/'], .blank '\t', .slash] := by decide +kernel
  have hpieces' : pieces other.source.text =
      [.word ['a'], .stray '@', .word ['a'], .comment ['a']] := by decide +kernel
  refine ⟨hopen, hopen', ?_, ?_⟩
  · obtain ⟨os, final, tokens, hloop, hanswer, -, hback, hstarts, -⟩ := scan_retraced hopen
    obtain ⟨-, herrors⟩ := scan_withText hopen s.source.text
    rw [hpieces] at herrors
    obtain ⟨w, hw, hstop⟩ := hback.2 herrors
    exact ⟨tokens, os, final, w, hanswer, hloop, hw, hstop, hstarts w hw hstop⟩
  · obtain ⟨os, final, tokens, hloop, hanswer, -, hback, -, hreached⟩ := scan_retraced hopen'
    obtain ⟨hfound, herrors⟩ := scan_withText hopen' other.source.text
    rw [hpieces'] at hfound herrors
    obtain rfl := Answer.tokens.inj (hanswer.symm.trans hfound)
    refine ⟨_, hanswer, ?_, ⟨⟨.identifier, ['a'], none, 1⟩, 1⟩, by decide +kernel,
      by decide +kernel⟩
    intro hend
    have herrors' : other.scan.errors = [] := hback.1 hend
    have hfound : other.scan.errors = [_] := herrors
    rw [hfound] at herrors'
    cases herrors'

end Session

end ScriptLexer
