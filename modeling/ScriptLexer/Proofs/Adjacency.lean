import ScriptLexer.Proofs.Rescan
import ScriptLexer.Proofs.WholeScan
import Mathlib.Data.List.Flatten

/-!
# Lexemes without gaps

Lexemes may be written down directly one behind the other as long as none of them goes on into the
next. There are five ways in which that happens (`Joins`, `Clash`). Four are about two neighbours.
The fifth needs three: a number takes in a point only if a digit comes behind it.

**Lexemes come back from their plain concatenation exactly if there is no clash**
(`Lexeme.pieces_flatMap_text_iff`, `Lexeme.pieces_eq_of_map_lexeme`). That a clash changes what
comes back is shown without following the scan any further. Lexemes that come back fill the whole
text, so there is no room for a comment or a fault, and the pieces would be a maximal cut with a
piece in it that ends too early.
-/

namespace ScriptLexer

namespace Piece

/-- The first piece goes on into the second. -/
inductive Joins : Piece → Piece → Prop where
  | word_word (w v : List Char) : Joins (word w) (word v)
  | word_number (w whole fraction : List Char) : Joins (word w) (number whole fraction)
  | number_number (whole fraction whole' fraction' : List Char) :
      Joins (number whole fraction) (number whole' fraction')
  | operator_equal (op : Operator) {q : Piece} : q.text.head? = some '=' →
      Joins (operator op false) q
  | slash_slash : Joins slash slash

/-- Somewhere in the list a piece goes on into those behind it. -/
inductive Clash : List Piece → Prop where
  | joins {p q : Piece} (ps : List Piece) : Joins p q → Clash (p :: q :: ps)
  | point (whole whole' fraction : List Char) (ps : List Piece) :
      Clash (number whole [] :: punctuation .dot :: number whole' fraction :: ps)
  | later (p : Piece) {ps : List Piece} : Clash ps → Clash (p :: ps)

/-! ## First characters -/

/-- The class of the first character of a piece. -/
def classOf : Piece → CharClass
  | punctuation mark => .punctuation mark
  | operator op _ => .operator op
  | slash | comment _ => .slash
  | blank _ => .whitespace
  | newline => .newline
  | string _ | openString _ => .quote
  | number _ _ => .digit
  | word _ => .alpha
  | stray _ => .other

theorem classify_of_head?_text {p : Piece} {c : Char} (hs : p.Shaped)
    (h : p.text.head? = some c) : classify c = p.classOf := by
  rw [classify_eq_iff]
  cases p with
  | operator op withEqual => cases withEqual <;> exact (Option.some.inj h).symm
  | blank b =>
    obtain rfl : b = c := Option.some.inj h
    exact hs
  | number whole fraction =>
    obtain ⟨hne, hwhole, -⟩ := hs
    obtain ⟨d, ds, rfl⟩ := List.exists_cons_of_ne_nil hne
    rw [text_number] at h
    obtain rfl : d = c := Option.some.inj h
    exact hwhole d (by simp)
  | word w =>
    obtain ⟨b, cs, rfl, hstart, -⟩ := hs
    obtain rfl : b = c := Option.some.inj h
    exact hstart
  | stray b =>
    obtain rfl : b = c := Option.some.inj h
    exact hs
  | _ => exact (Option.some.inj h).symm

/-- What a text of pieces begins with, its first piece begins with. -/
theorem exists_cons_of_head?_flatMap {ps : List Piece} {c : Char} (hps : ∀ p ∈ ps, p.Shaped)
    (h : (ps.flatMap text).head? = some c) :
    ∃ p qs, ps = p :: qs ∧ p.text.head? = some c ∧ classify c = p.classOf := by
  cases ps with
  | nil => cases h
  | cons p qs =>
    have hs := hps p (by simp)
    obtain ⟨d, more, htext⟩ := List.exists_cons_of_ne_nil (text_ne_nil hs)
    have hhead : p.text.head? = some c := by
      rw [List.flatMap_cons, htext] at h
      rw [htext]
      exact h
    exact ⟨p, qs, rfl, hhead, classify_of_head?_text hs hhead⟩

/-- A text of pieces begins with a digit only if the first piece is a number. -/
theorem exists_number_cons {ps : List Piece} {d : Char} (hps : ∀ p ∈ ps, p.Shaped)
    (h : (ps.flatMap text).head? = some d) (hd : d.isDigit = true) :
    ∃ whole fraction qs, ps = number whole fraction :: qs := by
  obtain ⟨q, qs, rfl, -, hclass⟩ := exists_cons_of_head?_flatMap hps h
  rw [classify_of_isDigit hd] at hclass
  cases q with
  | number whole fraction => exact ⟨whole, fraction, qs, rfl⟩
  | _ => cases hclass

theorem exists_word_cons {ps : List Piece} {c : Char} (hps : ∀ p ∈ ps, p.Shaped)
    (h : (ps.flatMap text).head? = some c) (hc : isWordStart c = true) :
    ∃ w qs, ps = word w :: qs := by
  obtain ⟨q, qs, rfl, -, hclass⟩ := exists_cons_of_head?_flatMap hps h
  rw [classify_of_isWordStart hc] at hclass
  cases q with
  | word w => exact ⟨w, qs, rfl⟩
  | _ => cases hclass

/-! ## Clashes are what breaks a cut -/

/-- **A piece that goes on into the next one does not end before it.** -/
theorem not_endsBefore_of_joins {p q : Piece} (h : Joins p q) (hq : q.Shaped)
    (after : List Char) : ¬ p.EndsBefore (q.text ++ after) := by
  obtain ⟨c, more, htext⟩ := List.exists_cons_of_ne_nil (text_ne_nil hq)
  have hclass : classify c = q.classOf := classify_of_head?_text hq (by rw [htext]; rfl)
  rw [htext]
  intro he
  cases h with
  | word_word w v =>
    have hstop : isWordChar c = false := he c rfl
    rw [isWordChar_of_isWordStart (classify_eq_iff.1 hclass)] at hstop
    cases hstop
  | word_number w whole fraction =>
    have hstop : isWordChar c = false := he c rfl
    have hdigit : c.isDigit = true := classify_eq_iff.1 hclass
    rw [isWordChar, hdigit] at hstop
    cases hstop
  | number_number whole fraction whole' fraction' =>
    have hstop : c.isDigit = false := he.1 c rfl
    rw [show c.isDigit = true from classify_eq_iff.1 hclass] at hstop
    cases hstop
  | operator_equal op hequal =>
    rw [htext] at hequal
    exact he hequal
  | slash_slash =>
    obtain rfl : c = '/' := classify_eq_iff.1 hclass
    exact he rfl

theorem not_maximalCut_of_clash {ps : List Piece} (h : Clash ps) : ¬ MaximalCut ps := by
  induction h with
  | joins ps hjoins =>
    rintro ⟨-, he, hq, -⟩
    rw [List.flatMap_cons] at he
    exact not_endsBefore_of_joins hjoins hq _ he
  | point whole whole' fraction ps =>
    rintro ⟨-, ⟨-, hpoint⟩, -, -, ⟨hne, hwhole, -⟩, -⟩
    obtain ⟨d, ds, rfl⟩ := List.exists_cons_of_ne_nil hne
    -- the first digit behind the point would have been taken in with it
    rw [List.flatMap_cons, List.flatMap_cons, text_number] at hpoint
    have hd : d.isDigit = false := hpoint rfl d _ rfl
    rw [hwhole d (by simp)] at hd
    cases hd
  | later p _ ih =>
    rintro ⟨-, -, hps⟩
    exact ih hps

/-- **A piece without a clash ends where the next one begins.** -/
theorem endsBefore_of_not_clash {p : Piece} {ps : List Piece} (hp : p.isToken = true)
    (hps : ∀ q ∈ ps, q.Shaped ∧ q.isToken = true) (h : ¬ Clash (p :: ps)) :
    p.EndsBefore (ps.flatMap text) := by
  have hshaped : ∀ q ∈ ps, q.Shaped := fun q hq => (hps q hq).1
  cases p with
  | operator op withEqual =>
    cases withEqual with
    | true => trivial
    | false =>
      intro heq
      obtain ⟨q, qs, rfl, hhead, -⟩ := exists_cons_of_head?_flatMap hshaped heq
      exact h (.joins qs (.operator_equal op hhead))
  | slash =>
    intro heq
    obtain ⟨q, qs, rfl, -, hclass⟩ := exists_cons_of_head?_flatMap hshaped heq
    have htoken := (hps q (by simp)).2
    cases q with
    | slash => exact h (.joins qs .slash_slash)
    | comment body => cases htoken
    | _ => cases hclass
  | number whole fraction =>
    refine ⟨?_, ?_⟩
    · intro d hd
      by_cases hdigit : d.isDigit = true
      · obtain ⟨whole', fraction', qs, rfl⟩ := exists_number_cons hshaped hd hdigit
        exact absurd (.joins qs (.number_number _ _ _ _)) h
      · exact Bool.eq_false_iff.2 hdigit
    · rintro rfl d rest heq
      by_cases hdigit : d.isDigit = true
      · -- the point is a lexeme, and the digit begins the one behind it
        obtain ⟨q, qs, rfl, -, hclass⟩ :=
          exists_cons_of_head?_flatMap hshaped (congrArg List.head? heq)
        cases q with
        | punctuation mark =>
          obtain rfl : .dot = mark := CharClass.punctuation.inj hclass
          have hrest : (qs.flatMap text).head? = some d := congrArg List.head? (List.cons.inj heq).2
          obtain ⟨whole', fraction', rs, rfl⟩ := exists_number_cons
            (fun r hr => hshaped r (List.mem_cons_of_mem _ hr)) hrest hdigit
          exact absurd (.point whole whole' fraction' rs) h
        | _ => cases hclass
      · exact Bool.eq_false_iff.2 hdigit
  | word w =>
    intro d hd
    by_cases hdigit : d.isDigit = true
    · obtain ⟨whole, fraction, qs, rfl⟩ := exists_number_cons hshaped hd hdigit
      exact absurd (.joins qs (.word_number _ _ _)) h
    · by_cases hstart : isWordStart d = true
      · obtain ⟨v, qs, rfl⟩ := exists_word_cons hshaped hd hstart
        exact absurd (.joins qs (.word_word _ _)) h
      · exact Bool.or_eq_false_iff.2
          ⟨Bool.eq_false_iff.2 hdigit, Bool.eq_false_iff.2 hstart⟩
  | comment body => cases hp
  | openString body => cases hp
  | _ => trivial

theorem maximalCut_iff_not_clash {ps : List Piece}
    (hps : ∀ p ∈ ps, p.Shaped ∧ p.isToken = true) : MaximalCut ps ↔ ¬ Clash ps := by
  constructor
  · intro hcut hclash
    exact not_maximalCut_of_clash hclash hcut
  · intro h
    induction ps with
    | nil => trivial
    | cons p ps ih =>
      have hrest : ∀ q ∈ ps, q.Shaped ∧ q.isToken = true := fun q hq =>
        hps q (List.mem_cons_of_mem p hq)
      obtain ⟨hs, htoken⟩ := hps p (by simp)
      exact ⟨hs, endsBefore_of_not_clash htoken hrest h, ih hrest fun hlater => h (.later p hlater)⟩

/-! ## What comes back -/

theorem endsBefore_nil (p : Piece) : p.EndsBefore [] := by
  cases p with
  | operator op withEqual => cases withEqual <;> simp [EndsBefore]
  | _ => simp [EndsBefore]

/-- A piece is known by its text. -/
theorem eq_of_text_eq {p q : Piece} (hp : p.Shaped) (hq : q.Shaped) (h : p.text = q.text) :
    p = q := by
  obtain ⟨c, rest, htext⟩ := List.exists_cons_of_ne_nil (text_ne_nil hp)
  have hnextp := next_eq_of_shaped hp p.endsBefore_nil ((List.append_nil _).trans htext)
  have hnextq := next_eq_of_shaped hq q.endsBefore_nil
    ((List.append_nil _).trans (h.symm.trans htext))
  exact hnextp.symm.trans hnextq

theorem eq_of_map_text_eq {ps qs : List Piece} (hps : ∀ p ∈ ps, p.Shaped)
    (hqs : ∀ q ∈ qs, q.Shaped) (h : ps.map text = qs.map text) : ps = qs := by
  induction ps generalizing qs with
  | nil => exact (List.map_eq_nil_iff.1 h.symm).symm
  | cons p ps ih =>
    cases qs with
    | nil => cases h
    | cons q qs =>
      obtain ⟨hhead, htail⟩ := List.cons.inj h
      have hpq := eq_of_text_eq (hps p (by simp)) (hqs q (by simp)) hhead
      have hrest := ih (fun r hr => hps r (List.mem_cons_of_mem _ hr))
        (fun r hr => hqs r (List.mem_cons_of_mem _ hr)) htail
      rw [hpq, hrest]

/-- If the pieces that give tokens fill the text, there are no others. -/
theorem filter_isToken_eq_self {ps : List Piece} (hps : ∀ p ∈ ps, p.Shaped)
    (h : (ps.flatMap text).length ≤ ((ps.filter isToken).flatMap text).length) :
    ps.filter isToken = ps := by
  induction ps with
  | nil => rfl
  | cons p ps ih =>
    have hrest : ∀ q ∈ ps, q.Shaped := fun q hq => hps q (List.mem_cons_of_mem p hq)
    have hpos := List.length_pos_iff.2 (text_ne_nil (hps p (by simp)))
    have hle : ((ps.filter isToken).flatMap text).length ≤ (ps.flatMap text).length :=
      (List.filter_sublist.flatMap text).length_le
    by_cases htoken : p.isToken = true
    · rw [List.filter_cons_of_pos htoken] at h ⊢
      rw [List.flatMap_cons, List.flatMap_cons, List.length_append, List.length_append] at h
      rw [ih hrest (by omega)]
    · rw [List.filter_cons_of_neg htoken, List.flatMap_cons, List.length_append] at h
      omega

end Piece

theorem map_lexeme_tokensFrom (keywords : Keywords) (line : Int) (ps : List Piece) :
    (tokensFrom keywords line ps).map Token.lexeme =
      (ps.filter Piece.isToken).map Piece.text ++ [[]] := by
  induction ps generalizing line with
  | nil => rfl
  | cons p ps ih =>
    rw [tokensFrom, List.map_append, ih]
    by_cases htoken : p.isToken = true
    · obtain ⟨kind, hkind⟩ := Option.isSome_iff_exists.1 ((p.isSome_kind? keywords).trans htoken)
      rw [List.filter_cons_of_pos htoken, Piece.token?, hkind]
      rfl
    · rw [List.filter_cons_of_neg htoken,
        Piece.token?_eq_none_of_isToken (Bool.eq_false_iff.2 htoken)]
      rfl

namespace Lexeme

theorem map_text_piece (xs : List Lexeme) :
    (xs.map piece).map Piece.text = xs.map text := List.map_map

theorem flatMap_text_piece (xs : List Lexeme) :
    (xs.map piece).flatMap Piece.text = xs.flatMap text := List.flatMap_map _ _ _

theorem shaped_isToken_of_mem {xs : List Lexeme} {p : Piece} (h : p ∈ xs.map piece) :
    p.Shaped ∧ p.isToken = true := by
  obtain ⟨x, -, rfl⟩ := List.mem_map.1 h
  exact ⟨x.shaped, x.isToken⟩

/-- **Lexemes are the pieces of their concatenation exactly if there is no clash.** -/
theorem pieces_flatMap_text_iff {xs : List Lexeme} :
    pieces (xs.flatMap text) = xs.map piece ↔ ¬ Piece.Clash (xs.map piece) := by
  rw [← Piece.maximalCut_iff_not_clash fun p hp => shaped_isToken_of_mem hp]
  constructor
  · intro h
    have hcut := maximalCut_pieces (xs.flatMap text)
    rwa [h] at hcut
  · intro h
    have hpieces := pieces_of_maximalCut h
    rwa [flatMap_text_piece] at hpieces

/-- Lexemes that come back from their concatenation are its pieces. -/
theorem pieces_eq_of_map_lexeme {xs : List Lexeme} {keywords : Keywords} {line : Int}
    (h : (tokensFrom keywords line (pieces (xs.flatMap text))).map Token.lexeme =
      xs.map text ++ [[]]) : pieces (xs.flatMap text) = xs.map piece := by
  have hshaped := shaped_of_mem_maximalCut (maximalCut_pieces (xs.flatMap text))
  rw [map_lexeme_tokensFrom] at h
  have htexts := List.append_cancel_right h
  -- the texts of the tokens are all of the text
  have hlength : ((pieces (xs.flatMap text)).flatMap Piece.text).length ≤
      (((pieces (xs.flatMap text)).filter Piece.isToken).flatMap Piece.text).length := by
    have hfill : ((pieces (xs.flatMap text)).filter Piece.isToken).flatMap Piece.text =
        xs.flatMap text := by
      rw [List.flatMap_def, htexts, ← List.flatMap_def]
    rw [flatMap_text_pieces, hfill]
  rw [Piece.filter_isToken_eq_self hshaped hlength, ← map_text_piece] at htexts
  exact Piece.eq_of_map_text_eq hshaped (fun p hp => (shaped_isToken_of_mem hp).1) htexts

/-- The tokens that lexemes denote when they stand directly one behind the other. -/
def tokens (keywords : Keywords) (xs : List Lexeme) : List Token :=
  Spaced.tokensBehind keywords [] (xs.map fun x => (x, []))

theorem tokensFrom_map_piece (keywords : Keywords) (xs : List Lexeme) :
    tokensFrom keywords 1 (xs.map piece) = tokens keywords xs := by
  have hitems : Spaced.itemsPieces (xs.map fun x => (x, [])) = xs.map piece := by
    rw [Spaced.itemsPieces, List.flatMap_map]
    exact List.map_eq_flatMap.symm
  have htokens := Spaced.tokensFrom_itemsPieces keywords [] (xs.map fun x => (x, []))
  rw [hitems] at htokens
  exact htokens

theorem map_lexeme_tokens (keywords : Keywords) (xs : List Lexeme) :
    (tokens keywords xs).map Token.lexeme = xs.map text ++ [[]] := by
  have hall : (xs.map piece).filter Piece.isToken = xs.map piece :=
    List.filter_eq_self.2 fun p hp => (shaped_isToken_of_mem hp).2
  rw [← tokensFrom_map_piece, map_lexeme_tokensFrom, hall, map_text_piece]

end Lexeme

namespace Session

variable {s : Session}

/-- If a scan answers with tokens, they are those of the source. -/
theorem tokens_eq_of_scan {ts : List Token} (h : s.scan.answer = .tokens ts) :
    ts = s.source.scan.tokens := by
  simp only [scan] at h
  split at h
  · exact (Answer.tokens.inj h).symm
  · cases h

/-- Lexemes without a clash are scanned back as what they denote. -/
theorem scan_flatMap_text (s : Session) {xs : List Lexeme}
    (h : ¬ Piece.Clash (xs.map Lexeme.piece)) :
    let written := s.withText (xs.flatMap Lexeme.text)
    written.scan.answer = .tokens (Lexeme.tokens s.source.keywords xs) ∧
      written.scan.errors = [] := by
  intro written
  have hpieces := Lexeme.pieces_flatMap_text_iff.2 h
  have hfaults : written.source.scan.diagnostics = [] := by
    simp only [written, withText, Source.scan, hpieces]
    refine Spaced.diagnosticsFrom_eq_nil ?_
    intro p hp line
    obtain ⟨x, -, rfl⟩ := List.mem_map.1 hp
    exact x.fault?_piece _ line
  obtain ⟨hanswer, hsession⟩ := scan_of_no_faults hfaults
  constructor
  · rw [hanswer, ← Lexeme.tokensFrom_map_piece, ← hpieces]
    rfl
  · rw [Outcome.errors, hsession]
    rfl

/-- **When lexemes can do without gaps.** Written one behind the other they come back, as lexemes
or as the tokens that they denote, exactly if there is no clash. -/
theorem scan_flatMap_text_iff (s : Session) (xs : List Lexeme) :
    let written := s.withText (xs.flatMap Lexeme.text)
    ((∃ ts, written.scan.answer = .tokens ts ∧
        ts.map Token.lexeme = xs.map Lexeme.text ++ [[]] ∧ written.scan.errors = []) ↔
      ¬ Piece.Clash (xs.map Lexeme.piece)) ∧
    (written.scan.answer = .tokens (Lexeme.tokens s.source.keywords xs) ∧
        written.scan.errors = [] ↔
      ¬ Piece.Clash (xs.map Lexeme.piece)) := by
  intro written
  have hback : ¬ Piece.Clash (xs.map Lexeme.piece) →
      written.scan.answer = .tokens (Lexeme.tokens s.source.keywords xs) ∧
        written.scan.errors = [] := scan_flatMap_text s
  have hclash : ∀ ts, written.scan.answer = .tokens ts →
      ts.map Token.lexeme = xs.map Lexeme.text ++ [[]] →
      ¬ Piece.Clash (xs.map Lexeme.piece) := by
    intro ts hanswer hts
    obtain rfl := tokens_eq_of_scan hanswer
    exact Lexeme.pieces_flatMap_text_iff.1 (Lexeme.pieces_eq_of_map_lexeme hts)
  have hlexemes := Lexeme.map_lexeme_tokens s.source.keywords xs
  refine ⟨⟨?_, ?_⟩, ⟨?_, hback⟩⟩
  · rintro ⟨ts, hanswer, hts, -⟩
    exact hclash ts hanswer hts
  · intro h
    obtain ⟨hanswer, herrors⟩ := hback h
    exact ⟨_, hanswer, hlexemes, herrors⟩
  · rintro ⟨hanswer, -⟩
    exact hclash _ hanswer hlexemes

/-- Points between digits. In `1.2` the number takes in the point, and three lexemes come back as
one. In `1.5.2` it has a point already, so the second one stays a lexeme. -/
theorem scan_flatMap_text_iff_of_points :
    let s := start { text := [] } (some .newCollector)
    (¬ ∃ ts, (s.withText ['1', '.', '2']).scan.answer = .tokens ts ∧
      ts.map Token.lexeme = [['1'], ['.'], ['2'], []] ∧
      (s.withText ['1', '.', '2']).scan.errors = []) ∧
    ∃ ts, (s.withText ['1', '.', '5', '.', '2']).scan.answer = .tokens ts ∧
      ts.map Token.lexeme = [['1', '.', '5'], ['.'], ['2'], []] ∧
      (s.withText ['1', '.', '5', '.', '2']).scan.errors = [] := by
  intro s
  let one : Lexeme := ⟨.number ['1'] [], by simp [Piece.Shaped], rfl⟩
  let oneAndHalf : Lexeme := ⟨.number ['1'] ['5'], by simp [Piece.Shaped], rfl⟩
  let dot : Lexeme := ⟨.punctuation .dot, trivial, rfl⟩
  let two : Lexeme := ⟨.number ['2'] [], by simp [Piece.Shaped], rfl⟩
  have hclash : Piece.Clash ([one, dot, two].map Lexeme.piece) := .point ['1'] ['2'] [] []
  have hpieces : pieces ['1', '.', '5', '.', '2'] =
      [.number ['1'] ['5'], .punctuation .dot, .number ['2'] []] := by decide +kernel
  constructor
  · intro hback
    exact (scan_flatMap_text_iff s [one, dot, two]).1.1 hback hclash
  · refine (scan_flatMap_text_iff s [oneAndHalf, dot, two]).1.2 ?_
    exact Lexeme.pieces_flatMap_text_iff.1 hpieces

end Session

end ScriptLexer
