import ScriptLexer.Piece.Lemmas
import Mathlib.Data.List.TakeWhile

/-!
# The grammar of pieces

`Piece.next` says how a piece is found. This file says what a piece is, without saying how to look
for it, in two parts that every later argument keeps apart:

* `Piece.Shaped` is about the piece alone: how each form is written;
* `Piece.EndsBefore` is about what follows it: nothing there belongs to the piece.

A list of pieces is a `MaximalCut` if every one of them is shaped and ends before the text of those
behind it. **The cut that scanning makes is the only maximal one** (`maximalCut_iff`). So a
statement about the pieces of some text is proved by writing its pieces down and checking each
border, and no later file looks into `Piece.next` again.
-/

namespace ScriptLexer

namespace Piece

/-- How a piece is written, form by form. -/
def Shaped : Piece → Prop
  | punctuation _ | operator _ _ | slash | newline => True
  | comment body => '\n' ∉ body
  | blank c => c = ' ' ∨ c = '\t' ∨ c = '\r'
  | string body => '"' ∉ body
  | openString body => '"' ∉ body
  | number whole fraction =>
    whole ≠ [] ∧ (∀ d ∈ whole, d.isDigit = true) ∧ ∀ d ∈ fraction, d.isDigit = true
  | word w => ∃ c cs, w = c :: cs ∧ isWordStart c = true ∧ ∀ d ∈ cs, isWordChar d = true
  | stray c => CharClass.other.Holds c

/-- Nothing of the text `after` belongs to a piece that it follows. -/
def EndsBefore (after : List Char) : Piece → Prop
  | operator _ false => after.head? ≠ some '='
  | slash => after.head? ≠ some '/'
  | comment _ => ∀ d ∈ after.head?, d = '\n'
  | openString _ => after = []
  | number _ fraction =>
    (∀ d ∈ after.head?, d.isDigit = false) ∧
      (fraction = [] → ∀ d rest, after = '.' :: d :: rest → d.isDigit = false)
  | word _ => ∀ d ∈ after.head?, isWordChar d = false
  | _ => True

/-! ## Runs of characters -/

theorem takeWhile_append_stop {p : Char → Bool} {w after : List Char}
    (hw : ∀ d ∈ w, p d = true) (hstop : ∀ d ∈ after.head?, p d = false) :
    (w ++ after).takeWhile p = w := by
  rw [List.takeWhile_append_of_pos hw]
  cases after with
  | nil => simp
  | cons d rest => simp [hstop d (by simp)]

theorem dropWhile_append_stop {p : Char → Bool} {w after : List Char}
    (hw : ∀ d ∈ w, p d = true) (hstop : ∀ d ∈ after.head?, p d = false) :
    (w ++ after).dropWhile p = after := by
  rw [List.dropWhile_append_of_pos hw]
  cases after with
  | nil => simp
  | cons d rest => simp [hstop d (by simp)]

/-- What follows a run as long as it can be does not begin with one more of its characters. -/
theorem stop_of_takeWhile_append {p : Char → Bool} {text after : List Char}
    (h : text.takeWhile p ++ after = text) : ∀ d ∈ after.head?, p d = false := by
  have hafter : after = text.dropWhile p := by
    have hsplit := List.takeWhile_append_dropWhile (p := p) (l := text)
    exact List.append_cancel_left (h.trans hsplit.symm)
  intro d hd
  have hstop := List.head?_dropWhile_not p text
  rw [← hafter, Option.mem_def.1 hd] at hstop
  exact hstop

/-! ## What is found is a piece -/

theorem shaped_fractionOf (rest : List Char) : ∀ d ∈ fractionOf rest, d.isDigit = true := by
  intro d hd
  unfold fractionOf at hd
  split at hd
  · exact List.mem_takeWhile_imp hd
  · exact absurd hd (by simp)

theorem shaped_next (c : Char) (rest : List Char) : (next c rest).Shaped := by
  unfold next
  split
  · trivial
  · trivial
  · split
    · intro hmem
      have := List.mem_takeWhile_imp hmem
      simp at this
    · trivial
  · next h => exact classify_eq_iff.1 h
  · trivial
  · split
    · intro hmem
      have := List.mem_takeWhile_imp hmem
      simp at this
    · next h => simpa [Shaped] using h
  · next h =>
    refine ⟨by simp, ?_, shaped_fractionOf _⟩
    intro d hd
    rcases List.mem_cons.1 hd with rfl | hd
    · exact classify_eq_iff.1 h
    · exact List.mem_takeWhile_imp hd
  · next h => exact ⟨c, _, rfl, classify_eq_iff.1 h, fun d hd => List.mem_takeWhile_imp hd⟩
  · next h => exact classify_eq_iff.1 h

/-- A point and a digit behind it would have been taken in. -/
theorem fractionOf_eq_nil_iff {rest : List Char} :
    fractionOf rest = [] ↔ ∀ d more, rest = '.' :: d :: more → d.isDigit = false := by
  constructor
  · rintro h d more rfl
    by_cases hd : d.isDigit = true
    · simp [fractionOf, hd] at h
    · exact Bool.eq_false_iff.2 hd
  · intro h
    unfold fractionOf
    split
    · next more =>
      cases more with
      | nil => rfl
      | cons d more => simp [h d more rfl]
    · rfl

theorem endsBefore_number {whole rest after : List Char}
    (hstop : ∀ d ∈ rest.head?, d.isDigit = false)
    (h : (number whole (fractionOf rest)).text ++ after = whole ++ rest) :
    (number whole (fractionOf rest)).EndsBefore after := by
  rw [text_number, List.append_assoc] at h
  have hrest := List.append_cancel_left h
  by_cases hf : fractionOf rest = []
  · obtain rfl : after = rest := by simpa [hf] using hrest
    exact ⟨hstop, fun _ => fractionOf_eq_nil_iff.1 hf⟩
  · -- the digits behind the point run as far as they can
    obtain ⟨more, rfl⟩ : ∃ more, rest = '.' :: more := by
      unfold fractionOf at hf
      split at hf
      · exact ⟨_, rfl⟩
      · exact absurd rfl hf
    have hrun : more.takeWhile Char.isDigit ++ after = more := by
      have hne : more.takeWhile Char.isDigit ≠ [] := hf
      simpa [fractionOf, hne] using hrest
    exact ⟨stop_of_takeWhile_append hrun, fun h => absurd h hf⟩

theorem endsBefore_next {c : Char} {rest after : List Char}
    (h : (next c rest).text ++ after = c :: rest) : (next c rest).EndsBefore after := by
  unfold next at h ⊢
  split at h
  · trivial
  · next op hc =>
    obtain rfl : c = op.char := classify_eq_iff.1 hc
    cases heq : rest.head? == some '='
    · have hafter : after = rest := by simpa [heq, text] using h
      rw [hafter]
      simpa [EndsBefore] using heq
    · trivial
  · split at h
    · have hrun := (List.cons.inj (List.cons.inj h).2).2
      intro d hd
      simpa using stop_of_takeWhile_append hrun d hd
    · next hline =>
      -- the case of a comment came before this one
      have hafter : after = rest := by simpa [text] using (List.cons.inj h).2
      intro hhead
      cases rest with
      | nil => simp [hafter] at hhead
      | cons d more =>
        obtain rfl : d = '/' := by simpa [hafter] using hhead
        exact hline more rfl
  · trivial
  · trivial
  · by_cases hq : rest.contains '"' = true
    · rw [if_pos hq]
      trivial
    · rw [if_neg hq] at h ⊢
      exact List.append_right_eq_self.1 (List.cons.inj h).2
  · refine endsBefore_number (stop_of_takeWhile_append List.takeWhile_append_dropWhile) ?_
    simpa using h
  · exact stop_of_takeWhile_append (List.cons.inj h).2
  · trivial

/-! ## A piece is what is found -/

theorem text_ne_nil {p : Piece} (hs : p.Shaped) : p.text ≠ [] := by
  cases p with
  | operator op withEqual => cases withEqual <;> simp [text]
  | number whole fraction => simp [text_number, hs.1]
  | word w =>
    obtain ⟨c, cs, rfl, -⟩ := hs
    simp [text]
  | _ => simp [text]

theorem isWordChar_of_isWordStart {c : Char} (h : isWordStart c = true) : isWordChar c = true := by
  simp [isWordChar, h]

/-- The forms that leave open which characters stand inside. -/
def hasBody : Piece → Bool
  | comment _ | string _ | openString _ => true
  | _ => false

theorem classify_of_isWordChar {c : Char} (h : isWordChar c = true) :
    classify c = .digit ∨ classify c = .alpha := by
  rcases Bool.or_eq_true_iff.1 h with h | h
  · exact Or.inl (classify_of_isDigit h)
  · exact Or.inr (classify_of_isWordStart h)

/-- A character that stands in no body is a blank or a stray character by itself, or a character of
the alphabet that can be seen. -/
theorem classify_of_mem_text {p : Piece} {c : Char} (hs : p.Shaped) (hp : p.hasBody = false)
    (hc : c ∈ p.text) :
    p = blank c ∨ p = stray c ∨ classify c ≠ .other ∧ classify c ≠ .whitespace := by
  have hdigit : c.isDigit = true → classify c ≠ .other ∧ classify c ≠ .whitespace := by
    intro h
    rw [classify_of_isDigit h]
    exact ⟨by simp, by simp⟩
  have hword : isWordChar c = true → classify c ≠ .other ∧ classify c ≠ .whitespace := by
    intro h
    rcases classify_of_isWordChar h with h | h <;> rw [h] <;> exact ⟨by simp, by simp⟩
  cases p with
  | punctuation mark =>
    obtain rfl := List.mem_singleton.1 hc
    rw [show classify mark.char = .punctuation mark from classify_eq_iff.2 rfl]
    exact Or.inr (Or.inr ⟨by simp, by simp⟩)
  | operator op withEqual =>
    have hop : c = op.char ∨ c = Operator.equal.char := by
      cases withEqual with
      | false => exact Or.inl (List.mem_singleton.1 hc)
      | true => simpa [text, Operator.char] using hc
    rcases hop with rfl | rfl <;> rw [show classify _ = .operator _ from classify_eq_iff.2 rfl] <;>
      exact Or.inr (Or.inr ⟨by simp, by simp⟩)
  | slash =>
    obtain rfl := List.mem_singleton.1 hc
    exact Or.inr (Or.inr ⟨by decide, by decide⟩)
  | newline =>
    obtain rfl := List.mem_singleton.1 hc
    exact Or.inr (Or.inr ⟨by decide, by decide⟩)
  | blank b => exact Or.inl (congrArg blank (List.mem_singleton.1 hc).symm)
  | stray b => exact Or.inr (Or.inl (congrArg stray (List.mem_singleton.1 hc).symm))
  | number whole fraction =>
    obtain ⟨-, hwhole, hfraction⟩ := hs
    rw [text_number] at hc
    refine Or.inr (Or.inr ?_)
    rcases List.mem_append.1 hc with hc | hc
    · exact hdigit (hwhole c hc)
    · split at hc
      · cases hc
      · -- with a fraction there is a point as well
        rcases List.mem_cons.1 hc with rfl | hc
        · exact ⟨by decide, by decide⟩
        · exact hdigit (hfraction c hc)
  | word w =>
    obtain ⟨b, cs, rfl, hstart, hcs⟩ := hs
    refine Or.inr (Or.inr (hword ?_))
    rcases List.mem_cons.1 hc with rfl | hc
    · exact isWordChar_of_isWordStart hstart
    · exact hcs c hc
  | _ => cases hp

theorem next_number {whole fraction after : List Char} {c : Char} {rest : List Char}
    (hs : (number whole fraction).Shaped) (he : (number whole fraction).EndsBefore after)
    (h : (number whole fraction).text ++ after = c :: rest) :
    next c rest = number whole fraction := by
  obtain ⟨hne, hwhole, hfraction⟩ := hs
  obtain ⟨hstop, hpoint⟩ := he
  obtain ⟨d, ds, rfl⟩ := List.exists_cons_of_ne_nil hne
  rw [text_number, List.append_assoc, List.cons_append] at h
  obtain ⟨rfl, hrest⟩ := List.cons.inj h
  have hds : ∀ x ∈ ds, x.isDigit = true := fun x hx => hwhole x (List.mem_cons_of_mem _ hx)
  -- the first run of digits stops at the point or at the end of the number
  have hstop' : ∀ x ∈ ((if fraction.isEmpty then [] else '.' :: fraction) ++ after).head?,
      x.isDigit = false := by
    cases fraction with
    | nil => simpa using hstop
    | cons e es =>
      intro x hx
      obtain rfl : '.' = x := by simpa using hx
      rfl
  have hfrac : fractionOf ((if fraction.isEmpty then [] else '.' :: fraction) ++ after) =
      fraction := by
    cases fraction with
    | nil => exact fractionOf_eq_nil_iff.2 (hpoint rfl)
    | cons e es => exact takeWhile_append_stop hfraction hstop
  unfold next
  rw [classify_of_isDigit (hwhole d (by simp)), ← hrest]
  simp only
  rw [takeWhile_append_stop hds hstop', dropWhile_append_stop hds hstop', hfrac]

/-- A piece is found where it stands. -/
theorem next_eq_of_shaped {p : Piece} {after : List Char} {c : Char} {rest : List Char}
    (hs : p.Shaped) (he : p.EndsBefore after) (h : p.text ++ after = c :: rest) :
    next c rest = p := by
  cases p with
  | number whole fraction => exact next_number hs he h
  | punctuation mark =>
    obtain ⟨rfl, rfl⟩ := List.cons.inj h
    cases mark <;> rfl
  | operator op withEqual =>
    cases withEqual with
    | true =>
      obtain ⟨rfl, rfl⟩ := List.cons.inj h
      cases op <;> rfl
    | false =>
      obtain ⟨rfl, rfl⟩ := List.cons.inj h
      -- what follows the piece decides whether it goes on
      have hhead : (after.head? == some '=') = false := by simpa [EndsBefore] using he
      cases op <;> simp [next, classify, Operator.char, hhead]
  | slash =>
    rw [text, List.singleton_append] at h
    obtain ⟨rfl, rfl⟩ := List.cons.inj h
    simp only [next, classify]
    -- the first case is that of a comment, which a second slash would make of it
    split
    · exact absurd rfl he
    · rfl
  | comment body =>
    obtain ⟨rfl, rfl⟩ := List.cons.inj h
    -- no newline is in the body and one follows, so the run is the body
    have hrun : (body ++ after).takeWhile (· != '\n') = body := by
      refine takeWhile_append_stop (fun d hd => ?_) (fun d hd => by simpa using he d hd)
      have hne : d ≠ '\n' := fun heq => hs (heq ▸ hd)
      simpa using hne
    simp [next, classify, hrun]
  | blank b =>
    obtain ⟨rfl, rfl⟩ := List.cons.inj h
    have hclass : classify b = .whitespace := classify_eq_iff.2 hs
    simp [next, hclass]
  | newline =>
    obtain ⟨rfl, rfl⟩ := List.cons.inj h
    rfl
  | string body =>
    rw [text, List.append_assoc, List.cons_append] at h
    obtain ⟨rfl, hrest⟩ := List.cons.inj h
    -- the quote that closes the piece is the first one behind that which opens it
    have hrun : rest.takeWhile (· != '"') = body := by
      rw [← hrest]
      refine takeWhile_append_stop (fun d hd => ?_) (fun d hd => ?_)
      · have hne : d ≠ '"' := fun heq => hs (heq ▸ hd)
        simpa using hne
      · obtain rfl : '"' = d := by simpa using hd
        rfl
    have hquote : rest.contains '"' = true := by simp [← hrest]
    simp only [next, classify, hrun, if_pos hquote]
  | openString body =>
    -- nothing follows, and the rest has no quote
    obtain rfl : after = [] := he
    rw [List.append_nil] at h
    obtain ⟨rfl, rfl⟩ := List.cons.inj h
    have hquote : ¬ body.contains '"' = true := by simpa [Shaped] using hs
    simp only [next, classify, if_neg hquote]
  | word w =>
    obtain ⟨b, cs, rfl, hstart, hcs⟩ := hs
    obtain ⟨rfl, rfl⟩ := List.cons.inj h
    simp [next, classify_of_isWordStart hstart, takeWhile_append_stop hcs he]
  | stray b =>
    obtain ⟨rfl, rfl⟩ := List.cons.inj h
    have hclass : classify b = .other := classify_eq_iff.2 hs
    simp [next, hclass]

end Piece

/-! ## The cut -/

/-- Every piece is shaped and ends before the text of those behind it. -/
def MaximalCut : List Piece → Prop
  | [] => True
  | p :: ps => p.Shaped ∧ p.EndsBefore (ps.flatMap Piece.text) ∧ MaximalCut ps

theorem shaped_of_mem_maximalCut {ps : List Piece} (h : MaximalCut ps) : ∀ p ∈ ps, p.Shaped := by
  induction ps with
  | nil =>
    intro p hp
    cases hp
  | cons q ps ih =>
    obtain ⟨hq, -, hps⟩ := h
    intro p hp
    rcases List.mem_cons.1 hp with rfl | hp
    · exact hq
    · exact ih hps p hp

theorem pieces_nil : pieces [] = [] := by rw [pieces]

theorem pieces_text_append {p : Piece} {after : List Char} (hs : p.Shaped)
    (he : p.EndsBefore after) : pieces (p.text ++ after) = p :: pieces after := by
  obtain ⟨c, more, htext⟩ := List.exists_cons_of_ne_nil (Piece.text_ne_nil hs)
  have hnext : Piece.next c (more ++ after) = p :=
    Piece.next_eq_of_shaped hs he (by rw [htext, List.cons_append])
  rw [htext, List.cons_append, pieces]
  simp [hnext, htext]

theorem pieces_of_maximalCut {ps : List Piece} (h : MaximalCut ps) :
    pieces (ps.flatMap Piece.text) = ps := by
  induction ps with
  | nil => exact pieces_nil
  | cons p ps ih =>
    obtain ⟨hs, he, hps⟩ := h
    rw [List.flatMap_cons, pieces_text_append hs he, ih hps]

/-- No piece comes behind an open string. -/
theorem eq_nil_of_endsBefore_openString {body : List Char} {ps : List Piece}
    (he : (Piece.openString body).EndsBefore (ps.flatMap Piece.text)) (h : MaximalCut ps) :
    ps = [] := by
  have hnil : ps.flatMap Piece.text = [] := he
  rw [← pieces_of_maximalCut h, hnil, pieces_nil]

theorem maximalCut_pieces (s : List Char) : MaximalCut (pieces s) := by
  fun_induction pieces s with
  | case1 => trivial
  | case2 c rest piece ih =>
    refine ⟨Piece.shaped_next c rest, ?_, ih⟩
    rw [flatMap_text_pieces]
    exact Piece.endsBefore_next (Piece.text_next_append c rest)

/-- **The pieces of a text are its only maximal cut.** -/
theorem maximalCut_iff {s : List Char} {ps : List Piece} :
    ps.flatMap Piece.text = s ∧ MaximalCut ps ↔ ps = pieces s := by
  constructor
  · rintro ⟨rfl, h⟩
    exact (pieces_of_maximalCut h).symm
  · rintro rfl
    exact ⟨flatMap_text_pieces s, maximalCut_pieces s⟩

end ScriptLexer
