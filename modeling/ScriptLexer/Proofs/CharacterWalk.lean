import ScriptLexer.Proofs.NumberLiterals
import ScriptLexer.Proofs.ReadThrough

/-!
# Walking over a piece

`Source.read?` takes a piece from the text that lies ahead of a position. This file does the same
with nothing but single characters: a walk looks one character up at a time, at integer positions,
and fails as soon as it looks up a position outside the source. What stands behind the end is taken
for a NUL, which is also a character that a text may hold, so some loops have to test for the end as
well.

**The two agree at every cursor** (`Session.scanToken_eq_walkToken`). That is more than an equality
of results: as the walk fails with any of its look-ups, none of them ever leaves the source once the
first has succeeded (`Source.walk?_eq_none_iff`).

What makes it work is `Source.Sees`: from a position on, the cursor meets the characters of a list
and then the end. A negative position meets the tail of the text and then all of it.
-/

namespace ScriptLexer

/-! ## Single characters -/

/-- A loop of a walk. -/
structure Loop where
  /-- The characters that it passes over. -/
  goesOn : Char → Bool
  /-- Whether it looks out for the end of the text. -/
  testsEnd : Bool
  /-- Whether it counts the line feeds that it passes over. -/
  countsLines : Bool

namespace Loop

/-- Over digits. -/
def digits : Loop := ⟨Char.isDigit, false, false⟩

/-- Over the rest of a word. -/
def word : Loop := ⟨isWordChar, false, false⟩

/-- Over a comment, up to the line feed or the end of the text. -/
def comment : Loop := ⟨(· != '\n'), true, false⟩

/-- Over the inside of a string, up to the quote or the end of the text. -/
def string : Loop := ⟨(· != '"'), true, true⟩

end Loop

namespace Source

/-- The character at a position, none outside the source. -/
def charAt? (source : Source) (i : Int) : Option Char :=
  (Text.index? source.text.length i).bind (source.text[·]?)

/-- No character is left. -/
def atEnd (source : Source) (i : Int) : Bool := source.text.length ≤ i

/-- The character at a position, and a NUL behind the end. -/
def peek? (source : Source) (i : Int) : Option Char :=
  if source.atEnd i then some '\x00' else source.charAt? i

/-- Whether the text goes on with `expected`. -/
def meets? (source : Source) (expected : Char) (i : Int) : Option Bool :=
  if source.atEnd i then some false else (source.charAt? i).map (· == expected)

theorem lt_length_of_charAt? {source : Source} {i : Int} {c : Char}
    (h : source.charAt? i = some c) : i < source.text.length := by
  obtain ⟨k, hk, -⟩ := Option.bind_eq_some_iff.1 h
  rw [Text.index?] at hk
  split at hk
  · omega
  · split at hk
    · omega
    · cases hk

/-- The position and the line at which a loop stops. -/
def follow? (source : Source) (loop : Loop) (i line : Int) : Option (Int × Int) :=
  match source.peek? i with
  | none => none
  | some seen =>
    if loop.goesOn seen && !(loop.testsEnd && source.atEnd i) then
      match h : source.charAt? i with
      | none => none
      | some _ =>
        source.follow? loop (i + 1) (if loop.countsLines && seen == '\n' then line + 1 else line)
    else some (i, line)
termination_by (source.text.length - i).toNat
decreasing_by
  have := lt_length_of_charAt? h
  omega

/-- Whether the text goes on with a point and a digit. -/
def meetsFraction? (source : Source) (i : Int) : Option Bool := do
  if (← source.peek? i) == '.' then return (← source.peek? (i + 1)).isDigit
  else return false

/-- Where a number ends whose first digit stands before `i`, with `run` for the loops. -/
def numberEndBy? (source : Source) (run : Loop → Int → Int → Option (Int × Int)) (i line : Int) :
    Option (Int × Int) := do
  let (point, line) ← run .digits i line
  if ← source.meetsFraction? point then
    let _ ← source.charAt? point
    run .digits (point + 1) line
  else return (point, line)

/-- Where a number ends whose first digit stands before `i`. -/
def numberEnd? (source : Source) (i line : Int) : Option (Int × Int) :=
  source.numberEndBy? source.follow? i line

end Source

/-! ## A whole piece -/

/-- What a walk recognises. -/
inductive Recognized where
  | nothing
  | token (kind : Kind) (literal : Option Literal)
  | fault (d : Diagnostic)
  /-- A number whose slice of the source is not the text of a number. -/
  | noNumber (text : List Char)

/-- Where a walk stops, and what it recognised. -/
structure WalkEnd where
  current : Int
  line : Int
  recognized : Recognized

namespace Source

/-- Walks on behind the character `c` at `start`, with `run` for the loops. -/
def handleBy? (source : Source) (run : Loop → Int → Int → Option (Int × Int)) (start line : Int)
    (c : Char) : Option WalkEnd :=
  let next := start + 1
  match classify c with
  | .punctuation mark => some ⟨next, line, .token mark.kind none⟩
  | .operator op => do
    let withEqual ← source.meets? '=' next
    return ⟨if withEqual then next + 1 else next, line, .token (op.kind withEqual) none⟩
  | .slash => do
    if ← source.meets? '/' next then
      let (behind, line) ← run .comment (next + 1) line
      return ⟨behind, line, .nothing⟩
    else return ⟨next, line, .token .slash none⟩
  | .whitespace => some ⟨next, line, .nothing⟩
  | .newline => some ⟨next, line + 1, .nothing⟩
  | .quote => do
    let (quote, line) ← run .string next line
    if source.atEnd quote then
      return ⟨quote, line, .fault (.unterminatedString line source.filename)⟩
    else
      let _ ← source.charAt? quote
      let behind := quote + 1
      let value := Text.slice source.text (start + 1) (behind - 1)
      return ⟨behind, line, .token .string (some (.text value))⟩
  | .digit => do
    let (behind, line) ← source.numberEndBy? run next line
    let text := Text.slice source.text start behind
    match Decimal.read? text with
    | some d => return ⟨behind, line, .token .number (some (.number (d.toBinary64 false)))⟩
    | none => return ⟨behind, line, .noNumber text⟩
  | .alpha => do
    let (behind, line) ← run .word next line
    let text := Text.slice source.text start behind
    return ⟨behind, line, .token (source.keywords.kindOf text) none⟩
  | .other => some ⟨next, line, .fault (.unexpectedCharacter c line source.filename)⟩

/-- Walks over the piece that begins at the cursor, with `run` for the loops. -/
def walkBy? (source : Source) (run : Loop → Int → Int → Option (Int × Int)) (cursor : Cursor) :
    Option WalkEnd :=
  (source.charAt? cursor.current).bind (source.handleBy? run cursor.current cursor.line)

/-- Walks on behind the character `c` at `start`. -/
def handle? (source : Source) (start line : Int) (c : Char) : Option WalkEnd :=
  source.handleBy? source.follow? start line c

/-- Walks over the piece that begins at the cursor, none if a look-up leaves the source. -/
def walk? (source : Source) (cursor : Cursor) : Option WalkEnd :=
  source.walkBy? source.follow? cursor

end Source

/-- Reads one piece at the cursor by walking over it. -/
def Session.walkToken (s : Session) : Outcome :=
  let start := s.cursor.current
  match s.source.walk? s.cursor with
  | none =>
    { session := s.withCursor { s.cursor with start := start }
      answer := .failed (.atPosition .outsideSource start) }
  | some walk =>
    let moved := s.withCursor ⟨start, walk.current, walk.line⟩
    match walk.recognized with
    | .nothing => { session := moved, answer := .token none }
    | .token kind literal =>
      let lexeme := Text.slice s.source.text start walk.current
      { session := moved, answer := .token (some ⟨kind, lexeme, literal, s.cursor.line⟩) }
    | .fault d =>
      let reported := moved.fault d
      { session := reported.session
        answer := if reported.accepted then .token none else .failed .sinkClosed
        records := reported.records }
    | .noNumber text => { session := moved, answer := .failed (.notANumber text) }

/-! ## What lies ahead, character by character -/

namespace Source

/-- From position `i` on the cursor meets the characters of a list, and then the end. -/
inductive Sees (source : Source) : Int → List Char → Prop where
  | done : source.Sees source.text.length []
  | read {i : Int} {c : Char} {rest : List Char} :
      source.charAt? i = some c → source.Sees (i + 1) rest → source.Sees i (c :: rest)

variable {source : Source} {before after rest : List Char} {i : Int} {c : Char}

theorem sees_append (h : source.text = before ++ after) : source.Sees before.length after := by
  induction after generalizing before with
  | nil =>
    have hlength : source.text.length = before.length := by rw [h, List.append_nil]
    rw [← hlength]
    exact .done
  | cons c after ih =>
    refine .read ?_ ?_
    · have hlt : before.length < source.text.length := by
        rw [h, List.length_append, List.length_cons]
        omega
      rw [charAt?, Text.index?, if_pos (by omega), Option.bind_some, h]
      simp
    · have hnext : source.text = (before ++ [c]) ++ after := by
        rw [h, List.append_assoc]
        rfl
      simpa using ih hnext

/-- Counting on from the back leads to the beginning. -/
theorem sees_tail (h : source.text = before ++ after) :
    source.Sees (-after.length) (after ++ source.text) := by
  induction after generalizing before with
  | nil =>
    have hall : source.text = [] ++ source.text := rfl
    exact sees_append hall
  | cons c after ih =>
    refine .read ?_ ?_
    · have hlength : source.text.length = before.length + (after.length + 1) := by
        rw [h, List.length_append, List.length_cons]
      have hindex : (-((c :: after).length : Int) + source.text.length).toNat = before.length := by
        rw [List.length_cons]
        omega
      rw [charAt?, Text.index?, if_neg, if_pos, hindex, Option.bind_some, h]
      · simp
      · rw [List.length_cons]
        omega
      · rw [List.length_cons]
        omega
    · have hrest : source.text = (before ++ [c]) ++ after := by
        rw [h, List.append_assoc]
        rfl
      have hnext : -((c :: after).length : Int) + 1 = -(after.length : Int) := by
        rw [List.length_cons]
        omega
      rw [hnext]
      exact ih hrest

theorem sees_of_ahead? (h : source.ahead? i = some rest) : source.Sees i rest := by
  obtain ⟨k, hk, rfl⟩ := Option.map_eq_some_iff.1 h
  have hsplit : source.text = source.text.take k ++ source.text.drop k :=
    (List.take_append_drop k source.text).symm
  obtain ⟨-, hlt⟩ := Text.clampBound_of_index? hk
  rw [Text.index?] at hk
  split at hk
  · next hin =>
    obtain rfl := Option.some.inj hk
    rw [if_neg (by omega)]
    have hsees := sees_append hsplit
    rwa [List.length_take_of_le (Nat.le_of_lt hlt), Int.toNat_of_nonneg hin.1] at hsees
  · split at hk
    · next hin =>
      obtain rfl := Option.some.inj hk
      rw [if_pos hin.1]
      have hsees := sees_tail hsplit
      have hi : -((source.text.drop (i + source.text.length).toNat).length : Int) = i := by
        rw [List.length_drop]
        omega
      rwa [hi] at hsees
    · cases hk

namespace Sees

theorem length (h : source.Sees i rest) : i + rest.length = source.text.length := by
  induction h with
  | done => simp
  | read _ _ ih =>
    rw [List.length_cons]
    omega

theorem atEnd_eq (h : source.Sees i rest) : source.atEnd i = rest.isEmpty := by
  have hlength := h.length
  rw [Bool.eq_iff_iff, List.isEmpty_iff_length_eq_zero, atEnd, decide_eq_true_iff]
  omega

theorem charAt?_eq (h : source.Sees i (c :: rest)) : source.charAt? i = some c := by
  cases h with
  | read hc _ => exact hc

theorem tail (h : source.Sees i (c :: rest)) : source.Sees (i + 1) rest := by
  cases h with
  | read _ hrest => exact hrest

theorem peek?_eq (h : source.Sees i rest) : source.peek? i = some (rest.head?.getD '\x00') := by
  rw [peek?, h.atEnd_eq]
  cases rest with
  | nil => rfl
  | cons c rest => exact h.charAt?_eq

theorem meets?_eq (h : source.Sees i rest) (expected : Char) :
    source.meets? expected i = some (rest.head? == some expected) := by
  rw [meets?, h.atEnd_eq]
  cases rest with
  | nil => rfl
  | cons c rest =>
    rw [h.charAt?_eq]
    rfl

/-- **A loop passes over the longest run of its characters** and leaves the source nowhere, provided
that the NUL behind the end does not lead it on. -/
theorem follow?_eq (loop : Loop) (hstop : loop.goesOn '\x00' = false ∨ loop.testsEnd = true)
    (h : source.Sees i rest) (line : Int) :
    let run := rest.takeWhile loop.goesOn
    source.follow? loop i line =
        some (i + run.length, line + if loop.countsLines then run.count '\n' else 0) ∧
      source.Sees (i + run.length) (rest.dropWhile loop.goesOn) := by
  induction h generalizing line with
  | done =>
    have hpeek : source.peek? source.text.length = some '\x00' := Sees.done.peek?_eq
    have hend : source.atEnd source.text.length = true := Sees.done.atEnd_eq
    have hgoes : (loop.goesOn '\x00' && !(loop.testsEnd && true)) = false := by
      rcases hstop with h | h <;> simp [h]
    refine ⟨?_, by simpa using Sees.done⟩
    rw [follow?, hpeek]
    simp only [hend, hgoes]
    simp
  | @read i c rest hc hrest ih =>
    have hsees : source.Sees i (c :: rest) := .read hc hrest
    have hpeek : source.peek? i = some c := hsees.peek?_eq
    have hend : source.atEnd i = false := hsees.atEnd_eq
    rw [follow?, hpeek]
    simp only [hend, Bool.and_false, Bool.not_false, Bool.and_true]
    by_cases hgo : loop.goesOn c = true
    · -- one character more, and the rest of the run from the next position on
      obtain ⟨hfollow, hrun⟩ := ih (if loop.countsLines && c == '\n' then line + 1 else line)
      have hnext : i + 1 + (rest.takeWhile loop.goesOn).length =
          i + ((c :: rest).takeWhile loop.goesOn).length := by
        rw [List.takeWhile_cons_of_pos hgo, List.length_cons]
        omega
      rw [hnext] at hfollow hrun
      rw [List.dropWhile_cons_of_pos hgo]
      refine ⟨?_, hrun⟩
      rw [if_pos hgo]
      split
      · next hnone =>
        rw [hc] at hnone
        cases hnone
      · rw [hfollow, List.takeWhile_cons_of_pos hgo, List.count_cons]
        simp only [Option.some.injEq, Prod.mk.injEq, true_and]
        cases loop.countsLines with
        | false => rfl
        | true =>
          simp only [Bool.true_and, if_true]
          split <;> omega
    · rw [if_neg hgo, List.takeWhile_cons_of_neg hgo, List.dropWhile_cons_of_neg hgo]
      exact ⟨by simp, by simpa using hsees⟩

/-- A loop that counts no lines. -/
theorem follow?_quiet {p : Char → Bool} {testsEnd : Bool}
    (hstop : p '\x00' = false ∨ testsEnd = true) (h : source.Sees i rest) (line : Int) :
    source.follow? ⟨p, testsEnd, false⟩ i line =
        some (i + (rest.takeWhile p).length, line) ∧
      source.Sees (i + (rest.takeWhile p).length) (rest.dropWhile p) := by
  simpa using h.follow?_eq ⟨p, testsEnd, false⟩ hstop line

theorem follow?_digits (h : source.Sees i rest) (line : Int) :
    source.follow? .digits i line =
        some (i + (rest.takeWhile Char.isDigit).length, line) ∧
      source.Sees (i + (rest.takeWhile Char.isDigit).length) (rest.dropWhile Char.isDigit) :=
  h.follow?_quiet (Or.inl rfl) line

theorem follow?_string (h : source.Sees i rest) (line : Int) :
    source.follow? .string i line =
        some (i + (rest.takeWhile (· != '"')).length,
          line + (rest.takeWhile (· != '"')).count '\n') ∧
      source.Sees (i + (rest.takeWhile (· != '"')).length) (rest.dropWhile (· != '"')) :=
  h.follow?_eq .string (Or.inr rfl) line

theorem meetsFraction?_eq (h : source.Sees i rest) :
    source.meetsFraction? i = some (!(Piece.fractionOf rest).isEmpty) := by
  rw [meetsFraction?, h.peek?_eq]
  by_cases hpoint : ∃ more, rest = '.' :: more
  · obtain ⟨more, rfl⟩ := hpoint
    have hpeek := h.tail.peek?_eq
    cases more with
    | nil => simp [hpeek, Piece.fractionOf]
    | cons d more =>
      cases hd : d.isDigit <;> simp [hpeek, Piece.fractionOf, hd]
  · have hnone : Piece.fractionOf rest = [] :=
      Piece.fractionOf_eq_nil_iff.2 fun d more hrest => absurd ⟨_, hrest⟩ hpoint
    have hhead : rest.head?.getD '\x00' ≠ '.' := by
      cases rest with
      | nil => decide
      | cons c rest =>
        rintro rfl
        exact hpoint ⟨rest, rfl⟩
    simp [hnone, hhead]

/-- A number ends behind its fraction, which is looked for where its first run of digits ends. -/
theorem numberEnd?_eq (h : source.Sees i rest) (line : Int) :
    source.numberEnd? i line = some (i + (rest.takeWhile Char.isDigit).length +
      (if (Piece.fractionOf (rest.dropWhile Char.isDigit)).isEmpty then []
        else '.' :: Piece.fractionOf (rest.dropWhile Char.isDigit)).length, line) := by
  obtain ⟨hwhole, hpoint⟩ := h.follow?_digits line
  simp only [numberEnd?, numberEndBy?, hwhole, Option.bind_eq_bind, Option.bind_some,
    hpoint.meetsFraction?_eq]
  cases hfraction : (Piece.fractionOf (rest.dropWhile Char.isDigit)).isEmpty with
  | true => simp
  | false =>
    -- the point is passed over, and then the digits behind it
    obtain ⟨more, hmore⟩ : ∃ more, rest.dropWhile Char.isDigit = '.' :: more := by
      unfold Piece.fractionOf at hfraction
      split at hfraction
      · next more hmore => exact ⟨more, hmore⟩
      · cases hfraction
    rw [hmore] at hpoint
    obtain ⟨hdigits, -⟩ := hpoint.tail.follow?_digits line
    simp only [hpoint.charAt?_eq, Option.bind_some, hdigits, hmore, Piece.fractionOf,
      Bool.not_false, if_true, Bool.false_eq_true, if_false, List.length_cons, Option.some.injEq,
      Prod.mk.injEq, and_true]
    omega

end Sees

/-! ## The walk and the piece -/

/-- What is made of a piece that begins at `start` on `line`. -/
def recognize (source : Source) (start line : Int) (p : Piece) : Recognized :=
  match p.fault? source.filename line with
  | some d => .fault d
  | none =>
    match source.tokenOf line ⟨p, start, start + p.text.length, line + p.lines⟩ with
    | .ok (some t) => .token t.kind t.literal
    | .ok none => .nothing
    | .error e => .noNumber e.text

theorem walk_congr {current current' reached reached' : Int} {r r' : Recognized}
    (hcurrent : current = current') (hline : reached = reached') (hr : r = r') :
    some (WalkEnd.mk current reached r) = some (WalkEnd.mk current' reached' r') := by
  rw [hcurrent, hline, hr]

/-- The walk behind `c` finds the piece that begins with `c` and goes on in `rest`. -/
def Finds (source : Source) (start line : Int) (c : Char) (rest : List Char) : Prop :=
  let p := Piece.next c rest
  source.handle? start line c =
    some ⟨start + p.text.length, line + p.lines, source.recognize start line p⟩

variable {start : Int}

theorem finds_of_slash (h : source.Sees (start + 1) rest) (hclass : classify c = .slash)
    (line : Int) : source.Finds start line c rest := by
  unfold Finds handle? handleBy? Piece.next
  simp only [hclass, h.meets?_eq, Option.bind_eq_bind, Option.bind_some]
  by_cases hslash : ∃ more, rest = '/' :: more
  · obtain ⟨more, rfl⟩ := hslash
    obtain ⟨hfollow, -⟩ := h.tail.follow?_quiet (p := (· != '\n')) (Or.inr rfl) line
    have hfollow : source.follow? .comment (start + 1 + 1) line = _ := hfollow
    simp only [List.head?_cons, beq_self_eq_true, if_true, hfollow, Option.bind_some]
    refine walk_congr ?_ (Int.add_zero line).symm rfl
    simp only [Piece.text, List.length_cons]
    omega
  · have hhead : (rest.head? == some '/') = false := by
      cases rest with
      | nil => rfl
      | cons d more =>
        have hd : d ≠ '/' := by
          rintro rfl
          exact hslash ⟨more, rfl⟩
        simpa using hd
    simp only [hhead, Bool.false_eq_true, if_false]
    split
    · next more => exact absurd ⟨more, rfl⟩ hslash
    · exact walk_congr rfl (Int.add_zero line).symm rfl

/-- A string ends behind its second quote, or with the text if it has none. -/
theorem finds_of_quote (h : source.Sees (start + 1) rest) (hclass : classify c = .quote)
    (line : Int) : source.Finds start line c rest := by
  unfold Finds handle? handleBy? Piece.next
  obtain ⟨hfollow, hquote⟩ := h.follow?_string line
  simp only [hclass, hfollow, Option.bind_eq_bind, Option.bind_some, hquote.atEnd_eq]
  by_cases hclosed : '"' ∈ rest
  · -- the walk stops at the quote and takes one step past it
    obtain ⟨more, hmore⟩ := Piece.isPrefix_takeWhile_quote hclosed
    have hdrop : rest.dropWhile (· != '"') = '"' :: more := by
      have hsplit := List.takeWhile_append_dropWhile (p := (· != '"')) (l := rest)
      conv at hsplit => rhs; rw [← hmore, List.append_assoc]
      exact List.append_cancel_left hsplit
    rw [hdrop] at hquote ⊢
    simp only [List.isEmpty_cons, Bool.false_eq_true, if_false, hquote.charAt?_eq,
      Option.bind_some, List.contains_iff_mem.2 hclosed, if_true]
    have hend : start + 1 + ((rest.takeWhile (· != '"')).length : Int) + 1 =
        start + (Piece.string (rest.takeWhile (· != '"'))).text.length := by
      simp only [Piece.text, List.length_append, List.length_cons, List.length_nil]
      omega
    rw [hend]
    exact walk_congr rfl rfl rfl
  · -- the walk runs to the end of the source
    have hall : ∀ d ∈ rest, (d != '"') = true := by
      intro d hd
      rw [bne_iff_ne]
      rintro rfl
      exact hclosed hd
    have hopen : rest.contains '"' = false := by simpa using hclosed
    rw [List.dropWhile_eq_nil_iff.2 hall, List.takeWhile_eq_self_iff.2 hall, hopen]
    simp only [List.isEmpty_nil, if_true, Bool.false_eq_true, if_false]
    refine walk_congr ?_ rfl rfl
    simp only [Piece.text, List.length_cons]
    omega

theorem finds_of_digit (h : source.Sees (start + 1) rest) (hclass : classify c = .digit)
    (line : Int) : source.Finds start line c rest := by
  have hnumber := h.numberEnd?_eq line
  rw [numberEnd?] at hnumber
  unfold Finds handle? handleBy? Piece.next
  simp only [hclass, hnumber, Option.bind_eq_bind, Option.bind_some]
  have hend : start + 1 + ((rest.takeWhile Char.isDigit).length : Int) +
      (if (Piece.fractionOf (rest.dropWhile Char.isDigit)).isEmpty then []
        else '.' :: Piece.fractionOf (rest.dropWhile Char.isDigit)).length =
      start + (Piece.number (c :: rest.takeWhile Char.isDigit)
        (Piece.fractionOf (rest.dropWhile Char.isDigit))).text.length := by
    rw [Piece.text_number, List.length_append, List.length_cons]
    omega
  rw [hend]
  cases hread : Decimal.read? (Text.slice source.text start (start +
      (Piece.number (c :: rest.takeWhile Char.isDigit)
        (Piece.fractionOf (rest.dropWhile Char.isDigit))).text.length)) with
  | some d =>
    refine walk_congr rfl (Int.add_zero line).symm ?_
    simp only [recognize, Piece.fault?, tokenOf, hread]
  | none =>
    refine walk_congr rfl (Int.add_zero line).symm ?_
    simp only [recognize, Piece.fault?, tokenOf, hread]

theorem finds_of_alpha (h : source.Sees (start + 1) rest) (hclass : classify c = .alpha)
    (line : Int) : source.Finds start line c rest := by
  unfold Finds handle? handleBy? Piece.next
  obtain ⟨hfollow, -⟩ := h.follow?_quiet (p := isWordChar) (Or.inl rfl) line
  have hfollow : source.follow? .word (start + 1) line = _ := hfollow
  simp only [hclass, hfollow, Option.bind_eq_bind, Option.bind_some]
  have hend : start + 1 + ((rest.takeWhile isWordChar).length : Int) =
      start + (Piece.word (c :: rest.takeWhile isWordChar)).text.length := by
    simp only [Piece.text, List.length_cons]
    omega
  rw [hend]
  exact walk_congr rfl (Int.add_zero line).symm rfl

/-- **The walk behind a character finds the piece that begins with it.** -/
theorem finds_of_sees (h : source.Sees (start + 1) rest) (c : Char) (line : Int) :
    source.Finds start line c rest := by
  cases hclass : classify c with
  | slash => exact finds_of_slash h hclass line
  | quote => exact finds_of_quote h hclass line
  | digit => exact finds_of_digit h hclass line
  | alpha => exact finds_of_alpha h hclass line
  | operator op =>
    unfold Finds handle? handleBy? Piece.next
    simp only [hclass, h.meets?_eq, Option.bind_eq_bind, Option.bind_some]
    cases rest.head? == some '=' with
    | true => exact walk_congr (Int.add_assoc start 1 1) (Int.add_zero line).symm rfl
    | false => exact walk_congr rfl (Int.add_zero line).symm rfl
  | newline =>
    unfold Finds handle? handleBy? Piece.next
    simp only [hclass]
    exact walk_congr rfl rfl rfl
  | _ =>
    unfold Finds handle? handleBy? Piece.next
    simp only [hclass]
    exact walk_congr rfl (Int.add_zero line).symm rfl

variable {cursor : Cursor}

/-- A token shows the slice between the ends of the reading. -/
theorem lexeme_of_tokenOf {line : Int} {r : Reading} {t : Token}
    (h : source.tokenOf line r = .ok (some t)) :
    t.lexeme = Text.slice source.text r.cursor.start r.cursor.current ∧ t.line = line := by
  simp only [tokenOf] at h
  split at h
  · obtain rfl := Option.some.inj (Except.ok.inj h)
    exact ⟨rfl, rfl⟩
  · split at h
    · obtain rfl := Option.some.inj (Except.ok.inj h)
      exact ⟨rfl, rfl⟩
    · cases h
  · obtain rfl := Option.some.inj (Except.ok.inj h)
    exact ⟨rfl, rfl⟩
  · obtain ⟨kind, -, rfl⟩ := Option.map_eq_some_iff.1 (Except.ok.inj h)
    exact ⟨rfl, rfl⟩

/-- A position is readable from the first character of the text up to the last, from either end. -/
theorem index?_eq_none_iff {n : Nat} :
    Text.index? n i = none ↔ (n : Int) ≤ i ∨ i < -n := by
  rw [Text.index?]
  split
  · simp
    omega
  · split
    · simp
      omega
    · simp
      omega

/-- The position lies outside the source. -/
def Outside (source : Source) (i : Int) : Prop :=
  (source.text.length : Int) ≤ i ∨ i < -(source.text.length : Int)

theorem inside_of_not_outside (h : ¬ source.Outside i) :
    -(source.text.length : Int) ≤ i ∧ i < source.text.length := by
  obtain ⟨hhigh, hlow⟩ := not_or.1 h
  exact ⟨Int.not_lt.1 hlow, Int.not_le.1 hhigh⟩

/-- What a cursor meets from a position inside the source on: the text from there, and from a
negative position the tail of the text and then all of it. -/
def textAhead (source : Source) (i : Int) : List Char :=
  if 0 ≤ i then source.text.drop i.toNat
  else source.text.drop (source.text.length + i).toNat ++ source.text

theorem ahead?_of_inside (hlow : -(source.text.length : Int) ≤ i)
    (hhigh : i < source.text.length) : source.ahead? i = some (source.textAhead i) := by
  rw [ahead?, Text.index?, textAhead]
  by_cases hi : 0 ≤ i
  · rw [if_pos ⟨hi, hhigh⟩, if_pos hi, Option.map_some, if_neg (by omega)]
  · rw [if_neg (by omega), if_pos (by omega), if_neg hi, Option.map_some, if_pos (by omega),
      Int.add_comm]

theorem exists_ahead? (hlow : -(source.text.length : Int) ≤ i) (hhigh : i < source.text.length) :
    ∃ c rest, source.ahead? i = some (c :: rest) := by
  have hahead := ahead?_of_inside hlow hhigh
  have hlength := (sees_of_ahead? hahead).length
  cases htext : source.textAhead i with
  | nil =>
    rw [htext, List.length_nil] at hlength
    omega
  | cons c rest => exact ⟨c, rest, hahead.trans (congrArg some htext)⟩

theorem ahead?_eq_none_iff : source.ahead? i = none ↔ source.Outside i := by
  rw [ahead?, Option.map_eq_none_iff, index?_eq_none_iff, Outside]

theorem read?_of_ahead? (h : source.ahead? cursor.current = some (c :: rest)) :
    let p := Piece.next c rest
    source.read? cursor =
      some ⟨p, cursor.current, cursor.current + p.text.length, cursor.line + p.lines⟩ := by
  simp only [read?, h]

theorem walk?_of_ahead? (h : source.ahead? cursor.current = some (c :: rest)) :
    let p := Piece.next c rest
    source.walk? cursor = some ⟨cursor.current + p.text.length, cursor.line + p.lines,
      source.recognize cursor.current cursor.line p⟩ := by
  have hsees := sees_of_ahead? h
  rw [walk?, walkBy?, hsees.charAt?_eq, Option.bind_some]
  exact finds_of_sees hsees.tail c cursor.line

/-- **No look-up leaves the source but the first**, and that one only if the cursor does. -/
theorem walk?_eq_none_iff : source.walk? cursor = none ↔ source.Outside cursor.current := by
  constructor
  · intro hwalk
    by_contra hinside
    obtain ⟨hlow, hhigh⟩ := inside_of_not_outside hinside
    obtain ⟨c, rest, hahead⟩ := exists_ahead? hlow hhigh
    rw [walk?_of_ahead? hahead] at hwalk
    cases hwalk
  · intro houtside
    rw [walk?, walkBy?, charAt?, index?_eq_none_iff.2 houtside]
    rfl

end Source

/-- **Reading a piece and walking over it come to the same**, wherever the cursor stands and
whatever the sink makes of a fault. -/
theorem Session.scanToken_eq_walkToken (s : Session) : s.scanToken = s.walkToken := by
  by_cases houtside : s.source.Outside s.cursor.current
  · have hread : s.source.read? s.cursor = none := by
      rw [Source.read?, Source.ahead?_eq_none_iff.2 houtside]
    simp only [scanToken, walkToken, hread, Source.walk?_eq_none_iff.2 houtside]
    rfl
  · obtain ⟨hlow, hhigh⟩ := Source.inside_of_not_outside houtside
    obtain ⟨c, rest, hahead⟩ := Source.exists_ahead? hlow hhigh
    have hread := Source.read?_of_ahead? hahead
    have hwalk := Source.walk?_of_ahead? hahead
    cases hfault : (Piece.next c rest).fault? s.source.filename s.cursor.line with
    | some d =>
      simp only [scanToken, walkToken, hread, hwalk, Source.recognize, hfault]
      rfl
    | none =>
      cases htoken : s.source.tokenOf s.cursor.line ⟨Piece.next c rest, s.cursor.current,
          s.cursor.current + (Piece.next c rest).text.length,
          s.cursor.line + (Piece.next c rest).lines⟩ with
      | error e =>
        simp only [scanToken, walkToken, hread, hwalk, Source.recognize, hfault, htoken]
        rfl
      | ok token? =>
        cases token? with
        | none =>
          simp only [scanToken, walkToken, hread, hwalk, Source.recognize, hfault, htoken]
          rfl
        | some t =>
          -- both show the slice that was walked over, on the line where it begins
          obtain ⟨kind, lexeme, literal, line⟩ := t
          obtain ⟨rfl, rfl⟩ := Source.lexeme_of_tokenOf htoken
          simp only [scanToken, walkToken, hread, hwalk, Source.recognize, hfault, htoken]
          rfl

end ScriptLexer
