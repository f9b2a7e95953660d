import ScriptLexer.Proofs.Refusal
import ScriptLexer.Proofs.WrappedReading

/-!
# Progress

A reading whose cursor stands inside the source moves it on, and never past the end, however the
reading ends. What it consumes are the characters between its two positions, looked up one after
another; if they run around from `-1` to `0`, so do the look-ups. The line goes up by the line feeds
among them.

The distance to the end bounds everything else. Every turn of a loop passes over one character, and
where the text has ended the NUL that is seen there stops the loop, or the test for the end does if
a NUL would lead on. So **no loop turns more often than there are characters left**: the walk gives
the same if its loops are broken off there (`Source.walkBy?_followWithin?`). In the same way the
readings that follow each other are no more than the characters that are left.
-/

namespace ScriptLexer

/-- Behind the end of the text the loop does not go on. -/
def Loop.Stops (loop : Loop) : Prop := loop.goesOn '\x00' = false ∨ loop.testsEnd = true

namespace Source

variable {source : Source} {i line : Int} {c : Char} {loop : Loop}

/-! ## The characters between two positions -/

/-- The `k` characters from position `i` on, none if one of the positions lies outside the source. -/
def charsFrom? (source : Source) : Int → Nat → Option (List Char)
  | _, 0 => some []
  | i, k + 1 => do return (← source.charAt? i) :: (← source.charsFrom? (i + 1) k)

theorem Sees.charsFrom?_eq {w rest : List Char} (h : source.Sees i (w ++ rest)) :
    source.charsFrom? i w.length = some w := by
  induction w generalizing i with
  | nil => rfl
  | cons c w ih =>
    rw [List.cons_append] at h
    rw [List.length_cons, charsFrom?, h.charAt?_eq, ih h.tail]
    rfl

/-! ## Loops that are broken off -/

/-- The position and the line at which a loop stops, none if that takes more than `turns` turns. -/
def followWithin? (source : Source) (turns : Nat) (loop : Loop) (i line : Int) :
    Option (Int × Int) :=
  match source.peek? i with
  | none => none
  | some seen =>
    if loop.goesOn seen && !(loop.testsEnd && source.atEnd i) then
      match turns with
      | 0 => none
      | turns + 1 =>
        (source.charAt? i).bind fun _ =>
          source.followWithin? turns loop (i + 1)
            (if loop.countsLines && seen == '\n' then line + 1 else line)
    else some (i, line)

/-- A loop that goes on has a character to pass over. -/
theorem charAt?_of_goesOn (hstops : loop.Stops) {seen : Char} (hpeek : source.peek? i = some seen)
    (hgo : (loop.goesOn seen && !(loop.testsEnd && source.atEnd i)) = true) :
    source.charAt? i = some seen := by
  cases hend : source.atEnd i with
  | false =>
    rw [peek?, hend] at hpeek
    exact hpeek
  | true =>
    rw [peek?, hend] at hpeek
    obtain rfl : '\x00' = seen := Option.some.inj hpeek
    rcases hstops with hstop | htest
    · rw [hstop] at hgo
      cases hgo
    · rw [htest, hend, Bool.and_true, Bool.not_true, Bool.and_false] at hgo
      cases hgo

/-- One turn of a loop. -/
theorem follow?_of_goesOn (hstops : loop.Stops) {seen : Char} (hpeek : source.peek? i = some seen)
    (hgo : (loop.goesOn seen && !(loop.testsEnd && source.atEnd i)) = true) (line : Int) :
    source.follow? loop i line = source.follow? loop (i + 1)
      (if loop.countsLines && seen == '\n' then line + 1 else line) := by
  have hchar := charAt?_of_goesOn hstops hpeek hgo
  generalize hreached : (if loop.countsLines && seen == '\n' then line + 1 else line) = reached
  rw [follow?, hpeek]
  simp only [if_pos hgo, hreached]
  split
  · next hnone =>
    rw [hchar] at hnone
    cases hnone
  · rfl

/-- **A loop turns no more often than there are characters left.** -/
theorem followWithin?_eq (hstops : loop.Stops) {turns : Nat}
    (h : (source.text.length : Int) - i ≤ turns) (line : Int) :
    source.followWithin? turns loop i line = source.follow? loop i line := by
  induction turns generalizing i line with
  | zero =>
    rw [followWithin?, follow?]
    cases hpeek : source.peek? i with
    | none => rfl
    | some seen =>
      by_cases hgo : (loop.goesOn seen && !(loop.testsEnd && source.atEnd i)) = true
      · -- nothing is left, so there is nothing to pass over
        have hlt := lt_length_of_charAt? (charAt?_of_goesOn hstops hpeek hgo)
        omega
      · simp only [if_neg hgo]
  | succ turns ih =>
    rw [followWithin?]
    cases hpeek : source.peek? i with
    | none => rw [follow?, hpeek]
    | some seen =>
      by_cases hgo : (loop.goesOn seen && !(loop.testsEnd && source.atEnd i)) = true
      · have hnext : (source.text.length : Int) - (i + 1) ≤ turns := by omega
        simp only [if_pos hgo, charAt?_of_goesOn hstops hpeek hgo, Option.bind_some]
        rw [follow?_of_goesOn hstops hpeek hgo, ih hnext]
      · rw [follow?, hpeek]
        simp only [if_neg hgo]

/-- A loop does not go back. -/
theorem le_of_follow? {j line' : Int} (h : source.follow? loop i line = some (j, line')) :
    i ≤ j := by
  fun_induction follow? source loop i line with
  | case1 => cases h
  | case2 => cases h
  | case3 i line seen hpeek hgo c hchar ih => exact Int.le_of_lt (ih h)
  | case4 i line seen hpeek hgo =>
    obtain ⟨rfl, rfl⟩ := Prod.mk.inj (Option.some.inj h)
    exact Int.le_refl i

/-! ## Walks with other loops -/

variable {run : Loop → Int → Int → Option (Int × Int)} {start : Int} {cursor : Cursor}

/-- A number is passed over alike by loops that are alike from where it begins. -/
theorem numberEndBy?_congr
    (h : ∀ j line, i ≤ j → run .digits j line = source.follow? .digits j line) (line : Int) :
    source.numberEndBy? run i line = source.numberEndBy? source.follow? i line := by
  rw [numberEndBy?, numberEndBy?, h i line (Int.le_refl i)]
  cases hwhole : source.follow? .digits i line with
  | none => rfl
  | some stop =>
    obtain ⟨point, reached⟩ := stop
    have hle : i ≤ point + 1 := Int.le_add_one (le_of_follow? hwhole)
    simp only [Option.bind_eq_bind, Option.bind_some, h (point + 1) reached hle]

/-- A piece is walked over alike by loops that are alike behind its first character. -/
theorem handleBy?_congr
    (h : ∀ loop ∈ [Loop.digits, Loop.word, Loop.comment, Loop.string], ∀ j line, start < j →
      run loop j line = source.follow? loop j line) (line : Int) (c : Char) :
    source.handleBy? run start line c = source.handleBy? source.follow? start line c := by
  have hfirst : start < start + 1 := Int.lt_succ start
  cases hclass : classify c with
  | slash =>
    have hcomment := h .comment (by simp) (start + 1 + 1) line (by omega)
    simp only [handleBy?, hclass, hcomment]
  | quote =>
    have hstring := h .string (by simp) (start + 1) line hfirst
    simp only [handleBy?, hclass, hstring]
  | digit =>
    have hdigits : ∀ j line, start + 1 ≤ j →
        run .digits j line = source.follow? .digits j line := fun j line hj =>
      h .digits (by simp) j line (Int.lt_of_lt_of_le hfirst hj)
    simp only [handleBy?, hclass, numberEndBy?_congr hdigits line]
  | alpha =>
    have hword := h .word (by simp) (start + 1) line hfirst
    simp only [handleBy?, hclass, hword]
  | _ => simp only [handleBy?, hclass]

/-- **Nothing is lost if each loop is broken off after as many turns as there are characters left.**
-/
theorem walkBy?_followWithin? {turns : Nat}
    (h : (source.text.length : Int) - cursor.current ≤ turns) :
    source.walkBy? (source.followWithin? turns) cursor = source.walk? cursor := by
  have hhandle : source.handleBy? (source.followWithin? turns) cursor.current cursor.line =
      source.handleBy? source.follow? cursor.current cursor.line := by
    funext c
    refine handleBy?_congr ?_ cursor.line c
    intro loop hloop j line hj
    refine followWithin?_eq ?_ (by omega) line
    simp only [List.mem_cons, List.not_mem_nil, or_false] at hloop
    rcases hloop with rfl | rfl | rfl | rfl
    · exact Or.inl rfl
    · exact Or.inl rfl
    · exact Or.inr rfl
    · exact Or.inr rfl
  rw [walk?, walkBy?, walkBy?, hhandle]

end Source

namespace Session

variable {s : Session} {p : Piece}

/-! ## One reading -/

/-- What a reading does to the cursor, however it ends. -/
structure Advances (s : Session) : Prop where
  /-- It yields a token or none, or the sink refuses a fault, or a number shows no number. -/
  ends : (∃ t, s.scanToken.answer = .token t) ∨ s.scanToken.answer = .failed .sinkClosed ∨
    ∃ text, s.scanToken.answer = .failed (.notANumber text)
  start : s.scanToken.session.cursor.start = s.cursor.current
  lt_current : s.cursor.current < s.scanToken.session.cursor.current
  current_le : s.scanToken.session.cursor.current ≤ s.source.text.length
  /-- The line feeds are counted among the characters that were consumed. -/
  line : ∃ consumed,
    s.source.charsFrom? s.cursor.current
      (s.scanToken.session.cursor.current - s.cursor.current).toNat = some consumed ∧
    s.scanToken.session.cursor.line = s.cursor.line + consumed.count '\n'

theorem ReadsAt.ends (h : s.ReadsAt p) :
    (∃ t, s.scanToken.answer = .token t) ∨ s.scanToken.answer = .failed .sinkClosed ∨
      ∃ text, s.scanToken.answer = .failed (.notANumber text) := by
  cases hfault : p.fault? s.source.filename s.cursor.line with
  | some d =>
    rw [h.fault (Option.isSome_of_eq_some hfault)]
    cases s.sink.willAccept 0 with
    | true => exact Or.inl ⟨none, rfl⟩
    | false => exact Or.inr (Or.inl rfl)
  | none =>
    rw [h.shown hfault]
    cases s.source.tokenOf s.cursor.line ⟨p, s.cursor.current,
        s.cursor.current + p.text.length, s.cursor.line + p.lines⟩ with
    | ok t => exact Or.inl ⟨t, rfl⟩
    | error e => exact Or.inr (Or.inr ⟨e.text, rfl⟩)

theorem ReadsAt.source (h : s.ReadsAt p) : s.scanToken.session.source = s.source := by
  rw [h.session, enterAll_source, withCursor_source]

/-- **A reading moves the cursor on**, whatever the sink makes of a fault. -/
theorem advances (hlow : -(s.source.text.length : Int) ≤ s.cursor.current)
    (hhigh : s.cursor.current < s.source.text.length) :
    s.Advances ∧ s.scanToken.session.source = s.source := by
  obtain ⟨p, after, hs, hahead, -, hreads, -⟩ := exists_readsAt hlow hhigh
  have hsees := Source.sees_of_ahead? (Source.ahead?_of_inside hlow hhigh)
  have hlength := hsees.length
  rw [hahead] at hsees hlength
  rw [List.length_append] at hlength
  have hpos := List.length_pos_iff.2 (Piece.text_ne_nil hs)
  have hconsumed :
      (s.cursor.current + p.text.length - s.cursor.current : Int).toNat = p.text.length := by
    omega
  refine ⟨⟨hreads.ends, ?_, ?_, ?_, p.text, ?_, ?_⟩, hreads.source⟩
  · rw [hreads.cursor]
  · rw [hreads.cursor]
    exact Int.lt_add_of_pos_right _ (Int.natCast_pos.2 hpos)
  · rw [hreads.cursor]
    simp only
    omega
  · rw [hreads.cursor, hconsumed]
    exact hsees.charsFrom?_eq
  · rw [hreads.cursor, Piece.lines_eq_count hs]

/-! ## Reading on -/

/-- The distance to the end goes down with each reading, so it bounds their number. -/
theorem exists_readThrough_le (hlow : -(s.source.text.length : Int) ≤ s.cursor.current)
    (hhigh : s.cursor.current ≤ s.source.text.length) {k : Nat}
    (hk : (s.source.text.length : Int) - s.cursor.current ≤ k) :
    ∃ os final, s.ReadThrough os final ∧ os.length ≤ k ∧
      final.cursor.current = s.source.text.length := by
  induction k generalizing s with
  | zero => exact ⟨[], s, .done (by omega), Nat.le_refl 0, by omega⟩
  | succ k ih =>
    by_cases hend : (s.source.text.length : Int) ≤ s.cursor.current
    · exact ⟨[], s, .done hend, Nat.zero_le _, Int.le_antisymm hhigh hend⟩
    · have hlt := Int.not_le.1 hend
      obtain ⟨hadvances, hsource⟩ := advances hlow hlt
      have hmoves := hadvances.lt_current
      have hstays := hadvances.current_le
      rw [← hsource] at hlow hk hstays ⊢
      obtain ⟨os, final, hloop, hlength, hcurrent⟩ :=
        ih (s := s.scanToken.session) (by omega) hstays (by omega)
      exact ⟨s.scanToken :: os, final, .read hlt hloop, Nat.succ_le_succ hlength, hcurrent⟩

/-- **Readings make progress.** From every cursor inside the source a reading moves on, and none of
its loops turns more often than there are characters left. Reading on from there comes to the end
of the source, and a scan does so from the beginning, with no more readings than characters. -/
theorem readings_progress (s : Session) :
    let n : Int := s.source.text.length
    let c := s.cursor.current
    (-n ≤ c → c < n →
      s.Advances ∧ s.scanToken = s.walkToken ∧
        ∃ w, s.source.walk? s.cursor = some w ∧
          s.source.walkBy? (s.source.followWithin? (n - c).toNat) s.cursor = some w) ∧
      (-n ≤ c → c ≤ n → ∃ os final, s.ReadThrough os final ∧ os.length ≤ n - c ∧
        final.cursor.current = n) ∧
      ∃ os final, s.rewound.ReadThrough os final ∧ os.length ≤ n ∧ final.cursor.current = n ∧
        s.scan.answer = (if (firstRefused os).isNone then
            .tokens (os.filterMap Outcome.token? ++ [Token.endOfInput final.cursor.line])
          else .failed .sinkClosed) := by
  intro n c
  refine ⟨?_, ?_, ?_⟩
  · intro hlow hhigh
    have hinside : ¬ s.source.Outside c := by
      rintro (hout | hout)
      · exact absurd hhigh (Int.not_lt.2 hout)
      · exact absurd hlow (Int.not_le.2 hout)
    obtain ⟨w, hw⟩ := Option.ne_none_iff_exists'.1 (mt Source.walk?_eq_none_iff.1 hinside)
    refine ⟨(advances hlow hhigh).1, scanToken_eq_walkToken s, w, hw, ?_⟩
    rw [Source.walkBy?_followWithin? (Int.self_le_toNat (n - c)), hw]
  · intro hlow hhigh
    obtain ⟨os, final, hloop, hlength, hcurrent⟩ :=
      exists_readThrough_le hlow hhigh (Int.self_le_toNat (n - c))
    exact ⟨os, final, hloop, by omega, hcurrent⟩
  · have hlow : -n ≤ s.rewound.cursor.current := Int.neg_nonpos_of_nonneg (Int.natCast_nonneg _)
    obtain ⟨os, final, hloop, hlength, hcurrent⟩ :=
      exists_readThrough_le hlow (Int.natCast_nonneg _) (Int.le_of_eq (Int.sub_zero n))
    exact ⟨os, final, hloop, Int.ofNat_le.2 hlength, hcurrent, (scan_eq_firstRefused hloop).1⟩

/-- The quote at the end is read around to itself, past the line feed. -/
theorem readings_progress_around_end :
    let s := (start { text := ['a', '\n', '"'] } (some (.newLimited 0))).withCursor ⟨7, -1, 2⟩
    (-3 ≤ s.cursor.current ∧ s.cursor.current < 3) ∧ s.Advances ∧
      s.scanToken.session.cursor = ⟨-1, 3, 3⟩ ∧
      ∃ os final, s.ReadThrough os final ∧ os.length ≤ (4 : Int) ∧ final.cursor.current = 3 := by
  intro s
  obtain ⟨hone, hall, -⟩ := readings_progress s
  obtain ⟨hadvances, -⟩ := hone (by decide) (by decide)
  exact ⟨⟨by decide, by decide⟩, hadvances, rfl, hall (by decide) (by decide)⟩

end Session

end ScriptLexer
