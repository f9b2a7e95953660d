import ScriptLexer.Proofs.WholeScan

/-!
# A sink that refuses

When the sink refuses a fault, the step in which it was found fails. By then the fault has been
entered and the cursor has moved behind its piece, so nothing is lost:

* reading on with the same cursor yields every token and enters every fault, once each, whichever
  deliveries are refused;
* a scan is that loop broken off at the first refusal, with all faults up to and including the
  refused one entered;
* the next scan starts from the text again, and a failed one leaves no trace in it.
-/

namespace ScriptLexer

namespace Session

/-! ## Where a scan breaks off -/

/-- The first reading whose fault the sink refused. -/
def firstRefused (os : List Outcome) : Option Outcome :=
  os.find? fun o => o.answer == .failed .sinkClosed

/-- Delivering the faults of the pieces one by one gets as far as the loop does before a refusal. -/
theorem ReadThrough.faults {s final : Session} {ps : List Piece} {os : List Outcome}
    (h : s.ReadThrough os final) (ha : s.Ahead ps) (cursor : Cursor) :
    let reported := (s.withCursor cursor).faults
      (diagnosticsFrom s.source.filename s.cursor.line ps)
    reported.accepted = (firstRefused os).isNone ∧
      reported.session =
        (((firstRefused os).map Outcome.session).getD final).withCursor cursor := by
  refine ReadThrough.along (motive := fun s ps os final =>
    let reported := (s.withCursor cursor).faults
      (diagnosticsFrom s.source.filename s.cursor.line ps)
    reported.accepted = (firstRefused os).isNone ∧
      reported.session =
        (((firstRefused os).map Outcome.session).getD final).withCursor cursor) ?_ ?_ h ha
  · intro s _
    exact ⟨rfl, rfl⟩
  · intro s p ps os final _ hreads ih
    have hsession := hreads.withCursor cursor
    have hanswer := hreads.answer
    rw [hreads.source, hreads.line] at ih
    cases hfault : p.fault? s.source.filename s.cursor.line with
    | none =>
      have hfound : firstRefused (s.scanToken :: os) = firstRefused os := by
        rw [hfault] at hanswer
        exact List.find?_cons_of_neg (by simp [hanswer])
      rw [hfault] at hsession
      rw [hsession] at ih
      rw [diagnosticsFrom, hfault, hfound]
      exact ih
    | some d =>
      have haccepted : ((s.withCursor cursor).fault d).accepted = s.sink.willAccept 0 :=
        accepted_fault _ d
      rw [hfault] at hsession hanswer
      rw [diagnosticsFrom, hfault, Option.toList_some, List.singleton_append, Session.faults,
        haccepted]
      cases hwill : s.sink.willAccept 0 with
      | true =>
        have hfound : firstRefused (s.scanToken :: os) = firstRefused os := by
          rw [hwill] at hanswer
          exact List.find?_cons_of_neg (by simp [hanswer])
        rw [hsession] at ih
        rw [hfound]
        exact ih
      | false =>
        -- the loop goes on from here, a scan does not
        have hfound : firstRefused (s.scanToken :: os) = some s.scanToken := by
          rw [hwill] at hanswer
          exact List.find?_cons_of_pos (by simp [hanswer])
        rw [hfound]
        exact ⟨haccepted.trans hwill, hsession.symm⟩

/-- **A scan is the loop up to the first refusal**, after which the cursor is put back. -/
theorem scan_eq_firstRefused {s final : Session} {os : List Outcome}
    (h : s.rewound.ReadThrough os final) :
    s.scan.answer = (if (firstRefused os).isNone then
        .tokens (os.filterMap Outcome.token? ++ [Token.endOfInput final.cursor.line])
      else .failed .sinkClosed) ∧
      s.scan.session =
        (((firstRefused os).map Outcome.session).getD final).withCursor s.cursor := by
  have hahead := ahead_rewound s
  obtain ⟨haccepted, hsession⟩ := h.faults hahead s.cursor
  have htokens : s.source.scan.tokens = _ := h.tokens hahead
  have hreported : (s.rewound.withCursor s.cursor).faults
      (diagnosticsFrom s.rewound.source.filename s.rewound.cursor.line (pieces s.source.text)) =
      faults { s with errors := #[] } s.source.scan.diagnostics := rfl
  rw [hreported] at haccepted hsession
  rw [← htokens, ← haccepted, ← hsession, scan]
  by_cases hall : (faults { s with errors := #[] } s.source.scan.diagnostics).accepted = true
  · simp only [if_pos hall]
    exact ⟨trivial, trivial⟩
  · simp only [if_neg hall]
    exact ⟨trivial, trivial⟩

/-! ## What is found all the same -/

/-- The loop of single readings finds what a scan of the source finds, for every sink. -/
theorem readThrough_found {s final : Session} {os : List Outcome}
    (h : s.rewound.ReadThrough os final) :
    s.source.scan.tokens =
        os.filterMap Outcome.token? ++ [Token.endOfInput final.cursor.line] ∧
      final.lookup final.errors = s.source.scan.diagnostics := by
  have hahead := ahead_rewound s
  constructor
  · exact h.tokens hahead
  · -- the faults entered do not depend on where the cursor is put
    have hfinal := h.session hahead final.cursor
    have hfound := lookup_enterAll (s := s.rewound.withCursor final.cursor) rfl
      s.source.scan.diagnostics
    rwa [show (final.lookup final.errors) = _ from congrArg (fun t => t.lookup t.errors) hfinal]

/-- A scan whose sink accepts `n` more deliveries. -/
theorem scan_of_limited {s : Session} {n : Nat} (h : ∀ k, s.sink.willAccept k = decide (k < n)) :
    s.scan.answer =
        (if s.source.scan.diagnostics.length ≤ n then .tokens s.source.scan.tokens
          else .failed .sinkClosed) ∧
      s.scan.session =
        { s with errors := #[] }.enterAll (s.source.scan.diagnostics.take (n + 1)) := by
  by_cases hlen : s.source.scan.diagnostics.length ≤ n
  · have haccepting : ∀ k < s.source.scan.diagnostics.length, s.sink.willAccept k = true := by
      intro k hk
      rw [h, decide_eq_true_eq]
      omega
    rw [if_pos hlen, List.take_of_length_le (by omega)]
    exact scan_of_accepting haccepting
  · have hfirst : ∀ k < n, s.sink.willAccept k = true := by
      intro k hk
      rw [h, decide_eq_true_eq]
      exact hk
    have hnext : s.sink.willAccept n = false := by
      rw [h, decide_eq_false_iff_not]
      exact Nat.lt_irrefl n
    rw [if_neg hlen]
    exact scan_of_refusing hfirst hnext (by omega)

/-- **A refusal loses no token and no fault.** The first part says what a sink without refusals is
given, the second that reading on after refusals finds the same, the third how far a scan gets with
a sink that accepts `n` more deliveries, and the last that a scan after it is as good as new. -/
theorem refusal_loses_nothing (s : Session) :
    let found := s.source.scan
    (∀ calm : Sink, calm.Open →
      let ordinary := { s with sink := calm }.scan
      ordinary.answer = .tokens found.tokens ∧
        ordinary.session.lookup ordinary.session.errors = found.diagnostics) ∧
    (∃ os final, s.rewound.ReadThrough os final ∧
      (∀ o ∈ os, o.answer = .token o.token? ∨ o.answer = .failed .sinkClosed) ∧
      found.tokens = os.filterMap Outcome.token? ++ [Token.endOfInput final.cursor.line] ∧
      final.lookup final.errors = found.diagnostics ∧
      final.cursor.current = s.source.text.length ∧
      final.cursor.line = lineAt s.source.text s.source.text.length) ∧
    (∀ accepts calls collected n, s.sink = .collector accepts calls collected →
      (∀ k, accepts (calls + k) = decide (k < n)) →
      s.scan.answer =
          (if found.diagnostics.length ≤ n then .tokens found.tokens else .failed .sinkClosed) ∧
        s.scan.session.lookup s.scan.session.errors = found.diagnostics.take (n + 1) ∧
        s.scan.session.sink = .collector accepts
          (calls + min (n + 1) found.diagnostics.length)
          (collected ++ ((found.diagnostics.take n).map fun d => (d.line, d.message)).toArray)) ∧
    ∀ calm : Sink, calm.Open →
      let later := { s.scan.session with sink := calm }.scan
      later.answer = .tokens found.tokens ∧
        later.session.lookup later.session.errors = found.diagnostics := by
  intro found
  -- the first part and the last differ only in the session before the scan
  have hcalm : ∀ t : Session, t.source = s.source → t.sink.Open →
      t.scan.answer = .tokens found.tokens ∧
        t.scan.session.lookup t.scan.session.errors = found.diagnostics := by
    intro t hsource hopen
    have hsame : t.source.scan = found := by rw [hsource]
    rw [← hsame]
    exact ⟨(scan_of_open hopen).1, lookup_scan_of_open hopen⟩
  refine ⟨?_, ?_, ?_, ?_⟩
  · intro calm hopen
    exact hcalm _ rfl hopen
  · -- reading piece by piece passes every refusal, because the cursor has moved already
    have hahead := ahead_rewound s
    obtain ⟨os, final, hloop⟩ := exists_readThrough hahead
    obtain ⟨htokens, hfaults⟩ := readThrough_found hloop
    have hline := hloop.line hahead
    rw [show s.rewound.cursor.line = 1 from rfl, lastLine_pieces] at hline
    exact ⟨os, final, hloop, hloop.answer hahead, htokens, hfaults, hloop.current hahead, hline⟩
  · intro accepts calls collected n hsink haccepts
    have hlimited : ∀ k, s.sink.willAccept k = decide (k < n) := by
      intro k
      rw [hsink]
      exact haccepts k
    obtain ⟨hanswer, hsession⟩ := scan_of_limited hlimited
    refine ⟨hanswer, ?_, ?_⟩
    · rw [hsession]
      exact lookup_enterAll rfl _
    · -- the fault that is refused is an error but not in the collector
      have htake : (found.diagnostics.take (n + 1)).take n = found.diagnostics.take n := by
        rw [List.take_take, Nat.min_eq_left (Nat.le_succ n)]
      rw [hsession, enterAll_sink, hsink, Sink.deliverAll_collector haccepts, List.length_take,
        htake]
  · intro calm hopen
    exact hcalm _ (source_scan s) hopen

/-- Three faults and a collector that refuses from the second on. The scan ends there with two
errors, and another sink gets the tokens of the same source later on. -/
theorem refusal_loses_nothing_of_three :
    let s := start { text := ['@', '*', '#', '"'] } (some (.newLimited 1))
    s.scan.answer = .failed .sinkClosed ∧
      (s.scan.session.lookup s.scan.session.errors).length = 2 ∧
      s.scan.session.sink =
        .collector (fun call => call < 1) 2 #[(1, "Unexpected character.")] ∧
      { s.scan.session with sink := .newCollector }.scan.answer =
        .tokens [⟨.star, ['*'], none, 1⟩, Token.endOfInput 1] := by
  intro s
  have hpieces : pieces s.source.text =
      [.stray '@', .punctuation .star, .stray '#', .openString []] := by decide +kernel
  have htokens : s.source.scan.tokens = [⟨.star, ['*'], none, 1⟩, Token.endOfInput 1] := by
    rw [Source.scan, hpieces]
    rfl
  have hfaults : s.source.scan.diagnostics =
      [.unexpectedCharacter '@' 1 "<unknown>", .unexpectedCharacter '#' 1 "<unknown>",
        .unterminatedString 1 "<unknown>"] := by
    rw [Source.scan, hpieces]
    rfl
  obtain ⟨-, -, hlimited, hlater⟩ := refusal_loses_nothing s
  obtain ⟨hanswer, herrors, hsink⟩ := hlimited (fun call => call < 1) 0 #[] 1 rfl (by simp)
  obtain ⟨hagain, -⟩ := hlater .newCollector fun k => rfl
  rw [hfaults] at hanswer herrors hsink
  rw [htokens] at hagain
  refine ⟨hanswer, ?_, hsink, hagain⟩
  rw [herrors]
  rfl

end Session

end ScriptLexer
