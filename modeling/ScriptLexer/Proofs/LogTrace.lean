import ScriptLexer.Proofs.Automaton
import ScriptLexer.Proofs.Refusal
import ScriptLexer.Proofs.WrittenRecords

/-!
# The log is a trace

The log tells what happens and takes no part in it. Three facts make it an exact trace.

* The level changes nothing but the lines. Take the level changes out of a run and every other step
  ends as before, up to the level in force (`Session.others_run`).
* What a step notes does not depend on the level, and each record is shown if its level admits it,
  once, as the two loggers of the package would write it (`Session.flatMap_lines_packageLoggers`).
* What is noted follows from the sink and the diagnostics delivered to it. A reporter notes each of
  them in order and refuses none, and any other sink notes none (`Session.records_faults`). A scan
  puts one record in front, and one behind unless the sink refuses.
-/

namespace ScriptLexer

open Log

/-! ## What is noted -/

/-- The records that a sink makes of the diagnostics delivered to it. -/
def Sink.recordsOf (ds : List Diagnostic) : Sink → List Record
  | reporter _ _ => ds.map Diagnostic.record
  | collector _ _ _ => []

theorem Sink.records_deliver (sink : Sink) (id : DiagnosticId) (d : Diagnostic) :
    (sink.deliver id d).records = sink.recordsOf [d] := by
  cases sink with
  | reporter filename recorded => rfl
  | collector accepts calls collected =>
    rw [deliver]
    split <;> rfl

theorem Sink.recordsOf_deliver (sink : Sink) (id : DiagnosticId) (d : Diagnostic)
    (ds : List Diagnostic) : (sink.deliver id d).sink.recordsOf ds = sink.recordsOf ds := by
  cases sink with
  | reporter filename recorded => rfl
  | collector accepts calls collected =>
    rw [deliver]
    split <;> rfl

theorem Sink.recordsOf_nil (sink : Sink) : sink.recordsOf [] = [] := by
  cases sink <;> rfl

theorem Sink.recordsOf_append (sink : Sink) (ds es : List Diagnostic) :
    sink.recordsOf (ds ++ es) = sink.recordsOf ds ++ sink.recordsOf es := by
  cases sink with
  | reporter filename recorded => exact List.map_append
  | collector accepts calls collected => rfl

/-- A sink that can refuse notes nothing. -/
theorem Sink.recordsOf_of_refusing {sink : Sink} {k : Nat} (h : sink.willAccept k = false)
    (ds : List Diagnostic) : sink.recordsOf ds = [] := by
  cases sink with
  | reporter filename recorded => cases h
  | collector accepts calls collected => rfl

namespace Session

/-- **All faults of a source are noted or none**, since the sinks that note them do not refuse. -/
theorem records_faults (s : Session) (ds : List Diagnostic) :
    (s.faults ds).records = s.sink.recordsOf ds := by
  induction ds generalizing s with
  | nil => exact s.sink.recordsOf_nil.symm
  | cons d ds ih =>
    have hfirst : (s.fault d).records = s.sink.recordsOf [d] := by
      rw [records_fault, Sink.records_deliver]
    rw [faults]
    by_cases haccepted : (s.fault d).accepted = true
    · have hothers := ih (s.fault d).session
      rw [fault_session, Sink.recordsOf_deliver] at hothers
      rw [if_pos haccepted]
      change (s.fault d).records ++ ((s.fault d).session.faults ds).records = _
      rw [hfirst, fault_session, hothers, ← Sink.recordsOf_append]
      rfl
    · rw [accepted_fault, Bool.not_eq_true] at haccepted
      rw [accepted_fault, haccepted, if_neg Bool.false_ne_true, hfirst,
        Sink.recordsOf_of_refusing haccepted, Sink.recordsOf_of_refusing haccepted]

theorem records_scan (s : Session) :
    let reported := faults { s with errors := #[] } s.source.scan.diagnostics
    s.scan.records = openingRecord s.source :: (s.sink.recordsOf s.source.scan.diagnostics ++
      if reported.accepted then
        [closingRecord s.source s.source.scan.tokens.length reported.session.errors.size]
      else []) := by
  intro reported
  have hfaults : reported.records = s.sink.recordsOf s.source.scan.diagnostics :=
    records_faults _ _
  rw [← hfaults, scan]
  by_cases haccepted : reported.accepted = true
  · simp only [reported] at haccepted
    simp only [if_pos haccepted, reported, List.cons_append]
  · simp only [reported] at haccepted
    simp only [if_neg haccepted, reported, List.append_nil]

/-- The diagnostics that a step hands to the sink. They are those that the step makes, but for the
one step that takes a diagnostic from the store. -/
def handed (s : Session) : Step → List Diagnostic
  | .reportAgain id => (s.store[id]?).toList
  | step => (s.step step).session.store.toList.drop s.store.size

/-- A step that is no scan notes the diagnostics that it hands to the sink, and nothing else. -/
theorem records_step (s : Session) {step : Step} (h : step ≠ .scan) :
    (s.step step).records = s.sink.recordsOf (s.handed step) := by
  have hnone : [] = s.sink.recordsOf (s.store.toList.drop s.store.size) := by
    rw [← Array.length_toList, List.drop_length, Sink.recordsOf_nil]
  have hone : ∀ d, (s.sink.deliver s.store.size d).records =
      s.sink.recordsOf ((s.store.push d).toList.drop s.store.size) := by
    intro d
    rw [Sink.records_deliver, Array.toList_push, ← Array.length_toList, List.drop_left]
  cases step with
  | scan => exact absurd rfl h
  | scanToken =>
    change s.scanToken.records =
      s.sink.recordsOf (s.scanToken.session.store.toList.drop s.store.size)
    rw [scanToken]
    cases s.source.read? s.cursor with
    | none => exact hnone
    | some reading =>
      cases hfault : reading.piece.fault? s.source.filename s.cursor.line with
      | none => simp only [hfault]; exact hnone
      | some d => simp only [hfault]; exact hone d
  | edit index edit =>
    change (s.edit index edit).records =
      s.sink.recordsOf ((s.edit index edit).session.store.toList.drop s.store.size)
    rw [Session.edit]
    cases (Text.index? s.errors.size index).bind (s.errors[·]?) with
    | none => exact hnone
    | some id =>
      -- no diagnostic is added
      have hsize : (s.store.modify id edit.apply).toList.length = s.store.size := by
        rw [Array.length_toList, Array.size_modify]
      change [] = s.sink.recordsOf ((s.store.modify id edit.apply).toList.drop s.store.size)
      rw [← hsize, List.drop_length, Sink.recordsOf_nil]
  | call line message => exact hone _
  | report d => exact hone d
  | reportAgain id =>
    rw [Session.step, again, handed]
    cases s.store[id]? with
    | none => exact s.sink.recordsOf_nil.symm
    | some d => exact s.sink.records_deliver id d
  | _ => exact hnone

end Session

/-! ## Runs without level changes -/

/-- The level that a step sets. -/
def Step.level? : Step → Option Level
  | setLevel level => some level
  | _ => none

theorem Step.eq_setLevel {step : Step} {level : Level} (h : step.level? = some level) :
    step = .setLevel level := by
  cases step with
  | setLevel next => rw [Option.some.inj h]
  | _ => cases h

/-- The steps that leave the level alone. -/
def quiet (steps : List Step) : List Step := steps.filter fun step => step.level?.isNone

/-- The outcomes of the steps that leave the level alone. -/
def othersOf (steps : List Step) (os : List Outcome) : List Outcome :=
  ((steps.zip os).filter fun x => x.1.level?.isNone).map Prod.snd

/-- The level in force at each of the steps that leave it alone. -/
def levelsAt (level : Level) : List Step → List Level
  | [] => []
  | step :: steps =>
    match step.level? with
    | some next => levelsAt next steps
    | none => level :: levelsAt level steps

/-- The session with its log at another level. -/
def Session.atLevel (s : Session) (level : Level) : Session := { s with level := level }

/-- The same answer and the same records, with the log at another level. -/
def Outcome.atLevel (o : Outcome) (level : Level) : Outcome :=
  { o with session := o.session.atLevel level }

namespace Session

theorem faults_atLevel (s : Session) (level : Level) (ds : List Diagnostic) :
    (s.atLevel level).faults ds =
      { s.faults ds with session := (s.faults ds).session.atLevel level } :=
  faults_map (f := fun s => s.atLevel level) (fun _ _ => rfl) s ds

theorem scan_atLevel (s : Session) (level : Level) :
    (s.atLevel level).scan = s.scan.atLevel level := by
  have hscan : (s.atLevel level).source.scan = s.source.scan := rfl
  have hfaults : faults { s.atLevel level with errors := #[] } s.source.scan.diagnostics = _ :=
    faults_atLevel { s with errors := #[] } level s.source.scan.diagnostics
  have hanswer : (s.atLevel level).scan.answer = s.scan.answer := by
    rw [answer_scan, answer_scan, hscan, hfaults]
  have hsession : (s.atLevel level).scan.session = s.scan.session.atLevel level := by
    rw [session_scan, session_scan, hscan, hfaults]
  have hrecords : (s.atLevel level).scan.records = s.scan.records := by
    rw [records_scan, records_scan, hscan, hfaults]
    rfl
  exact (Outcome.mk.injEq ..).mpr ⟨hsession, hanswer, hrecords⟩

theorem scanToken_atLevel (s : Session) (level : Level) :
    (s.atLevel level).scanToken = s.scanToken.atLevel level := by
  have hsource : (s.atLevel level).source = s.source := rfl
  have hcursor : (s.atLevel level).cursor = s.cursor := rfl
  unfold scanToken
  rw [hsource, hcursor]
  cases s.source.read? s.cursor with
  | none => rfl
  | some reading =>
    cases hfault : reading.piece.fault? s.source.filename s.cursor.line with
    | none => simp only [hfault]; rfl
    | some d => simp only [hfault]; rfl

theorem edit_atLevel (s : Session) (level : Level) (index : Int) (edit : Edit) :
    (s.atLevel level).edit index edit = (s.edit index edit).atLevel level := by
  have herrors : (s.atLevel level).errors = s.errors := rfl
  unfold Session.edit
  rw [herrors]
  cases (Text.index? s.errors.size index).bind (s.errors[·]?) <;> rfl

theorem again_atLevel (s : Session) (level : Level) (id : DiagnosticId) :
    (s.atLevel level).again id = (s.again id).atLevel level := by
  have hstore : (s.atLevel level).store = s.store := rfl
  unfold again
  rw [hstore]
  cases s.store[id]? <;> rfl

/-- **A step does not look at the level.** -/
theorem step_atLevel (s : Session) (level : Level) {step : Step} (h : step.level? = none) :
    (s.atLevel level).step step = (s.step step).atLevel level := by
  cases step with
  | scan => exact s.scan_atLevel level
  | scanToken => exact s.scanToken_atLevel level
  | edit index edit => exact s.edit_atLevel level index edit
  | reportAgain id => exact s.again_atLevel level id
  | setLevel next => cases h
  | _ => rfl

/-- It does not change it either. -/
theorem level_step (s : Session) {step : Step} (h : step.level? = none) :
    (s.step step).session.level = s.level :=
  congrArg (fun o => o.session.level) (s.step_atLevel s.level h)

theorem run_atLevel (s : Session) (level : Level) {steps : List Step}
    (h : ∀ step ∈ steps, step.level? = none) :
    (s.atLevel level).run steps = (s.run steps).map fun o => o.atLevel level := by
  induction steps generalizing s with
  | nil => rfl
  | cons step steps ih =>
    have hrest := ih (s.step step).session fun other hother =>
      h other (List.mem_cons_of_mem _ hother)
    rw [run, run, s.step_atLevel level (h step List.mem_cons_self), List.map_cons]
    exact congrArg _ hrest

/-- **Level changes change nothing else.** The other steps of a run end as they do without them. -/
theorem others_run (s : Session) (steps : List Step) (level : Level) :
    othersOf steps (s.run steps) =
      List.zipWith Outcome.atLevel ((s.atLevel level).run (quiet steps))
        (levelsAt s.level steps) := by
  induction steps generalizing s with
  | nil => rfl
  | cons step steps ih =>
    cases hlevel : step.level? with
    | some next =>
      obtain rfl := Step.eq_setLevel hlevel
      exact ih (s.atLevel next)
    | none =>
      have hkept : quiet (step :: steps) = step :: quiet steps :=
        List.filter_cons_of_pos (by rw [hlevel]; rfl)
      have hothers : othersOf (step :: steps) (s.run (step :: steps)) =
          s.step step :: othersOf steps ((s.step step).session.run steps) := by
        rw [run, othersOf, List.zip_cons_cons, List.filter_cons_of_pos (by rw [hlevel]; rfl)]
        rfl
      have hsame : ((s.step step).atLevel level).atLevel s.level = s.step step := by
        rw [← s.level_step hlevel]
        rfl
      have hrest := ih (s.step step).session
      rw [s.level_step hlevel] at hrest
      rw [hothers, hkept, run, s.step_atLevel level hlevel, levelsAt, hlevel,
        List.zipWith_cons_cons, hsame, hrest]
      rfl

end Session

/-! ## What is shown -/

/-- The line that opens a scan. -/
def scanningLine (source : Source) : String :=
  "[DEBUG] interp.lexer.scanner: " ++ ("Scanning " ++ source.filename ++ " (" ++
    toString source.text.length ++ " characters)")

/-- The line that closes a scan. -/
def scannedLine (source : Source) (tokens errors : Nat) : String :=
  "[DEBUG] interp.lexer.scanner: " ++ ("Scanned " ++ source.filename ++ ": " ++
    toString tokens ++ " tokens, " ++ toString errors ++ " errors")

/-- The line of a diagnostic. -/
def errorLine (d : Diagnostic) : String :=
  "[ERROR] interp.lexer.errors: " ++ ("[line " ++ String.ofList (Text.ofInt d.line) ++
    "] Error: " ++ d.message)

/-- The lines about diagnostics that were delivered to a sink. Only a reporter has any. -/
def Sink.errorLines (ds : List Diagnostic) : Sink → List String
  | reporter _ _ => ds.map errorLine
  | collector _ _ _ => []

theorem scanner_head :
    "[" ++ "DEBUG" ++ "] " ++ "interp.lexer.scanner" ++ ": " =
      "[DEBUG] interp.lexer.scanner: " := by
  decide +kernel

theorem errors_head :
    "[" ++ "ERROR" ++ "] " ++ "interp.lexer.errors" ++ ": " =
      "[ERROR] interp.lexer.errors: " := by
  decide +kernel

theorem line_openingRecord (source : Source) :
    (Session.openingRecord source).line = scanningLine source :=
  congrArg (fun head => head ++ (Session.openingRecord source).message) scanner_head

theorem line_closingRecord (source : Source) (tokens errors : Nat) :
    (Session.closingRecord source tokens errors).line = scannedLine source tokens errors :=
  congrArg (fun head => head ++ (Session.closingRecord source tokens errors).message) scanner_head

theorem line_record (d : Diagnostic) : d.record.line = errorLine d :=
  congrArg (fun head => head ++ d.record.message) errors_head

theorem map_line_recordsOf (sink : Sink) (ds : List Diagnostic) :
    (sink.recordsOf ds).map Record.line = sink.errorLines ds := by
  cases sink with
  | reporter filename recorded =>
    rw [Sink.recordsOf, Sink.errorLines, List.map_map]
    exact List.map_congr_left fun d _ => line_record d
  | collector accepts calls collected => rfl

theorem lines_atLevel (o : Outcome) (level : Level) :
    (o.atLevel level).lines = (o.records.filter fun r => level.admits r.level).map Record.line :=
  rfl

/-- At `debug` everything is shown. -/
theorem lines_debug {o : Outcome} (h : o.session.level = .debug) :
    o.lines = o.records.map Record.line := by
  rw [Outcome.lines, h, List.filter_eq_self.2]
  intro r _
  exact decide_eq_true (Nat.zero_le _)

/-! ## The loggers of the package -/

/-- The loggers that the package writes to. -/
def loggerNames : List String := ["interp.lexer.errors", "interp.lexer.scanner"]

/-- Sets both to a level. -/
def levelRequests (level : Level) : List Request :=
  loggerNames.map fun name => .setLevel name (some level)

/-- All loggers, when those two have been set to a level. -/
def packageLoggers (level : Level) : Registry := Registry.initial.after (levelRequests level)

theorem lines_packageLoggers (level : Level) {r : Record} (h : r.logger ∈ loggerNames) :
    (packageLoggers level).lines r = if level.admits r.level then [r.line] else [] := by
  have hown : ∀ name ∈ loggerNames,
      ownLevel? name (loading ++ levelRequests level) = some (some level) := by
    cases level <;> decide +kernel
  have habove : ∀ name ∈ loggerNames,
      obtainedAbove name (loading ++ levelRequests level) = [] := by
    cases level <;> decide +kernel
  have hroot : rootName ∉ obtainedNames (loading ++ levelRequests level) := by
    cases level <;> decide +kernel
  exact Registry.lines_of_obtainedAbove_eq_nil (Registry.grown_initial_after _)
    (Registry.follows_initial_after _) hroot (hown _ h) (habove _ h)

namespace Session

variable {s : Session}

theorem logger_mem_of_mem_records {step : Step} {r : Record} (h : r ∈ (s.step step).records) :
    r.logger ∈ loggerNames := by
  have hnoted : ∀ ds, r ∈ s.sink.recordsOf ds → r.logger ∈ loggerNames := by
    intro ds hr
    cases hsink : s.sink with
    | reporter filename recorded =>
      rw [hsink] at hr
      obtain ⟨d, -, rfl⟩ := List.mem_map.1 hr
      exact List.mem_cons_self
    | collector accepts calls collected =>
      rw [hsink] at hr
      cases hr
  by_cases hscan : step = .scan
  · rw [hscan, Session.step, records_scan] at h
    rcases List.mem_cons.1 h with rfl | h
    · exact List.mem_cons_of_mem _ List.mem_cons_self
    · rcases List.mem_append.1 h with h | h
      · exact hnoted _ h
      · split at h
        · obtain rfl := List.mem_singleton.1 h
          exact List.mem_cons_of_mem _ List.mem_cons_self
        · cases h
  · rw [s.records_step hscan] at h
    exact hnoted _ h

theorem logger_mem_of_mem_run {steps : List Step} {o : Outcome} (ho : o ∈ s.run steps)
    {r : Record} (h : r ∈ o.records) : r.logger ∈ loggerNames := by
  induction steps generalizing s with
  | nil => cases ho
  | cons step steps ih =>
    rcases List.mem_cons.1 ho with rfl | ho
    · exact logger_mem_of_mem_records h
    · exact ih ho

/-- **What is shown is what the two loggers write**, and each record is written once. -/
theorem flatMap_lines_packageLoggers {steps : List Step} {o : Outcome} (ho : o ∈ s.run steps)
    (level : Level) :
    o.records.flatMap (packageLoggers level).lines = (o.atLevel level).lines := by
  have hwritten : o.records.flatMap (packageLoggers level).lines =
      o.records.flatMap fun r => if level.admits r.level then [r.line] else [] := by
    refine List.flatMap_congr fun r hr => ?_
    exact lines_packageLoggers level (logger_mem_of_mem_run ho hr)
  rw [hwritten, lines_atLevel]
  induction o.records with
  | nil => rfl
  | cons r rs ih =>
    rw [List.flatMap_cons, ih, List.filter_cons]
    split <;> rfl

/-! ## Scans -/

/-- Behind a scan that nothing refused, the errors are the faults of the source. -/
theorem scan_of_answer {tokens : List Token} (h : s.scan.answer = .tokens tokens) :
    tokens = s.source.scan.tokens ∧ s.scan.errors = s.source.scan.diagnostics ∧
      (faults { s with errors := #[] } s.source.scan.diagnostics).accepted = true := by
  rw [answer_scan] at h
  by_cases haccepted : (faults { s with errors := #[] } s.source.scan.diagnostics).accepted = true
  · rw [if_pos haccepted] at h
    refine ⟨(Answer.tokens.inj h).symm, ?_, haccepted⟩
    rw [Outcome.errors, session_scan, session_faults_of_accepted haccepted]
    exact lookup_enterAll rfl _
  · rw [if_neg haccepted] at h
    cases h

/-- A scan that a refusal broke off has noted its beginning only. -/
theorem records_scan_of_failed (h : s.scan.answer = .failed .sinkClosed) :
    s.scan.records = [openingRecord s.source] := by
  rw [answer_scan] at h
  have hrefused :
      ¬ (faults { s with errors := #[] } s.source.scan.diagnostics).accepted = true := by
    intro haccepted
    rw [if_pos haccepted] at h
    cases h
  have hsilent : s.sink.recordsOf s.source.scan.diagnostics = [] := by
    cases hsink : s.sink with
    | reporter filename recorded =>
      -- a reporter would have accepted everything
      have hopen : ∀ k < s.source.scan.diagnostics.length, s.sink.willAccept k = true := by
        intro k _
        rw [hsink]
        rfl
      exact absurd (faults_of_accepting (s := { s with errors := #[] }) hopen).1 hrefused
    | collector accepts calls collected => rfl
  rw [records_scan, hsilent, if_neg hrefused]
  rfl

/-- What the log of a session at `debug` tells of a scan that ends in `o`. -/
structure TracesScan (s : Session) (o : Outcome) : Prop where
  answer : o.answer = .failed .sinkClosed ∨ ∃ tokens, o.answer = .tokens tokens
  /-- The errors are between the two lines that tell of the scan, and the last counts them. -/
  whole : ∀ tokens, o.answer = .tokens tokens →
    o.lines = scanningLine s.source :: (s.sink.errorLines o.errors ++
      [scannedLine s.source tokens.length o.session.errors.size])
  brokenOff : o.answer = .failed .sinkClosed → o.lines = [scanningLine s.source]
  /-- A collector that accepts `n` more deliveries breaks off the scan at the next. -/
  limited : ∀ accepts calls collected n, s.sink = .collector accepts calls collected →
    (∀ k, accepts (calls + k) = decide (k < n)) →
    (o.lines = [scanningLine s.source] ↔ n < s.source.scan.diagnostics.length)

theorem tracesScan (s : Session) : s.TracesScan (s.atLevel .debug).scan := by
  rw [scan_atLevel]
  have hlines : (s.scan.atLevel .debug).lines = s.scan.records.map Record.line := lines_debug rfl
  have hanswer : s.scan.answer = .failed .sinkClosed ∨
      ∃ tokens, s.scan.answer = .tokens tokens := by
    rw [answer_scan]
    split
    · exact Or.inr ⟨_, rfl⟩
    · exact Or.inl rfl
  have hwhole : ∀ tokens, s.scan.answer = .tokens tokens →
      (s.scan.atLevel .debug).lines = scanningLine s.source :: (s.sink.errorLines s.scan.errors ++
        [scannedLine s.source tokens.length s.scan.session.errors.size]) := by
    intro tokens htokens
    obtain ⟨rfl, herrors, haccepted⟩ := scan_of_answer htokens
    rw [hlines, herrors, records_scan, if_pos haccepted, List.map_cons, List.map_append,
      line_openingRecord, map_line_recordsOf, List.map_singleton, line_closingRecord, session_scan]
  have hbroken : s.scan.answer = .failed .sinkClosed →
      (s.scan.atLevel .debug).lines = [scanningLine s.source] := by
    intro hfailed
    rw [hlines, records_scan_of_failed hfailed, List.map_singleton, line_openingRecord]
  refine ⟨hanswer, hwhole, hbroken, ?_⟩
  intro accepts calls collected n hsink haccepts
  have hlimited : ∀ k, s.sink.willAccept k = decide (k < n) := by
    intro k
    rw [hsink]
    exact haccepts k
  have hend := (scan_of_limited hlimited).1
  by_cases hlen : s.source.scan.diagnostics.length ≤ n
  · rw [if_pos hlen] at hend
    -- the closing line is there
    have htwo := congrArg List.length (hwhole _ hend)
    rw [List.length_cons, List.length_append, List.length_singleton] at htwo
    refine ⟨fun hone => ?_, fun hlt => by omega⟩
    rw [hone, List.length_singleton] at htwo
    omega
  · rw [if_neg hlen] at hend
    exact iff_of_true (hbroken hend) (by omega)

/-- What the log at `debug` tells of a scan whose first fault is fatal, if that scan ends in `o`. -/
structure TracesFatal (source : Source) (o : Outcome) : Prop where
  fatal : ∀ d, source.tokenize = .error d ↔ o.errors.head? = some d
  ok : ∀ tokens, source.tokenize = .ok tokens ↔ o.errors = [] ∧ o.answer = .tokens tokens
  /-- The scan goes on behind the fatal fault, and the log with it. -/
  lines : o.lines = scanningLine source :: (o.errors.map errorLine ++
    [scannedLine source source.scan.tokens.length o.errors.length])

theorem tracesFatal (source : Source) :
    TracesFatal source ((start source).atLevel .debug).scan := by
  have hopen : ((start source).atLevel .debug).sink.Open := fun k => rfl
  obtain ⟨hanswer, hsession⟩ := scan_of_open hopen
  have herrors : ((start source).atLevel .debug).scan.errors = source.scan.diagnostics :=
    lookup_scan_of_open hopen
  have hwhole := (start source).tracesScan.whole source.scan.tokens hanswer
  have hsize : ((start source).atLevel .debug).scan.session.errors.size =
      source.scan.diagnostics.length := by
    rw [hsession, enterAll_eq]
    simp only [Array.empty_append, Array.size_range']
    rfl
  refine ⟨fun d => ?_, fun tokens => ?_, ?_⟩
  · rw [Source.tokenize_eq_error_iff, herrors]
  · have htokens : ((start source).atLevel .debug).scan.answer = .tokens source.scan.tokens :=
      hanswer
    rw [Source.tokenize_eq_ok_iff, herrors, htokens, Answer.tokens.injEq, and_comm,
      eq_comm (a := tokens)]
  · rw [hwhole, hsize, herrors]
    rfl

/-! ## The trace of a run -/

/-- **The log is an exact trace and changes nothing.** Every step but the level changes ends as it
does in a run without them, whatever the level of that run, and is left at the level in force. Of
the lines it shows at `debug` it shows those that this level admits, as the two loggers of the
package write them. At `debug` the lines are those of `TracesScan` for a scan, those of
`TracesFatal` for one whose first fault is fatal, and one for each diagnostic that any other step
hands to a reporter, whether it was just made or made before. -/
theorem log_exact_trace (s : Session) (steps : List Step) :
    let calm := (s.atLevel .debug).run (quiet steps)
    (∀ base, othersOf steps (s.run steps) = List.zipWith Outcome.atLevel
      ((s.atLevel base).run (quiet steps)) (levelsAt s.level steps)) ∧
    (∀ o ∈ calm, o.lines = o.records.map Record.line ∧ ∀ level,
      (o.atLevel level).lines =
          (o.records.filter fun r => level.admits r.level).map Record.line ∧
        (o.atLevel level).lines = o.records.flatMap (packageLoggers level).lines) ∧
    s.TracesScan (s.atLevel .debug).scan ∧
    TracesFatal s.source ((start s.source).atLevel .debug).scan ∧
    ∀ step, step ≠ .scan →
      ((s.atLevel .debug).step step).lines =
        s.sink.errorLines ((s.atLevel .debug).handed step) := by
  intro calm
  refine ⟨s.others_run steps, fun o ho => ⟨?_, fun level => ⟨rfl, ?_⟩⟩, s.tracesScan,
    tracesFatal s.source, fun step hstep => ?_⟩
  · have hquiet : ∀ step ∈ quiet steps, step.level? = none := fun step hstep =>
      Option.isNone_iff_eq_none.1 (List.mem_filter.1 hstep).2
    rw [show calm = _ from s.run_atLevel .debug hquiet] at ho
    obtain ⟨other, -, rfl⟩ := List.mem_map.1 ho
    exact lines_debug rfl
  · exact (flatMap_lines_packageLoggers ho level).symm
  · have hnoted := (s.atLevel .debug).records_step hstep
    have hlines : ((s.atLevel .debug).step step).lines =
        ((s.atLevel .debug).step step).records.map Record.line := by
      cases hlevel : step.level? with
      | none => exact lines_debug ((s.atLevel .debug).level_step hlevel)
      | some level =>
        obtain rfl := Step.eq_setLevel hlevel
        rfl
    change ((s.atLevel .debug).step step).lines = _
    rw [hlines, hnoted, map_line_recordsOf]
    rfl

/-- Two faults, of which a collector accepts one and a reporter both, and a late message that is
not grave enough. -/
theorem log_exact_trace_of_two_faults :
    let source : Source := { text := ['@', '\n', '"'], filename := "a.script" }
    let s := start source (some (.newLimited 1))
    let t := start source
    let o := (t.atLevel .debug).step (.call 3 "late")
    (s.atLevel .debug).scan.lines =
        ["[DEBUG] interp.lexer.scanner: Scanning a.script (3 characters)"] ∧
      (t.atLevel .debug).scan.lines =
        ["[DEBUG] interp.lexer.scanner: Scanning a.script (3 characters)",
          "[ERROR] interp.lexer.errors: [line 1] Error: Unexpected character.",
          "[ERROR] interp.lexer.errors: [line 2] Error: Unterminated string.",
          "[DEBUG] interp.lexer.scanner: Scanned a.script: 1 tokens, 2 errors"] ∧
      source.tokenize = .error (.unexpectedCharacter '@' 1 "a.script") ∧
      o.lines = ["[ERROR] interp.lexer.errors: [line 3] Error: late"] ∧
      othersOf [.setLevel .critical, .call 3 "late"]
        (t.run [.setLevel .critical, .call 3 "late"]) = [o.atLevel .critical] ∧
      (o.atLevel .critical).lines = [] := by
  intro source s t o
  have hpieces : pieces source.text = [.stray '@', .newline, .openString []] := by decide +kernel
  have hfaults : source.scan.diagnostics =
      [.unexpectedCharacter '@' 1 "a.script", .unterminatedString 2 "a.script"] := by
    rw [Source.scan, hpieces]
    rfl
  have htokens : source.scan.tokens = [Token.endOfInput 2] := by
    rw [Source.scan, hpieces]
    rfl
  have hopen : (t.atLevel .debug).sink.Open := fun k => rfl
  have hanswer : (t.atLevel .debug).scan.answer = .tokens [Token.endOfInput 2] := by
    rw [(scan_of_open hopen).1]
    exact congrArg Answer.tokens htokens
  have herrors : (t.atLevel .debug).scan.errors = source.scan.diagnostics :=
    lookup_scan_of_open hopen
  obtain ⟨-, -, hs, -⟩ := log_exact_trace s []
  obtain ⟨hothers, hshown, ht, hfatal, hstep⟩ :=
    log_exact_trace t [.setLevel .critical, .call 3 "late"]
  have hlate : o.lines = [errorLine ⟨"late", 3, "error", none, "a.script", none⟩] :=
    hstep (.call 3 "late") (by simp)
  have hnone := ((hshown o List.mem_cons_self).2 .critical).1
  refine ⟨?_, ?_, ?_, ?_, hothers .debug, hnone⟩
  · have hone : 1 < source.scan.diagnostics.length := by
      rw [hfaults]
      exact Nat.lt_succ_self 1
    rw [(hs.limited (fun call => call < 1) 0 #[] 1 rfl (by simp)).2 hone]
    decide +kernel
  · have hsize : (t.atLevel .debug).scan.session.errors.size = 2 := by decide +kernel
    rw [ht.whole _ hanswer, hsize, herrors, hfaults]
    decide +kernel
  · refine (hfatal.fatal _).2 ?_
    change (t.atLevel .debug).scan.errors.head? = _
    rw [herrors, hfaults]
    rfl
  · rw [hlate]
    decide +kernel

end Session

end ScriptLexer
