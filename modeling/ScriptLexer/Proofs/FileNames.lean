import ScriptLexer.Proofs.Automaton
import ScriptLexer.Proofs.Independence

/-!
# Which file a diagnostic names

A file name is held in two places: a source has one for the diagnostics that are found in it, and a
reporter has one for those that it makes itself. A fault reaches a reporter as a diagnostic that was
made before, and it is recorded as it is. Only what is delivered as a line and a message gets the
name of the reporter.

So the two ways of reporting the same faults record the same lines and messages, but **the file that
is named is that of the source in one and that of the reporter in the other**. Where the two names
differ, a reporter holds its own name in a diagnostic of a scan only if there is no fault at all.
-/

namespace ScriptLexer

theorem filename_of_mem_diagnosticsFrom {filename : String} {line : Int} {ps : List Piece}
    {d : Diagnostic} (h : d ∈ diagnosticsFrom filename line ps) : d.filename = filename := by
  induction ps generalizing line with
  | nil => cases h
  | cons p ps ih =>
    rcases List.mem_append.1 h with h | h
    · cases p with
      | stray c => rw [List.mem_singleton.1 h]; rfl
      | openString body => rw [List.mem_singleton.1 h]; rfl
      | _ => cases h
    · exact ih h

/-- The diagnostic that a reporter makes of a line and a message. -/
def Diagnostic.retold (filename : String) (d : Diagnostic) : Diagnostic where
  message := d.message
  line := d.line
  filename := filename

namespace Session

/-- The steps that deliver line and message of each diagnostic. -/
def retell (ds : List Diagnostic) : List Step := ds.map fun d => .call d.line d.message

variable {s : Session} {filename : String} {recorded : Array DiagnosticId}

/-- A reporter makes a diagnostic of its own of every line and message that is delivered. -/
theorem after_retell (hsink : s.sink = .reporter filename recorded) (ds : List Diagnostic) :
    s.after (retell ds) =
      { s with
        store := s.store ++ (ds.map (·.retold filename)).toArray
        sink := s.sink.deliverAll s.store.size (ds.map (·.retold filename)) } := by
  induction ds generalizing s recorded with
  | nil => simp [retell, after, run, Sink.deliverAll]
  | cons d ds ih =>
    have hstep : (s.step (.call d.line d.message)).session =
        (s.deliver (d.retold filename)).session := by
      rw [step, direct, hsink]
      rfl
    have hfirst : (s.deliver (d.retold filename)).session.sink =
        .reporter filename (recorded.push s.store.size) := by
      rw [deliver_session, hsink]
      rfl
    rw [retell, List.map_cons, after_cons, hstep]
    refine (ih hfirst).trans ?_
    simp [deliver_session, Sink.deliverAll]

/-- What a reporter that receives its first deliveries comes to show. -/
theorem sinkView_of_first_deliveries {t : Session} {ds : List Diagnostic}
    (hstore : t.store = ds.toArray)
    (hsink : t.sink = (Sink.newReporter filename).deliverAll 0 ds) :
    t.sinkView = .reporter filename (ds.any fun d => d.severity == "error") ds := by
  have hlookup : t.lookup (Array.range' 0 ds.length) = ds := by
    rw [lookup, hstore]
    simpa using filterMap_store_range #[] ds
  rw [sinkView, hsink, Sink.newReporter, Sink.deliverAll_reporter, Array.empty_append]
  simp only [hlookup]

/-- **A reporter records the faults of a scan under the name of the source**, and the same faults
under its own name if they are delivered as line and message. So it is its own name that a recorded
diagnostic carries only where the two names agree or where there is nothing to report. -/
theorem recorded_filenames (source : Source) (filename : String) :
    let s := start source (some (.newReporter filename))
    let faults := source.scan.diagnostics
    let retold := s.after (retell faults)
    s.scan.session.sinkView = .reporter filename (!faults.isEmpty) faults ∧
      (∀ d ∈ faults, d.filename = source.filename) ∧
      retold.sinkView =
        .reporter filename (!faults.isEmpty) (faults.map (·.retold filename)) ∧
      ((∀ d ∈ faults, d.filename = filename) ↔ source.filename = filename ∨
        Mode.code.faults 0 source.text = [] ∧ Mode.code.run source.text ≠ .string) := by
  intro s faults retold
  have hopen : s.sink.Open := fun k => rfl
  have hnames : ∀ d ∈ faults, d.filename = source.filename := fun d hd =>
    filename_of_mem_diagnosticsFrom hd
  refine ⟨?_, hnames, ?_, ?_⟩
  · have hsession := session_scan_of_open hopen
    rw [← source.any_error_diagnostics]
    refine sinkView_of_first_deliveries ?_ ?_
    · rw [hsession]
      exact Array.empty_append
    · rw [hsession]
      rfl
  · -- a severity is not told, so the reporter takes all of them for errors
    have hretold : retold = _ := after_retell (s := s) rfl faults
    have hany : ((faults.map (·.retold filename)).any fun d => d.severity == "error") =
        !faults.isEmpty := by
      cases faults <;> rfl
    rw [← hany]
    refine sinkView_of_first_deliveries ?_ ?_
    · rw [hretold]
      exact Array.empty_append
    · rw [hretold]
      rfl
  · rw [← @faultsOf_eq_nil_iff source.filename, ← diagnostics_scan_eq_faultsOf]
    constructor
    · intro hall
      cases hfaults : faults with
      | nil => exact Or.inr hfaults
      | cons d ds =>
        have hd : d ∈ faults := by rw [hfaults]; exact List.mem_cons_self
        exact Or.inl ((hnames d hd).symm.trans (hall d hd))
    · rintro (rfl | hnone) d hd
      · exact hnames d hd
      · rw [show faults = [] from hnone] at hd
        cases hd

/-- A reporter for `a.b` with a source that has no name of its own: what it records of a stray
character names `<unknown>`. -/
theorem recorded_not_under_reporter_name :
    ¬ ∀ (text : List Char) (filename : String),
      let s := start { text := text } (some (.newReporter filename))
      ∀ hadError recorded, s.scan.session.sinkView = .reporter filename hadError recorded →
        ∀ d ∈ recorded, d.filename = filename := by
  intro hall
  have hview : (start { text := ['@'] } (some (.newReporter "a.b"))).scan.session.sinkView =
      .reporter "a.b" true [.unexpectedCharacter '@' 1 "<unknown>"] := by decide +kernel
  have hname := hall ['@'] "a.b" _ _ hview _ List.mem_cons_self
  exact absurd hname (by decide)

end Session

end ScriptLexer
