import ScriptLexer.Proofs.Bookkeeping
import ScriptLexer.Proofs.WholeScan

/-!
# A scan does not look back

What a scan answers and finds depends on the text, the file name and the table of reserved words,
and on nothing else that a session carries along: not on the scans before it, not on errors that
were edited, not on the cursor, the level of the log or the kind of sink.

Half of this is that a scan reads no more of the session (`Source.scan_congr`). The other half is
that it overwrites nothing. A scan only appends to the store, so a list is shown as before if all
its numbers have been given out already. For the sink and the held list that is not a property of
one state. It holds in the states that a run can reach, and it is read off from their books.
-/

namespace ScriptLexer

/-! ## What a scan reads -/

section Congr

variable {keywords others : Keywords}

theorem Piece.token?_congr (h : ∀ w, keywords.lookup w = others.lookup w) (line : Int)
    (p : Piece) : p.token? keywords line = p.token? others line := by
  have hkind : p.kind? keywords = p.kind? others := by
    cases p with
    | word w => simp only [kind?, Keywords.kindOf, h]
    | _ => rfl
  rw [token?, token?, hkind]

/-- Tables that answer alike give the same tokens. -/
theorem tokensFrom_congr (h : ∀ w, keywords.lookup w = others.lookup w) (line : Int)
    (ps : List Piece) : tokensFrom keywords line ps = tokensFrom others line ps := by
  induction ps generalizing line with
  | nil => rfl
  | cons p ps ih => rw [tokensFrom, tokensFrom, p.token?_congr h, ih]

theorem Source.scan_congr {source other : Source} (htext : source.text = other.text)
    (hfilename : source.filename = other.filename)
    (hkeywords : ∀ w, source.keywords.lookup w = other.keywords.lookup w) :
    source.scan = other.scan := by
  rw [scan, scan, htext, hfilename, tokensFrom_congr hkeywords]

end Congr

/-- The faults of a scan are errors, whatever was made of the diagnostics before them. -/
theorem severity_of_mem_diagnosticsFrom {filename : String} {line : Int} {ps : List Piece}
    {d : Diagnostic} (h : d ∈ diagnosticsFrom filename line ps) : d.severity = "error" := by
  induction ps generalizing line with
  | nil => cases h
  | cons p ps ih =>
    rcases List.mem_append.1 h with h | h
    · have hfault : p.fault? filename line = some d := Option.mem_toList.1 h
      cases p with
      | stray c =>
        obtain rfl := Option.some.inj hfault
        rfl
      | openString body =>
        obtain rfl := Option.some.inj hfault
        rfl
      | _ => cases hfault
    · exact ih h

theorem Source.any_error_diagnostics (source : Source) :
    source.scan.diagnostics.any (fun d => d.severity == "error") =
      !source.scan.diagnostics.isEmpty := by
  cases hfound : source.scan.diagnostics with
  | nil => rfl
  | cons d ds =>
    have hmem : d ∈ source.scan.diagnostics := hfound ▸ List.mem_cons_self
    have herror : d.severity = "error" := severity_of_mem_diagnosticsFrom hmem
    rw [List.any_cons, herror]
    rfl

/-! ## Numbers that have been given out -/

section Known

variable {history : List Event} {id : DiagnosticId}

theorem sinceLast_subset (p : Event → Bool) (history : List Event) :
    sinceLast p history ⊆ history := (List.rtakeWhile_suffix _ _).subset

theorem upToLast_subset (p : Event → Bool) (history : List Event) :
    upToLast p history ⊆ history := (List.rdropWhile_prefix _ _).subset

theorem delivered_of_mem {e : Event} {d : Diagnostic} (h : e ∈ history)
    (hdelivery : e.delivery? = some (id, d)) : id ∈ (deliveries history).map Prod.fst :=
  List.mem_map.2 ⟨(id, d), List.mem_filterMap.2 ⟨e, h, hdelivery⟩, rfl⟩

theorem delivered_of_mem_errorsOf (h : id ∈ errorsOf history) :
    id ∈ (deliveries history).map Prod.fst := by
  obtain ⟨e, he, hfault⟩ := List.mem_filterMap.1 h
  cases e with
  | fault made d =>
    obtain rfl := Option.some.inj hfault
    exact delivered_of_mem (sinceLast_subset _ _ he) rfl
  | _ => cases hfault

theorem delivered_of_mem_recordedOf (h : id ∈ recordedOf history) :
    id ∈ (deliveries history).map Prod.fst := by
  obtain ⟨⟨id, d⟩, hx, rfl⟩ := List.mem_map.1 h
  obtain ⟨e, he, hdelivery⟩ := List.mem_filterMap.1 hx
  exact delivered_of_mem (sinceLast_subset _ _ he) hdelivery

theorem delivered_of_mem_heldOf (h : id ∈ heldOf history) :
    id ∈ (deliveries history).map Prod.fst := by
  obtain ⟨⟨id, d⟩, hx, rfl⟩ := List.mem_map.1 (delivered_of_mem_errorsOf h)
  obtain ⟨e, he, hdelivery⟩ := List.mem_filterMap.1 hx
  exact delivered_of_mem (upToLast_subset _ _ he) hdelivery

end Known

namespace Session

variable {s t : Session} {history : List Event}

/-- A session in which some run has ended. -/
def Reachable (s : Session) : Prop :=
  ∃ (source : Source) (sink? : Option Sink) (steps : List Step),
    (∀ sink ∈ sink?, sink.IsNew) ∧ s = (start source sink?).after steps

/-- All these numbers have been given out. -/
def Knows (s : Session) (ids : Array DiagnosticId) : Prop := ∀ id ∈ ids, id < s.store.size

/-- What was delivered, perhaps more than once, is in the store. -/
theorem Books.knows (h : Books s history) {ids : Array DiagnosticId}
    (hids : ∀ id ∈ ids.toList, id ∈ (deliveries history).map Prod.fst) : s.Knows ids := by
  intro id hid
  obtain ⟨x, hx, rfl⟩ := List.mem_map.1 (hids id (Array.mem_toList_iff.2 hid))
  have hvalue := h.delivered.isSome_valueOf hx
  rw [← h.store] at hvalue
  obtain ⟨d, hd⟩ := Option.isSome_iff_exists.1 hvalue
  exact (Array.getElem?_eq_some_iff.1 hd).1

theorem Reachable.exists_books (h : s.Reachable) : ∃ history, Books s history := by
  obtain ⟨source, sink?, steps, hnew, rfl⟩ := h
  exact ⟨_, books_after (books_start source hnew) steps⟩

theorem Reachable.knows_held (h : s.Reachable) : s.Knows s.held := by
  obtain ⟨history, hbooks⟩ := h.exists_books
  refine hbooks.knows ?_
  intro id hid
  rw [hbooks.held] at hid
  exact delivered_of_mem_heldOf hid

theorem Reachable.knows_recorded (h : s.Reachable) {filename : String}
    {recorded : Array DiagnosticId} (hsink : s.sink = .reporter filename recorded) :
    s.Knows recorded := by
  obtain ⟨history, hbooks⟩ := h.exists_books
  refine hbooks.knows ?_
  intro id hid
  rw [hbooks.recorded hsink] at hid
  exact delivered_of_mem_recordedOf hid

/-- What is put behind the store does not change what a list shows. -/
theorem Knows.lookup {ids : Array DiagnosticId} (h : s.Knows ids) {added : Array Diagnostic}
    (hstore : t.store = s.store ++ added) : t.lookup ids = s.lookup ids := by
  refine List.filterMap_congr ?_
  intro id hid
  rw [hstore, Array.getElem?_append_left (h id (Array.mem_toList_iff.1 hid))]

/-- A sink that never refuses stays so, whatever happens in the session. -/
theorem open_after (source : Source) {sink? : Option Sink}
    (h : ∀ accepts, sink?.bind Sink.accepts? = some accepts → ∀ k, accepts k = true)
    (steps : List Step) : ((start source sink?).after steps).sink.Open := by
  have haccepts := (serves_after (serves_start source sink?) steps).accepts
  cases hsink : ((start source sink?).after steps).sink with
  | reporter filename recorded => exact fun k => rfl
  | collector accepts calls collected =>
    rw [hsink] at haccepts
    exact fun k => h accepts haccepts.symm _

end Session

/-! ## What a scan leaves behind -/

/-- What a sink has to say at a glance: a reporter says whether it holds an error, and of a
collector it is seen whether it was called. -/
def SinkView.alarm : SinkView → Bool
  | reporter _ hadError _ => hadError
  | collector collected => !collected.isEmpty

namespace Session

variable {s t : Session}

/-- A scan of `s` answers with `tokens`, finds `diagnostics`, and overwrites nothing. -/
structure ScansTo (s : Session) (tokens : List Token) (diagnostics : List Diagnostic) : Prop where
  answer : s.scan.answer = .tokens tokens
  errors : s.scan.errors = diagnostics
  hasErrors : (s.scan.session.step .hasErrors).answer = .hasErrors (!diagnostics.isEmpty)
  cursor : s.scan.session.cursor = s.cursor
  held : s.scan.session.held = s.held ∧ s.scan.session.lookup s.held = s.lookup s.held
  /-- A reporter receives the errors themselves, behind what it held before. -/
  reporter : ∀ filename recorded, s.sink = .reporter filename recorded →
    s.scan.session.sink = .reporter filename (recorded ++ s.scan.session.errors) ∧
      s.scan.session.lookup recorded = s.lookup recorded
  /-- A collector receives their lines and messages, behind what it held before. -/
  collector : ∀ accepts calls collected, s.sink = .collector accepts calls collected →
    s.scan.session.sink = .collector accepts (calls + diagnostics.length)
      (collected ++ (diagnostics.map Diagnostic.summary).toArray)
  /-- Behind an empty sink it makes no difference who is asked for errors. -/
  alarm : s.sink.size = 0 → s.scan.session.sinkView.alarm = !diagnostics.isEmpty

/-- All that a scan changes: it puts something behind the store and the sink, and begins the errors
anew. -/
theorem session_scan_of_open (h : s.sink.Open) :
    s.scan.session =
      { s with
        store := s.store ++ s.source.scan.diagnostics.toArray
        errors := Array.range' s.store.size s.source.scan.diagnostics.length
        sink := s.sink.deliverAll s.store.size s.source.scan.diagnostics } := by
  rw [(scan_of_open h).2, enterAll_eq, Array.empty_append]

theorem sink_scan_of_reporter {filename : String} {recorded : Array DiagnosticId}
    (h : s.sink.Open) (hsink : s.sink = .reporter filename recorded) :
    s.scan.session.sink = .reporter filename (recorded ++ s.scan.session.errors) := by
  rw [session_scan_of_open h, hsink]
  exact Sink.deliverAll_reporter filename recorded _ _

theorem sink_scan_of_collector {accepts : Nat → Bool} {calls : Nat}
    {collected : Array (Int × String)} (h : s.sink.Open)
    (hsink : s.sink = .collector accepts calls collected) :
    s.scan.session.sink = .collector accepts (calls + s.source.scan.diagnostics.length)
      (collected ++ (s.source.scan.diagnostics.map Diagnostic.summary).toArray) := by
  rw [session_scan_of_open h, hsink]
  rw [hsink] at h
  exact Sink.deliverAll_collector_of_open h _ _

theorem alarm_scan (h : s.sink.Open) (hempty : s.sink.size = 0) :
    s.scan.session.sinkView.alarm = !s.source.scan.diagnostics.isEmpty := by
  cases hsink : s.sink with
  | reporter filename recorded =>
    rw [hsink] at hempty
    obtain rfl : recorded = #[] := Array.eq_empty_of_size_eq_zero hempty
    have herrors : s.scan.session.lookup s.scan.session.errors = s.source.scan.diagnostics :=
      lookup_scan_of_open h
    rw [sinkView, sink_scan_of_reporter h hsink, Array.empty_append]
    exact (congrArg (List.any · _) herrors).trans s.source.any_error_diagnostics
  | collector accepts calls collected =>
    rw [hsink] at hempty
    obtain rfl : collected = #[] := Array.eq_empty_of_size_eq_zero hempty
    rw [sinkView, sink_scan_of_collector h hsink, Array.empty_append]
    simp only [SinkView.alarm, List.isEmpty_map]

theorem scansTo_of_open (h : s.Reachable) (hopen : s.sink.Open) :
    s.ScansTo s.source.scan.tokens s.source.scan.diagnostics := by
  have hsession := session_scan_of_open hopen
  have hstore : s.scan.session.store = s.store ++ s.source.scan.diagnostics.toArray := by
    rw [hsession]
  refine ⟨(scan_of_open hopen).1, lookup_scan_of_open hopen, ?_, ?_, ⟨?_, ?_⟩, ?_, ?_,
    alarm_scan hopen⟩
  · have hempty : s.scan.session.errors.isEmpty = s.source.scan.diagnostics.isEmpty := by
      rw [hsession]
      cases s.source.scan.diagnostics <;> simp
    exact congrArg (fun found => Answer.hasErrors !found) hempty
  · rw [hsession]
  · rw [hsession]
  · exact h.knows_held.lookup hstore
  · intro filename recorded hsink
    exact ⟨sink_scan_of_reporter hopen hsink, (h.knows_recorded hsink).lookup hstore⟩
  · intro accepts calls collected hsink
    exact sink_scan_of_collector hopen hsink

/-- **A scan depends on nothing but its text, its file name and its table.** In any two states that
sessions can reach, with any two sinks that refuse nothing, it answers with the same tokens and
finds the same diagnostics. Everything from before stays as it was, and the sink receives exactly
the errors. -/
theorem scan_independent (hs : s.Reachable) (ht : t.Reachable)
    (htext : s.source.text = t.source.text) (hfilename : s.source.filename = t.source.filename)
    (hkeywords : ∀ w, s.source.keywords.lookup w = t.source.keywords.lookup w)
    (hsopen : s.sink.Open) (htopen : t.sink.Open) :
    ∃ tokens diagnostics, s.ScansTo tokens diagnostics ∧ t.ScansTo tokens diagnostics := by
  refine ⟨s.source.scan.tokens, s.source.scan.diagnostics, scansTo_of_open hs hsopen, ?_⟩
  rw [Source.scan_congr htext hfilename hkeywords]
  exact scansTo_of_open ht htopen

/-- One session has scanned another text, changed an error, put it aside, reset its reporter and
changed the level of its log. The other one has just been opened, with a collector. Their tables
differ in an entry that never counts. -/
theorem scan_independent_of_history :
    let text : List Char := ['#', 'a', '"']
    let steps : List Step := [.scan, .edit 0 (.severity "note"), .hold, .scanToken,
      .setSource { text := text, keywords := [(['a'], .orWord), (['a'], .andWord)] },
      .call 3 "late", .reset, .setLevel .debug]
    let s := (start { text := ['@'] }).after steps
    let t := start { text := text, keywords := [(['a'], .orWord)] } (some .newCollector)
    let found := [.unexpectedCharacter '#' 1 "<unknown>", .unterminatedString 1 "<unknown>"]
    (s.Reachable ∧ t.Reachable ∧ s.source.text = t.source.text ∧
      s.source.filename = t.source.filename ∧
      (∀ w, s.source.keywords.lookup w = t.source.keywords.lookup w) ∧
      s.sink.Open ∧ t.sink.Open) ∧
    ∃ tokens, s.ScansTo tokens found ∧ t.ScansTo tokens found := by
  intro text steps s t found
  have hs : s.Reachable := by
    refine ⟨_, none, steps, ?_, rfl⟩
    intro sink hsink
    cases hsink
  have ht : t.Reachable := by
    refine ⟨_, some .newCollector, [], ?_, rfl⟩
    intro sink hsink
    obtain rfl := Option.some.inj hsink
    exact ⟨rfl, rfl⟩
  have hkeywords : ∀ w, s.source.keywords.lookup w = t.source.keywords.lookup w := by
    intro w
    change List.lookup w [(['a'], Kind.orWord), (['a'], .andWord)] =
      List.lookup w [(['a'], Kind.orWord)]
    rw [List.lookup_cons, List.lookup_cons, List.lookup_cons]
    cases w == ['a'] <;> rfl
  have hsopen : s.sink.Open := open_after _ (fun accepts h => by cases h) steps
  have htopen : t.sink.Open := fun k => rfl
  obtain ⟨tokens, diagnostics, hscan, hscan'⟩ :=
    scan_independent hs ht rfl rfl hkeywords hsopen htopen
  have hfound : t.source.scan.diagnostics = found := by decide +kernel
  obtain rfl : diagnostics = found :=
    hscan'.errors.symm.trans ((lookup_scan_of_open htopen).trans hfound)
  exact ⟨⟨hs, ht, rfl, rfl, hkeywords, hsopen, htopen⟩, tokens, hscan, hscan'⟩

end Session

end ScriptLexer
