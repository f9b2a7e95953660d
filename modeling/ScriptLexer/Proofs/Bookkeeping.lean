import ScriptLexer.Proofs.History

/-!
# The books are right

Errors, sink and held list are four lists that different steps fill and empty. Here they are
compared with what the history of the session says of them.

The comparison is one invariant, `Books`. Entering a fault, a delivery from outside, one more
delivery of what is known, an edit and the three ways of emptying a list each keep it, so every step
does (`books_step`) and every run (`books_after`). Diagnostics are named by numbers that are given
out only once, and what has become of each is in the store. So two lists that hold the same number,
or one list that holds it twice, share the diagnostic, and an edit shows wherever it stands.
-/

namespace ScriptLexer

namespace Sink

/-- A sink that has received nothing. -/
def IsNew : Sink → Prop
  | reporter _ recorded => recorded = #[]
  | collector _ calls collected => calls = 0 ∧ collected = #[]

/-- The sink holds what it was given. -/
def Holds (history : List Event) : Sink → Prop
  | reporter _ recorded => recorded.toList = recordedOf history
  | collector accepts calls collected =>
    calls = (deliveries history).length ∧ collected.toList = collectedOf accepts history

/-- Which deliveries a collector accepts. A reporter is no collector. -/
def accepts? : Sink → Option (Nat → Bool)
  | reporter _ _ => none
  | collector accepts _ _ => some accepts

theorem accepts?_deliver (sink : Sink) (id : DiagnosticId) (d : Diagnostic) :
    (sink.deliver id d).sink.accepts? = sink.accepts? := by
  cases sink with
  | reporter filename recorded => rfl
  | collector accepts calls collected =>
    rw [deliver]
    split <;> rfl

theorem accepts?_reset (sink : Sink) : sink.reset.accepts? = sink.accepts? := by
  cases sink <;> rfl

end Sink

namespace Session

/-- The lists of a session are as its history says. -/
structure Books (s : Session) (history : List Event) : Prop where
  /-- Every diagnostic was made once, in the order of the store. -/
  made : (makings history).map Prod.fst = List.range s.store.size
  /-- The store shows what has become of every diagnostic. -/
  store : ∀ id : DiagnosticId, s.store[id]? = valueOf history id
  /-- Every delivery, the first one and the later ones, was of the diagnostic as it was then. -/
  delivered : Snapshots history
  errors : s.errors.toList = errorsOf history
  sink : s.sink.Holds history
  held : s.held.toList = heldOf history

variable {s t : Session} {history : List Event}

theorem books_start (source : Source) {sink? : Option Sink} (h : ∀ sink ∈ sink?, sink.IsNew) :
    Books (start source sink?) [] where
  made := rfl
  store := fun _ => rfl
  delivered := snapshots_nil
  errors := rfl
  sink := by
    cases sink? with
    | none => rfl
    | some sink =>
      have hnew := h sink rfl
      cases sink with
      | reporter filename recorded =>
        obtain rfl : recorded = #[] := hnew
        rfl
      | collector accepts calls collected =>
        obtain ⟨rfl, rfl⟩ := hnew
        exact ⟨rfl, rfl⟩
  held := rfl

/-- Only four fields are looked at. -/
theorem Books.congr (h : Books s history) (hstore : t.store = s.store)
    (herrors : t.errors = s.errors) (hsink : t.sink = s.sink) (hheld : t.held = s.held) :
    Books t history where
  made := by rw [hstore]; exact h.made
  store := by rw [hstore]; exact h.store
  delivered := h.delivered
  errors := by rw [herrors]; exact h.errors
  sink := by rw [hsink]; exact h.sink
  held := by rw [hheld]; exact h.held

/-! ## What each kind of event does -/

theorem holds_deliver {sink : Sink} {e : Event} {id : DiagnosticId} {d : Diagnostic}
    (h : sink.Holds history) (hdelivery : e.delivery? = some (id, d))
    (hstarts : e.startsReporter = false) :
    (sink.deliver id d).sink.Holds (history ++ [e]) := by
  cases sink with
  | reporter filename recorded =>
    have hrecorded : recorded.toList = recordedOf history := h
    simp [Sink.deliver, Sink.Holds, recordedOf_append, hstarts, hdelivery, hrecorded]
  | collector accepts calls collected =>
    obtain ⟨hcalls, hcollected⟩ := h
    -- the number of the delivery decides, and it is counted in any case
    cases haccepts : accepts calls with
    | true =>
      rw [hcalls] at haccepts
      simp [Sink.deliver, Sink.Holds, collectedOf_append, deliveries_append, hdelivery, hcalls,
        hcollected, haccepts, Diagnostic.summary]
    | false =>
      rw [hcalls] at haccepts
      simp [Sink.deliver, Sink.Holds, collectedOf_append, deliveries_append, hdelivery, hcalls,
        hcollected, haccepts]

theorem holds_append {sink : Sink} {e : Event} (h : sink.Holds history)
    (hdelivery : e.delivery? = none) (hstarts : e.startsReporter = false) :
    sink.Holds (history ++ [e]) := by
  cases sink with
  | reporter filename recorded =>
    have hrecorded : recorded.toList = recordedOf history := h
    simp [Sink.Holds, recordedOf_append, hstarts, hdelivery, hrecorded]
  | collector accepts calls collected =>
    obtain ⟨hcalls, hcollected⟩ := h
    simp [Sink.Holds, collectedOf_append, deliveries_append, hdelivery, hcalls, hcollected]

/-- A diagnostic is made and delivered. Whether it is an error is left open. -/
theorem books_deliver {e : Event} {d : Diagnostic} {errors : Array DiagnosticId}
    (h : Books s history) (he : e = .fault s.store.size d ∨ e = .direct s.store.size d)
    (herrors : errors.toList = errorsOf (history ++ [e])) :
    Books (deliver { s with errors := errors } d).session (history ++ [e]) := by
  have hmade : e.made? = some (s.store.size, d) := by rcases he with rfl | rfl <;> rfl
  have hdelivery : e.delivery? = some (s.store.size, d) := by rcases he with rfl | rfl <;> rfl
  have hstarts : e.startsReporter = false := by rcases he with rfl | rfl <;> rfl
  have hupdate : ∀ id before,
      e.update id before = if s.store.size = id then some d else before := by
    intro id before
    rcases he with rfl | rfl <;> rfl
  refine ⟨?_, ?_, h.delivered.append ?_, herrors, holds_deliver h.sink hdelivery hstarts, ?_⟩
  · rw [makings_append, hmade, List.map_append, h.made, deliver_session, Array.size_push,
      List.range_succ]
    rfl
  · intro id
    rw [valueOf_append, hupdate, ← h.store, deliver_session, Array.getElem?_push]
    simp only [eq_comm]
  · intro x hx
    rw [hdelivery] at hx
    obtain rfl := Option.some.inj hx
    rw [valueOf_append, hupdate, if_pos rfl]
  · rw [heldOf_append]
    rcases he with rfl | rfl <;> exact h.held

theorem books_fault (h : Books s history) (d : Diagnostic) :
    Books (s.fault d).session (history ++ [.fault s.store.size d]) := by
  refine books_deliver h (Or.inl rfl) ?_
  rw [errorsOf_append, Array.toList_push, h.errors]
  rfl

theorem books_direct (h : Books s history) (d : Diagnostic) :
    Books (s.deliver d).session (history ++ [.direct s.store.size d]) := by
  refine books_deliver h (Or.inr rfl) ?_
  rw [errorsOf_append, h.errors]
  exact (List.append_nil _).symm

/-- What is known is delivered once more. Nothing is made, and only the sink notices. -/
theorem books_again (h : Books s history) (id : DiagnosticId) :
    Books (s.again id).session (history ++ s.events (.reportAgain id)) := by
  cases hfound : s.store[id]? with
  | none =>
    simp only [again, events, hfound, Option.toList_none, List.map_nil, List.append_nil]
    exact h
  | some d =>
    simp only [again, events, hfound, Option.toList_some, List.map_cons, List.map_nil]
    refine ⟨?_, ?_, h.delivered.append ?_, ?_, holds_deliver h.sink rfl rfl, ?_⟩
    · rw [makings_append]
      exact (congrArg _ (List.append_nil _)).trans h.made
    · intro other
      rw [valueOf_append]
      exact h.store other
    · intro x hx
      obtain rfl := Option.some.inj hx
      rw [valueOf_append]
      exact (h.store id).symm.trans hfound
    · rw [errorsOf_append]
      exact h.errors.trans (List.append_nil _).symm
    · rw [heldOf_append]
      exact h.held

theorem books_faults (h : Books s history) (ds : List Diagnostic) :
    Books (s.faults ds).session (history ++ faultEvents s.sink s.store.size 0 ds) := by
  induction ds generalizing s history with
  | nil =>
    rw [faultEvents, List.append_nil]
    exact h
  | cons d ds ih =>
    have hfirst := books_fault h d
    rw [faults, faultEvents, accepted_fault]
    cases hwill : s.sink.willAccept 0 with
    | true =>
      have hrest := ih hfirst
      -- behind the first fault the numbers and the answers of the sink are one further on
      have hsize : (s.fault d).session.store.size = s.store.size + 1 := Array.size_push _
      have hevents : faultEvents (s.fault d).session.sink (s.store.size + 1) 0 ds =
          faultEvents s.sink s.store.size 1 ds :=
        faultEvents_add_one (fun k => s.sink.willAccept_deliver _ d k) _ 0 ds
      rw [hsize, hevents, List.append_assoc] at hrest
      exact hrest
    | false => exact hfirst

/-! ## Every step -/

/-- Events without a delivery: an edit changes the store, and the other ones begin a list anew. -/
theorem Books.append {e : Event} (h : Books s history) (hdelivery : e.delivery? = none)
    (hsize : t.store.size = s.store.size)
    (hstore : ∀ id : DiagnosticId, t.store[id]? = e.update id s.store[id]?)
    (herrors : t.errors = if e.startsErrors then #[] else s.errors)
    (hsink : t.sink.Holds (history ++ [e]))
    (hheld : t.held = if e.isHold then s.errors else s.held) : Books t (history ++ [e]) := by
  -- what is not delivered was not made either
  have hmade : e.made? = none ∧ e.fault? = none := by
    cases e with
    | fault id d => cases hdelivery
    | direct id d => cases hdelivery
    | _ => exact ⟨rfl, rfl⟩
  obtain ⟨hmade, hfault⟩ := hmade
  refine ⟨?_, ?_, h.delivered.append ?_, ?_, hsink, ?_⟩
  · rw [makings_append, hmade, hsize, Option.toList_none, List.append_nil]
    exact h.made
  · intro id
    rw [hstore, valueOf_append, h.store]
  · intro x hx
    rw [hdelivery] at hx
    cases hx
  · rw [errorsOf_append, hfault, herrors, Option.toList_none, List.append_nil, ← h.errors]
    split <;> rfl
  · rw [heldOf_append, errorsOf_append, hfault, hheld, Option.toList_none, List.append_nil,
      ← h.errors, ← h.held]
    cases e <;> rfl

theorem books_scan (h : Books s history) : Books s.scan.session (history ++ s.events .scan) := by
  have hbegun : Books { s with errors := #[] } (history ++ [.scan]) :=
    h.append rfl rfl (fun _ => rfl) rfl (holds_append h.sink rfl rfl) rfl
  have hfaults := books_faults hbegun s.source.scan.diagnostics
  rw [List.append_assoc] at hfaults
  rw [session_scan]
  exact hfaults

theorem books_scanToken (h : Books s history) :
    Books s.scanToken.session (history ++ s.events .scanToken) := by
  cases hread : s.source.read? s.cursor with
  | none =>
    simp only [scanToken, events, hread, List.append_nil]
    exact h.congr rfl rfl rfl rfl
  | some reading =>
    have hmoved : Books { s with cursor := reading.cursor } history := h.congr rfl rfl rfl rfl
    cases hfault : reading.piece.fault? s.source.filename s.cursor.line with
    | none =>
      simp only [scanToken, events, hread, hfault, Option.toList_none, List.map_nil,
        List.append_nil]
      exact hmoved
    | some d =>
      simp only [scanToken, events, hread, hfault]
      exact books_fault hmoved d

theorem books_setSource (h : Books s history) (source : Source) :
    Books (s.setSource source) (history ++ [.scanner s.ownReporter]) := by
  refine h.append rfl rfl (fun _ => rfl) rfl ?_ rfl
  cases hown : s.ownReporter with
  | true =>
    simp only [setSource, hown, if_true, Sink.newReporter, Sink.Holds, recordedOf_append]
    rfl
  | false =>
    simp only [setSource, hown, Bool.false_eq_true, if_false]
    exact holds_append h.sink rfl rfl

theorem books_reset (h : Books s history) :
    Books { s with sink := s.sink.reset } (history ++ [.reset]) := by
  refine h.append rfl rfl (fun _ => rfl) rfl ?_ rfl
  cases hsink : s.sink with
  | reporter filename recorded =>
    simp only [Sink.reset, Sink.Holds, recordedOf_append]
    rfl
  | collector accepts calls collected =>
    have hholds := h.sink
    rw [hsink] at hholds
    obtain ⟨hcalls, hcollected⟩ := hholds
    simp only [Sink.reset, Sink.Holds, collectedOf_append, deliveries_append, Event.delivery?,
      Option.toList_none, List.append_nil, List.filter_nil, List.map_nil]
    exact ⟨hcalls, hcollected⟩

theorem books_edit (h : Books s history) (index : Int) (edit : Edit) :
    Books (s.edit index edit).session (history ++ s.events (.edit index edit)) := by
  cases hfound : (Text.index? s.errors.size index).bind (s.errors[·]?) with
  | none =>
    simp only [Session.edit, events, hfound, Option.toList_none, List.map_nil, List.append_nil]
    exact h
  | some id =>
    simp only [Session.edit, events, hfound, Option.toList_some, List.map_cons, List.map_nil]
    refine h.append rfl Array.size_modify ?_ rfl (holds_append h.sink rfl rfl) rfl
    intro other
    rw [Array.getElem?_modify]
    rfl

/-- **Every step keeps the books.** -/
theorem books_step (h : Books s history) (step : Step) :
    Books (s.step step).session (history ++ s.events step) := by
  have hsame : Books s (history ++ []) := by
    rw [List.append_nil]
    exact h
  cases step with
  | scan => exact books_scan h
  | scanToken => exact books_scanToken h
  | setSource source => exact books_setSource h source
  | hold => exact h.append rfl rfl (fun _ => rfl) rfl (holds_append h.sink rfl rfl) rfl
  | edit index edit => exact books_edit h index edit
  | reset => exact books_reset h
  | call line message => exact books_direct h _
  | report d => exact books_direct h d
  | reportAgain id => exact books_again h id
  | setCursor cursor => exact hsame.congr rfl rfl rfl rfl
  | setLevel level => exact hsame.congr rfl rfl rfl rfl
  | _ => exact hsame

/-- **So does every run.** -/
theorem books_after (h : Books s history) (steps : List Step) :
    Books (s.after steps) (history ++ s.history steps) := by
  induction steps generalizing s history with
  | nil =>
    rw [Session.history, List.append_nil]
    exact h
  | cons step steps ih =>
    rw [after_cons, Session.history, ← List.append_assoc]
    exact ih (books_step h step)

/-! ## The sink of a session -/

/-- The sink is still the one that the session was opened with, or a reporter of the scanner if it
was opened without one. -/
structure Serves (s : Session) (sink? : Option Sink) : Prop where
  ownReporter : s.ownReporter = sink?.isNone
  accepts : s.sink.accepts? = sink?.bind Sink.accepts?

variable {sink? : Option Sink}

theorem serves_start (source : Source) (sink? : Option Sink) :
    Serves (start source sink?) sink? where
  ownReporter := rfl
  accepts := by cases sink? <;> rfl

theorem serves_faults (h : Serves s sink?) (ds : List Diagnostic) :
    Serves (s.faults ds).session sink? := by
  induction ds generalizing s with
  | nil => exact h
  | cons d ds ih =>
    have hfirst : Serves (s.fault d).session sink? :=
      ⟨h.ownReporter, (Sink.accepts?_deliver ..).trans h.accepts⟩
    rw [faults]
    split
    · exact ih hfirst
    · exact hfirst

theorem serves_step (h : Serves s sink?) (step : Step) : Serves (s.step step).session sink? := by
  cases step with
  | scan =>
    have hbegun : Serves { s with errors := #[] } sink? := ⟨h.ownReporter, h.accepts⟩
    rw [Session.step, session_scan]
    exact serves_faults hbegun _
  | scanToken =>
    rw [Session.step, scanToken]
    split
    · exact ⟨h.ownReporter, h.accepts⟩
    · split
      · exact ⟨h.ownReporter, (Sink.accepts?_deliver ..).trans h.accepts⟩
      · exact ⟨h.ownReporter, h.accepts⟩
  | setSource source =>
    refine ⟨h.ownReporter, ?_⟩
    have haccepts := h.accepts
    rw [Session.step, setSource, h.ownReporter]
    cases sink? with
    | none => rfl
    | some sink => exact haccepts
  | edit index edit =>
    rw [Session.step, Session.edit]
    split <;> exact ⟨h.ownReporter, h.accepts⟩
  | reset => exact ⟨h.ownReporter, (Sink.accepts?_reset _).trans h.accepts⟩
  | call line message => exact ⟨h.ownReporter, (Sink.accepts?_deliver ..).trans h.accepts⟩
  | report d => exact ⟨h.ownReporter, (Sink.accepts?_deliver ..).trans h.accepts⟩
  | reportAgain id =>
    rw [Session.step, again]
    split
    · exact ⟨h.ownReporter, (Sink.accepts?_deliver ..).trans h.accepts⟩
    · exact h
  | _ => exact ⟨h.ownReporter, h.accepts⟩

theorem serves_after (h : Serves s sink?) (steps : List Step) : Serves (s.after steps) sink? := by
  induction steps generalizing s with
  | nil => exact h
  | cons step steps ih =>
    rw [after_cons]
    exact ih (serves_step h step)

theorem Serves.exists_reporter (h : Serves s sink?) (hnone : sink?.bind Sink.accepts? = none) :
    ∃ filename recorded, s.sink = .reporter filename recorded := by
  have haccepts := h.accepts
  rw [hnone] at haccepts
  cases hsink : s.sink with
  | reporter filename recorded => exact ⟨filename, recorded, rfl⟩
  | collector accepts calls collected =>
    rw [hsink] at haccepts
    cases haccepts

theorem Serves.exists_collector {accepts : Nat → Bool} (h : Serves s sink?)
    (hsome : sink?.bind Sink.accepts? = some accepts) :
    ∃ calls collected, s.sink = .collector accepts calls collected := by
  have haccepts := h.accepts
  rw [hsome] at haccepts
  cases hsink : s.sink with
  | reporter filename recorded =>
    rw [hsink] at haccepts
    cases haccepts
  | collector accepts' calls collected =>
    rw [hsink] at haccepts
    obtain rfl := Option.some.inj haccepts
    exact ⟨calls, collected, rfl⟩

/-! ## What the books say -/

theorem Books.lookup (h : Books s history) (ids : Array DiagnosticId) :
    s.lookup ids = ids.toList.filterMap (valueOf history) := by
  rw [Session.lookup]
  congr 1
  funext id
  exact h.store id

theorem Books.recorded (h : Books s history) {filename : String} {recorded : Array DiagnosticId}
    (hsink : s.sink = .reporter filename recorded) : recorded.toList = recordedOf history := by
  have hholds := h.sink
  rw [hsink] at hholds
  exact hholds

theorem Books.collected (h : Books s history) {accepts : Nat → Bool} {calls : Nat}
    {collected : Array (Int × String)} (hsink : s.sink = .collector accepts calls collected) :
    collected.toList = collectedOf accepts history := by
  have hholds := h.sink
  rw [hsink] at hholds
  exact hholds.2

/-- A fault that neither list has dropped since stands in both, under one number. -/
theorem Books.shared (h : Books s history) {filename : String} {recorded : Array DiagnosticId}
    (hsink : s.sink = .reporter filename recorded) {id : DiagnosticId} {d : Diagnostic}
    (herrors : .fault id d ∈ sinceLast Event.startsErrors history)
    (hreceived : .fault id d ∈ sinceLast Event.startsReporter history) :
    id ∈ s.errors ∧ id ∈ recorded := by
  rw [← Array.mem_toList_iff, ← Array.mem_toList_iff, h.errors, h.recorded hsink]
  refine ⟨List.mem_filterMap.2 ⟨_, herrors, rfl⟩, List.mem_map.2 ⟨(id, d), ?_, rfl⟩⟩
  exact List.mem_filterMap.2 ⟨_, hreceived, rfl⟩

/-- **The books of a session are right after any run.** Numbers name diagnostics, each number only
one, and the store shows what has become of it; a delivery, whether the first or a later one, is of
the diagnostic as it was then. The errors are the faults that the current scanner found since it
last began. A reporter holds what it was given since it was made or reset, so a fault that was found
since then stands in both lists. A collector holds line and message of what it was given and
accepted, as it was then. The held list is what the errors were when they were put aside. -/
theorem bookkeeping (source : Source) {sink? : Option Sink} (h : ∀ sink ∈ sink?, sink.IsNew)
    (steps : List Step) :
    let opened := start source sink?
    let s := opened.after steps
    let history := opened.history steps
    ((makings history).map Prod.fst = List.range s.store.size ∧
      (∀ id : DiagnosticId, s.store[id]? = valueOf history id) ∧ Snapshots history) ∧
    (s.errors.toList = errorsOf history ∧
      (s.step .hasErrors).answer = .hasErrors (!(errorsOf history).isEmpty) ∧
      (s.step .diagnostics).answer =
        .diagnostics ((errorsOf history).filterMap (valueOf history))) ∧
    (sink?.bind Sink.accepts? = none →
      ∃ filename recorded, s.sink = .reporter filename recorded ∧
        recorded.toList = recordedOf history ∧
        s.lookup recorded = (recordedOf history).filterMap (valueOf history) ∧
        ∀ id d, .fault id d ∈ sinceLast Event.startsErrors history →
          .fault id d ∈ sinceLast Event.startsReporter history → id ∈ s.errors ∧ id ∈ recorded) ∧
    (∀ accepts, sink?.bind Sink.accepts? = some accepts →
      ∃ calls collected, s.sink = .collector accepts calls collected ∧
        ((∀ k, accepts k = true) →
          collected.toList = (deliveries history).map fun x => x.2.summary) ∧
        ∀ n, (∀ k, accepts k = decide (k < n)) →
          collected.toList = ((deliveries history).take n).map (fun x => x.2.summary) ∧
            collected.size = min n (deliveries history).length) ∧
    s.held.toList = heldOf history ∧
      (s.step .held).answer = .diagnostics ((heldOf history).filterMap (valueOf history)) := by
  intro opened s history
  have hbooks : Books s history := books_after (books_start source h) steps
  have hserves : Serves s sink? := serves_after (serves_start source sink?) steps
  refine ⟨⟨hbooks.made, hbooks.store, hbooks.delivered⟩, ⟨hbooks.errors, ?_, ?_⟩, ?_, ?_,
    hbooks.held, ?_⟩
  -- the answers show the list of numbers through the store
  · rw [← hbooks.errors, Array.isEmpty_toList]
    rfl
  · rw [← hbooks.errors, ← hbooks.lookup]
    rfl
  -- which kind of sink it is was settled when the session was opened
  · intro hreporter
    obtain ⟨filename, recorded, hsink⟩ := hserves.exists_reporter hreporter
    refine ⟨filename, recorded, hsink, hbooks.recorded hsink, ?_, fun id d => hbooks.shared hsink⟩
    rw [hbooks.lookup, hbooks.recorded hsink]
  · intro accepts hcollector
    obtain ⟨calls, collected, hsink⟩ := hserves.exists_collector hcollector
    refine ⟨calls, collected, hsink, ?_, ?_⟩
    · intro hall
      rw [hbooks.collected hsink, collectedOf_of_all hall]
    -- after its limit a collector still counts, so its list is a first part of the deliveries
    · intro n hlimit
      have htake := (hbooks.collected hsink).trans (collectedOf_of_limit hlimit)
      refine ⟨htake, ?_⟩
      rw [← Array.length_toList, htake, List.length_map, List.length_take]
  · rw [← hbooks.held, ← hbooks.lookup]
    rfl

/-- A collector that refuses all but one fault, while a new scanner has taken over and the errors of
the old one are held and edited. And a reporter that is given the same error twice: it was made only
once, and an edit after both deliveries shows in both. -/
theorem bookkeeping_of_refusals :
    let steps : List Step := [.scan, .hold, .edit 0 (.line 7), .setSource { text := ['"'] },
      .scanToken, .call 5 "late"]
    let opened := start { text := ['@', '#'] } (some (.newLimited 1))
    let s := opened.after steps
    let repeated : List Step := [.scan, .edit 0 (.line 7), .reportAgain 0, .edit 0 (.code none)]
    let t := (start { text := ['@'] }).after repeated
    let shown := { Diagnostic.unexpectedCharacter '@' 1 "<unknown>" with line := 7, code := none }
    (∀ sink ∈ some (Sink.newLimited 1), sink.IsNew) ∧
      s.errors.toList = [2] ∧
      (∃ calls collected, s.sink = .collector (fun call => call < 1) calls collected ∧
        collected.toList = [(1, "Unexpected character.")]) ∧
      s.held.toList = [0, 1] ∧
      (s.step .held).answer =
        .diagnostics [{ Diagnostic.unexpectedCharacter '@' 1 "<unknown>" with line := 7 },
          .unexpectedCharacter '#' 1 "<unknown>"] ∧
      List.range t.store.size = [0] ∧
      ∃ filename recorded, t.sink = .reporter filename recorded ∧ recorded.toList = [0, 0] ∧
        t.lookup recorded = [shown, shown] := by
  intro steps opened s repeated t shown
  have hnew : ∀ sink ∈ some (Sink.newLimited 1), sink.IsNew := by
    intro sink hsink
    obtain rfl := Option.some.inj hsink
    exact ⟨rfl, rfl⟩
  have hdelivered : ((deliveries (opened.history steps)).take 1).map (fun x => x.2.summary) =
      [(1, "Unexpected character.")] := by decide +kernel
  have herrors' : errorsOf (opened.history steps) = [2] := by decide +kernel
  have hheld' : heldOf (opened.history steps) = [0, 1] := by decide +kernel
  have hvalues : ([0, 1] : List DiagnosticId).filterMap (valueOf (opened.history steps)) =
      [{ Diagnostic.unexpectedCharacter '@' 1 "<unknown>" with line := 7 },
        .unexpectedCharacter '#' 1 "<unknown>"] := by decide +kernel
  obtain ⟨-, ⟨herrors, -⟩, -, hcollector, hheld, hanswer⟩ :=
    bookkeeping { text := ['@', '#'] } hnew steps
  obtain ⟨calls, collected, hsink, -, hlimit⟩ := hcollector (fun call => call < 1) rfl
  obtain ⟨hcollected, -⟩ := hlimit 1 fun k => rfl
  -- the session with a reporter, which is given one diagnostic twice
  have hnone : ∀ sink ∈ (none : Option Sink), sink.IsNew := by
    intro sink hsink
    cases hsink
  have hmade' : (makings ((start { text := ['@'] }).history repeated)).map Prod.fst = [0] := by
    decide +kernel
  have hrecorded' : recordedOf ((start { text := ['@'] }).history repeated) = [0, 0] := by
    decide +kernel
  have hshown : ([0, 0] : List DiagnosticId).filterMap
      (valueOf ((start { text := ['@'] }).history repeated)) = [shown, shown] := by decide +kernel
  obtain ⟨⟨hmade, -⟩, -, hreporter, -⟩ := bookkeeping { text := ['@'] } hnone repeated
  obtain ⟨filename, recorded, hsink', hrecorded, hlookup, -⟩ := hreporter rfl
  rw [hrecorded', hshown] at hlookup
  rw [hheld', hvalues] at hanswer
  exact ⟨hnew, herrors.trans herrors', ⟨calls, collected, hsink, hcollected.trans hdelivered⟩,
    hheld.trans hheld', hanswer, hmade.symm.trans hmade',
    filename, recorded, hsink', hrecorded.trans hrecorded', hlookup⟩

end Session

end ScriptLexer
