import ScriptLexer.Session

/-!
# Deliveries

A fault is entered among the errors before it is delivered. What the session knows of its faults
therefore does not depend on what the sink makes of them: `Session.enterAll` is the session after
any number of faults, accepted or not. The sink decides only how many of them there are, because a
scan breaks off at the first refusal (`faults_of_accepting`, `faults_of_refusing`).

Sinks are looked at through `Sink.willAccept` alone, which says of each delivery to come whether it
will be accepted. Reporters and collectors are not told apart after that.
-/

namespace ScriptLexer

namespace Sink

/-- Whether the sink will accept a delivery once `k` others have been made. -/
def willAccept (k : Nat) : Sink → Bool
  | reporter _ _ => true
  | collector accepts calls _ => accepts (calls + k)

/-- The sink refuses nothing from now on. -/
def Open (sink : Sink) : Prop := ∀ k, sink.willAccept k = true

/-- The sink after the deliveries of `ds`, the first of them known by `id`. -/
def deliverAll : DiagnosticId → List Diagnostic → Sink → Sink
  | _, [], sink => sink
  | id, d :: ds, sink => deliverAll (id + 1) ds (sink.deliver id d).sink

theorem accepted_deliver (sink : Sink) (id : DiagnosticId) (d : Diagnostic) :
    (sink.deliver id d).accepted = sink.willAccept 0 := by
  cases sink with
  | reporter filename recorded => rfl
  | collector accepts calls collected =>
    simp only [deliver, willAccept, Nat.add_zero]
    split <;> simp_all

theorem willAccept_deliver (sink : Sink) (id : DiagnosticId) (d : Diagnostic) (k : Nat) :
    (sink.deliver id d).sink.willAccept k = sink.willAccept (k + 1) := by
  cases sink with
  | reporter filename recorded => rfl
  | collector accepts calls collected =>
    have hk : calls + 1 + k = calls + (k + 1) := by omega
    simp only [deliver]
    split <;> simp only [willAccept, hk]

theorem open_deliverAll {sink : Sink} (h : sink.Open) (id : DiagnosticId) (ds : List Diagnostic) :
    (deliverAll id ds sink).Open := by
  induction ds generalizing sink id with
  | nil => exact h
  | cons d ds ih =>
    refine ih ?_ (id + 1)
    intro k
    rw [willAccept_deliver]
    exact h (k + 1)

/-- A collector keeps line and message of what it accepts, and counts all of it. Only its answers to
these deliveries matter. -/
theorem deliverAll_collector_of_lt {accepts : Nat → Bool} {calls n : Nat}
    {collected : Array (Int × String)} {ds : List Diagnostic} {id : DiagnosticId}
    (h : ∀ k < ds.length, accepts (calls + k) = decide (k < n)) :
    deliverAll id ds (.collector accepts calls collected) =
      .collector accepts (calls + ds.length)
        (collected ++ ((ds.take n).map fun d => (d.line, d.message)).toArray) := by
  induction ds generalizing calls n collected id with
  | nil => simp [deliverAll]
  | cons d ds ih =>
    have h0 : accepts calls = decide (0 < n) := h 0 (Nat.succ_pos _)
    have hsucc : ∀ k < ds.length, accepts (calls + 1 + k) = decide (k < n - 1) := by
      intro k hk
      rw [Nat.add_assoc, h (1 + k) (by rw [List.length_cons]; omega), decide_eq_decide]
      omega
    have hlen : calls + 1 + ds.length = calls + (ds.length + 1) := by omega
    cases n with
    | zero =>
      -- refused, and counted all the same
      simp [deliverAll, deliver, h0, ih hsucc, hlen]
    | succ n => simp [deliverAll, deliver, h0, ih hsucc, hlen]

theorem deliverAll_collector {accepts : Nat → Bool} {calls n : Nat}
    {collected : Array (Int × String)} {ds : List Diagnostic} {id : DiagnosticId}
    (h : ∀ k, accepts (calls + k) = decide (k < n)) :
    deliverAll id ds (.collector accepts calls collected) =
      .collector accepts (calls + ds.length)
        (collected ++ ((ds.take n).map fun d => (d.line, d.message)).toArray) :=
  deliverAll_collector_of_lt fun k _ => h k

theorem deliverAll_collector_of_open {accepts : Nat → Bool} {calls : Nat}
    {collected : Array (Int × String)} (h : (collector accepts calls collected).Open)
    (id : DiagnosticId) (ds : List Diagnostic) :
    deliverAll id ds (.collector accepts calls collected) =
      .collector accepts (calls + ds.length)
        (collected ++ (ds.map fun d => (d.line, d.message)).toArray) := by
  have haccepts : ∀ k < ds.length, accepts (calls + k) = decide (k < ds.length) := by
    intro k hk
    rw [decide_eq_true hk]
    exact h k
  rw [deliverAll_collector_of_lt haccepts, List.take_length]

theorem deliverAll_reporter (filename : String) (recorded : Array DiagnosticId)
    (id : DiagnosticId) (ds : List Diagnostic) :
    deliverAll id ds (.reporter filename recorded) =
      .reporter filename (recorded ++ Array.range' id ds.length) := by
  induction ds generalizing recorded id with
  | nil => simp [deliverAll]
  | cons d ds ih =>
    rw [deliverAll, deliver, ih, List.length_cons, Array.range'_succ, ← Array.append_assoc,
      Array.push_eq_append]

end Sink

namespace Session

/-- The session after the faults `ds` were entered and delivered, accepted or not. -/
def enterAll (s : Session) : List Diagnostic → Session
  | [] => s
  | d :: ds => (s.fault d).session.enterAll ds

theorem deliver_session (s : Session) (d : Diagnostic) :
    (s.deliver d).session =
      { s with
        store := s.store.push d
        sink := (s.sink.deliver s.store.size d).sink } := rfl

theorem fault_session (s : Session) (d : Diagnostic) :
    (s.fault d).session =
      { s with
        store := s.store.push d
        errors := s.errors.push s.store.size
        sink := (s.sink.deliver s.store.size d).sink } := rfl

theorem records_fault (s : Session) (d : Diagnostic) :
    (s.fault d).records = (s.sink.deliver s.store.size d).records := rfl

theorem accepted_fault (s : Session) (d : Diagnostic) :
    (s.fault d).accepted = s.sink.willAccept 0 :=
  s.sink.accepted_deliver s.store.size d

/-- Faults go to the end of the store, of the errors and of the sink, and touch nothing else. -/
theorem enterAll_eq (s : Session) (ds : List Diagnostic) :
    s.enterAll ds =
      { s with
        store := s.store ++ ds.toArray
        errors := s.errors ++ Array.range' s.store.size ds.length
        sink := s.sink.deliverAll s.store.size ds } := by
  induction ds generalizing s with
  | nil => simp [enterAll, Sink.deliverAll]
  | cons d ds ih =>
    have herrors : s.errors.push s.store.size ++ Array.range' (s.store.size + 1) ds.length =
        s.errors ++ Array.range' s.store.size (ds.length + 1) := by
      rw [Array.range'_succ, ← Array.append_assoc, Array.push_eq_append]
    simp [enterAll, ih, fault_session, Sink.deliverAll, herrors]

@[simp] theorem enterAll_source (s : Session) (ds : List Diagnostic) :
    (s.enterAll ds).source = s.source := by
  rw [enterAll_eq]

@[simp] theorem enterAll_cursor (s : Session) (ds : List Diagnostic) :
    (s.enterAll ds).cursor = s.cursor := by
  rw [enterAll_eq]

@[simp] theorem enterAll_sink (s : Session) (ds : List Diagnostic) :
    (s.enterAll ds).sink = s.sink.deliverAll s.store.size ds := by
  rw [enterAll_eq]

theorem enterAll_append (s : Session) (ds es : List Diagnostic) :
    s.enterAll (ds ++ es) = (s.enterAll ds).enterAll es := by
  induction ds generalizing s with
  | nil => rfl
  | cons d ds ih => exact ih _

theorem filterMap_store_range (store : Array Diagnostic) (ds : List Diagnostic) :
    (List.range' store.size ds.length).filterMap (fun id => (store ++ ds.toArray)[id]?) = ds := by
  induction ds generalizing store with
  | nil => rfl
  | cons d ds ih =>
    have hrest := ih (store.push d)
    rw [Array.size_push, Array.push_eq_append, Array.append_assoc] at hrest
    -- the first name is the place that the store was pushed to
    rw [List.length_cons, List.range'_succ, List.filterMap_cons]
    simpa using hrest

/-- **The errors since the latest start are the faults entered since.** -/
theorem lookup_enterAll {s : Session} (h : s.errors = #[]) (ds : List Diagnostic) :
    (s.enterAll ds).lookup (s.enterAll ds).errors = ds := by
  rw [enterAll_eq, lookup, h]
  simpa using filterMap_store_range s.store ds

/-! ## How far the faults of a scan get -/

/-- Whatever the sink, the faults that get through are the first ones. -/
theorem exists_faults_session (s : Session) (ds : List Diagnostic) :
    ∃ n, (s.faults ds).session = s.enterAll (ds.take n) := by
  induction ds generalizing s with
  | nil => exact ⟨0, rfl⟩
  | cons d ds ih =>
    rw [faults]
    by_cases hfirst : (s.fault d).accepted = true
    · obtain ⟨n, hn⟩ := ih (s.fault d).session
      rw [if_pos hfirst]
      exact ⟨n + 1, hn⟩
    · rw [if_neg hfirst]
      exact ⟨1, rfl⟩

theorem faults_of_accepting {s : Session} {ds : List Diagnostic}
    (h : ∀ k < ds.length, s.sink.willAccept k = true) :
    (s.faults ds).accepted = true ∧ (s.faults ds).session = s.enterAll ds := by
  induction ds generalizing s with
  | nil => exact ⟨rfl, rfl⟩
  | cons d ds ih =>
    have hfirst : (s.fault d).accepted = true := by
      rw [accepted_fault]
      exact h 0 (by simp)
    have hrest : ∀ k < ds.length, (s.fault d).session.sink.willAccept k = true := by
      intro k hk
      rw [fault_session, Sink.willAccept_deliver]
      exact h (k + 1) (by simpa using hk)
    rw [faults, if_pos hfirst]
    exact ih hrest

theorem faults_of_refusing {s : Session} {ds : List Diagnostic} {n : Nat}
    (h : ∀ k < n, s.sink.willAccept k = true) (hn : s.sink.willAccept n = false)
    (hlen : n < ds.length) :
    (s.faults ds).accepted = false ∧ (s.faults ds).session = s.enterAll (ds.take (n + 1)) := by
  induction ds generalizing s n with
  | nil => cases hlen
  | cons d ds ih =>
    cases n with
    | zero =>
      -- the refused fault is entered, and no other one after it
      have hfirst : ¬ (s.fault d).accepted = true := by
        rw [accepted_fault, hn]
        exact Bool.false_ne_true
      rw [faults, if_neg hfirst]
      exact ⟨Bool.eq_false_iff.2 hfirst, rfl⟩
    | succ n =>
      have hfirst : (s.fault d).accepted = true := by
        rw [accepted_fault]
        exact h 0 (Nat.succ_pos n)
      rw [faults, if_pos hfirst]
      refine ih ?_ ?_ (Nat.lt_of_succ_lt_succ hlen)
      · intro k hk
        rw [fault_session, Sink.willAccept_deliver]
        exact h (k + 1) (Nat.succ_lt_succ hk)
      · rw [fault_session, Sink.willAccept_deliver]
        exact hn

/-- If none is refused, all have been entered. -/
theorem session_faults_of_accepted {s : Session} {ds : List Diagnostic}
    (h : (s.faults ds).accepted = true) : (s.faults ds).session = s.enterAll ds := by
  induction ds generalizing s with
  | nil => rfl
  | cons d ds ih =>
    rw [faults] at h ⊢
    by_cases hfirst : (s.fault d).accepted = true
    · rw [if_pos hfirst] at h ⊢
      exact ih h
    · rw [if_neg hfirst] at h
      exact absurd h hfirst

/-- Faults go by the store, the errors and the sink. What changes nothing else about a fault changes
nothing else about all of them. -/
theorem faults_map {f : Session → Session}
    (h : ∀ s d, (f s).fault d = { s.fault d with session := f (s.fault d).session })
    (s : Session) (ds : List Diagnostic) :
    (f s).faults ds = { s.faults ds with session := f (s.faults ds).session } := by
  induction ds generalizing s with
  | nil => rfl
  | cons d ds ih =>
    rw [faults, faults, h, ih]
    split <;> rfl

/-! ## Scans -/

theorem session_scan (s : Session) :
    s.scan.session = (faults { s with errors := #[] } s.source.scan.diagnostics).session := by
  rw [scan]
  split <;> rfl

theorem answer_scan (s : Session) :
    s.scan.answer =
      if (faults { s with errors := #[] } s.source.scan.diagnostics).accepted then
        .tokens s.source.scan.tokens
      else .failed .sinkClosed := by
  rw [scan]
  split <;> rfl

theorem source_scan (s : Session) : s.scan.session.source = s.source := by
  obtain ⟨n, hn⟩ := exists_faults_session { s with errors := #[] } s.source.scan.diagnostics
  rw [session_scan, hn, enterAll_source]

/-- A scan whose faults are all accepted answers with its tokens. -/
theorem scan_of_accepting {s : Session}
    (h : ∀ k < s.source.scan.diagnostics.length, s.sink.willAccept k = true) :
    s.scan.answer = .tokens s.source.scan.tokens ∧
      s.scan.session = { s with errors := #[] }.enterAll s.source.scan.diagnostics := by
  obtain ⟨haccepted, hsession⟩ := faults_of_accepting (s := { s with errors := #[] }) h
  simp only [scan, if_pos haccepted]
  exact ⟨trivial, hsession⟩

/-- A scan without faults leaves the sink alone. -/
theorem scan_of_no_faults {s : Session} (h : s.source.scan.diagnostics = []) :
    s.scan.answer = .tokens s.source.scan.tokens ∧
      s.scan.session = { s with errors := #[] } := by
  have hscan := scan_of_accepting (s := s) (by simp [h])
  rw [h] at hscan
  exact hscan

/-- A scan breaks off at the first fault that is refused, which has been entered by then. -/
theorem scan_of_refusing {s : Session} {n : Nat} (h : ∀ k < n, s.sink.willAccept k = true)
    (hn : s.sink.willAccept n = false) (hlen : n < s.source.scan.diagnostics.length) :
    s.scan.answer = .failed .sinkClosed ∧
      s.scan.session =
        { s with errors := #[] }.enterAll (s.source.scan.diagnostics.take (n + 1)) := by
  obtain ⟨haccepted, hsession⟩ := faults_of_refusing (s := { s with errors := #[] }) h hn hlen
  simp only [scan, haccepted, Bool.false_eq_true, if_false]
  exact ⟨trivial, hsession⟩

end Session

end ScriptLexer
