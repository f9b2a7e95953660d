import ScriptLexer.Proofs.Delivery
import Mathlib.Data.List.DropRight
import Mathlib.Data.List.Induction

/-!
# The history of a session

The lists of a session share their diagnostics, are emptied at different moments and can be left in
the middle of a scan by a refusal. What each of them ought to hold is said here without looking at
any of them. Every step adds a few events to a history (`Session.events`): a diagnostic is made, a
scan begins, a reporter is reset, and so on. From the history alone it is read off which diagnostics
were made since an event of some kind, which were delivered, and what has become of each.

To be made and to be delivered are two things. A diagnostic is made once, and delivered then, but it
may be delivered again at any time. Each delivery is noted with the diagnostic as it was at that
moment (`Snapshots`), because a collector keeps no more than that.

Whether a fault is refused matters in one place only. A scan goes no further after a refusal, so the
faults behind the refused one never come into being.
-/

namespace ScriptLexer

/-- Something that happens to the diagnostics of a session. A diagnostic is known by its number: it
is the place in the store that it was given when it was made. -/
inductive Event where
  /-- A new scanner takes over, perhaps with a reporter of its own. -/
  | scanner (ownReporter : Bool)
  /-- The scanner begins a scan of the whole source. -/
  | scan
  /-- The scanner makes the diagnostic of a fault and delivers it. -/
  | fault (id : DiagnosticId) (d : Diagnostic)
  /-- A diagnostic is made elsewhere and delivered. -/
  | direct (id : DiagnosticId) (d : Diagnostic)
  /-- A diagnostic that was made before is delivered again, as it is now. -/
  | again (id : DiagnosticId) (d : Diagnostic)
  /-- The reporter forgets what it has received. -/
  | reset
  /-- The errors are put aside. -/
  | hold
  | edit (id : DiagnosticId) (edit : Edit)

namespace Event

/-- The diagnostic of a fault. -/
def fault? : Event → Option DiagnosticId
  | fault id _ => some id
  | _ => none

/-- The diagnostic that comes into being. -/
def made? : Event → Option (DiagnosticId × Diagnostic)
  | fault id d | direct id d => some (id, d)
  | _ => none

/-- What the sink is given, whatever it makes of it. -/
def delivery? : Event → Option (DiagnosticId × Diagnostic)
  | fault id d | direct id d | again id d => some (id, d)
  | _ => none

/-- Errors found before do not count any more. -/
def startsErrors : Event → Bool
  | scanner _ | scan => true
  | _ => false

/-- What was received before is not in the reporter any more. -/
def startsReporter : Event → Bool
  | scanner ownReporter => ownReporter
  | reset => true
  | _ => false

/-- The errors are put aside. -/
def isHold : Event → Bool
  | hold => true
  | _ => false

/-- What the event makes of the diagnostic `id`, which may not exist before. -/
def update (id : DiagnosticId) (before : Option Diagnostic) : Event → Option Diagnostic
  | fault made d | direct made d => if made = id then some d else before
  | edit changed e => if changed = id then before.map e.apply else before
  | _ => before

end Event

/-- What a collector keeps of a diagnostic. -/
def Diagnostic.summary (d : Diagnostic) : Int × String := (d.line, d.message)

/-! ## What a history says -/

/-- The events since the latest one that `p` picks out, or all events if there is none. -/
def sinceLast (p : Event → Bool) (history : List Event) : List Event :=
  history.rtakeWhile fun e => !p e

/-- The events up to the latest one that `p` picks out, or none if there is none. -/
def upToLast (p : Event → Bool) (history : List Event) : List Event :=
  history.rdropWhile fun e => !p e

/-- The faults that the current scanner has found since its latest scan began, or since it was made
if it has not scanned yet. -/
def errorsOf (history : List Event) : List DiagnosticId :=
  (sinceLast Event.startsErrors history).filterMap Event.fault?

/-- All diagnostics that were ever made, each as it was then. -/
def makings (history : List Event) : List (DiagnosticId × Diagnostic) :=
  history.filterMap Event.made?

/-- All deliveries, each with the diagnostic as it was then. -/
def deliveries (history : List Event) : List (DiagnosticId × Diagnostic) :=
  history.filterMap Event.delivery?

/-- The diagnostics that were delivered since the reporter was made or reset. -/
def recordedOf (history : List Event) : List DiagnosticId :=
  (deliveries (sinceLast Event.startsReporter history)).map Prod.fst

/-- Line and message of the deliveries that `accepts` allows. -/
def collectedOf (accepts : Nat → Bool) (history : List Event) : List (Int × String) :=
  ((deliveries history).zipIdx.filter fun x => accepts x.2).map fun x => x.1.2.summary

/-- The errors at the moment when they were put aside the last time. -/
def heldOf (history : List Event) : List DiagnosticId := errorsOf (upToLast Event.isHold history)

/-- What has become of the diagnostic `id`: it is as it was made, with all later edits. -/
def valueOf (history : List Event) (id : DiagnosticId) : Option Diagnostic :=
  history.foldl (Event.update id) none

/-- Whatever was delivered was what had become of the diagnostic by then. -/
def Snapshots (history : List Event) : Prop :=
  ∀ before e, before ++ [e] <+: history → ∀ x ∈ e.delivery?, valueOf (before ++ [e]) x.1 = some x.2

theorem snapshots_nil : Snapshots [] := by
  intro before e hprefix
  have hnil := List.prefix_nil.1 hprefix
  cases before <;> cases hnil

section Append

variable (history : List Event) (e : Event)

theorem errorsOf_append :
    errorsOf (history ++ [e]) =
      if e.startsErrors then [] else errorsOf history ++ e.fault?.toList := by
  rw [errorsOf, sinceLast, List.rtakeWhile_concat]
  cases e <;> simp [errorsOf, sinceLast, Event.startsErrors, Event.fault?]

theorem deliveries_append : deliveries (history ++ [e]) =
    deliveries history ++ e.delivery?.toList := by
  rw [deliveries, List.filterMap_append]
  cases e <;> rfl

theorem makings_append : makings (history ++ [e]) = makings history ++ e.made?.toList := by
  rw [makings, List.filterMap_append]
  cases e <;> rfl

theorem recordedOf_append :
    recordedOf (history ++ [e]) =
      if e.startsReporter then [] else recordedOf history ++ (e.delivery?.map Prod.fst).toList := by
  rw [recordedOf, sinceLast, List.rtakeWhile_concat]
  cases hstarts : e.startsReporter with
  | true => rfl
  | false =>
    simp only [Bool.not_false, if_true, Bool.false_eq_true, if_false]
    rw [deliveries_append, List.map_append, Option.toList_map]
    rfl

theorem collectedOf_append (accepts : Nat → Bool) :
    collectedOf accepts (history ++ [e]) = collectedOf accepts history ++
      (e.delivery?.toList.filter fun _ => accepts (deliveries history).length).map
        fun x => x.2.summary := by
  rw [collectedOf, deliveries_append, List.zipIdx_append, List.filter_append, List.map_append]
  congr 1
  cases e.delivery? with
  | none => rfl
  | some x =>
    simp only [Option.toList_some, List.zipIdx_singleton, List.filter_singleton, Nat.zero_add]
    cases accepts (deliveries history).length <;> rfl

theorem heldOf_append :
    heldOf (history ++ [e]) = if e.isHold then errorsOf (history ++ [e]) else heldOf history := by
  rw [heldOf, upToLast, List.rdropWhile_concat]
  cases e <;> rfl

theorem valueOf_append (id : DiagnosticId) :
    valueOf (history ++ [e]) id = e.update id (valueOf history id) := by
  rw [valueOf, List.foldl_append]
  rfl

variable {history e} in
/-- It is enough to look at the last delivery. -/
theorem Snapshots.append (h : Snapshots history)
    (hlast : ∀ x ∈ e.delivery?, valueOf (history ++ [e]) x.1 = some x.2) :
    Snapshots (history ++ [e]) := by
  intro before last hprefix
  rcases List.prefix_concat_iff.1 hprefix with heq | hprefix
  · obtain ⟨rfl, rfl⟩ := List.append_singleton_inj.1 heq
    exact hlast
  · exact h before last hprefix

/-- A diagnostic that was made does not go away. -/
theorem isSome_valueOf_append {id : DiagnosticId} (h : (valueOf history id).isSome)
    (more : List Event) : (valueOf (history ++ more) id).isSome := by
  induction more using List.reverseRecOn with
  | nil => rwa [List.append_nil]
  | append_singleton more e ih =>
    rw [← List.append_assoc, valueOf_append]
    cases e with
    | fault made d => rw [Event.update]; split <;> trivial
    | direct made d => rw [Event.update]; split <;> trivial
    | edit changed edit =>
      rw [Event.update]
      split
      · rw [Option.isSome_map]
        exact ih
      · exact ih
    | _ => exact ih

end Append

/-- Only what was made has been delivered. -/
theorem Snapshots.isSome_valueOf {history : List Event} (h : Snapshots history)
    {x : DiagnosticId × Diagnostic} (hx : x ∈ deliveries history) :
    (valueOf history x.1).isSome := by
  obtain ⟨e, he, hdelivery⟩ := List.mem_filterMap.1 hx
  obtain ⟨before, after, rfl⟩ := List.append_of_mem he
  have hprefix : before ++ [e] <+: before ++ e :: after :=
    ⟨after, by rw [List.append_assoc]; rfl⟩
  have hthen := h before e hprefix x hdelivery
  rw [List.append_cons]
  exact isSome_valueOf_append _ (Option.isSome_of_eq_some hthen) after

section Collected

variable {accepts : Nat → Bool} {history : List Event}

theorem collectedOf_of_all (h : ∀ k, accepts k = true) :
    collectedOf accepts history = (deliveries history).map fun x => x.2.summary := by
  have hall : (deliveries history).zipIdx.filter (fun x => accepts x.2) =
      (deliveries history).zipIdx := List.filter_eq_self.2 fun x _ => h x.2
  conv => rhs; rw [← List.zipIdx_map_fst 0 (deliveries history), List.map_map]
  rw [collectedOf, hall]
  rfl

theorem map_filter_zipIdx {α β : Type} (f : α → β) (n k : Nat) (l : List α)
    (h : ∀ j, accepts (k + j) = decide (j < n)) :
    ((l.zipIdx k).filter fun x => accepts x.2).map (fun x => f x.1) = (l.take n).map f := by
  induction l generalizing n k with
  | nil => simp
  | cons a l ih =>
    have hk : accepts k = decide (0 < n) := h 0
    have hrest : ∀ j, accepts (k + 1 + j) = decide (j < n - 1) := by
      intro j
      rw [Nat.add_assoc, h, decide_eq_decide]
      omega
    rw [List.zipIdx_cons, List.filter_cons]
    cases n with
    | zero => simpa [hk] using ih 0 (k + 1) hrest
    | succ n => simpa [hk] using ih n (k + 1) hrest

theorem collectedOf_of_limit {n : Nat} (h : ∀ k, accepts k = decide (k < n)) :
    collectedOf accepts history = ((deliveries history).take n).map fun x => x.2.summary := by
  refine map_filter_zipIdx (fun x : DiagnosticId × Diagnostic => x.2.summary) n 0 _ ?_
  intro j
  rw [Nat.zero_add]
  exact h j

end Collected

/-! ## How a history comes about -/

/-- The faults of a scan as they are made, up to the first that the sink refuses. The one with
number `k` is known by `id + k`. -/
def faultEvents (sink : Sink) (id : DiagnosticId) : Nat → List Diagnostic → List Event
  | _, [] => []
  | k, d :: ds =>
    .fault (id + k) d :: if sink.willAccept k then faultEvents sink id (k + 1) ds else []

theorem faultEvents_add_one {sink later : Sink}
    (h : ∀ k, later.willAccept k = sink.willAccept (k + 1)) (id : DiagnosticId) (k : Nat)
    (ds : List Diagnostic) : faultEvents later (id + 1) k ds = faultEvents sink id (k + 1) ds := by
  induction ds generalizing k with
  | nil => rfl
  | cons d ds ih =>
    have hid : id + 1 + k = id + (k + 1) := Nat.add_right_comm id 1 k
    rw [faultEvents, faultEvents, ih, h, hid]

namespace Session

/-- What happens in a step. -/
def events (s : Session) : Step → List Event
  | .scan => .scan :: faultEvents s.sink s.store.size 0 s.source.scan.diagnostics
  | .scanToken =>
    match s.source.read? s.cursor with
    | some reading =>
      (reading.piece.fault? s.source.filename s.cursor.line).toList.map (.fault s.store.size)
    | none => []
  | .setSource _ => [.scanner s.ownReporter]
  | .hold => [.hold]
  | .edit index edit =>
    ((Text.index? s.errors.size index).bind (s.errors[·]?)).toList.map (.edit · edit)
  | .reset => [.reset]
  | .call line message =>
    [.direct s.store.size { message := message, line := line, filename := s.sink.filename }]
  | .report d => [.direct s.store.size d]
  | .reportAgain id => (s.store[id]?).toList.map (.again id)
  | .setCursor _ | .hasErrors | .diagnostics | .held | .sink | .setLevel _ => []

/-- The session in which a list of steps ends. -/
def after (s : Session) (steps : List Step) : Session :=
  ((s.run steps).getLast?.map Outcome.session).getD s

/-- What happens in a list of steps. -/
def history (s : Session) : List Step → List Event
  | [] => []
  | step :: steps => s.events step ++ (s.step step).session.history steps

theorem after_cons (s : Session) (step : Step) (steps : List Step) :
    s.after (step :: steps) = (s.step step).session.after steps := by
  rw [after, run, List.getLast?_cons, after]
  cases ((s.step step).session.run steps).getLast? <;> rfl

end Session

end ScriptLexer
