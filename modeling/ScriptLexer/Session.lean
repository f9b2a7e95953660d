import ScriptLexer.Cursor
import ScriptLexer.Sink
import ScriptLexer.Text.Quoted

/-!
# Sessions

A session is a scanner in use. It keeps the source at hand, the errors of the latest scan, the sink
that they are delivered to, a cursor for reading piece by piece, and a list of diagnostics that was
put aside. Diagnostics are shared between these lists and can be changed afterwards, so the lists
hold names and the diagnostics themselves are in a store that only grows.

A fault is entered among the errors before it is delivered. When the sink refuses it, the step ends
there with everything that was changed up to then: a scan stops after the refused fault, and the
cursor of a single reading has already moved past the piece.
-/

namespace ScriptLexer

/-- A change to one field of a diagnostic. -/
inductive Edit where
  | message (value : String)
  | line (value : Int)
  | severity (value : String)
  | code (value : Option String)
  | filename (value : String)
  | helpText (value : Option String)
  /-- Sets something that is no field of a diagnostic, and that nothing shows. -/
  | unknown (field : String)
deriving DecidableEq

/-- The diagnostic after a change. -/
def Edit.apply (d : Diagnostic) : Edit → Diagnostic
  | message value => { d with message := value }
  | line value => { d with line := value }
  | severity value => { d with severity := value }
  | code value => { d with code := value }
  | filename value => { d with filename := value }
  | helpText value => { d with helpText := value }
  | unknown _ => d

/-- Why a step did not succeed. -/
inductive Failure where
  /-- The cursor lies outside the source. -/
  | outsideSource
  /-- A position or an index does not fit in sixty-four bits. -/
  | tooWide
  /-- The number that was read shows no number in the source. -/
  | notANumber (text : List Char)
  /-- There is no error with that index. -/
  | noSuchError
  /-- The sink refused a delivery. -/
  | sinkClosed
deriving DecidableEq

/-- A failed look-up at a position: too wide a position is reported as that, and any other as `f`. -/
def Failure.atPosition (f : Failure) (position : Int) : Failure :=
  if Text.fitsIndex position then f else .tooWide

/-- What is said about a failure. -/
def Failure.message : Failure → String
  | outsideSource => "string index out of range"
  | tooWide => "cannot fit 'int' into an index-sized integer"
  | notANumber text => "could not convert string to float: " ++ String.ofList (Text.quoted text)
  | noSuchError => "list index out of range"
  | sinkClosed => "sink closed"

/-- What can be seen of a sink. -/
inductive SinkView where
  | reporter (filename : String) (hadError : Bool) (diagnostics : List Diagnostic)
  | collector (collected : List (Int × String))
deriving DecidableEq

/-- The answer to a step. -/
inductive Answer where
  | done
  | tokens (tokens : List Token)
  | token (token : Option Token)
  | hasErrors (value : Bool)
  | diagnostics (diagnostics : List Diagnostic)
  | sink (view : SinkView)
  | failed (failure : Failure)
deriving DecidableEq

/-- The state of a session. -/
structure Session where
  source : Source
  /-- Every diagnostic that was ever made, in the order of their making. -/
  store : Array Diagnostic := #[]
  /-- The faults found by the current scanner since its latest scan began. -/
  errors : Array DiagnosticId := #[]
  sink : Sink
  /-- Whether each scanner brings a reporter of its own. -/
  ownReporter : Bool
  cursor : Cursor := {}
  /-- The errors that were put aside. -/
  held : Array DiagnosticId := #[]
  level : Log.Level := .info

/-- What a step leaves behind. -/
structure Outcome where
  session : Session
  answer : Answer
  /-- Everything that was noted, whatever the level of the log. -/
  records : List Log.Record := []

/-- The lines that the log of the session shows. -/
def Outcome.lines (o : Outcome) : List String :=
  (o.records.filter fun r => o.session.level.admits r.level).map Log.Record.line

/-- What can be done in a session. -/
inductive Step where
  /-- Scans the whole source. -/
  | scan
  /-- Reads one piece at the cursor. -/
  | scanToken
  | setCursor (cursor : Cursor)
  /-- Takes up a new source. -/
  | setSource (source : Source)
  | hasErrors
  | diagnostics
  /-- Puts the present errors aside. -/
  | hold
  | held
  | edit (index : Int) (edit : Edit)
  | sink
  | reset
  /-- Delivers a line and a message to the sink. -/
  | call (line : Int) (message : String)
  /-- Makes a diagnostic and delivers it to a reporter. -/
  | report (d : Diagnostic)
  /-- Delivers a diagnostic that was made before, an error for example or one that was put aside. -/
  | reportAgain (id : DiagnosticId)
  | setLevel (level : Log.Level)

namespace Session

/-- Opens a session. Without a sink, each scanner reports to a reporter with its file name. -/
def start (source : Source) (sink : Option Sink := none) : Session where
  source := source
  sink := sink.getD (.newReporter source.filename)
  ownReporter := sink.isNone

/-- The diagnostics that a list of names stands for. -/
def lookup (s : Session) (ids : Array DiagnosticId) : List Diagnostic :=
  ids.toList.filterMap fun id => s.store[id]?

/-! ## Faults -/

/-- What became of one or more faults. -/
structure Reported where
  session : Session
  accepted : Bool := true
  records : List Log.Record := []

/-- Hands the diagnostic `d`, known by `id`, to the sink. -/
def handOver (s : Session) (id : DiagnosticId) (d : Diagnostic) : Reported :=
  let delivery := s.sink.deliver id d
  { session := { s with sink := delivery.sink }
    accepted := delivery.accepted
    records := delivery.records }

/-- Makes a diagnostic known to the session and delivers it. -/
def deliver (s : Session) (d : Diagnostic) : Reported :=
  handOver { s with store := s.store.push d } s.store.size d

/-- Enters a fault of the source among the errors and delivers it. -/
def fault (s : Session) (d : Diagnostic) : Reported :=
  deliver { s with errors := s.errors.push s.store.size } d

/-- Enters and delivers faults in order, up to the first that is refused. -/
def faults (s : Session) : List Diagnostic → Reported
  | [] => { session := s }
  | d :: ds =>
    let first := s.fault d
    if first.accepted then
      let others := first.session.faults ds
      { others with records := first.records ++ others.records }
    else first

/-! ## Steps -/

/-- The record that opens a scan. -/
def openingRecord (source : Source) : Log.Record where
  level := .debug
  logger := "interp.lexer.scanner"
  message := "Scanning " ++ source.filename ++ " (" ++ toString source.text.length ++ " characters)"

/-- The record that closes a scan. -/
def closingRecord (source : Source) (tokens errors : Nat) : Log.Record where
  level := .debug
  logger := "interp.lexer.scanner"
  message := "Scanned " ++ source.filename ++ ": " ++ toString tokens ++ " tokens, " ++
    toString errors ++ " errors"

/-- Scans the whole source, beginning with no errors. The cursor of the session is not touched. -/
def scan (s : Session) : Outcome :=
  let result := s.source.scan
  let reported := faults { s with errors := #[] } result.diagnostics
  if reported.accepted then
    { session := reported.session
      answer := .tokens result.tokens
      records := openingRecord s.source :: reported.records ++
        [closingRecord s.source result.tokens.length reported.session.errors.size] }
  else
    { session := reported.session
      answer := .failed .sinkClosed
      records := openingRecord s.source :: reported.records }

/-- Reads one piece at the cursor. -/
def scanToken (s : Session) : Outcome :=
  match s.source.read? s.cursor with
  | none =>
    { session := { s with cursor := { s.cursor with start := s.cursor.current } }
      answer := .failed (.atPosition .outsideSource s.cursor.current) }
  | some reading =>
    let moved := { s with cursor := reading.cursor }
    match reading.piece.fault? s.source.filename s.cursor.line with
    | some d =>
      let reported := moved.fault d
      { session := reported.session
        answer := if reported.accepted then .token none else .failed .sinkClosed
        records := reported.records }
    | none =>
      { session := moved
        answer := match s.source.tokenOf s.cursor.line reading with
          | .ok token => .token token
          | .error e => .failed (.notANumber e.text) }

/-- Takes up a new source. The errors begin anew; the store, the cursor and what was held stay. -/
def setSource (s : Session) (source : Source) : Session :=
  { s with
    source := source
    errors := #[]
    sink := if s.ownReporter then .newReporter source.filename else s.sink }

/-- Changes a field of the error at `index`. -/
def edit (s : Session) (index : Int) (edit : Edit) : Outcome :=
  match (Text.index? s.errors.size index).bind (s.errors[·]?) with
  | some id => { session := { s with store := s.store.modify id edit.apply }, answer := .done }
  | none => { session := s, answer := .failed (.atPosition .noSuchError index) }

/-- What can be seen of the sink. -/
def sinkView (s : Session) : SinkView :=
  match s.sink with
  | .reporter filename recorded =>
    let diagnostics := s.lookup recorded
    .reporter filename (diagnostics.any fun d => d.severity == "error") diagnostics
  | .collector _ _ collected => .collector collected.toList

/-- A step that delivers a diagnostic and does nothing else. -/
def Reported.outcome (reported : Reported) : Outcome where
  session := reported.session
  answer := if reported.accepted then .done else .failed .sinkClosed
  records := reported.records

/-- Delivers a diagnostic that is no fault of the source. -/
def direct (s : Session) (d : Diagnostic) : Outcome := (s.deliver d).outcome

/-- Delivers a diagnostic that is known already, as it is now. Nothing new is made, so all lists
that hold it go on sharing it. A number that names none is refused like an index without an error.
-/
def again (s : Session) (id : DiagnosticId) : Outcome :=
  match s.store[id]? with
  | some d => (s.handOver id d).outcome
  | none => { session := s, answer := .failed .noSuchError }

/-- One step of a session. -/
def step (s : Session) : Step → Outcome
  | .scan => s.scan
  | .scanToken => s.scanToken
  | .setCursor cursor => { session := { s with cursor := cursor }, answer := .done }
  | .setSource source => { session := s.setSource source, answer := .done }
  | .hasErrors => { session := s, answer := .hasErrors (!s.errors.isEmpty) }
  | .diagnostics => { session := s, answer := .diagnostics (s.lookup s.errors) }
  | .hold => { session := { s with held := s.errors }, answer := .done }
  | .held => { session := s, answer := .diagnostics (s.lookup s.held) }
  | .edit index edit => s.edit index edit
  | .sink => { session := s, answer := .sink s.sinkView }
  | .reset => { session := { s with sink := s.sink.reset }, answer := .done }
  | .call line message =>
    s.direct { message := message, line := line, filename := s.sink.filename }
  | .report d => s.direct d
  | .reportAgain id => s.again id
  | .setLevel level => { session := { s with level := level }, answer := .done }

/-- The outcomes of a list of steps, each taken where the one before it ended. -/
def run (s : Session) : List Step → List Outcome
  | [] => []
  | first :: others =>
    let outcome := s.step first
    outcome :: outcome.session.run others

end Session

end ScriptLexer
