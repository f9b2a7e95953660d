import ScriptLexer.Immutable
import ScriptLexer.Log.Registry
import ScriptLexer.Package
import ScriptLexer.Piece.Lemmas
import ScriptLexer.Session
import ScriptLexer.Token.Lookup
import ScriptLexer.Token.Printer
import ScriptLexer.Proofs.MaximalMunch
import ScriptLexer.Proofs.Lines
import ScriptLexer.Proofs.Delivery
import ScriptLexer.Proofs.ReadThrough
import ScriptLexer.Proofs.WholeScan
import ScriptLexer.Proofs.Refusal
import ScriptLexer.Proofs.Rescan
import ScriptLexer.Proofs.FirstPieces
import ScriptLexer.Proofs.JoinedTexts
import ScriptLexer.Proofs.Adjacency
import ScriptLexer.Proofs.Automaton
import ScriptLexer.Proofs.Lookahead
import ScriptLexer.Proofs.ForeignCharacters
import ScriptLexer.Proofs.LineEndings
import ScriptLexer.Proofs.Bookkeeping
import ScriptLexer.Proofs.Independence
import ScriptLexer.Proofs.Clearing
import ScriptLexer.Proofs.StrayCharacters
import ScriptLexer.Proofs.ReservedWords
import ScriptLexer.Proofs.Retracing
import ScriptLexer.Proofs.Rounding
import ScriptLexer.Proofs.NearestDouble
import ScriptLexer.Proofs.NumberLiterals
import ScriptLexer.Proofs.Denotation
import ScriptLexer.Proofs.ShortestDecimal
import ScriptLexer.Proofs.PrintedDoubles
import ScriptLexer.Proofs.PrintedNumbers
import ScriptLexer.Proofs.QuotedText
import ScriptLexer.Proofs.TokenIdentity
import ScriptLexer.Proofs.CharacterWalk
import ScriptLexer.Proofs.FileNames
import ScriptLexer.Proofs.VisibleText
import ScriptLexer.Proofs.WrappedReading
import ScriptLexer.Proofs.ReadingFailures
import ScriptLexer.Proofs.Progress
import ScriptLexer.Proofs.LoggerTree
import ScriptLexer.Proofs.WrittenRecords
import ScriptLexer.Proofs.LogTrace
