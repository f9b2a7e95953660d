import ScriptLexer.Text.Quoted
import ScriptLexer.Token.Kind

/-!
# Finding a kind

A kind is looked up by its name or by its number. A look-up that finds nothing says what was looked
for: a name in quotation marks, or a number.
-/

namespace ScriptLexer

/-- A kind that does not exist. -/
inductive UnknownKind where
  | name (name : String)
  | value (value : Int)
deriving DecidableEq

/-- What is said about a kind that does not exist. -/
def UnknownKind.message : UnknownKind → String
  | name s => String.ofList (Text.quoted s.toList)
  | value n => String.ofList (Text.ofInt n) ++ " is not a valid TokenType"

/-- The kind of a name. -/
def Kind.named (s : String) : Except UnknownKind Kind :=
  match Kind.ofName? s with
  | some kind => .ok kind
  | none => .error (.name s)

/-- The kind of a number. -/
def Kind.numbered (n : Int) : Except UnknownKind Kind :=
  match Kind.ofValue? n with
  | some kind => .ok kind
  | none => .error (.value n)

end ScriptLexer
