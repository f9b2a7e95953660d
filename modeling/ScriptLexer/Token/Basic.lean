import ScriptLexer.Number.Binary64
import ScriptLexer.Token.Kind

/-!
# Tokens

A token is a kind, the exact source text it was read from, the value that text denotes if it
denotes one, and the line on which it starts. Nothing ties the four together in the type: a token
can be made from any combination, and printing and comparison are defined on all of them.
-/

namespace ScriptLexer

/-- The value of a token: a text or a number. -/
inductive Literal where
  | text (s : List Char)
  | number (x : Binary64)
deriving DecidableEq

/-- Values are equal if both are the same text or both are numbers of equal value. -/
def Literal.equalValue : Literal → Literal → Bool
  | text s, text t => s == t
  | number x, number y => x.equalValue y
  | _, _ => false

/-- A token of the language. -/
structure Token where
  kind : Kind
  /-- The source text of the token. -/
  lexeme : List Char
  /-- What the lexeme denotes, if it denotes a value. -/
  literal : Option Literal
  /-- The line on which the lexeme begins. -/
  line : Int
deriving DecidableEq

namespace Token

/-- The token that ends every scan. -/
def endOfInput (line : Int) : Token := ⟨.eof, [], none, line⟩

/-- All four fields are equal, the values compared by value. -/
def equalValue (a b : Token) : Bool :=
  a.kind == b.kind && a.lexeme == b.lexeme && a.line == b.line &&
    match a.literal, b.literal with
    | none, none => true
    | some x, some y => x.equalValue y
    | _, _ => false

/-- The token is an identifier, a string or a number. -/
def isLiteral (t : Token) : Bool := Kind.literals.contains t.kind

/-- The token has the kind of a standard reserved word. -/
def isKeyword (t : Token) : Bool := Kind.keywords.contains t.kind

/-- The token is an identifier. -/
def isIdentifier (t : Token) : Bool := t.kind == .identifier

end Token

end ScriptLexer
