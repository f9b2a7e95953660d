import ScriptLexer.Number.Layout
import ScriptLexer.Text.Quoted
import ScriptLexer.Token.Basic

/-!
# Printed tokens

A token has a short and a full printed form. Both write texts in quotation marks and numbers with
their shortest digits, so a printed token is one line of printable characters.
-/

namespace ScriptLexer

/-- A value in its printed form. -/
def Literal.print : Literal → List Char
  | text s => Text.quoted s
  | number x => x.write

namespace Token

/-- The short form: the kind, the lexeme, and the value if there is one. -/
def print (t : Token) : List Char :=
  let value := match t.literal with
    | some v => " -> ".toList ++ v.print
    | none => []
  t.kind.name.toList ++ '(' :: Text.quoted t.lexeme ++ value ++ [')']

/-- The full form: all four fields, a missing value written as `None`. -/
def printFull (t : Token) : List Char :=
  let value := match t.literal with
    | some v => v.print
    | none => "None".toList
  "Token(".toList ++ t.kind.name.toList ++ ", ".toList ++ Text.quoted t.lexeme ++
    ", ".toList ++ value ++ ", ".toList ++ Text.ofInt t.line ++ [')']

end Token

end ScriptLexer
