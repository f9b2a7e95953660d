import ScriptLexer.Token.Kind

/-!
# Classes of characters

What a piece of source text is, is decided by its first character alone. Every character falls into
one of nine classes, and the class of punctuation and of operators also tells which one it is. The
classification is total: a character that no piece can begin with is in the class `other`.

Letters and digits are those of ASCII. A letter or digit of any other alphabet is `other`, like
every control character except tab, line feed and carriage return.
-/

namespace ScriptLexer

/-- A mark that is a token by itself whatever follows it. -/
inductive Punctuation where
  | leftParen | rightParen | leftBrace | rightBrace | comma | dot | minus | plus | semicolon | star
deriving DecidableEq

namespace Punctuation

/-- All marks, in the order of their kinds. -/
def all : List Punctuation :=
  [leftParen, rightParen, leftBrace, rightBrace, comma, dot, minus, plus, semicolon, star]

/-- The character that the mark is written with. -/
def char : Punctuation → Char
  | leftParen => '('
  | rightParen => ')'
  | leftBrace => '{'
  | rightBrace => '}'
  | comma => ','
  | dot => '.'
  | minus => '-'
  | plus => '+'
  | semicolon => ';'
  | star => '*'

/-- The kind of token that the mark is. -/
def kind : Punctuation → Kind
  | leftParen => .leftParen
  | rightParen => .rightParen
  | leftBrace => .leftBrace
  | rightBrace => .rightBrace
  | comma => .comma
  | dot => .dot
  | minus => .minus
  | plus => .plus
  | semicolon => .semicolon
  | star => .star

end Punctuation

/-- An operator that takes in a directly following `=`. -/
inductive Operator where
  | bang | equal | greater | less
deriving DecidableEq

namespace Operator

/-- All operators, in the order of their kinds. -/
def all : List Operator := [bang, equal, greater, less]

/-- The character that the operator begins with. -/
def char : Operator → Char
  | bang => '!'
  | equal => '='
  | greater => '>'
  | less => '<'

/-- The kind of token that the operator is, without and with a following `=`. -/
def kind : Operator → Bool → Kind
  | bang, false => .bang
  | bang, true => .bangEqual
  | equal, false => .equal
  | equal, true => .equalEqual
  | greater, false => .greater
  | greater, true => .greaterEqual
  | less, false => .less
  | less, true => .lessEqual

end Operator

/-- What the first character of a piece says about it. -/
inductive CharClass where
  | punctuation (mark : Punctuation)
  | operator (op : Operator)
  | slash
  | whitespace
  | newline
  | quote
  | digit
  | alpha
  | other
deriving DecidableEq

namespace CharClass

/-- The name of a class. -/
def name : CharClass → String
  | punctuation _ => "PUNCTUATION"
  | operator _ => "OPERATOR"
  | slash => "SLASH"
  | whitespace => "WHITESPACE"
  | newline => "NEWLINE"
  | quote => "QUOTE"
  | digit => "DIGIT"
  | alpha => "ALPHA"
  | other => "OTHER"

/-- The names of the classes in the order of their numbers, which count from one. -/
def names : List String :=
  ["PUNCTUATION", "OPERATOR", "SLASH", "WHITESPACE", "NEWLINE", "QUOTE", "DIGIT", "ALPHA", "OTHER"]

end CharClass

/-- A character that a word can begin with. -/
def isWordStart (c : Char) : Bool := c.isAlpha || c == '_'

/-- A character that a word can go on with. -/
def isWordChar (c : Char) : Bool := c.isDigit || isWordStart c

/-- The class of a character. -/
def classify (c : Char) : CharClass :=
  match c with
  | '(' => .punctuation .leftParen
  | ')' => .punctuation .rightParen
  | '{' => .punctuation .leftBrace
  | '}' => .punctuation .rightBrace
  | ',' => .punctuation .comma
  | '.' => .punctuation .dot
  | '-' => .punctuation .minus
  | '+' => .punctuation .plus
  | ';' => .punctuation .semicolon
  | '*' => .punctuation .star
  | '!' => .operator .bang
  | '=' => .operator .equal
  | '>' => .operator .greater
  | '<' => .operator .less
  | '/' => .slash
  | ' ' => .whitespace
  | '\t' => .whitespace
  | '\r' => .whitespace
  | '\n' => .newline
  | '"' => .quote
  | _ => if c.isDigit then .digit else if isWordStart c then .alpha else .other

/-- The class of a text: that of its character if it has just one, and `other` if not. -/
def classifyText : List Char → CharClass
  | [c] => classify c
  | _ => .other

end ScriptLexer
