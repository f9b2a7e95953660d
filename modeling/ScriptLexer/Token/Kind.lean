/-!
# The kinds of tokens

There are thirty-nine kinds. Ten are single marks of punctuation, one is the slash, eight are the
four operators with and without a following `=`, three are the open-ended kinds whose text is not
fixed, sixteen are reserved words, and the last one marks the end of the input. A kind is known
outside by its name and by its place in the list, counted from one.

Words are told apart by a table from their text to a kind. The standard table reserves sixteen
words; a host may supply its own table, and a word that the table does not have is an identifier.
-/

namespace ScriptLexer

/-- What a token is. -/
inductive Kind where
  | leftParen | rightParen | leftBrace | rightBrace | comma | dot | minus | plus | semicolon
  | slash | star
  | bang | bangEqual | equal | equalEqual | greater | greaterEqual | less | lessEqual
  | identifier | string | number
  | andWord | classWord | elseWord | falseWord | forWord | funWord | ifWord | nilWord
  | orWord | printWord | returnWord | superWord | thisWord | trueWord | varWord | whileWord
  | eof
deriving DecidableEq

namespace Kind

/-- All kinds in the order of their numbers. -/
def all : List Kind := [
  leftParen, rightParen, leftBrace, rightBrace, comma, dot, minus, plus, semicolon, slash, star,
  bang, bangEqual, equal, equalEqual, greater, greaterEqual, less, lessEqual,
  identifier, string, number,
  andWord, classWord, elseWord, falseWord, forWord, funWord, ifWord, nilWord,
  orWord, printWord, returnWord, superWord, thisWord, trueWord, varWord, whileWord,
  eof]

/-- The name of a kind. -/
def name : Kind → String
  | leftParen => "LEFT_PAREN"
  | rightParen => "RIGHT_PAREN"
  | leftBrace => "LEFT_BRACE"
  | rightBrace => "RIGHT_BRACE"
  | comma => "COMMA"
  | dot => "DOT"
  | minus => "MINUS"
  | plus => "PLUS"
  | semicolon => "SEMICOLON"
  | slash => "SLASH"
  | star => "STAR"
  | bang => "BANG"
  | bangEqual => "BANG_EQUAL"
  | equal => "EQUAL"
  | equalEqual => "EQUAL_EQUAL"
  | greater => "GREATER"
  | greaterEqual => "GREATER_EQUAL"
  | less => "LESS"
  | lessEqual => "LESS_EQUAL"
  | identifier => "IDENTIFIER"
  | string => "STRING"
  | number => "NUMBER"
  | andWord => "AND"
  | classWord => "CLASS"
  | elseWord => "ELSE"
  | falseWord => "FALSE"
  | forWord => "FOR"
  | funWord => "FUN"
  | ifWord => "IF"
  | nilWord => "NIL"
  | orWord => "OR"
  | printWord => "PRINT"
  | returnWord => "RETURN"
  | superWord => "SUPER"
  | thisWord => "THIS"
  | trueWord => "TRUE"
  | varWord => "VAR"
  | whileWord => "WHILE"
  | eof => "EOF"

/-- The number of a kind: its place in the list of all kinds, from one. -/
def value (k : Kind) : Nat := all.idxOf k + 1

/-- The kind of a name. -/
def ofName? (s : String) : Option Kind := all.find? fun k => k.name == s

/-- The kind of a number. -/
def ofValue? (n : Int) : Option Kind := all.find? fun k => (k.value : Int) == n

/-- The kinds whose tokens are written out by the user rather than fixed by the language. -/
def literals : List Kind := [identifier, string, number]

end Kind

/-! ## Reserved words -/

/-- A table of reserved words. Of two entries for one word the first counts. -/
abbrev Keywords := List (List Char × Kind)

namespace Keywords

/-- The reserved words of the language. -/
def standard : Keywords := [
  ("and".toList, .andWord), ("class".toList, .classWord), ("else".toList, .elseWord),
  ("false".toList, .falseWord), ("for".toList, .forWord), ("fun".toList, .funWord),
  ("if".toList, .ifWord), ("nil".toList, .nilWord), ("or".toList, .orWord),
  ("print".toList, .printWord), ("return".toList, .returnWord), ("super".toList, .superWord),
  ("this".toList, .thisWord), ("true".toList, .trueWord), ("var".toList, .varWord),
  ("while".toList, .whileWord)]

/-- The kind of a word: what the table says, or an identifier. -/
def kindOf (table : Keywords) (word : List Char) : Kind :=
  (table.lookup word).getD .identifier

end Keywords

/-- The kinds of the standard reserved words. -/
def Kind.keywords : List Kind := Keywords.standard.map Prod.snd

end ScriptLexer
