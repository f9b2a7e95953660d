/-!
# The published interface

What the library tells about itself: its version, its terms of use, and the names it offers, first
those of the whole package and then those of its lexical part.
-/

namespace ScriptLexer.Package

/-- The version of the library. -/
def version : String := "0.1.0"

/-- The terms under which the library may be used. -/
def terms : String := "MIT"

/-- The names that the package offers. -/
def packageNames : List String :=
  ["Scanner", "Token", "TokenType", "ErrorReporter", "scan_tokens", "__version__", "__license__"]

/-- The names that the lexical part offers. -/
def lexerNames : List String :=
  ["Scanner", "Cursor", "CharClass", "classify", "scan_tokens", "tokenize_string", "Token",
    "TokenType", "KEYWORDS", "Diagnostic", "ErrorReporter", "LexerError"]

end ScriptLexer.Package
