import ScriptLexer.Text.Quoted

/-!
# What cannot be changed

Tokens and the tables of the language never change once they are made. An attempt to change one is
refused whatever it aims at, whether the field or the entry exists or not.
-/

namespace ScriptLexer

/-- What someone tries to do to a field or an entry. -/
inductive Attempt where
  | assign
  | delete
deriving DecidableEq

/-- The refusal of an attempt on the field `field` of a token, which is named in quotation marks. -/
def Attempt.refusedByToken (field : String) : Attempt → String
  | assign => "cannot assign to field " ++ String.ofList (Text.quoted field.toList)
  | delete => "cannot delete field " ++ String.ofList (Text.quoted field.toList)

/-- The refusal of an attempt on an entry of a table. -/
def Attempt.refusedByTable : Attempt → String
  | assign => "'mappingproxy' object does not support item assignment"
  | delete => "'mappingproxy' object does not support item deletion"

end ScriptLexer
