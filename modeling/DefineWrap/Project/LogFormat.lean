/-
The format of the log.
-/

set_option autoImplicit false

namespace DefineWrap

/-- How the log is written. -/
inductive LogFormat where
  | text
  | tree
  | json
  deriving DecidableEq, Repr

namespace LogFormat

/-- The format of the given name, in either case of letters. Every unknown name means
text. Only ASCII letters have a counterpart among the letters of the names. -/
def ofName (name : String) : LogFormat :=
  let letters := name.toList.map Char.toLower
  if letters = "tree".toList then .tree
  else if letters = "json".toList then .json
  else .text

end LogFormat

end DefineWrap
