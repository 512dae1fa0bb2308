/-
How a pattern is looked up.

Most patterns are simple: a text that the whole path is, or that it begins or ends
with, or a text for the file name alone. A pattern that is not simple but ends in the
ending of a file name is only tried on paths with that ending. All others are
tried on every path.
-/
import DefineWrap.Project.Glob.Pattern

set_option autoImplicit false

namespace DefineWrap

/-- How a pattern is looked up. -/
inductive GlobLookup where
  /-- By a text that a path is, begins with or ends in. -/
  | text
  /-- By the file name, or by its ending. -/
  | fileName
  /-- By the ending of the file name first, and then by all parts. -/
  | ending
  /-- By all parts. -/
  | parts
  deriving DecidableEq, Repr

/-- Whether only paths with a file name are looked at. -/
def GlobLookup.needsFileName : GlobLookup → Bool
  | .text => false
  | .fileName => true
  | .ending => true
  | .parts => false

namespace Glob

/-- The character of a literal. -/
def literal? : GlobPart → Option Char
  | .literal c => some c
  | _ => none

/-- The text of a pattern that consists of literals. -/
def plainText? (parts : List GlobPart) : Option (List Char) := parts.mapM literal?

/-- Parts without directories at the beginning. -/
def dropLeading : List GlobPart → List GlobPart
  | .leading :: parts => parts
  | parts => parts

/-- Whether a pattern is a file name after directories. -/
def isWholeName : List GlobPart → Bool
  | .leading :: parts => (plainText? parts).any fun text => text ≠ [] ∧ '/' ∉ text
  | _ => false

/-- Whether a pattern is a star and the ending of a file name. -/
def isNameEnding (parts : List GlobPart) : Bool :=
  match dropLeading parts with
  | .many :: .literal '.' :: parts =>
    (plainText? parts).any fun text => '.' ∉ text ∧ '/' ∉ text
  | _ => false

/-- Whether a pattern is a text that a path begins with, and a star or everything below
a directory after it. -/
def isBeginning (parts : List GlobPart) : Bool :=
  match parts.getLast? with
  | some .many => (plainText? parts.dropLast).any (· ≠ [])
  | some .trailing => (plainText? parts.dropLast).isSome
  | _ => false

/-- Whether a pattern is a text that a path ends in, or the whole path. -/
def isEnd (parts : List GlobPart) : Bool :=
  match dropLeading parts with
  | .many :: parts => (plainText? parts).any fun text => text ≠ [] ∧ text ≠ ['/']
  | parts => (plainText? parts).any (· ≠ [])

/-- Whether parts, given from the last one on, begin with the ending of a file name. -/
def hasEnding : List GlobPart → Bool
  | .literal c :: parts => c = '.' || (c ≠ '/' && hasEnding parts)
  | _ => false

/-- How a pattern is looked up. -/
def lookup (parts : List GlobPart) : GlobLookup :=
  if isWholeName parts || isNameEnding parts then .fileName
  else if isBeginning parts || isEnd parts then .text
  else if hasEnding parts.reverse then .ending
  else .parts

end Glob

end DefineWrap
