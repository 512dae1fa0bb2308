/-
The regular expression that a pattern stands for: its text, and how deep it nests.

The text speaks of bytes, so a character of several bytes is written as its bytes.
A group of alternatives without any text in it is left out, and so is a branch
without any text.
-/
import DefineWrap.Project.Glob.Bytes
import DefineWrap.Project.Glob.Pattern

set_option autoImplicit false

namespace DefineWrap

/-- A regular expression: its text, and how many constructs in it stand inside each
other. -/
structure Expression where
  text : String
  depth : Nat
  deriving DecidableEq, Repr

namespace Expression

/-! ## Constructs -/

/-- An expression without any construct in it. -/
def atom (text : String) : Expression := ⟨text, 0⟩

/-- The greatest depth of some expressions. -/
def greatestDepth (expressions : List Expression) : Nat :=
  expressions.foldl (fun depth expression => max depth expression.depth) 0

/-- The depth of some expressions together. A single one is no construct of its own. -/
def depthTogether : List Expression → Nat
  | [] => 0
  | [expression] => expression.depth
  | expressions => greatestDepth expressions + 1

/-- Expressions one after the other. -/
def sequence (expressions : List Expression) : Expression :=
  ⟨String.join (expressions.map (·.text)), depthTogether expressions⟩

/-- One of some expressions. -/
def group (expressions : List Expression) : Expression :=
  ⟨"(?:" ++ "|".intercalate (expressions.map (·.text)) ++ ")", depthTogether expressions + 1⟩

/-- An expression with a mark that says how often it stands. -/
def repeated (expression : Expression) (mark : String) : Expression :=
  ⟨expression.text ++ mark, expression.depth + 1⟩

/-! ## Characters -/

/-- The characters that are written with a backslash. -/
def markedCharacters : List Char := "\\.+*?()|[]\x7b\x7d^$#&-~".toList

/-- The text of a byte. -/
def byteText (byte : UInt8) : String :=
  let c := Char.ofNat byte.toNat
  if byte ≥ 128 then "\\x" ++ String.ofList (Nat.toDigits 16 byte.toNat)
  else if c ∈ markedCharacters then "\\" ++ c.toString
  else c.toString

/-- The text of a character. -/
def charText (c : Char) : String := String.join ((Glob.charBytes c).map byteText)

/-- The text of a range of characters. -/
def rangeText (range : Char × Char) : String :=
  if range.1 = range.2 then charText range.1
  else charText range.1 ++ "-" ++ charText range.2

/-- A class. More than one range in it is a construct of its own. -/
def oneOf (negated : Bool) (ranges : List (Char × Char)) : Expression :=
  ⟨"[" ++ (if negated then "^" else "") ++ String.join (ranges.map rangeText) ++ "]",
    if (ranges.flatMap Glob.byteRanges).length ≤ 1 then 1 else 2⟩

/-! ## Patterns -/

/-- A slash. -/
def slash : Expression := .atom "/"

/-- Any bytes. -/
def anything : Expression := .repeated (.atom ".") "*"

/-- Any number of directories, at the beginning. -/
def leading : Expression := .group [.repeated slash "?", .sequence [anything, slash]]

/-- Any number of directories, between two others. -/
def between : Expression := .group [slash, .sequence [slash, anything, slash]]

mutual

/-- The expressions that a part stands for, one after the other. -/
def ofPart : GlobPart → List Expression
  | .literal c => (Glob.charBytes c).map fun byte => .atom (byteText byte)
  | .any => [.atom "."]
  | .many => [anything]
  | .leading => [leading]
  | .trailing => [slash, anything]
  | .between => [between]
  | .oneOf negated ranges => [oneOf negated ranges]
  | .alternatives branches =>
    match ofBranches branches with
    | [] => []
    | expressions => [group expressions]

/-- The expressions that parts stand for, one after the other. -/
def ofParts : List GlobPart → List Expression
  | [] => []
  | part :: parts => ofPart part ++ ofParts parts

/-- The expressions of the branches that have any text. -/
def ofBranches : List (List GlobPart) → List Expression
  | [] => []
  | branch :: branches =>
    match ofParts branch with
    | [] => ofBranches branches
    | expressions => sequence expressions :: ofBranches branches

end

/-- The expression that a pattern stands for. Any path is below the beginning, so a
pattern that only stands for directories stands for any bytes. -/
def ofPattern (parts : List GlobPart) : Expression :=
  let inner := match parts with
    | [.leading] => [anything]
    | parts => ofParts parts
  sequence ([.atom "(?-u)", .atom "^"] ++ inner ++ [.atom "$"])

end Expression

end DefineWrap
