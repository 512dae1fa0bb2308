/-
The text of a JSON value, in one line or indented.

The compact text has no blanks. The indented text puts each item and each member
on a line of its own, two blanks deeper than the value it belongs to, and one
blank after the colon; an empty array or object stays on its line. The two texts
differ in blanks outside of strings only, so both read back as the same value.
-/
import DefineWrap.Json.Basic
import DefineWrap.Json.Quoted

set_option autoImplicit false

namespace DefineWrap

/-- How a value is laid out. -/
inductive Layout where
  | compact
  | indented
  deriving DecidableEq, Repr

namespace Layout

/-- The layout that is meant by a request for readable text. -/
def ofPretty (pretty : Bool) : Layout := if pretty then .indented else .compact

/-- What stands before an item at the given depth: a line of its own, or nothing. -/
def lineBreak : Layout → Nat → List Char
  | .compact, _ => []
  | .indented, depth => '\n' :: List.replicate (2 * depth) ' '

/-- What stands between a name and its value. -/
def colon : Layout → List Char
  | .compact => [':']
  | .indented => [':', ' ']

end Layout

namespace Json

/-- The text of a string. -/
def quoteString (s : String) : List Char := Quoted.quote s.toList

mutual

/-- The text of a value that stands at the given depth. -/
def print (layout : Layout) (depth : Nat) : Json → List Char
  | .null => ['n', 'u', 'l', 'l']
  | .bool true => ['t', 'r', 'u', 'e']
  | .bool false => ['f', 'a', 'l', 's', 'e']
  | .number value => value.text
  | .string value => quoteString value
  | .array [] => ['[', ']']
  | .array (item :: rest) =>
    '[' :: (layout.lineBreak (depth + 1) ++ print layout (depth + 1) item ++
      printItems layout depth rest)
  | .object [] => ['{', '}']
  | .object ((name, value) :: rest) =>
    '{' :: (layout.lineBreak (depth + 1) ++ quoteString name ++ layout.colon ++
      print layout (depth + 1) value ++ printMembers layout depth rest)

/-- The further items of an array, and its end. -/
def printItems (layout : Layout) (depth : Nat) : List Json → List Char
  | [] => layout.lineBreak depth ++ [']']
  | item :: rest =>
    ',' :: (layout.lineBreak (depth + 1) ++ print layout (depth + 1) item ++
      printItems layout depth rest)

/-- The further members of an object, and its end. -/
def printMembers (layout : Layout) (depth : Nat) : List (String × Json) → List Char
  | [] => layout.lineBreak depth ++ ['}']
  | (name, value) :: rest =>
    ',' :: (layout.lineBreak (depth + 1) ++ quoteString name ++ layout.colon ++
      print layout (depth + 1) value ++ printMembers layout depth rest)

end

/-- The text of a whole value. -/
def render (layout : Layout) (value : Json) : String := String.ofList (value.print layout 0)

end Json

end DefineWrap
