/-
What can be wrong with a JSON text that is read as a value of a known shape.

A reader stops at the first thing that is wrong, in reading order, and tells
only which of three kinds of thing it was. The three kinds are all that a
caller may rely on, so a fault carries no position and no wording.
-/

set_option autoImplicit false

namespace DefineWrap

/-- The first thing that is wrong with a text. -/
inductive Fault where
  /-- The text is no JSON, nests too deep, or holds a number or a character that
  cannot be represented. -/
  | malformed
  /-- The text ends before the value does. -/
  | truncated
  /-- The text is JSON, but not of the shape that was asked for. -/
  | mismatched
  deriving DecidableEq, Repr

end DefineWrap
