/-
How deep patterns may nest.

A pattern that is not looked up by a text alone is matched by its expression, and an
expression may nest only to a certain depth. Those that are looked up by an ending
are checked first, each for itself. The others are checked together, so a fault
is reported by the place of the pattern among them.
-/
import DefineWrap.Project.Glob.Expression
import DefineWrap.Project.Glob.Lookup

set_option autoImplicit false

namespace DefineWrap

/-- A pattern that nests too deep. -/
inductive NestingError where
  /-- The pattern has this expression. -/
  | inExpression (text : String)
  /-- The pattern has this place among those that are tried on every path. -/
  | atPlace (place : Nat)
  deriving DecidableEq, Repr

/-- The message of an error. -/
def NestingError.message : NestingError → String
  | .inExpression text => "error parsing glob '" ++ text ++ "': error parsing pattern 0"
  | .atPlace place => "error parsing pattern " ++ toString place

namespace Glob

/-- The greatest depth of an expression. -/
def maxDepth : Nat := 250

/-- Whether an expression nests too deep. -/
def isTooDeep (expression : Expression) : Bool := expression.depth > maxDepth

/-- The expressions of the patterns that are looked up in a certain way. -/
def expressionsBy (lookup : GlobLookup) (patterns : List (List GlobPart)) : List Expression :=
  (patterns.filter (Glob.lookup · = lookup)).map .ofPattern

/-- Refuses patterns one of which nests too deep. -/
def refuseTooDeep (patterns : List (List GlobPart)) : Except NestingError Unit :=
  match (expressionsBy .ending patterns).find? isTooDeep with
  | some expression => .error (.inExpression expression.text)
  | none =>
    match (expressionsBy .parts patterns).findIdx? isTooDeep with
    | some place => .error (.atPlace place)
    | none => .ok ()

end Glob

end DefineWrap
