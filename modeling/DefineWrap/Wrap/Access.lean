/-
What stands for a name in a wrapped module: an access to a parameter of the wrapper.
-/
import DefineWrap.Estree.Build

set_option autoImplicit false

namespace DefineWrap

/-- An access to a parameter. -/
inductive Access where
  /-- A member of the object that is passed for the parameter. -/
  | member (object name : String)
  /-- The object itself. -/
  | whole (object : String)
  deriving DecidableEq, Repr

namespace Access

/-- The parameter that is accessed. -/
def object : Access → String
  | .member object _ => object
  | .whole object => object

/-- The access as an expression. -/
def node : Access → Node
  | .member object name => .access object name
  | .whole object => .identifier object

end Access

end DefineWrap
