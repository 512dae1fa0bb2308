/-
Nodes that are made, not read: literals, accesses, assignments and calls.

A name may follow the dot of an access if it begins with a dollar sign, a low
line or an alphabetic character and goes on with these, with numbers or with the
two joiners. Every other name, and `default`, is accessed in brackets by a
literal. The spelling of a literal is its JSON text, which is a literal of the
language as well.
-/
import DefineWrap.Estree.Node
import DefineWrap.Json.Quoted
import DefineWrap.Text.Alphabetic
import DefineWrap.Text.Numeric

set_option autoImplicit false

namespace DefineWrap

/-! ## Names after a dot -/

namespace IdentifierName

/-- Whether a character may begin a name. -/
def isStart (c : Char) : Bool := c = '$' || c = '_' || Text.isAlphabetic c

/-- Whether a character may go on with a name. The last two are the joiners. -/
def isPart (c : Char) : Bool :=
  isStart c || Text.isNumeric c || c = '\u200c' || c = '\u200d'

/-- Whether a text may follow the dot of an access. -/
def isValid (text : String) : Bool :=
  match text.toList with
  | [] => false
  | first :: rest => isStart first && rest.all isPart

end IdentifierName

/-! ## Nodes -/

/-- The name of the default export. -/
def defaultMember : String := "default"

namespace Node

/-- A string literal. -/
def stringLiteral (value : String) : Node :=
  .literal (.string value) (some (String.ofList (Quoted.quote value.toList))) none

/-- The access to a member of a variable, by a dot where the name admits it. -/
def access (object member : String) : Node :=
  if member = defaultMember ∨ ¬ IdentifierName.isValid member then
    .memberExpression (.identifier object) (stringLiteral member) true false
  else
    .memberExpression (.identifier object) (.identifier member) false false

/-- The expression `left = right`. -/
def assignment (left right : Node) : Node := .assignmentExpression "=" left right

/-- An expression as a statement. -/
def statement (expression : Node) : Node := .expressionStatement expression none

/-- The statement `left = right;`. -/
def assignmentStatement (left right : Node) : Node := statement (assignment left right)

/-- The call of a function. -/
def call (callee : Node) (arguments : List Node) : Node := .callExpression callee arguments false

/-- An array without gaps. -/
def array (elements : List Node) : Node := .arrayExpression (elements.map some)

/-- A function without a name. -/
def anonymousFunction (params body : List Node) : Node :=
  .functionExpression none params (.blockStatement body) false false

end Node

end DefineWrap
