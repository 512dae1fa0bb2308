/-
The names that a scope declares.

The model of scopes is flat: what is declared anywhere in the body of a function,
in blocks and loops too, counts as declared by that function. Functions, class
expressions and static blocks are scopes of their own, so what they declare does
not count. Of a nested function or class declaration only its name counts.
-/
import DefineWrap.Estree.Children
import DefineWrap.Estree.Pattern

set_option autoImplicit false

namespace DefineWrap

namespace Node

/-- The names that one declarator of a variable declaration declares. -/
def declaratorNames : Node → List String
  | .variableDeclarator id _ => id.boundNames
  | _ => []

/-- The name of a declaration or of an expression, if it has one. -/
def ownName? (id : Option Node) : Option String := id.bind identifierName?

/-- What a node declares without looking further into it; nothing is answered if the
names are to be found in the children. -/
def directDeclarations? : Node → Option (List String)
  | .variableDeclaration declarations _ => some (declarations.flatMap declaratorNames)
  | .functionDeclaration id _ _ _ _ => some (ownName? id).toList
  | .classDeclaration id _ _ => some (ownName? id).toList
  | .functionExpression _ _ _ _ _ => some []
  | .arrowFunctionExpression _ _ _ _ => some []
  | .classExpression _ _ _ => some []
  | .staticBlock _ => some []
  | _ => none

/-- The names that the scope of a node declares, in the order of the text. -/
def scopeDeclarations (node : Node) : List String :=
  match node.directDeclarations? with
  | some names => names
  | none => node.children.attach.flatMap fun child => scopeDeclarations child.1
termination_by sizeOf node
decreasing_by exact sizeOf_lt_of_mem_children child.2

theorem scopeDeclarations_eq (node : Node) :
    node.scopeDeclarations =
      node.directDeclarations?.getD (node.children.flatMap scopeDeclarations) := by
  rw [scopeDeclarations, List.flatMap_subtype (g := scopeDeclarations) fun _ _ => rfl,
    List.unattach_attach]
  cases node.directDeclarations? <;> rfl

/-- Whether the scope of a node declares a name. -/
def declares (node : Node) (name : String) : Bool := name ∈ node.scopeDeclarations

theorem declares_iff {node : Node} {name : String} :
    node.declares name = true ↔ name ∈ node.scopeDeclarations := by simp [declares]

end Node

end DefineWrap
