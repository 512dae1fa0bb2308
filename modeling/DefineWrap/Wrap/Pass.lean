/-
A pass over a tree: every free use of one name becomes an access.

A pass goes down through the child places and stops where the name is bound
anew: at a function or arrow that binds it by a parameter or declares it in its
body, at a function or class expression that has it as its own name, at a static
block that declares it, and at a catch clause that binds it.

A declaration of the name that the pass comes to is not such a place, but a write
to what the access stands for. A variable declared with an initial value keeps
its declaration, and the value is assigned on the way; a function declaration
becomes an assignment of the function.

A strict pass is for a name that nothing may be assigned to. It changes the same
places in the same way, but ends with an error where it comes to an assignment to
the name or to an exported declaration of it.
-/
import DefineWrap.Wrap.Access
import DefineWrap.Wrap.Error
import DefineWrap.Wrap.Scope

set_option autoImplicit false

namespace DefineWrap

/-- One pass: the name, and the access that takes its place. -/
structure Pass where
  name : String
  access : Access
  strict : Bool
  deriving DecidableEq, Repr

namespace Pass

/-! ## Where a pass stops -/

/-- Whether a name given to a function or class is the name of the pass. -/
def isOwnName (pass : Pass) (id : Option Node) : Bool := id.any (·.isIdentifier pass.name)

/-- Whether a function with these parameters and this body binds the name. -/
def isBoundBy (pass : Pass) (params : List Node) (body : Node) : Bool :=
  params.any (·.binds pass.name) || body.declares pass.name

/-- Whether the name means something else inside a node, so that a pass leaves the
node as it is. The name of an import is no use of a variable either. -/
def isShadowedBy (pass : Pass) : Node → Bool
  | .functionDeclaration _ params body _ _ => pass.isBoundBy params body
  | .functionExpression id params body _ _ => pass.isOwnName id || pass.isBoundBy params body
  | .arrowFunctionExpression params body _ _ => pass.isBoundBy params body
  | .classExpression id _ _ => pass.isOwnName id
  | .staticBlock body => body.any (·.declares pass.name)
  | .catchClause param _ => param.any (·.binds pass.name)
  | .importDeclaration _ _ => true
  | _ => false

/-! ## What a pass changes at one node -/

/-- What takes the place of a whole node: the access for a use of the name, and an
assignment for a function declaration of the name. -/
def replacement? (pass : Pass) (node : Node) : Option Node :=
  match node with
  | .identifier name => if name = pass.name then some pass.access.node else none
  | .functionDeclaration id _ _ _ _ =>
    if pass.isOwnName id then some (.assignmentStatement pass.access.node node.asExpression)
    else none
  | _ => none

/-- A property whose value is about to be replaced can no longer be written in short. -/
def spellOut (pass : Pass) : Node → Node
  | .property key value kind computed method shorthand =>
    .property key value kind computed method (shorthand && !value.isIdentifier pass.name)
  | node => node

/-- The places of a declarator. One that declares the name, alone or in a pattern, has
none; if it declares the name alone, its initial value is also assigned to the access. -/
def declaratorPlaces (pass : Pass) : Node → Places Node
  | .variableDeclarator id init =>
    if id.isIdentifier pass.name then
      .keep (.variableDeclarator id (init.map (.assignment pass.access.node ·)))
    else if id.binds pass.name then .keep (.variableDeclarator id init)
    else Node.variableDeclarator id <$> .option init
  | other => .keep other

/-- The places of a node that a pass goes on to, in the node as the pass leaves it. -/
def places (pass : Pass) (node : Node) : Places Node :=
  match node with
  | .variableDeclaration declarations kind =>
    (Node.variableDeclaration · kind) <$> .each pass.declaratorPlaces declarations
  | node => if pass.isShadowedBy node then .keep node else (pass.spellOut node).places

/-- The nodes below a node that a pass goes on to. -/
def onward (pass : Pass) (node : Node) : List Node := (pass.places node).nodes

/-! ## What a strict pass refuses -/

/-- What is wrong with a place that is written to. -/
def writeViolation? (pass : Pass) (place : Node) : Option WrapError :=
  if place.binds pass.name then some (.illegalReassignment pass.name) else none

/-- What is wrong with the head of a loop over values, if it is no declaration. -/
def headViolation? (pass : Pass) : Node → Option WrapError
  | .variableDeclaration _ _ => none
  | head => pass.writeViolation? head

/-- What is wrong with an exported declaration. -/
def exportViolation? (pass : Pass) (declaration : Node) : Option WrapError :=
  if pass.name ∈ declaration.directDeclarations?.getD [] then some (.duplicateBinding pass.name)
  else none

/-- What is wrong with a node, apart from the nodes below it. -/
def violation? (pass : Pass) : Node → Option WrapError
  | .assignmentExpression _ left _ => pass.writeViolation? left
  | .updateExpression _ _ argument => pass.writeViolation? argument
  | .forInStatement left _ _ => pass.headViolation? left
  | .forOfStatement left _ _ _ => pass.headViolation? left
  | .exportNamedDeclaration (some declaration) _ _ => pass.exportViolation? declaration
  | .exportDefaultDeclaration declaration => pass.exportViolation? declaration
  | _ => none

/-! ## What a pass goes on to is smaller -/

theorem nodes_places_spellOut (pass : Pass) (node : Node) :
    (pass.spellOut node).places.nodes = node.places.nodes := by
  unfold spellOut
  split <;> rfl

theorem below_declaratorPlaces (pass : Pass) {declarator : Node} {bound : Nat}
    (h : sizeOf declarator < bound) : (pass.declaratorPlaces declarator).Below bound := by
  unfold declaratorPlaces
  split
  · split
    · exact Places.below_keep _ _
    · split
      · exact Places.below_keep _ _
      · refine Places.below_map _ (Places.below_option ?_)
        simp only [Node.variableDeclarator.sizeOf_spec] at h
        omega
  · exact Places.below_keep _ _

theorem sizeOf_lt_of_mem_onward {pass : Pass} {node other : Node}
    (h : other ∈ (pass.places node).nodes) : sizeOf other < sizeOf node := by
  unfold places at h
  split at h
  · refine Places.below_map _ (Places.below_each fun declarator hmem => ?_) other h
    refine pass.below_declaratorPlaces ?_
    have := List.sizeOf_lt_of_mem hmem
    simp only [Node.variableDeclaration.sizeOf_spec]
    omega
  · split at h
    · exact absurd h (by simp [Places.keep])
    · rw [nodes_places_spellOut] at h
      exact Node.below_places _ other h

/-! ## The pass -/

/-- Refuses a node that something is wrong with, if the pass is strict. -/
def check (pass : Pass) (node : Node) : Except WrapError Unit :=
  match pass.violation? node with
  | some error => if pass.strict then throw error else return
  | none => return

/-- The tree with every free use of the name replaced. A node is checked when the pass comes
to it, before anything below it is changed, and the first thing that is refused ends the
pass. -/
def apply (pass : Pass) (node : Node) : Except WrapError Node :=
  match pass.replacement? node with
  | some other => return other
  | none => do
    pass.check node
    let parts ← (pass.places node).nodes.attach.mapM fun x => apply pass x.1
    return ((pass.places node).refill parts).1
termination_by sizeOf node
decreasing_by exact sizeOf_lt_of_mem_onward x.2

/-- Applies a pass to trees one after the other. -/
def applyAll (pass : Pass) (nodes : List Node) : Except WrapError (List Node) :=
  nodes.mapM pass.apply

end Pass

end DefineWrap
