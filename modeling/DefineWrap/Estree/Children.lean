/-
The child places of a node: where an expression, a statement or a pattern stands
in which a name may be used as a variable.

Labels, names after a dot, keys that are not computed, the names of declarations,
and the specifiers of imports and of `export ... from` are names and not uses of
variables, so they are no children. Patterns of parameters and of catch clauses are
children, as their default values are used like any expression. Of a declared
variable only the initial value is a child.

A table with one line for each kind says which places there are, and it gives
both the nodes that stand at them and the node that arises when others are put
there. So reading and writing places cannot disagree about their number or order.
-/
import DefineWrap.Estree.Node

set_option autoImplicit false

namespace DefineWrap

/-! ## Places -/

/-- A value with places for nodes in it: the nodes that stand there, and the value
with other nodes at the places. Refilling takes as many nodes from the front of a
list as there are places, and gives back the others. -/
structure Places (α : Type) where
  nodes : List Node
  refill : List Node → α × List Node

namespace Places

/-- A value without places. -/
def keep {α : Type} (value : α) : Places α := ⟨[], fun supply => (value, supply)⟩

/-- The places of a function and then those of its argument. -/
def apply {α β : Type} (f : Places (α → β)) (x : Unit → Places α) : Places β :=
  let x := x ()
  ⟨f.nodes ++ x.nodes, fun supply =>
    let (f, supply) := f.refill supply
    let (x, supply) := x.refill supply
    (f x, supply)⟩

instance : Applicative Places where
  pure := keep
  seq := apply

/-- A single place. With nothing left to put there, its node stays. -/
def one (node : Node) : Places Node :=
  ⟨[node], fun supply =>
    match supply with
    | [] => (node, [])
    | other :: supply => (other, supply)⟩

/-- A place that counts only under a condition. -/
def oneIf (condition : Bool) (node : Node) : Places Node :=
  if condition then one node else keep node

/-- A place that may be empty, and is none if it is. -/
def option : Option Node → Places (Option Node)
  | none => keep none
  | some node => some <$> one node

/-- One place for each node of a list. -/
def many : List Node → Places (List Node)
  | [] => keep []
  | node :: rest => List.cons <$> one node <*> many rest

/-- The places of the values that a list of nodes is taken for. -/
def each (f : Node → Places Node) : List Node → Places (List Node)
  | [] => keep []
  | node :: rest => List.cons <$> f node <*> each f rest

/-- Places of a list that count only under a condition. -/
def manyIf (condition : Bool) (nodes : List Node) : Places (List Node) :=
  if condition then many nodes else keep nodes

/-- One place for each node of a list with gaps. -/
def holes : List (Option Node) → Places (List (Option Node))
  | [] => keep []
  | element :: rest => List.cons <$> option element <*> holes rest

end Places

/-! ## The table -/

namespace Node

/-- The child places of a node, in the order of the text. The body of a `do` loop
is counted after its test. -/
def places : Node → Places Node
  | .expressionStatement expression directive =>
    (expressionStatement · directive) <$> .one expression
  | .chainExpression expression => chainExpression <$> .one expression
  | .blockStatement body => blockStatement <$> .many body
  | .classBody body => classBody <$> .many body
  | .staticBlock body => staticBlock <$> .many body
  | .withStatement object body => withStatement <$> .one object <*> .one body
  | .returnStatement argument => returnStatement <$> .option argument
  | .yieldExpression argument delegate => (yieldExpression · delegate) <$> .option argument
  | .labeledStatement label body => labeledStatement label <$> .one body
  | .ifStatement test consequent alternate =>
    ifStatement <$> .one test <*> .one consequent <*> .option alternate
  | .switchStatement discriminant cases =>
    switchStatement <$> .one discriminant <*> .many cases
  | .switchCase test consequent => switchCase <$> .option test <*> .many consequent
  | .throwStatement argument => throwStatement <$> .one argument
  | .spreadElement argument => spreadElement <$> .one argument
  | .awaitExpression argument => awaitExpression <$> .one argument
  | .restElement argument => restElement <$> .one argument
  | .unaryExpression operator isPrefix argument =>
    unaryExpression operator isPrefix <$> .one argument
  | .updateExpression operator isPrefix argument =>
    updateExpression operator isPrefix <$> .one argument
  | .tryStatement block handler finalizer =>
    tryStatement <$> .one block <*> .option handler <*> .option finalizer
  | .catchClause param body => catchClause <$> .option param <*> .one body
  | .whileStatement test body => whileStatement <$> .one test <*> .one body
  | .doWhileStatement body test =>
    (fun test body => doWhileStatement body test) <$> .one test <*> .one body
  | .forStatement init test update body =>
    forStatement <$> .option init <*> .option test <*> .option update <*> .one body
  | .forInStatement left right body =>
    forInStatement <$> .one left <*> .one right <*> .one body
  | .forOfStatement left right body isAwait =>
    (forOfStatement · · · isAwait) <$> .one left <*> .one right <*> .one body
  | .functionDeclaration id params body generator isAsync =>
    (functionDeclaration id · · generator isAsync) <$> .many params <*> .one body
  | .functionExpression id params body generator isAsync =>
    (functionExpression id · · generator isAsync) <$> .many params <*> .one body
  | .arrowFunctionExpression params body isExpression isAsync =>
    (arrowFunctionExpression · · isExpression isAsync) <$> .many params <*> .one body
  | .variableDeclaration declarations kind =>
    (variableDeclaration · kind) <$> .many declarations
  | .variableDeclarator id init => variableDeclarator id <$> .option init
  | .classDeclaration id superClass body =>
    classDeclaration id <$> .option superClass <*> .one body
  | .classExpression id superClass body =>
    classExpression id <$> .option superClass <*> .one body
  | .methodDefinition key value kind computed isStatic =>
    (methodDefinition · · kind computed isStatic) <$> .oneIf computed key <*> .one value
  | .property key value kind computed method shorthand =>
    (property · · kind computed method shorthand) <$> .oneIf computed key <*> .one value
  | .propertyDefinition key value computed isStatic =>
    (propertyDefinition · · computed isStatic) <$> .oneIf computed key <*> .option value
  | .arrayExpression elements => arrayExpression <$> .holes elements
  | .arrayPattern elements => arrayPattern <$> .holes elements
  | .objectExpression properties => objectExpression <$> .many properties
  | .objectPattern properties => objectPattern <$> .many properties
  | .binaryExpression operator left right =>
    binaryExpression operator <$> .one left <*> .one right
  | .logicalExpression operator left right =>
    logicalExpression operator <$> .one left <*> .one right
  | .assignmentExpression operator left right =>
    assignmentExpression operator <$> .one left <*> .one right
  | .assignmentPattern left right => assignmentPattern <$> .one left <*> .one right
  | .memberExpression object member computed isOptional =>
    (memberExpression · · computed isOptional) <$> .one object <*> .oneIf computed member
  | .conditionalExpression test consequent alternate =>
    conditionalExpression <$> .one test <*> .one consequent <*> .one alternate
  | .callExpression callee arguments isOptional =>
    (callExpression · · isOptional) <$> .one callee <*> .many arguments
  | .newExpression callee arguments => newExpression <$> .one callee <*> .many arguments
  | .sequenceExpression expressions => sequenceExpression <$> .many expressions
  | .templateLiteral quasis expressions =>
    templateLiteral <$> .many quasis <*> .many expressions
  | .taggedTemplateExpression tag quasi =>
    taggedTemplateExpression <$> .one tag <*> .one quasi
  | .importExpression source options =>
    importExpression <$> .one source <*> .option options
  | .exportNamedDeclaration declaration specifiers source =>
    (exportNamedDeclaration · · source) <$> .option declaration <*>
      .manyIf source.isNone specifiers
  | .exportSpecifier localName exported => (exportSpecifier · exported) <$> .one localName
  | .exportDefaultDeclaration declaration => exportDefaultDeclaration <$> .one declaration
  | node => .keep node

/-- The children of a node. -/
def children (node : Node) : List Node := node.places.nodes

/-- The node with others at its child places. Places for which there is no node
left stay as they are, and nodes that are left over are dropped. -/
def withChildren (node : Node) (others : List Node) : Node := (node.places.refill others).1

end Node

/-! ## Children are smaller -/

namespace Places

/-- The nodes at the places are smaller than some bound. -/
def Below {α : Type} (places : Places α) (bound : Nat) : Prop :=
  ∀ node ∈ places.nodes, sizeOf node < bound

theorem below_keep {α : Type} (value : α) (bound : Nat) : (keep value).Below bound :=
  fun _ h => absurd h (by simp [keep])

theorem below_pure {α : Type} (value : α) (bound : Nat) :
    (pure value : Places α).Below bound := below_keep value bound

theorem below_one {node : Node} {bound : Nat} (h : sizeOf node < bound) :
    (one node).Below bound := by
  intro other hmem
  rw [List.mem_singleton.1 (show other ∈ [node] from hmem)]
  exact h

theorem below_seq {α β : Type} {f : Places (α → β)} {x : Places α} {bound : Nat}
    (hf : f.Below bound) (hx : x.Below bound) : (f <*> x).Below bound := by
  intro node hmem
  rcases List.mem_append.1 (show node ∈ f.nodes ++ x.nodes from hmem) with h | h
  · exact hf node h
  · exact hx node h

theorem below_map {α β : Type} (f : α → β) {x : Places α} {bound : Nat}
    (hx : x.Below bound) : (f <$> x).Below bound :=
  below_seq (below_pure f bound) hx

theorem below_oneIf {condition : Bool} {node : Node} {bound : Nat} (h : sizeOf node < bound) :
    (oneIf condition node).Below bound := by
  cases condition
  · exact below_keep node bound
  · exact below_one h

theorem below_option {node : Option Node} {bound : Nat} (h : sizeOf node < bound) :
    (option node).Below bound := by
  cases node with
  | none => exact below_keep none bound
  | some node =>
    refine below_map _ (below_one ?_)
    simp only [Option.some.sizeOf_spec] at h
    omega

theorem below_many {nodes : List Node} {bound : Nat} (h : sizeOf nodes < bound) :
    (many nodes).Below bound := by
  induction nodes with
  | nil => exact below_keep [] bound
  | cons node rest ih =>
    simp only [List.cons.sizeOf_spec] at h
    exact below_seq (below_map _ (below_one (by omega))) (ih (by omega))

theorem below_each {f : Node → Places Node} {nodes : List Node} {bound : Nat}
    (h : ∀ node ∈ nodes, (f node).Below bound) : (each f nodes).Below bound := by
  induction nodes with
  | nil => exact below_keep [] bound
  | cons node rest ih =>
    exact below_seq (below_map _ (h node List.mem_cons_self))
      (ih fun other hmem => h other (List.mem_cons_of_mem _ hmem))

theorem below_manyIf {condition : Bool} {nodes : List Node} {bound : Nat}
    (h : sizeOf nodes < bound) : (manyIf condition nodes).Below bound := by
  cases condition
  · exact below_keep nodes bound
  · exact below_many h

theorem below_holes {elements : List (Option Node)} {bound : Nat}
    (h : sizeOf elements < bound) : (holes elements).Below bound := by
  induction elements with
  | nil => exact below_keep [] bound
  | cons element rest ih =>
    simp only [List.cons.sizeOf_spec] at h
    exact below_seq (below_map _ (below_option (by omega))) (ih (by omega))

end Places

namespace Node

theorem below_places (node : Node) : node.places.Below (sizeOf node) := by
  unfold places
  split
  all_goals
    with_reducible
      repeat' first
        | apply Places.below_seq
        | apply Places.below_map
        | apply Places.below_one
        | apply Places.below_oneIf
        | apply Places.below_option
        | apply Places.below_many
        | apply Places.below_manyIf
        | apply Places.below_holes
        | apply Places.below_keep
  all_goals simp +arith

/-- Every child is smaller than its node, so a function may descend through the
children. -/
theorem sizeOf_lt_of_mem_children {node child : Node} (h : child ∈ node.children) :
    sizeOf child < sizeOf node := below_places node child h

end Node

end DefineWrap
