/-
ESTree syntax trees.

Every kind of node is a constructor with the fields that the kind has, so a tree
can hold no field that its kind does not know. Positions in the text are not
kept. An array with a gap has no element at that place. Values of literals are
JSON values.

A tree may be any combination of nodes: that the test of an `if` is an expression
is not part of the type, as a tree that breaks such a rule is still read, changed
and written.
-/
import DefineWrap.Json.Basic
import DefineWrap.Estree.Kind

set_option autoImplicit false

namespace DefineWrap

/-- The keyword of a variable declaration. -/
inductive VariableKind where
  | var
  | let
  | const
  deriving DecidableEq, Repr

/-- A node of a syntax tree. -/
inductive Node where
  -- Identifiers and literals
  /-- An identifier. -/
  | identifier (name : String)
  /-- The `#name` of a class member, of `this.#name` and of `#name in object`. -/
  | privateIdentifier (name : String)
  /-- A literal, with its spelling and the parts of a regular expression if given. -/
  | literal (value : Json) (raw : Option String) (regex : Option Json)
  | thisExpression
  | super
  /-- `new.target` and `import.meta`. -/
  | metaProperty (metaName propertyName : Node)
  -- Statements
  | expressionStatement (expression : Node) (directive : Option String)
  | blockStatement (body : List Node)
  | emptyStatement
  | debuggerStatement
  | withStatement (object body : Node)
  | returnStatement (argument : Option Node)
  | labeledStatement (label body : Node)
  | breakStatement (label : Option Node)
  | continueStatement (label : Option Node)
  | ifStatement (test consequent : Node) (alternate : Option Node)
  | switchStatement (discriminant : Node) (cases : List Node)
  | switchCase (test : Option Node) (consequent : List Node)
  | throwStatement (argument : Node)
  | tryStatement (block : Node) (handler finalizer : Option Node)
  | catchClause (param : Option Node) (body : Node)
  | whileStatement (test body : Node)
  | doWhileStatement (body test : Node)
  | forStatement (init test update : Option Node) (body : Node)
  | forInStatement (left right body : Node)
  | forOfStatement (left right body : Node) (isAwait : Bool)
  -- Declarations
  | functionDeclaration (id : Option Node) (params : List Node) (body : Node)
    (generator isAsync : Bool)
  | variableDeclaration (declarations : List Node) (kind : VariableKind)
  | variableDeclarator (id : Node) (init : Option Node)
  | classDeclaration (id superClass : Option Node) (body : Node)
  | classBody (body : List Node)
  | methodDefinition (key value : Node) (kind : String) (computed isStatic : Bool)
  | propertyDefinition (key : Node) (value : Option Node) (computed isStatic : Bool)
  /-- The `static \x7b ... \x7d` of a class body. -/
  | staticBlock (body : List Node)
  -- Expressions
  | arrayExpression (elements : List (Option Node))
  | objectExpression (properties : List Node)
  /-- A property of an object literal or of an object pattern. -/
  | property (key value : Node) (kind : String) (computed method shorthand : Bool)
  | functionExpression (id : Option Node) (params : List Node) (body : Node)
    (generator isAsync : Bool)
  | arrowFunctionExpression (params : List Node) (body : Node) (isExpression isAsync : Bool)
  | classExpression (id superClass : Option Node) (body : Node)
  | unaryExpression (operator : String) (isPrefix : Bool) (argument : Node)
  | updateExpression (operator : String) (isPrefix : Bool) (argument : Node)
  | binaryExpression (operator : String) (left right : Node)
  | logicalExpression (operator : String) (left right : Node)
  | assignmentExpression (operator : String) (left right : Node)
  | memberExpression (object member : Node) (computed isOptional : Bool)
  | chainExpression (expression : Node)
  | conditionalExpression (test consequent alternate : Node)
  | callExpression (callee : Node) (arguments : List Node) (isOptional : Bool)
  | newExpression (callee : Node) (arguments : List Node)
  | sequenceExpression (expressions : List Node)
  | spreadElement (argument : Node)
  | yieldExpression (argument : Option Node) (delegate : Bool)
  | awaitExpression (argument : Node)
  | templateLiteral (quasis expressions : List Node)
  | templateElement (value : Json) (tail : Bool)
  | taggedTemplateExpression (tag quasi : Node)
  /-- `import(source, options)`. -/
  | importExpression (source : Node) (options : Option Node)
  -- Patterns
  | objectPattern (properties : List Node)
  | arrayPattern (elements : List (Option Node))
  | restElement (argument : Node)
  /-- A pattern with a default value. -/
  | assignmentPattern (left right : Node)
  -- Module forms
  | importDeclaration (specifiers : List Node) (source : Node)
  | importSpecifier (imported localName : Node)
  | importDefaultSpecifier (localName : Node)
  | importNamespaceSpecifier (localName : Node)
  | exportNamedDeclaration (declaration : Option Node) (specifiers : List Node)
    (source : Option Node)
  | exportSpecifier (localName exported : Node)
  | exportDefaultDeclaration (declaration : Node)
  | exportAllDeclaration (source : Node) (exported : Option Node)

/-- A module or script: the statements, and which of the two it says it is. -/
structure Program where
  body : List Node
  sourceType : Option String

namespace VariableKind

/-- The keyword itself. -/
def name : VariableKind → String
  | .var => "var"
  | .let => "let"
  | .const => "const"

/-- The kind with the given keyword. -/
def ofName? (name : String) : Option VariableKind :=
  [VariableKind.var, .let, .const].find? (·.name = name)

theorem ofName?_name (kind : VariableKind) : ofName? kind.name = some kind := by
  cases kind <;> decide

end VariableKind

namespace Node

/-! ## Views of a node -/

/-- The name of an identifier. -/
def identifierName? : Node → Option String
  | .identifier name => some name
  | _ => none

/-- Whether a node is the identifier of the given name. -/
def isIdentifier (node : Node) (name : String) : Bool := node.identifierName? = some name

/-- The text of a string literal. -/
def stringValue? : Node → Option String
  | .literal (.string value) _ _ => some value
  | _ => none

/-- The name at a place of an import or export specifier that admits an identifier
or, for names that are no identifiers, a string literal. -/
def exportName? (node : Node) : Option String :=
  match node.identifierName? with
  | some name => some name
  | none => node.stringValue?

/-- A function or class declaration as the expression of the same value, so that it
can be assigned. Any other node stays as it is. -/
def asExpression : Node → Node
  | .functionDeclaration id params body generator isAsync =>
    .functionExpression id params body generator isAsync
  | .classDeclaration id superClass body => .classExpression id superClass body
  | node => node

@[simp] theorem identifierName?_identifier (name : String) :
    (identifier name).identifierName? = some name := rfl

@[simp] theorem isIdentifier_identifier (name other : String) :
    (identifier name).isIdentifier other = (name = other : Bool) := by
  simp [isIdentifier]

theorem isIdentifier_iff {node : Node} {name : String} :
    node.isIdentifier name = true ↔ node = identifier name := by
  cases node <;> simp [isIdentifier, identifierName?]

end Node

end DefineWrap
