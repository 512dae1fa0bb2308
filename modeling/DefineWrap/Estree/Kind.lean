/-
The kinds of ESTree nodes.

A node of a syntax tree names its kind in its `type` member. The kinds are a
closed list: a name that is not on it is refused wherever a node is read. The
list has an order, and inside a node that is read as a whole a kind may also be
given by its place in that order.
-/

set_option autoImplicit false

namespace DefineWrap

/-- The kind of a node. -/
inductive Kind where
  | identifier
  | privateIdentifier
  | literal
  | thisExpression
  | super
  | metaProperty
  | expressionStatement
  | blockStatement
  | emptyStatement
  | debuggerStatement
  | withStatement
  | returnStatement
  | labeledStatement
  | breakStatement
  | continueStatement
  | ifStatement
  | switchStatement
  | switchCase
  | throwStatement
  | tryStatement
  | catchClause
  | whileStatement
  | doWhileStatement
  | forStatement
  | forInStatement
  | forOfStatement
  | functionDeclaration
  | variableDeclaration
  | variableDeclarator
  | classDeclaration
  | classBody
  | methodDefinition
  | propertyDefinition
  | staticBlock
  | arrayExpression
  | objectExpression
  | property
  | functionExpression
  | arrowFunctionExpression
  | classExpression
  | unaryExpression
  | updateExpression
  | binaryExpression
  | logicalExpression
  | assignmentExpression
  | memberExpression
  | chainExpression
  | conditionalExpression
  | callExpression
  | newExpression
  | sequenceExpression
  | spreadElement
  | yieldExpression
  | awaitExpression
  | templateLiteral
  | templateElement
  | taggedTemplateExpression
  | importExpression
  | objectPattern
  | arrayPattern
  | restElement
  | assignmentPattern
  | importDeclaration
  | importSpecifier
  | importDefaultSpecifier
  | importNamespaceSpecifier
  | exportNamedDeclaration
  | exportSpecifier
  | exportDefaultDeclaration
  | exportAllDeclaration
  deriving DecidableEq, Repr

namespace Kind

/-- The name of a kind, as `type` gives it. -/
def name : Kind → String
  | .identifier => "Identifier"
  | .privateIdentifier => "PrivateIdentifier"
  | .literal => "Literal"
  | .thisExpression => "ThisExpression"
  | .super => "Super"
  | .metaProperty => "MetaProperty"
  | .expressionStatement => "ExpressionStatement"
  | .blockStatement => "BlockStatement"
  | .emptyStatement => "EmptyStatement"
  | .debuggerStatement => "DebuggerStatement"
  | .withStatement => "WithStatement"
  | .returnStatement => "ReturnStatement"
  | .labeledStatement => "LabeledStatement"
  | .breakStatement => "BreakStatement"
  | .continueStatement => "ContinueStatement"
  | .ifStatement => "IfStatement"
  | .switchStatement => "SwitchStatement"
  | .switchCase => "SwitchCase"
  | .throwStatement => "ThrowStatement"
  | .tryStatement => "TryStatement"
  | .catchClause => "CatchClause"
  | .whileStatement => "WhileStatement"
  | .doWhileStatement => "DoWhileStatement"
  | .forStatement => "ForStatement"
  | .forInStatement => "ForInStatement"
  | .forOfStatement => "ForOfStatement"
  | .functionDeclaration => "FunctionDeclaration"
  | .variableDeclaration => "VariableDeclaration"
  | .variableDeclarator => "VariableDeclarator"
  | .classDeclaration => "ClassDeclaration"
  | .classBody => "ClassBody"
  | .methodDefinition => "MethodDefinition"
  | .propertyDefinition => "PropertyDefinition"
  | .staticBlock => "StaticBlock"
  | .arrayExpression => "ArrayExpression"
  | .objectExpression => "ObjectExpression"
  | .property => "Property"
  | .functionExpression => "FunctionExpression"
  | .arrowFunctionExpression => "ArrowFunctionExpression"
  | .classExpression => "ClassExpression"
  | .unaryExpression => "UnaryExpression"
  | .updateExpression => "UpdateExpression"
  | .binaryExpression => "BinaryExpression"
  | .logicalExpression => "LogicalExpression"
  | .assignmentExpression => "AssignmentExpression"
  | .memberExpression => "MemberExpression"
  | .chainExpression => "ChainExpression"
  | .conditionalExpression => "ConditionalExpression"
  | .callExpression => "CallExpression"
  | .newExpression => "NewExpression"
  | .sequenceExpression => "SequenceExpression"
  | .spreadElement => "SpreadElement"
  | .yieldExpression => "YieldExpression"
  | .awaitExpression => "AwaitExpression"
  | .templateLiteral => "TemplateLiteral"
  | .templateElement => "TemplateElement"
  | .taggedTemplateExpression => "TaggedTemplateExpression"
  | .importExpression => "ImportExpression"
  | .objectPattern => "ObjectPattern"
  | .arrayPattern => "ArrayPattern"
  | .restElement => "RestElement"
  | .assignmentPattern => "AssignmentPattern"
  | .importDeclaration => "ImportDeclaration"
  | .importSpecifier => "ImportSpecifier"
  | .importDefaultSpecifier => "ImportDefaultSpecifier"
  | .importNamespaceSpecifier => "ImportNamespaceSpecifier"
  | .exportNamedDeclaration => "ExportNamedDeclaration"
  | .exportSpecifier => "ExportSpecifier"
  | .exportDefaultDeclaration => "ExportDefaultDeclaration"
  | .exportAllDeclaration => "ExportAllDeclaration"

/-- All kinds, in their order. -/
def all : List Kind := [
  .identifier, .privateIdentifier, .literal, .thisExpression, .super, .metaProperty,
  .expressionStatement, .blockStatement, .emptyStatement, .debuggerStatement, .withStatement,
  .returnStatement, .labeledStatement, .breakStatement, .continueStatement, .ifStatement,
  .switchStatement, .switchCase, .throwStatement, .tryStatement, .catchClause, .whileStatement,
  .doWhileStatement, .forStatement, .forInStatement, .forOfStatement, .functionDeclaration,
  .variableDeclaration, .variableDeclarator, .classDeclaration, .classBody, .methodDefinition,
  .propertyDefinition, .staticBlock, .arrayExpression, .objectExpression, .property,
  .functionExpression, .arrowFunctionExpression, .classExpression, .unaryExpression,
  .updateExpression, .binaryExpression, .logicalExpression, .assignmentExpression,
  .memberExpression, .chainExpression, .conditionalExpression, .callExpression, .newExpression,
  .sequenceExpression, .spreadElement, .yieldExpression, .awaitExpression, .templateLiteral,
  .templateElement, .taggedTemplateExpression, .importExpression, .objectPattern, .arrayPattern,
  .restElement, .assignmentPattern, .importDeclaration, .importSpecifier,
  .importDefaultSpecifier, .importNamespaceSpecifier, .exportNamedDeclaration, .exportSpecifier,
  .exportDefaultDeclaration, .exportAllDeclaration]

/-- The kind of a name. -/
def ofName? (name : String) : Option Kind := all.find? (·.name = name)

/-- The kind at a place of the list. -/
def ofOrdinal? (place : Nat) : Option Kind := all[place]?

/-- The import and export statements, which may stand at the top level of a
module only. -/
def isModuleForm : Kind → Bool
  | .importDeclaration | .exportNamedDeclaration => true
  | .exportDefaultDeclaration | .exportAllDeclaration => true
  | _ => false

end Kind

end DefineWrap
