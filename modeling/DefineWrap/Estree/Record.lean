/-
The fields of every kind of node, and nodes as records.

These two tables, and the one of child places, are the only ones that mention
every kind. `Node.ofRecord?_record` says that a node is determined by its record,
and `Node.sizeOf_lt_of_mem_record` that what stands inside is smaller than it.
-/
import DefineWrap.Estree.Field

set_option autoImplicit false

namespace DefineWrap

/-! ## Which fields there are -/

namespace Kind

/-- The fields of a kind, in their order. -/
def fields : Kind → List FieldSpec
  | .identifier | .privateIdentifier => [.required "name" .text]
  | .literal => [
    .required "value" .json, (FieldSpec.optional "raw" .maybeText).hide,
    (FieldSpec.optional "regex" .maybeJson).hide]
  | .thisExpression | .super | .emptyStatement | .debuggerStatement => []
  | .metaProperty => [.required "meta" .node, .required "property" .node]
  | .expressionStatement => [
    .required "expression" .node, (FieldSpec.optional "directive" .maybeText).hide]
  | .blockStatement | .classBody | .staticBlock => [.required "body" .nodes]
  | .withStatement => [.required "object" .node, .required "body" .node]
  | .returnStatement => [.optional "argument" .maybeNode]
  | .labeledStatement => [.required "label" .node, .required "body" .node]
  | .breakStatement | .continueStatement => [.optional "label" .maybeNode]
  | .ifStatement => [
    .required "test" .node, .required "consequent" .node, .optional "alternate" .maybeNode]
  | .switchStatement => [.required "discriminant" .node, .required "cases" .nodes]
  | .switchCase => [.optional "test" .maybeNode, .required "consequent" .nodes]
  | .throwStatement | .spreadElement | .awaitExpression | .restElement => [
    .required "argument" .node]
  | .tryStatement => [
    .required "block" .node, .optional "handler" .maybeNode, .optional "finalizer" .maybeNode]
  | .catchClause => [.optional "param" .maybeNode, .required "body" .node]
  | .whileStatement => [.required "test" .node, .required "body" .node]
  | .doWhileStatement => [.required "body" .node, .required "test" .node]
  | .forStatement => [
    .optional "init" .maybeNode, .optional "test" .maybeNode, .optional "update" .maybeNode,
    .required "body" .node]
  | .forInStatement => [.required "left" .node, .required "right" .node, .required "body" .node]
  | .forOfStatement => [
    .required "left" .node, .required "right" .node, .required "body" .node, .flag "await"]
  | .functionDeclaration | .functionExpression => [
    .optional "id" .maybeNode, .required "params" .nodes, .required "body" .node,
    .flag "generator", .flag "async"]
  | .variableDeclaration => [.required "declarations" .nodes, .required "kind" .variableKind]
  | .variableDeclarator => [.required "id" .node, .optional "init" .maybeNode]
  | .classDeclaration | .classExpression => [
    .optional "id" .maybeNode, .optional "superClass" .maybeNode, .required "body" .node]
  | .methodDefinition => [
    .required "key" .node, .required "value" .node, .required "kind" .text, .flag "computed",
    .flag "static"]
  | .propertyDefinition => [
    .required "key" .node, .optional "value" .maybeNode, .flag "computed", .flag "static"]
  | .arrayExpression | .arrayPattern => [.required "elements" .holes]
  | .objectExpression | .objectPattern => [.required "properties" .nodes]
  | .property => [
    .required "key" .node, .required "value" .node, .required "kind" .text, .flag "computed",
    .flag "method", .flag "shorthand"]
  | .arrowFunctionExpression => [
    .required "params" .nodes, .required "body" .node, .flag "expression", .flag "async"]
  | .unaryExpression => [
    .required "operator" .text, ⟨"prefix", .flag, .on, false, none⟩, .required "argument" .node]
  | .updateExpression => [.required "operator" .text, .flag "prefix", .required "argument" .node]
  | .binaryExpression | .logicalExpression | .assignmentExpression => [
    .required "operator" .text, .required "left" .node, .required "right" .node]
  | .memberExpression => [
    .required "object" .node, .required "property" .node, .flag "computed",
    (FieldSpec.flag "optional").hide]
  | .chainExpression => [.required "expression" .node]
  | .conditionalExpression => [
    .required "test" .node, .required "consequent" .node, .required "alternate" .node]
  | .callExpression => [
    .required "callee" .node, .required "arguments" .nodes, (FieldSpec.flag "optional").hide]
  | .newExpression => [.required "callee" .node, .optional "arguments" .nodes]
  | .sequenceExpression => [.required "expressions" .nodes]
  | .yieldExpression => [.optional "argument" .maybeNode, .flag "delegate"]
  | .templateLiteral => [.required "quasis" .nodes, .required "expressions" .nodes]
  | .templateElement => [.required "value" .json, .flag "tail"]
  | .taggedTemplateExpression => [.required "tag" .node, .required "quasi" .node]
  | .importExpression => [
    .required "source" .node, ⟨"options", .maybeNode, .empty, true, some "attributes"⟩]
  | .assignmentPattern => [.required "left" .node, .required "right" .node]
  | .importDeclaration => [.optional "specifiers" .nodes, .required "source" .node]
  | .importSpecifier => [.required "imported" .node, .required "local" .node]
  | .importDefaultSpecifier | .importNamespaceSpecifier => [.required "local" .node]
  | .exportNamedDeclaration => [
    .optional "declaration" .maybeNode, .optional "specifiers" .nodes,
    .optional "source" .maybeNode]
  | .exportSpecifier => [.required "local" .node, .required "exported" .node]
  | .exportDefaultDeclaration => [.required "declaration" .node]
  | .exportAllDeclaration => [.required "source" .node, .optional "exported" .maybeNode]

end Kind

/-! ## Nodes as records -/

namespace Node

/-- The kind of a node and the values of its fields. -/
def record : Node → Record Node
  | .identifier name => ⟨.identifier, [.text name]⟩
  | .privateIdentifier name => ⟨.privateIdentifier, [.text name]⟩
  | .literal value raw regex => ⟨.literal, [.json value, .maybeText raw, .maybeJson regex]⟩
  | .thisExpression => ⟨.thisExpression, []⟩
  | .super => ⟨.super, []⟩
  | .metaProperty metaName propertyName => ⟨.metaProperty, [.node metaName, .node propertyName]⟩
  | .expressionStatement expression directive =>
    ⟨.expressionStatement, [.node expression, .maybeText directive]⟩
  | .blockStatement body => ⟨.blockStatement, [.nodes body]⟩
  | .emptyStatement => ⟨.emptyStatement, []⟩
  | .debuggerStatement => ⟨.debuggerStatement, []⟩
  | .withStatement object body => ⟨.withStatement, [.node object, .node body]⟩
  | .returnStatement argument => ⟨.returnStatement, [.maybeNode argument]⟩
  | .labeledStatement label body => ⟨.labeledStatement, [.node label, .node body]⟩
  | .breakStatement label => ⟨.breakStatement, [.maybeNode label]⟩
  | .continueStatement label => ⟨.continueStatement, [.maybeNode label]⟩
  | .ifStatement test consequent alternate =>
    ⟨.ifStatement, [.node test, .node consequent, .maybeNode alternate]⟩
  | .switchStatement discriminant cases => ⟨.switchStatement, [.node discriminant, .nodes cases]⟩
  | .switchCase test consequent => ⟨.switchCase, [.maybeNode test, .nodes consequent]⟩
  | .throwStatement argument => ⟨.throwStatement, [.node argument]⟩
  | .tryStatement block handler finalizer =>
    ⟨.tryStatement, [.node block, .maybeNode handler, .maybeNode finalizer]⟩
  | .catchClause param body => ⟨.catchClause, [.maybeNode param, .node body]⟩
  | .whileStatement test body => ⟨.whileStatement, [.node test, .node body]⟩
  | .doWhileStatement body test => ⟨.doWhileStatement, [.node body, .node test]⟩
  | .forStatement init test update body =>
    ⟨.forStatement, [.maybeNode init, .maybeNode test, .maybeNode update, .node body]⟩
  | .forInStatement left right body => ⟨.forInStatement, [.node left, .node right, .node body]⟩
  | .forOfStatement left right body isAwait =>
    ⟨.forOfStatement, [.node left, .node right, .node body, .flag isAwait]⟩
  | .functionDeclaration id params body generator isAsync =>
    ⟨.functionDeclaration, [.maybeNode id, .nodes params, .node body, .flag generator,
      .flag isAsync]⟩
  | .variableDeclaration declarations kind =>
    ⟨.variableDeclaration, [.nodes declarations, .variableKind kind]⟩
  | .variableDeclarator id init => ⟨.variableDeclarator, [.node id, .maybeNode init]⟩
  | .classDeclaration id superClass body =>
    ⟨.classDeclaration, [.maybeNode id, .maybeNode superClass, .node body]⟩
  | .classBody body => ⟨.classBody, [.nodes body]⟩
  | .methodDefinition key value kind computed isStatic =>
    ⟨.methodDefinition, [.node key, .node value, .text kind, .flag computed, .flag isStatic]⟩
  | .propertyDefinition key value computed isStatic =>
    ⟨.propertyDefinition, [.node key, .maybeNode value, .flag computed, .flag isStatic]⟩
  | .staticBlock body => ⟨.staticBlock, [.nodes body]⟩
  | .arrayExpression elements => ⟨.arrayExpression, [.holes elements]⟩
  | .objectExpression properties => ⟨.objectExpression, [.nodes properties]⟩
  | .property key value kind computed method shorthand =>
    ⟨.property, [.node key, .node value, .text kind, .flag computed, .flag method,
      .flag shorthand]⟩
  | .functionExpression id params body generator isAsync =>
    ⟨.functionExpression, [.maybeNode id, .nodes params, .node body, .flag generator,
      .flag isAsync]⟩
  | .arrowFunctionExpression params body isExpression isAsync =>
    ⟨.arrowFunctionExpression, [.nodes params, .node body, .flag isExpression, .flag isAsync]⟩
  | .classExpression id superClass body =>
    ⟨.classExpression, [.maybeNode id, .maybeNode superClass, .node body]⟩
  | .unaryExpression operator isPrefix argument =>
    ⟨.unaryExpression, [.text operator, .flag isPrefix, .node argument]⟩
  | .updateExpression operator isPrefix argument =>
    ⟨.updateExpression, [.text operator, .flag isPrefix, .node argument]⟩
  | .binaryExpression operator left right =>
    ⟨.binaryExpression, [.text operator, .node left, .node right]⟩
  | .logicalExpression operator left right =>
    ⟨.logicalExpression, [.text operator, .node left, .node right]⟩
  | .assignmentExpression operator left right =>
    ⟨.assignmentExpression, [.text operator, .node left, .node right]⟩
  | .memberExpression object member computed isOptional =>
    ⟨.memberExpression, [.node object, .node member, .flag computed, .flag isOptional]⟩
  | .chainExpression expression => ⟨.chainExpression, [.node expression]⟩
  | .conditionalExpression test consequent alternate =>
    ⟨.conditionalExpression, [.node test, .node consequent, .node alternate]⟩
  | .callExpression callee arguments isOptional =>
    ⟨.callExpression, [.node callee, .nodes arguments, .flag isOptional]⟩
  | .newExpression callee arguments => ⟨.newExpression, [.node callee, .nodes arguments]⟩
  | .sequenceExpression expressions => ⟨.sequenceExpression, [.nodes expressions]⟩
  | .spreadElement argument => ⟨.spreadElement, [.node argument]⟩
  | .yieldExpression argument delegate =>
    ⟨.yieldExpression, [.maybeNode argument, .flag delegate]⟩
  | .awaitExpression argument => ⟨.awaitExpression, [.node argument]⟩
  | .templateLiteral quasis expressions => ⟨.templateLiteral, [.nodes quasis, .nodes expressions]⟩
  | .templateElement value tail => ⟨.templateElement, [.json value, .flag tail]⟩
  | .taggedTemplateExpression tag quasi => ⟨.taggedTemplateExpression, [.node tag, .node quasi]⟩
  | .importExpression source options => ⟨.importExpression, [.node source, .maybeNode options]⟩
  | .objectPattern properties => ⟨.objectPattern, [.nodes properties]⟩
  | .arrayPattern elements => ⟨.arrayPattern, [.holes elements]⟩
  | .restElement argument => ⟨.restElement, [.node argument]⟩
  | .assignmentPattern left right => ⟨.assignmentPattern, [.node left, .node right]⟩
  | .importDeclaration specifiers source =>
    ⟨.importDeclaration, [.nodes specifiers, .node source]⟩
  | .importSpecifier imported localName => ⟨.importSpecifier, [.node imported, .node localName]⟩
  | .importDefaultSpecifier localName => ⟨.importDefaultSpecifier, [.node localName]⟩
  | .importNamespaceSpecifier localName => ⟨.importNamespaceSpecifier, [.node localName]⟩
  | .exportNamedDeclaration declaration specifiers source =>
    ⟨.exportNamedDeclaration, [.maybeNode declaration, .nodes specifiers, .maybeNode source]⟩
  | .exportSpecifier localName exported => ⟨.exportSpecifier, [.node localName, .node exported]⟩
  | .exportDefaultDeclaration declaration => ⟨.exportDefaultDeclaration, [.node declaration]⟩
  | .exportAllDeclaration source exported =>
    ⟨.exportAllDeclaration, [.node source, .maybeNode exported]⟩

/-- The kind of a node. -/
def kind (node : Node) : Kind := node.record.kind

/-- The values of the fields of a node, in the order of its kind. -/
def fieldValues (node : Node) : List (FieldValue Node) := node.record.values

/-- The node of a record, if the values are of the types that the kind asks for. -/
def ofRecord? (record : Record Node) : Option Node :=
  match record.kind, record.values with
  | .identifier, [.text name] => some (.identifier name)
  | .privateIdentifier, [.text name] => some (.privateIdentifier name)
  | .literal, [.json value, .maybeText raw, .maybeJson regex] => some (.literal value raw regex)
  | .thisExpression, [] => some .thisExpression
  | .super, [] => some .super
  | .metaProperty, [.node metaName, .node propertyName] =>
    some (.metaProperty metaName propertyName)
  | .expressionStatement, [.node expression, .maybeText directive] =>
    some (.expressionStatement expression directive)
  | .blockStatement, [.nodes body] => some (.blockStatement body)
  | .emptyStatement, [] => some .emptyStatement
  | .debuggerStatement, [] => some .debuggerStatement
  | .withStatement, [.node object, .node body] => some (.withStatement object body)
  | .returnStatement, [.maybeNode argument] => some (.returnStatement argument)
  | .labeledStatement, [.node label, .node body] => some (.labeledStatement label body)
  | .breakStatement, [.maybeNode label] => some (.breakStatement label)
  | .continueStatement, [.maybeNode label] => some (.continueStatement label)
  | .ifStatement, [.node test, .node consequent, .maybeNode alternate] =>
    some (.ifStatement test consequent alternate)
  | .switchStatement, [.node discriminant, .nodes cases] =>
    some (.switchStatement discriminant cases)
  | .switchCase, [.maybeNode test, .nodes consequent] => some (.switchCase test consequent)
  | .throwStatement, [.node argument] => some (.throwStatement argument)
  | .tryStatement, [.node block, .maybeNode handler, .maybeNode finalizer] =>
    some (.tryStatement block handler finalizer)
  | .catchClause, [.maybeNode param, .node body] => some (.catchClause param body)
  | .whileStatement, [.node test, .node body] => some (.whileStatement test body)
  | .doWhileStatement, [.node body, .node test] => some (.doWhileStatement body test)
  | .forStatement, [.maybeNode init, .maybeNode test, .maybeNode update, .node body] =>
    some (.forStatement init test update body)
  | .forInStatement, [.node left, .node right, .node body] =>
    some (.forInStatement left right body)
  | .forOfStatement, [.node left, .node right, .node body, .flag isAwait] =>
    some (.forOfStatement left right body isAwait)
  | .functionDeclaration, [.maybeNode id, .nodes params, .node body, .flag generator,
      .flag isAsync] =>
    some (.functionDeclaration id params body generator isAsync)
  | .variableDeclaration, [.nodes declarations, .variableKind kind] =>
    some (.variableDeclaration declarations kind)
  | .variableDeclarator, [.node id, .maybeNode init] => some (.variableDeclarator id init)
  | .classDeclaration, [.maybeNode id, .maybeNode superClass, .node body] =>
    some (.classDeclaration id superClass body)
  | .classBody, [.nodes body] => some (.classBody body)
  | .methodDefinition, [.node key, .node value, .text kind, .flag computed, .flag isStatic] =>
    some (.methodDefinition key value kind computed isStatic)
  | .propertyDefinition, [.node key, .maybeNode value, .flag computed, .flag isStatic] =>
    some (.propertyDefinition key value computed isStatic)
  | .staticBlock, [.nodes body] => some (.staticBlock body)
  | .arrayExpression, [.holes elements] => some (.arrayExpression elements)
  | .objectExpression, [.nodes properties] => some (.objectExpression properties)
  | .property, [.node key, .node value, .text kind, .flag computed, .flag method,
      .flag shorthand] =>
    some (.property key value kind computed method shorthand)
  | .functionExpression, [.maybeNode id, .nodes params, .node body, .flag generator,
      .flag isAsync] =>
    some (.functionExpression id params body generator isAsync)
  | .arrowFunctionExpression, [.nodes params, .node body, .flag isExpression, .flag isAsync] =>
    some (.arrowFunctionExpression params body isExpression isAsync)
  | .classExpression, [.maybeNode id, .maybeNode superClass, .node body] =>
    some (.classExpression id superClass body)
  | .unaryExpression, [.text operator, .flag isPrefix, .node argument] =>
    some (.unaryExpression operator isPrefix argument)
  | .updateExpression, [.text operator, .flag isPrefix, .node argument] =>
    some (.updateExpression operator isPrefix argument)
  | .binaryExpression, [.text operator, .node left, .node right] =>
    some (.binaryExpression operator left right)
  | .logicalExpression, [.text operator, .node left, .node right] =>
    some (.logicalExpression operator left right)
  | .assignmentExpression, [.text operator, .node left, .node right] =>
    some (.assignmentExpression operator left right)
  | .memberExpression, [.node object, .node member, .flag computed, .flag isOptional] =>
    some (.memberExpression object member computed isOptional)
  | .chainExpression, [.node expression] => some (.chainExpression expression)
  | .conditionalExpression, [.node test, .node consequent, .node alternate] =>
    some (.conditionalExpression test consequent alternate)
  | .callExpression, [.node callee, .nodes arguments, .flag isOptional] =>
    some (.callExpression callee arguments isOptional)
  | .newExpression, [.node callee, .nodes arguments] => some (.newExpression callee arguments)
  | .sequenceExpression, [.nodes expressions] => some (.sequenceExpression expressions)
  | .spreadElement, [.node argument] => some (.spreadElement argument)
  | .yieldExpression, [.maybeNode argument, .flag delegate] =>
    some (.yieldExpression argument delegate)
  | .awaitExpression, [.node argument] => some (.awaitExpression argument)
  | .templateLiteral, [.nodes quasis, .nodes expressions] =>
    some (.templateLiteral quasis expressions)
  | .templateElement, [.json value, .flag tail] => some (.templateElement value tail)
  | .taggedTemplateExpression, [.node tag, .node quasi] =>
    some (.taggedTemplateExpression tag quasi)
  | .importExpression, [.node source, .maybeNode options] =>
    some (.importExpression source options)
  | .objectPattern, [.nodes properties] => some (.objectPattern properties)
  | .arrayPattern, [.holes elements] => some (.arrayPattern elements)
  | .restElement, [.node argument] => some (.restElement argument)
  | .assignmentPattern, [.node left, .node right] => some (.assignmentPattern left right)
  | .importDeclaration, [.nodes specifiers, .node source] =>
    some (.importDeclaration specifiers source)
  | .importSpecifier, [.node imported, .node localName] =>
    some (.importSpecifier imported localName)
  | .importDefaultSpecifier, [.node localName] => some (.importDefaultSpecifier localName)
  | .importNamespaceSpecifier, [.node localName] => some (.importNamespaceSpecifier localName)
  | .exportNamedDeclaration, [.maybeNode declaration, .nodes specifiers, .maybeNode source] =>
    some (.exportNamedDeclaration declaration specifiers source)
  | .exportSpecifier, [.node localName, .node exported] =>
    some (.exportSpecifier localName exported)
  | .exportDefaultDeclaration, [.node declaration] => some (.exportDefaultDeclaration declaration)
  | .exportAllDeclaration, [.node source, .maybeNode exported] =>
    some (.exportAllDeclaration source exported)
  | _, _ => none

theorem ofRecord?_record (node : Node) : ofRecord? node.record = some node := by
  cases node <;> rfl

end Node

/-! ## What is inside is smaller -/

namespace FieldValue

/-- The nodes inside a value are smaller than some bound. -/
def Below (value : FieldValue Node) (bound : Nat) : Prop :=
  ∀ node ∈ value.inner, sizeOf node < bound

theorem below_node {node : Node} {bound : Nat} (h : sizeOf node < bound) :
    (FieldValue.node node).Below bound := by
  intro other hmem
  rw [List.mem_singleton.1 (show other ∈ [node] from hmem)]
  exact h

theorem below_maybeNode {node : Option Node} {bound : Nat} (h : sizeOf node < bound) :
    (FieldValue.maybeNode node).Below bound := by
  intro other hmem
  cases node with
  | none => simp [inner] at hmem
  | some node =>
    have : other = node := by simpa [inner] using hmem
    simp only [Option.some.sizeOf_spec] at h
    subst this; omega

theorem below_nodes {nodes : List Node} {bound : Nat} (h : sizeOf nodes < bound) :
    (FieldValue.nodes nodes).Below bound := by
  intro other hmem
  have := List.sizeOf_lt_of_mem (show other ∈ nodes from hmem)
  omega

theorem below_holes {elements : List (Option Node)} {bound : Nat}
    (h : sizeOf elements < bound) : (FieldValue.holes elements).Below bound := by
  intro other hmem
  have hm : some other ∈ elements := by simpa [inner] using hmem
  have := List.sizeOf_lt_of_mem hm
  simp only [Option.some.sizeOf_spec] at this
  omega

/-- A value that is no node and has no nodes in it, such as a text or a flag. -/
theorem below_of_inner_eq_nil {value : FieldValue Node} {bound : Nat} (h : value.inner = []) :
    value.Below bound := by
  intro other hmem
  rw [h] at hmem
  cases hmem

end FieldValue

namespace Node

/-- The nodes inside the record of a node are smaller than the node. -/
theorem sizeOf_lt_of_mem_record {node other : Node} (h : other ∈ node.record.inner) :
    sizeOf other < sizeOf node := by
  have below : ∀ value ∈ node.record.values, value.Below (sizeOf node) := by
    unfold record
    split
    all_goals dsimp only
    all_goals
      with_reducible
        repeat' first
          | refine List.forall_mem_cons.2 ⟨?_, ?_⟩
          | exact List.forall_mem_nil _
          | apply FieldValue.below_node
          | apply FieldValue.below_maybeNode
          | apply FieldValue.below_nodes
          | apply FieldValue.below_holes
    all_goals first | exact FieldValue.below_of_inner_eq_nil rfl | simp +arith
  obtain ⟨value, hv, hmem⟩ := List.mem_flatMap.1 h
  exact below value hv other hmem

end Node

end DefineWrap
