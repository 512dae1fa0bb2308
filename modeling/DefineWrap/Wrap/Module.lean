/-
How a whole module is wrapped.

First every module that is named at the top level gets its slot. Then all imports
are bound, since the language binds them before anything else runs. Then the
other statements are taken in their order. One that is neither import nor export
stays; an export becomes assignments to members of the exports, at its place.

An import or export that gives a new meaning to a local name starts a pass for
it. The pass goes over the statements that are already done and those still to be
taken, so a name is replaced everywhere, no matter where its import or export
stands.
-/
import DefineWrap.Wrap.Pass
import DefineWrap.Wrap.Placement
import DefineWrap.Wrap.Wrapper

set_option autoImplicit false

namespace DefineWrap

/-! ## Reading import and export forms -/

/-- The module that an import or export names. -/
def moduleSpecifier (source : Node) : Except WrapError String :=
  match source.stringValue? with
  | some specifier => .ok specifier
  | none => .error (.unsupportedModuleForm .moduleSpecifier)

/-- The node that names the module of a statement, if the statement names one. -/
def sourceNode? : Node → Option Node
  | .importDeclaration _ source => some source
  | .exportNamedDeclaration _ _ source => source
  | _ => none

/-- Whether a statement is an import. -/
def isImport : Node → Bool
  | .importDeclaration _ _ => true
  | _ => false

/-- The local name of an import specifier, and what it stands for. -/
def importBinding (specifier : Node) : Except WrapError (String × Imported) :=
  let unsupported := .error (.unsupportedModuleForm .importSpecifier)
  let named (localName : Node) (imported : Imported) :=
    match localName.identifierName? with
    | some name => .ok (name, imported)
    | none => unsupported
  match specifier with
  | .importSpecifier imported localName =>
    match imported.exportName? with
    | some member => named localName (.named member)
    | none => unsupported
  | .importDefaultSpecifier localName => named localName .default
  | .importNamespaceSpecifier localName => named localName .everything
  | _ => unsupported

/-- The two names of a specifier of `export ... from`. -/
def reexportNames (specifier : Node) : Except WrapError (String × String) :=
  match specifier with
  | .exportSpecifier localName exported =>
    match localName.exportName?, exported.exportName? with
    | some localName, some exported => .ok (localName, exported)
    | _, _ => .error (.unsupportedModuleForm .exportSpecifier)
  | _ => .error (.unsupportedModuleForm .exportSpecifier)

/-- The local of a specifier of an export list, and the name it is exported under. -/
def exportEntry (specifier : Node) : Except WrapError (Node × String) :=
  match specifier with
  | .exportSpecifier localName exported =>
    match exported.exportName? with
    | some exported => .ok (localName, exported)
    | none => .error (.unsupportedModuleForm .exportSpecifier)
  | _ => .error (.unsupportedModuleForm .exportSpecifier)

/-- The name of a function or class declaration. -/
def declarationName? : Node → Option String
  | .functionDeclaration id _ _ _ _ => Node.ownName? id
  | .classDeclaration id _ _ => Node.ownName? id
  | _ => none

/-! ## A module that is being wrapped -/

/-- A module that is being wrapped. -/
structure Wrapping where
  dependencies : Dependencies
  /-- The names that are exported so far. -/
  exported : List String
  /-- The statements that are done. -/
  done : List Node
  /-- The statements that are still to be taken. -/
  pending : List Node

namespace Wrapping

/-- Puts a statement after those that are done. -/
def emit (state : Wrapping) (statement : Node) : Wrapping :=
  { state with done := state.done ++ [statement] }

/-- Puts an assignment to a member of the exports after the statements that are done. -/
def emitExport (state : Wrapping) (exported : String) (value : Node) : Wrapping :=
  state.emit (.assignmentStatement (.access exportsParam exported) value)

/-- Marks a name as exported, which may be done once. -/
def recordExport (state : Wrapping) (name : String) : Except WrapError Wrapping :=
  if name ∈ state.exported then .error (.duplicateBinding name)
  else .ok { state with exported := state.exported ++ [name] }

/-- Runs a pass over all statements. -/
def substitute (state : Wrapping) (pass : Pass) : Except WrapError Wrapping := do
  let done ← pass.applyAll state.done
  let pending ← pass.applyAll state.pending
  return { state with done, pending }

/-- Exports a local name under a name: its uses become accesses to the exports. -/
def exportAs (state : Wrapping) (localName exported : String) : Except WrapError Wrapping :=
  state.substitute ⟨localName, .member exportsParam exported, false⟩

/-- Exports a local name under the same name. -/
def exportLocal (state : Wrapping) (name : String) : Except WrapError Wrapping := do
  let state ← state.recordExport name
  state.exportAs name name

/-- Whether a name is a parameter of the wrapper. -/
def isInjected (state : Wrapping) (name : String) : Bool :=
  name = exportsParam || state.dependencies.isParam name

/-! ## Imports -/

/-- Gives a slot to the module that a statement names. -/
def registerSource (table : Dependencies) (statement : Node) :
    Except WrapError Dependencies :=
  match sourceNode? statement with
  | none => .ok table
  | some source => do
    let specifier ← moduleSpecifier source
    return (table.register specifier).2

/-- Binds one specifier of an import. -/
def bindImport (specifier : String) (state : Wrapping) (binding : Node) :
    Except WrapError Wrapping := do
  let (localName, imported) ← importBinding binding
  let (binding, dependencies) ← state.dependencies.bind localName specifier imported
  { state with dependencies }.substitute ⟨localName, binding.access, true⟩

/-- Binds all specifiers of a statement, if it is an import. -/
def takeImport (state : Wrapping) : Node → Except WrapError Wrapping
  | .importDeclaration specifiers source => do
    let specifier ← moduleSpecifier source
    specifiers.foldlM (bindImport specifier) state
  | _ => .ok state

/-! ## Exports -/

/-- `export default`. A named declaration stays, and its value is assigned after it;
everything else is assigned as an expression. -/
def takeExportDefault (state : Wrapping) (declaration : Node) :
    Except WrapError Wrapping := do
  let state ← state.recordExport defaultMember
  declaration.refuseNestedModuleForms
  match declaration with
  | .expressionStatement _ _ => .error (.unsupportedModuleForm .listBeforeDeclaration)
  | declaration =>
    match declarationName? declaration with
    | some name =>
      return (state.emit declaration).emitExport defaultMember (.identifier name)
    | none => return state.emitExport defaultMember declaration.asExpression

/-- Assigns the initial value of an exported declarator, and adds its name to those
before it. -/
def takeDeclarator (before : Wrapping × List String) (declarator : Node) :
    Except WrapError (Wrapping × List String) :=
  let (state, names) := before
  match declarator with
  | .variableDeclarator id init =>
    match id.identifierName? with
    | none => .error (.unsupportedModuleForm .exportedPattern)
    | some name =>
      match init with
      | some value => .ok (state.emitExport name value, names ++ [name])
      | none => .ok (state, names ++ [name])
  | _ => .ok before

/-- `export` before a declaration. -/
def takeExportDeclaration (state : Wrapping) (declaration : Node) :
    Except WrapError Wrapping := do
  declaration.refuseNestedModuleForms
  match declaration with
  | .variableDeclaration declarations _ =>
    let (state, names) ← declarations.foldlM takeDeclarator (state, [])
    names.foldlM exportLocal state
  | declaration =>
    match declarationName? declaration with
    | none => .error (.unsupportedModuleForm .listBeforeDeclaration)
    | some name => (state.emitExport name declaration.asExpression).exportLocal name

/-- One specifier of `export ... from`, for the parameter of the module. -/
def takeReexport (param : String) (state : Wrapping) (specifier : Node) :
    Except WrapError Wrapping := do
  let (localName, exported) ← reexportNames specifier
  let state ← state.recordExport exported
  return state.emitExport exported (.access param localName)

/-- One specifier of an export list. A local that an import has bound is an access by
now and is assigned; any other name is exported. -/
def takeExportEntry (state : Wrapping) (specifier : Node) : Except WrapError Wrapping := do
  let (localNode, exported) ← exportEntry specifier
  let state ← state.recordExport exported
  match localNode.identifierName? with
  | some name =>
    if state.isInjected name then return state.emitExport exported localNode
    else state.exportAs name exported
  | none => return state.emitExport exported localNode

/-! ## Statements -/

/-- Takes a statement that is no import. -/
def takeStatement (state : Wrapping) : Node → Except WrapError Wrapping
  | .exportDefaultDeclaration declaration => state.takeExportDefault declaration
  | .exportNamedDeclaration (some declaration) _ _ => state.takeExportDeclaration declaration
  | .exportNamedDeclaration none specifiers (some source) => do
    let specifier ← moduleSpecifier source
    let (slot, dependencies) := state.dependencies.register specifier
    specifiers.foldlM (takeReexport (dependencyParam slot)) { state with dependencies }
  | .exportNamedDeclaration none specifiers none => specifiers.foldlM takeExportEntry state
  | .exportAllDeclaration _ _ => .error (.unsupportedModuleForm .exportAll)
  | statement => do
    statement.refuseNestedModuleForms
    return state.emit statement

/-- Takes the given number of pending statements. -/
def takeStatements : Nat → Wrapping → Except WrapError Wrapping
  | 0, state => .ok state
  | count + 1, state =>
    match state.pending with
    | [] => .ok state
    | statement :: pending => do
      let state ← { state with pending }.takeStatement statement
      takeStatements count state

/-- The module after all its statements have been taken. -/
def run (body : List Node) : Except WrapError Wrapping := do
  let dependencies ← body.foldlM registerSource .empty
  let (imports, statements) := body.partition isImport
  let state ← imports.foldlM takeImport ⟨dependencies, [], [], statements⟩
  state.takeStatements statements.length

end Wrapping

/-! ## The result -/

/-- A module in its wrapper, and the modules it depends on, by slot. -/
structure Wrapped where
  program : Program
  dependencies : List String

namespace Program

/-- Wraps a module: its imports and exports are gone, and its only statement is the call
that registers it. -/
def wrap (program : Program) (options : WrapOptions) : Except WrapError Wrapped := do
  let state ← Wrapping.run program.body
  let dependencies := state.dependencies.specifiers
  return ⟨⟨[wrapper dependencies state.done options], some "script"⟩, dependencies⟩

end Program

end DefineWrap
