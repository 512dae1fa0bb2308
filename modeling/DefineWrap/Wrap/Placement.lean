/-
Imports and exports stand at the top level of a module only.
-/
import DefineWrap.Estree.Walk
import DefineWrap.Estree.Record
import DefineWrap.Wrap.Error

set_option autoImplicit false

namespace DefineWrap

namespace Node

/-- Refuses a node that is an import or export. -/
def refuseModuleForm (node : Node) : Except WrapError Unit :=
  if node.kind.isModuleForm then .error (.misplacedModuleForm node.kind) else .ok ()

/-- Refuses a statement with an import or export anywhere below it; the first one in
the order of the text is reported. -/
def refuseNestedModuleForms (statement : Node) : Except WrapError Unit :=
  statement.walk refuseModuleForm

end Node

end DefineWrap
