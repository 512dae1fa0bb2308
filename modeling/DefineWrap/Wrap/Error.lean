/-
Why a module cannot be wrapped.

Each cause is a fault of the module: a name that is bound or exported twice, a name
that is imported and written to, an import or export in a place where it may not
stand, or one that has no form as an assignment of a value.
-/
import DefineWrap.Estree.Kind

set_option autoImplicit false

namespace DefineWrap

/-- An import or export that cannot be expressed by an assignment of a value. -/
inductive UnsupportedForm where
  /-- `export * from`. -/
  | exportAll
  /-- An exported variable declaration that takes a value apart. -/
  | exportedPattern
  /-- A function or class that an export list before it has already turned into an
  assignment. -/
  | listBeforeDeclaration
  /-- A module that is not named by a string. -/
  | moduleSpecifier
  | importSpecifier
  | exportSpecifier
  deriving DecidableEq, Repr

/-- Why a module cannot be wrapped. -/
inductive WrapError where
  /-- The name is bound by two imports, by an import and an exported declaration,
  or is exported twice. -/
  | duplicateBinding (name : String)
  /-- The name is bound by an import, and something is assigned to it. -/
  | illegalReassignment (name : String)
  /-- An import or export stands inside another statement. -/
  | misplacedModuleForm (kind : Kind)
  | unsupportedModuleForm (form : UnsupportedForm)
  deriving DecidableEq, Repr

/-- The description of a form. -/
def UnsupportedForm.text : UnsupportedForm → String
  | .exportAll => "export * from"
  | .exportedPattern => "exported destructuring declaration"
  | .listBeforeDeclaration =>
    "export list naming a function or class before its exported declaration"
  | .moduleSpecifier => "non-string module specifier"
  | .importSpecifier => "import specifier"
  | .exportSpecifier => "export specifier"

/-- The message of an error. -/
def WrapError.message : WrapError → String
  | .duplicateBinding name => "expected one declaration for `" ++ name ++ "`"
  | .illegalReassignment name => "Cannot reassign imported binding `" ++ name ++ "`"
  | .misplacedModuleForm kind => "Unexpected non-top level " ++ kind.name
  | .unsupportedModuleForm form => "Unsupported module form: " ++ form.text

end DefineWrap
