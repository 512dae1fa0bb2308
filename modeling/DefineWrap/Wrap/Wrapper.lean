/-
The call that registers a module.

The call names the dependencies of the module and the exports, and passes the body
of the module as a function that receives them:
`define(["./a", "exports"], function (__uDep0__, __exports__) \x7b ... \x7d)`.
-/
import DefineWrap.Wrap.Dependencies

set_option autoImplicit false

namespace DefineWrap

/-- How a module is registered. -/
structure WrapOptions where
  /-- The function that is called. -/
  callee : String
  /-- The name under which the module is registered, if it has one. -/
  moduleId : Option String
  deriving DecidableEq, Repr

namespace WrapOptions

/-- The function that is called unless another one is asked for. -/
def defaultCallee : String := "define"

/-- Options for a module without a name. -/
def default : WrapOptions := ⟨defaultCallee, none⟩

end WrapOptions

/-- The names that are asked for. -/
def wrapperSpecifiers (dependencies : List String) : List Node :=
  (dependencies ++ [exportsSpecifier]).map .stringLiteral

/-- The parameters that receive what is asked for. -/
def wrapperParams (dependencies : List String) : List Node :=
  ((List.range dependencies.length).map dependencyParam ++ [exportsParam]).map .identifier

/-- The statement that registers a module with the given dependencies and body. -/
def wrapper (dependencies : List String) (body : List Node) (options : WrapOptions) : Node :=
  .statement (.call (.identifier options.callee)
    (options.moduleId.toList.map .stringLiteral ++ [
      .array (wrapperSpecifiers dependencies),
      .anonymousFunction (wrapperParams dependencies) body]))

end DefineWrap
