/-
The dependencies of a module: which modules it names, and which local names its
imports bind.

Each module that is named has a slot, counted in the order of first mention, and
the parameter of the wrapper with the number of the slot receives it. A local
name is bound once.
-/
import DefineWrap.Wrap.Access
import DefineWrap.Wrap.Error

set_option autoImplicit false

namespace DefineWrap

/-! ## Parameters of the wrapper -/

/-- The parameter that receives the exports. -/
def exportsParam : String := "__exports__"

/-- The name under which the exports are asked for. -/
def exportsSpecifier : String := "exports"

/-- The parameter that receives the dependency of a slot. -/
def dependencyParam (slot : Nat) : String := "__uDep" ++ toString slot ++ "__"

/-- The number that a numeral denotes: decimal digits, with a plus sign before them or without
one. The digits may begin with zeros. -/
def readNumeral? (text : List Char) : Option Nat :=
  let digits := match text with
    | '+' :: rest => rest
    | _ => text
  if digits.isEmpty || !digits.all Char.isDigit then none else some (digitsValue digits)

/-- The slot whose parameter a name may be: the number between the beginning and the ending of
such a name, which do not overlap. It may be written otherwise than the parameter has it. -/
def paramSlot? (name : String) : Option Nat := do
  let rest ← "__uDep".toList.isPrefixOf? name.toList
  let numeral ← "__".toList.isSuffixOf? rest
  readNumeral? numeral

/-! ## Imported names -/

/-- What of a module a local name stands for. -/
inductive Imported where
  | named (member : String)
  /-- The module itself, as in `import * as name`. -/
  | everything
  deriving DecidableEq, Repr

/-- What a default import stands for. -/
def Imported.default : Imported := .named defaultMember

/-- A local name that an import binds. -/
structure Binding where
  localName : String
  slot : Nat
  imported : Imported
  deriving DecidableEq, Repr

/-- The access that takes the place of the local name. -/
def Binding.access (binding : Binding) : Access :=
  match binding.imported with
  | .named member => .member (dependencyParam binding.slot) member
  | .everything => .whole (dependencyParam binding.slot)

/-! ## The table -/

/-- The modules that are named so far, by slot, and the bindings so far. -/
structure Dependencies where
  specifiers : List String
  bindings : List Binding
  deriving DecidableEq, Repr

namespace Dependencies

/-- The table before anything is named. -/
def empty : Dependencies := ⟨[], []⟩

/-- The slot of a module, which is a new one if the module is not named yet, and the
table with that slot. -/
def register (table : Dependencies) (specifier : String) : Nat × Dependencies :=
  match table.specifiers.idxOf? specifier with
  | some slot => (slot, table)
  | none => (table.specifiers.length, { table with specifiers := table.specifiers ++ [specifier] })

/-- Binds a local name to something of a module. -/
def bind (table : Dependencies) (localName specifier : String) (imported : Imported) :
    Except WrapError (Binding × Dependencies) :=
  if table.bindings.any (·.localName = localName) then .error (.duplicateBinding localName)
  else
    let (slot, table) := table.register specifier
    let binding := ⟨localName, slot, imported⟩
    .ok (binding, { table with bindings := table.bindings ++ [binding] })

/-- Whether a name is the parameter of one of the slots. -/
def isParam (table : Dependencies) (name : String) : Bool :=
  (paramSlot? name).any fun slot =>
    slot < table.specifiers.length && dependencyParam slot = name

end Dependencies

end DefineWrap
