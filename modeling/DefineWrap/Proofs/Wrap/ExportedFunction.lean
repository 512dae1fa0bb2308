/-
A function that is exported where it is declared, and one that is exported in a list.

`export function f() \x7b \x7d` and `function f() \x7b \x7d export \x7b f \x7d;` are wrapped alike.

The first form turns the declaration into an assignment to the exports and starts a pass for the
name; the second keeps the declaration, and the pass that the list starts makes the same assignment
of it (`Pass.replace_functionOf`). Until then other passes have gone over both forms. They are for
other names, so they neither take the name of the function nor the one in the list away, and change
the function alike in both (`FunctionForms.replaced`). So the two forms can stand for each other in
any module (`Wrapping.run_exchange`).
-/
import DefineWrap.Proofs.Wrap.Exchange
import DefineWrap.Proofs.Wrap.Exporting
import DefineWrap.Proofs.Wrap.Hoisting

set_option autoImplicit false

namespace DefineWrap

/-! ## The two forms -/

/-- The declaration `function f(params) body`, not exported. It is what stands in the second form
and what is below `export` in the first. -/
def functionOf (name : String) (params : List Node) (body : Node) (generator isAsync : Bool) :
    Node :=
  .functionDeclaration (some (.identifier name)) params body generator isAsync

/-- The first form, `export function f(params) body`. -/
def exportedFunction (name : String) (params : List Node) (body : Node)
    (generator isAsync : Bool) : Node :=
  .exportNamedDeclaration (some (functionOf name params body generator isAsync)) [] none

/-- The list of the second form, `export \x7b f \x7d`, for the same name inside and outside. -/
def exportOf (name : String) : Node :=
  .exportNamedDeclaration none [.exportSpecifier (.identifier name) (.identifier name)] none

/-- What both forms come to, `__exports__.f = function f(params) body`. The function keeps its name,
so that it can call itself. -/
def assignedFunction (name : String) (params : List Node) (body : Node)
    (generator isAsync : Bool) : Node :=
  .assignmentStatement (.access exportsParam name)
    (.functionExpression (some (.identifier name)) params body generator isAsync)

/-- A function of a name that is exported where it is declared, and one that is exported in a list
right behind the declaration. -/
inductive FunctionForms (name : String) : List Node → List Node → Prop
  | forms (params : List Node) (body : Node) (generator isAsync : Bool) :
    FunctionForms name [exportedFunction name params body generator isAsync]
      [functionOf name params body generator isAsync, exportOf name]

namespace Pass

variable {pass : Pass} {name : String}

/-! ## Passes for other names -/

/-- A function of another name stays one, with a body and parameters that the pass may have
changed. -/
theorem replace_functionOf_of_ne (h : pass.name ≠ name) (params : List Node) (body : Node)
    (generator isAsync : Bool) :
    ∃ params' body', pass.replace (functionOf name params body generator isAsync) =
      functionOf name params' body' generator isAsync := by
  have hother : pass.isOwnName (some (.identifier name)) = false := by
    simp [isOwnName, h.symm]
  obtain ⟨params', body', hdeclaration, -⟩ :=
    pass.replace_function params body generator isAsync hother
  exact ⟨params', body', hdeclaration⟩

theorem replace_exportOf (h : pass.name ≠ name) : pass.replace (exportOf name) = exportOf name := by
  rw [exportOf, replace_exportNamedDeclaration]
  simp [replace_exportSpecifier, pass.replace_identifier_of_ne h.symm]

/-- Nothing is refused in the list, whatever the pass is for. So a strict pass looks at the function
only, in both forms. -/
theorem firstViolation?_exportOf : pass.firstViolation? (exportOf name) = none := by
  have henters : pass.Enters (exportOf name) := ⟨rfl, of_decide_eq_false rfl, rfl⟩
  rw [pass.firstViolation?_of_enters henters]
  simp [violation?, exportOf, Node.children, Node.places, firstViolation?_exportSpecifier]

/-- What is refused in an exported function of another name is refused in the function. The export
itself would be wrong only for the name of the function. -/
theorem firstViolation?_exportedFunction (h : pass.name ≠ name) (params : List Node) (body : Node)
    (generator isAsync : Bool) :
    pass.firstViolation? (exportedFunction name params body generator isAsync) =
      pass.firstViolation? (functionOf name params body generator isAsync) := by
  have henters : pass.Enters (exportedFunction name params body generator isAsync) :=
    ⟨rfl, of_decide_eq_false rfl, rfl⟩
  have hexport : pass.violation? (exportedFunction name params body generator isAsync) = none := by
    have hdeclared : pass.name ∉ [name] := by simpa using h
    exact if_neg hdeclared
  have hchildren : (exportedFunction name params body generator isAsync).children =
      [functionOf name params body generator isAsync] := rfl
  rw [pass.firstViolation?_of_enters henters, hexport, hchildren, Option.none_or,
    List.findSome?_singleton]

/-! ## The pass of the export -/

/-- The pass that the list starts makes of the declaration what the first form puts at once. -/
theorem replace_functionOf (params : List Node) (body : Node) (generator isAsync : Bool) :
    (Effect.exportPass name name).replace (functionOf name params body generator isAsync) =
      assignedFunction name params body generator isAsync := by
  have hown : (Effect.exportPass name name).isOwnName (some (.identifier name)) = true := by
    simp [isOwnName, Effect.exportPass]
  exact replace_functionDeclaration_own _ params body generator isAsync hown

/-- The assignment stays as it is, as the function knows itself under its own name and the pass does
not go into it. -/
theorem replace_assignedFunction (hname : name ≠ exportsParam) (params : List Node) (body : Node)
    (generator isAsync : Bool) :
    (Effect.exportPass name name).replace (assignedFunction name params body generator isAsync) =
      assignedFunction name params body generator isAsync := by
  have hobject : (Effect.exportPass name name).access.object ≠
      (Effect.exportPass name name).name := hname.symm
  have hshadowed : (Effect.exportPass name name).isShadowedBy
      (.functionExpression (some (.identifier name)) params body generator isAsync) = true := by
    simp [isShadowedBy, isOwnName, Effect.exportPass]
  have hassignment := replace_assignmentStatement _ hobject
    (.functionExpression (some (.identifier name)) params body generator isAsync)
  rw [replace_of_shadowed _ rfl hshadowed] at hassignment
  exact hassignment

end Pass

namespace FunctionForms

variable {name : String} {first second : List Node}

/-- Both forms go through a pass for another name in step: the function becomes the same in both,
and the list stays. -/
theorem replaced (h : FunctionForms name first second) {pass : Pass} (hname : pass.name ≠ name) :
    FunctionForms name (first.map pass.replace) (second.map pass.replace) := by
  obtain ⟨params, body, generator, isAsync⟩ := h
  obtain ⟨params', body', hfunction⟩ :=
    pass.replace_functionOf_of_ne hname params body generator isAsync
  have hexported : pass.replace (exportedFunction name params body generator isAsync) =
      exportedFunction name params' body' generator isAsync := by
    rw [exportedFunction, pass.replace_exportNamedDeclaration, Option.map_some, hfunction]
    rfl
  rw [List.map_singleton, List.map_cons, List.map_singleton, hexported, hfunction,
    pass.replace_exportOf hname]
  exact .forms params' body' generator isAsync

/-- A pass for another name refuses both forms or neither, and for the same reason. -/
theorem refused (h : FunctionForms name first second) {pass : Pass} (hname : pass.name ≠ name) :
    first.findSome? pass.firstViolation? = second.findSome? pass.firstViolation? := by
  obtain ⟨params, body, generator, isAsync⟩ := h
  rw [List.findSome?_singleton, List.findSome?_cons, List.findSome?_singleton,
    Pass.firstViolation?_exportOf,
    Pass.firstViolation?_exportedFunction hname params body generator isAsync]
  cases pass.firstViolation? (functionOf name params body generator isAsync) <;> rfl

theorem sourceNode?_eq_none (h : FunctionForms name first second) :
    (∀ statement ∈ first, sourceNode? statement = none) ∧
      ∀ statement ∈ second, sourceNode? statement = none := by
  obtain ⟨params, body, generator, isAsync⟩ := h
  constructor
  · intro statement hmem
    rw [List.mem_singleton.1 hmem]
    rfl
  · intro statement hmem
    rcases List.mem_pair.1 hmem with rfl | rfl
    · rfl
    · rfl

end FunctionForms

namespace Wrapping

/-! ## Taking the two forms -/

/-- It is of no consequence which of two statements is put there before a name is exported, if the
pass of the export makes the same of both. -/
theorem exportLocal_emit_congr (state : Wrapping) {name : String} {first second : Node}
    (h : (Effect.exportPass name name).replace first =
      (Effect.exportPass name name).replace second) :
    (state.emit first).exportLocal name = (state.emit second).exportLocal name := by
  have hexported : ∀ statement, (state.emit statement).exported = state.exported := fun _ => rfl
  have hpass : ∀ other : Wrapping, other.exportAs name name =
      .ok { other with done := other.done.map (Effect.exportPass name name).replace,
                       pending := other.pending.map (Effect.exportPass name name).replace } :=
    fun other => substitute_eq other (Effect.exportPass name name)
  -- Whether the name can be exported does not depend on the statement.
  rw [exportLocal, exportLocal, recordExport, recordExport, hexported, hexported]
  by_cases hmem : name ∈ state.exported
  · rw [if_pos hmem, if_pos hmem]
  · rw [if_neg hmem, if_neg hmem]
    change exportAs _ name name = exportAs _ name name
    rw [hpass, hpass]
    simp only [emit, List.map_append, List.map_singleton, h]

section Taking

variable {name : String} (params : List Node) (body : Node) (generator isAsync : Bool)
  (state : Wrapping)

/-- The first form is checked, put as an assignment, and its name is exported. -/
theorem takeStatement_exportedFunction :
    state.takeStatement (exportedFunction name params body generator isAsync) =
      (functionOf name params body generator isAsync).refuseNestedModuleForms >>= fun _ =>
        (state.emit (assignedFunction name params body generator isAsync)).exportLocal name := rfl

/-- The entry of a list for a name that is no parameter exports the name, and the list does nothing
else. -/
theorem takeStatement_exportOf (hparam : state.isInjected name = false) :
    state.takeStatement (exportOf name) = state.exportLocal name := by
  have htake : state.takeStatement (exportOf name) = (state.recordExport name >>= fun recorded =>
      if recorded.isInjected name then pure (recorded.emitExport name (.identifier name))
      else recorded.exportAs name name) >>= pure := rfl
  rw [htake, bind_pure, exportLocal, recordExport]
  by_cases hmem : name ∈ state.exported
  · rw [if_pos hmem]
    rfl
  · rw [if_neg hmem]
    exact if_neg (Bool.eq_false_iff.1 hparam)

/-- The second form is checked, put as it is, and then its name is exported. Taking the list finds
nothing that could fail but the name. -/
theorem takeStatements_functionOf (hparam : state.isInjected name = false) :
    takeStatements 2 ⟨state.dependencies, state.exported, state.done,
      functionOf name params body generator isAsync :: exportOf name :: state.pending⟩ =
      (functionOf name params body generator isAsync).refuseNestedModuleForms >>= fun _ =>
        (state.emit (functionOf name params body generator isAsync)).exportLocal name := by
  -- The declaration is a statement like others, and the list is taken behind it.
  have htake : takeStatements 2 ⟨state.dependencies, state.exported, state.done,
      functionOf name params body generator isAsync :: exportOf name :: state.pending⟩ =
      ((functionOf name params body generator isAsync).refuseNestedModuleForms >>= fun _ =>
        pure ⟨state.dependencies, state.exported,
          state.done ++ [functionOf name params body generator isAsync],
          exportOf name :: state.pending⟩) >>= takeStatements 1 := rfl
  rw [htake, bind_assoc]
  refine congrArg _ (funext fun _ => ?_)
  change (state.emit (functionOf name params body generator isAsync)).takeStatement
    (exportOf name) >>= pure = _
  rw [bind_pure]
  exact takeStatement_exportOf _ hparam

end Taking

/-- **The two forms are taken alike**, and passes for other names keep them. The check and the
export of the name are the same, and what is put differs only until the pass of the export has gone
over it. -/
theorem exchangeable_functionForms {slots : List String} {name : String}
    (hinjects : Dependencies.injects ⟨slots, []⟩ name = false) :
    Exchangeable slots name (FunctionForms name) := by
  constructor
  · intro first second h pass hname
    exact h.replaced hname
  · rintro first second ⟨params, body, generator, isAsync⟩ state hslots
    have hparam : state.isInjected name = false := by
      rw [isInjected, Dependencies.isParam, hslots]
      exact hinjects
    have hexports : name ≠ exportsParam := by
      rintro rfl
      rw [Dependencies.injects_exportsParam] at hinjects
      cases hinjects
    -- The assignment stands where the declaration would stand when the pass is run.
    have hpass : (Effect.exportPass name name).replace
        (assignedFunction name params body generator isAsync) =
        (Effect.exportPass name name).replace (functionOf name params body generator isAsync) := by
      rw [Pass.replace_assignedFunction hexports, Pass.replace_functionOf]
    change state.takeStatement (exportedFunction name params body generator isAsync) >>= pure =
      takeStatements 2 ⟨state.dependencies, state.exported, state.done,
        functionOf name params body generator isAsync :: exportOf name :: state.pending⟩
    rw [bind_pure, takeStatement_exportedFunction,
      takeStatements_functionOf params body generator isAsync state hparam,
      state.exportLocal_emit_congr hpass]

end Wrapping

/-! ## Whole modules -/

/-- The local names that a statement exports, with their declaration or in a list, read off the text
without the table of the slots. -/
def localExports : Node → List String
  | .exportNamedDeclaration (some declaration) _ _ => declaration.directDeclarations?.getD []
  | .exportNamedDeclaration none specifiers none => specifiers.flatMap fun
    | .exportSpecifier localName _ => localName.identifierName?.toList
    | _ => []
  | _ => []

/-- What a statement gives up is among these, for every table. -/
theorem exportedLocals_subset_localExports (table : Dependencies) (statement : Node) :
    exportedLocals table statement ⊆ localExports statement := by
  cases hlist : isExportList statement with
  | false =>
    rw [exportedLocals_eq hlist]
    unfold declaredLocals localExports
    split <;> simp_all [isExportList]
  | true =>
    obtain ⟨specifiers, rfl⟩ := isExportList_iff.1 hlist
    intro name hname
    obtain ⟨specifier, hspecifier, hentry⟩ := List.mem_flatMap.1 hname
    refine List.mem_flatMap.2 ⟨specifier, hspecifier, ?_⟩
    cases specifier
    case exportSpecifier localName exported => exact (List.mem_filter.1 hentry).1
    all_goals cases hentry

/-- **A function is exported in place as in a list.** Replacing `export function f() \x7b \x7d` by
`function f() \x7b \x7d export \x7b f \x7d;` makes no difference: both modules are wrapped alike,
or both are refused for the same reason. No import is to bind the name of the function, which is to
be spelled like no parameter of the wrapper, and no statement above is to export it. -/
theorem Program.wrap_exportedFunction {before after : List Node} {name : String}
    (himported : name ∉ Wrapping.importedLocals (before ++ after))
    (hexports : name ≠ exportsParam)
    (hslots : ∀ slot < (Wrapping.sources (before ++ after)).eraseDups.length,
      name ≠ dependencyParam slot)
    (habove : ∀ statement ∈ before, name ∉ localExports statement)
    (params : List Node) (body : Node) (generator isAsync : Bool) (sourceType : Option String)
    (options : WrapOptions) :
    Program.wrap ⟨before ++ functionOf name params body generator isAsync :: exportOf name :: after,
        sourceType⟩ options =
      Program.wrap ⟨before ++ exportedFunction name params body generator isAsync :: after,
        sourceType⟩ options := by
  have hforms : FunctionForms name [exportedFunction name params body generator isAsync]
      [functionOf name params body generator isAsync, exportOf name] :=
    .forms params body generator isAsync
  have hrun := Wrapping.run_exchange
    (Wrapping.exchangeable_functionForms (injects_eq_false hexports hslots))
    (fun h pass hname => h.refused hname) hforms.sourceNode?_eq_none.1
    hforms.sourceNode?_eq_none.2 hforms himported
    fun statement hmem hname => habove statement hmem
      (exportedLocals_subset_localExports _ statement hname)
  rw [wrap, wrap]
  exact congrArg (· >>= _) hrun.symm

/-- The statement `f();`, a use of the function before its declaration. -/
def calledAbove : List Node := [.statement (.call (.identifier "f") [])]

/-- The statements `import \x7b a \x7d from "m"; export \x7b f as g \x7d;`, of which one has a pass
for another name and one exports the function once more. -/
def listedBelow : List Node :=
  [.importDeclaration [.importSpecifier (.identifier "a") (.identifier "a")] (.stringLiteral "m"),
    .exportNamedDeclaration none [.exportSpecifier (.identifier "f") (.identifier "g")] none]

/-- The body `\x7b return f(value); \x7d` of a function that calls itself. -/
def callingItself (value : Node) : Node :=
  .blockStatement [.returnStatement (some (.call (.identifier "f") [value]))]

/-- Between the two, `export function f(x) \x7b return f(a); \x7d` and the other form become the
same assignment, and the second export is of the first. -/
theorem Program.wrap_exportedFunction_callingItself :
    "f" ∉ Wrapping.importedLocals (calledAbove ++ listedBelow) ∧ "f" ≠ exportsParam ∧
      (∀ slot < (Wrapping.sources (calledAbove ++ listedBelow)).eraseDups.length,
        "f" ≠ dependencyParam slot) ∧
      (∀ statement ∈ calledAbove, "f" ∉ localExports statement) ∧
      Program.wrap ⟨calledAbove ++ functionOf "f" [.identifier "x"]
        (callingItself (.identifier "a")) false false :: exportOf "f" :: listedBelow, none⟩
          .default = .ok ⟨⟨[wrapper ["m"]
            [.statement (.call (.access "__exports__" "f") []),
              assignedFunction "f" [.identifier "x"] (callingItself (.access "__uDep0__" "a"))
                false false,
              .assignmentStatement (.access "__exports__" "g") (.access "__exports__" "f")]
            .default], some "script"⟩, ["m"]⟩ := by
  have himported : "f" ∉ Wrapping.importedLocals (calledAbove ++ listedBelow) := by decide
  have hslots : ∀ slot < (Wrapping.sources (calledAbove ++ listedBelow)).eraseDups.length,
      "f" ≠ dependencyParam slot := fun slot _ =>
    ne_dependencyParam_of_length (by decide) slot
  have habove : ∀ statement ∈ calledAbove, "f" ∉ localExports statement := by
    intro statement hmem
    rw [List.mem_singleton.1 hmem]
    exact List.not_mem_nil
  have h : Program.wrap ⟨calledAbove ++ exportedFunction "f" [.identifier "x"]
      (callingItself (.identifier "a")) false false :: listedBelow, none⟩ .default =
      .ok ⟨⟨[wrapper ["m"]
        [.statement (.call (.access "__exports__" "f") []),
          assignedFunction "f" [.identifier "x"] (callingItself (.access "__uDep0__" "a"))
            false false,
          .assignmentStatement (.access "__exports__" "g") (.access "__exports__" "f")]
        .default], some "script"⟩, ["m"]⟩ := by with_unfolding_all rfl
  refine ⟨himported, by decide, hslots, habove, ?_⟩
  rw [Program.wrap_exportedFunction himported (by decide) hslots habove, h]

end DefineWrap
