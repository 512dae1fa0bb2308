/-
No name is bound or exported twice.

A module that can be wrapped binds every local name in one import specifier, and exports every
name once. Both are read off the text, whatever a name is bound or exported by.

That the run refuses a name it has seen before is an invariant of its steps
(`Wrapping.Importing`, `Wrapping.Makes`). What is left is that the names it goes through are
those of the text. A specifier that has been bound has been read (`boundLocal_of_read`). A
statement is taken as the passes before it have left it, and the only change of what it exports
is that a function that it declares has become an assignment; such a statement cannot be taken
(`names_of_takes_replaceAll`).
-/
import DefineWrap.Proofs.Wrap.Causes

set_option autoImplicit false

namespace DefineWrap

namespace Node

/-! ## What the text binds -/

/-- The local name that an import specifier binds, for each of the three forms. -/
def boundLocal : Node → List String
  | .importSpecifier _ localName => localName.identifierName?.toList
  | .importDefaultSpecifier localName => localName.identifierName?.toList
  | .importNamespaceSpecifier localName => localName.identifierName?.toList
  | _ => []

/-- The local names that a statement binds, if it is an import. They are read off the text, without
the functions that the run reads them with. -/
def boundLocals : Node → List String
  | .importDeclaration specifiers _ => specifiers.flatMap boundLocal
  | _ => []

end Node

namespace Wrapping

theorem boundLocal_of_read {specifier : Node} {localName : String} {imported : Imported}
    (h : importBinding specifier = .ok (localName, imported)) :
    specifier.boundLocal = [localName] := by
  simp only [importBinding] at h
  -- All three forms end in a look at the local name, which has to be an identifier.
  repeat' split at h
  all_goals
    first
    | (cases h; done)
    | (cases h; rename_i hname; exact congrArg Option.toList hname)

/-- Once all imports are bound, every specifier has been read, so the names in the text are those of
the run. -/
theorem boundLocals_of_performed {body : List Node} {dependencies : Dependencies}
    {imported : Wrapping} (hregistered : body.foldlM registerSource .empty = .ok dependencies)
    (h : (body.flatMap importActions).foldlM perform (start dependencies body) = .ok imported) :
    body.flatMap Node.boundLocals = importedLocals body := by
  refine List.flatMap_congr fun statement hstatement => ?_
  cases statement
  case importDeclaration specifiers source =>
    obtain ⟨specifier, hspecifier⟩ := stringValue?_of_registered hregistered hstatement rfl
    refine List.flatMap_congr fun node hnode => ?_
    have hmem : .bind specifier node ∈ body.flatMap importActions := by
      refine List.mem_flatMap.2 ⟨_, hstatement, ?_⟩
      rw [importActions, hspecifier, Option.toList_some, List.flatMap_singleton]
      exact List.mem_map_of_mem hnode
    obtain ⟨⟨localName, imported⟩, hread⟩ := readable_of_performed h hmem
    rw [boundLocal_of_read hread, hread]
  all_goals rfl

/-! ## What the text exports -/

/-- An assignment behind `export` cannot be taken, since it is no declaration. -/
theorem not_takes_of_expressionStatement {table : Dependencies} {declaration : Node}
    {specifiers : List Node} {source : Option Node} {names : List String}
    {effects : List Effect} (hkind : declaration.kind = .expressionStatement) :
    ¬ Takes table (.exportNamedDeclaration (some declaration) specifiers source) names
      effects := by
  intro h
  cases h with
  | declarators => cases hkind
  | declaration hname =>
    cases declaration <;> first | cases hname | cases hkind
  | other hexport => cases hexport

/-- **A statement that is taken exports what it exports in the text**, although passes may
have changed it. -/
theorem names_of_takes_replaceAll {table : Dependencies} {passes : List Pass} {statement : Node}
    {names : List String} {effects : List Effect}
    (h : Takes table (Pass.replaceAll passes statement) names effects) :
    names = statement.exportedNames := by
  rcases exportedNames_replaceAll_cases passes statement with
    hsame | ⟨declaration, specifiers, source, rfl, hkind⟩
  · rw [names_of_takes h, hsame]
  · rw [Pass.replaceAll_exportNamedDeclaration, Option.map_some] at h
    exact absurd h (not_takes_of_expressionStatement hkind)

/-- So all statements together export what they export in the text, each after the passes of those
before it. -/
theorem names_of_takesAll {table : Dependencies} {taken : List Node} {passes : List Pass}
    {names : List String} {effects : List Effect}
    (h : TakesAll table (taken.map (Pass.replaceAll passes)) names effects) :
    names = taken.flatMap Node.exportedNames := by
  induction taken generalizing passes names effects with
  | nil =>
    cases h
    rfl
  | cons statement rest ih =>
    rw [List.map_cons] at h
    cases h with
    | cons first others =>
      -- The rest is taken after the passes of the first as well.
      have hothers : ∀ later, (rest.map (Pass.replaceAll passes)).map (Pass.replaceAll later) =
          rest.map (Pass.replaceAll (passes ++ later)) := by
        intro later
        rw [List.map_map]
        exact List.map_congr_left fun other _ => (Pass.replaceAll_append passes later other).symm
      rw [hothers] at others
      rw [List.flatMap_cons, names_of_takes_replaceAll first, ih others]

theorem flatMap_exportedNames_statements (body : List Node) :
    (statements body).flatMap Node.exportedNames = body.flatMap Node.exportedNames := by
  induction body with
  | nil => rfl
  | cons statement rest ih =>
    rw [List.flatMap_cons, statements]
    by_cases himport : isImport statement = true
    · have hnone : statement.exportedNames = [] := by
        cases statement <;> first | rfl | cases himport
      rw [List.filter_cons_of_neg (by simpa using himport), hnone, List.nil_append]
      exact ih
    · rw [List.filter_cons_of_pos (by simpa using himport), List.flatMap_cons]
      exact congrArg _ ih

end Wrapping

/-! ## The text of a module that is wrapped -/

/-- **Nothing is bound or exported twice.** If a module can be wrapped, no two of its import
specifiers bind the same local name, and no two of its exports, of whatever forms, export the
same name. -/
theorem Program.wrap_distinct {program : Program} {options : WrapOptions} {wrapped : Wrapped}
    (h : program.wrap options = .ok wrapped) :
    (program.body.flatMap Node.boundLocals).Nodup ∧
      (program.body.flatMap Node.exportedNames).Nodup := by
  obtain ⟨final, hrun, -⟩ := Except.bind_ok h
  constructor
  · obtain ⟨dependencies, hregistered, hfold⟩ := Wrapping.run_ok hrun
    obtain ⟨imported, himports, -⟩ := Except.foldlM_append_ok hfold
    have himporting := Wrapping.importing_of_performed hregistered (fun _ hmem => hmem) himports
    have hnames : imported.dependencies.bindings.map (·.localName) =
        Wrapping.importedLocals program.body := by
      rw [Wrapping.bindings_of_imported hregistered himports]
      exact Wrapping.localNames_boundBy fun _ hmem _ hsource =>
        Wrapping.stringValue?_of_registered hregistered hmem hsource
    rw [Wrapping.boundLocals_of_performed hregistered himports, ← hnames]
    exact himporting.distinct
  · obtain ⟨imported, names, effects, himporting, -, -, htakes, -, hdistinct⟩ :=
      Wrapping.run_effects hrun
    rw [himporting.pending_eq] at htakes
    rw [← Wrapping.flatMap_exportedNames_statements, ← Wrapping.names_of_takesAll htakes]
    exact hdistinct

/-- The module `export default a; import d, { a } from "m"; export { d as x }; export const y = d;`,
with several forms of binding and of exporting. -/
def eachNameOnce : Program :=
  ⟨[.exportDefaultDeclaration (.identifier "a"),
    .importDeclaration [.importDefaultSpecifier (.identifier "d"),
      .importSpecifier (.identifier "a") (.identifier "a")] (.stringLiteral "m"),
    .exportNamedDeclaration none [.exportSpecifier (.identifier "d") (.identifier "x")] none,
    .exportNamedDeclaration
      (some (.variableDeclaration [.variableDeclarator (.identifier "y") (some (.identifier "d"))]
        .const)) [] none], none⟩

/-- All forms are looked at: two locals are bound, and three names are exported. -/
theorem Program.wrap_distinct_eachNameOnce :
    ∃ wrapped, eachNameOnce.wrap .default = .ok wrapped ∧
      (eachNameOnce.body.flatMap Node.boundLocals = ["d", "a"] ∧
        eachNameOnce.body.flatMap Node.exportedNames = ["default", "x", "y"]) ∧
      (eachNameOnce.body.flatMap Node.boundLocals).Nodup ∧
      (eachNameOnce.body.flatMap Node.exportedNames).Nodup := by
  have h : ∃ wrapped, eachNameOnce.wrap .default = .ok wrapped := ⟨_, by with_unfolding_all rfl⟩
  obtain ⟨wrapped, h⟩ := h
  exact ⟨wrapped, h, by decide +kernel, Program.wrap_distinct h⟩

end DefineWrap
