/-
Why a module is refused, read off its text.

A run that fails fails at one of its actions, and up to there the invariants of a run that
succeeds hold (`Except.foldlM_error`). A specifier that cannot be bound is for a name that is
bound before, or its pass refuses a statement; what a pass refuses does not depend on the passes
before it, and so it stands in the text (`Pass.exists_violation`). A statement that cannot be
taken exports a name that has been exported before, or has an import or export form below it
(`Wrapping.takeStatement_error`); passes make neither.
-/
import DefineWrap.Proofs.Wrap.Hoisting
import DefineWrap.Proofs.Wrap.Segments
import Mathlib.Data.List.Duplicate

set_option autoImplicit false

namespace DefineWrap

/-! ## What is read off a node -/

namespace Node

/-- The names that a node writes to, if it is an assignment, an update or a loop over values
whose head is no declaration. -/
def writtenNames : Node → List String
  | .assignmentExpression _ left _ => left.boundNames
  | .updateExpression _ _ argument => argument.boundNames
  | .forInStatement left _ _ => if left.kind = .variableDeclaration then [] else left.boundNames
  | .forOfStatement left _ _ _ => if left.kind = .variableDeclaration then [] else left.boundNames
  | _ => []

/-- The names that a node declares, if it is an export with a declaration. Exports may stand
anywhere in a tree, so this is asked of every node. -/
def declaredExports : Node → List String
  | .exportNamedDeclaration (some declaration) _ _ => declaration.directDeclarations?.getD []
  | .exportDefaultDeclaration declaration => declaration.directDeclarations?.getD []
  | _ => []

/-- The name that a specifier exports something under. It may be given as an identifier or as a
string. -/
def exportedName : Node → List String
  | .exportSpecifier _ exported => exported.exportName?.toList
  | _ => []

/-- The names that a statement exports, read off the text. A re-export counts like a list, as its
names are exported as well. -/
def exportedNames : Node → List String
  | .exportDefaultDeclaration _ => [defaultMember]
  | .exportNamedDeclaration (some declaration) _ _ => declaration.directDeclarations?.getD []
  | .exportNamedDeclaration none specifiers _ => specifiers.flatMap exportedName
  | _ => []

end Node

namespace Pass

variable {pass : Pass} {error : WrapError}

/-- If writing to a place is wrong, the name is among those that the place binds, and the error says
that it cannot be assigned again. -/
theorem writeViolation?_eq_some {place : Node} (h : pass.writeViolation? place = some error) :
    error = .illegalReassignment pass.name ∧ pass.name ∈ place.boundNames := by
  unfold writeViolation? at h
  split at h
  next hbinds =>
    cases h
    exact ⟨rfl, Node.binds_iff.1 hbinds⟩
  · cases h

theorem headViolation?_eq_some {head : Node} (h : pass.headViolation? head = some error) :
    error = .illegalReassignment pass.name ∧
      pass.name ∈ if head.kind = .variableDeclaration then [] else head.boundNames := by
  rw [headViolation?_eq] at h
  split at h
  · cases h
  next hkind =>
    rw [if_neg hkind]
    exact writeViolation?_eq_some h

/-- If an export is wrong, its declaration is of the name, and the error says that the name is bound
twice. -/
theorem exportViolation?_eq_some {declaration : Node}
    (h : pass.exportViolation? declaration = some error) :
    error = .duplicateBinding pass.name ∧
      pass.name ∈ declaration.directDeclarations?.getD [] := by
  unfold exportViolation? at h
  split at h
  next hmem =>
    cases h
    exact ⟨rfl, hmem⟩
  · cases h

/-- What is wrong with a node for a pass is a write to its name or an exported declaration of it.
Each has an error of its own, so the error tells which one it is. -/
theorem violation?_cases {node : Node} (h : pass.violation? node = some error) :
    (error = .illegalReassignment pass.name ∧ pass.name ∈ node.writtenNames) ∨
      (error = .duplicateBinding pass.name ∧ pass.name ∈ node.declaredExports) := by
  cases node
  case assignmentExpression => exact .inl (writeViolation?_eq_some h)
  case updateExpression => exact .inl (writeViolation?_eq_some h)
  case forInStatement => exact .inl (headViolation?_eq_some h)
  case forOfStatement => exact .inl (headViolation?_eq_some h)
  case exportDefaultDeclaration => exact .inr (exportViolation?_eq_some h)
  case exportNamedDeclaration declaration specifiers source =>
    cases declaration with
    | none => cases h
    | some declaration => exact .inr (exportViolation?_eq_some h)
  all_goals cases h

end Pass

namespace Wrapping

/-! ## Exports that fail -/

/-- An error that is about a name that is repeated among some, or a form that is not supported.
These two are all that exporting can fail with. -/
def Repeats (names : List String) (error : WrapError) : Prop :=
  (∃ name, error = .duplicateBinding name ∧ List.Duplicate name names) ∨
    ∃ form, error = .unsupportedModuleForm form

/-- A name that is repeated among some is repeated among more, if they are in the same order. So the
names of a part of a module can be replaced by those of all of it. -/
theorem Repeats.mono {names names' : List String} {error : WrapError} (h : Repeats names error)
    (hsub : names.Sublist names') : Repeats names' error := by
  obtain ⟨name, heq, hname⟩ | hform := h
  · exact .inl ⟨name, heq, hname.mono_sublist hsub⟩
  · exact .inr hform

theorem duplicate_append {name : String} {before after : List String} (hbefore : name ∈ before)
    (hafter : name ∈ after) : List.Duplicate name (before ++ after) :=
  List.duplicate_iff_sublist.2
    ((List.singleton_sublist.2 hbefore).append (List.singleton_sublist.2 hafter))

/-- Recording a name fails only if it has been exported before. -/
theorem recordExport_error {state : Wrapping} {name : String} {error : WrapError}
    (h : state.recordExport name = .error error) : Repeats (state.exported ++ [name]) error := by
  unfold recordExport at h
  split at h
  next hmem =>
    cases h
    exact .inl ⟨name, rfl, duplicate_append hmem List.mem_cons_self⟩
  · cases h

/-- A pass for an export is never refused, because it is not strict. -/
theorem exportAs_ne_error {state : Wrapping} {localName exported : String} {error : WrapError} :
    state.exportAs localName exported ≠ .error error := by
  intro h
  unfold exportAs substitute at h
  rw [Pass.applyAll_of_not_strict rfl, Pass.applyAll_of_not_strict rfl] at h
  cases h

theorem exportLocal_error {state : Wrapping} {name : String} {error : WrapError}
    (h : state.exportLocal name = .error error) : Repeats (state.exported ++ [name]) error := by
  rcases Except.bind_error h with h | ⟨_, -, h⟩
  · exact recordExport_error h
  · exact absurd h exportAs_ne_error

/-- A loop over exports fails at a name that has been exported before the loop or in it. One lemma
for the three loops, over declared names, over entries and over re-exports. -/
theorem foldlM_repeats {α : Type} (f : Wrapping → α → Except WrapError Wrapping)
    (names : α → List String)
    (hok : ∀ state item next, f state item = .ok next →
      next.exported = state.exported ++ names item)
    (herror : ∀ state item error, f state item = .error error →
      Repeats (state.exported ++ names item) error)
    {items : List α} {state : Wrapping} {error : WrapError}
    (h : items.foldlM f state = .error error) :
    Repeats (state.exported ++ items.flatMap names) error := by
  induction items generalizing state with
  | nil => cases h
  | cons item rest ih =>
    rw [List.foldlM_cons] at h
    rw [List.flatMap_cons, ← List.append_assoc]
    rcases Except.bind_error h with h | ⟨next, hnext, h⟩
    · exact (herror state item error h).mono (List.sublist_append_left _ _)
    · rw [← hok state item next hnext]
      exact ih h

/-- An entry that cannot be read is of a form that is not supported. -/
theorem exportEntry_error {specifier : Node} {error : WrapError}
    (h : exportEntry specifier = .error error) : ∃ form, error = .unsupportedModuleForm form := by
  unfold exportEntry at h
  split at h
  · split at h <;> cases h
    exact ⟨_, rfl⟩
  · cases h
    exact ⟨_, rfl⟩

/-- The same for an entry of a re-export. -/
theorem reexportNames_error {specifier : Node} {error : WrapError}
    (h : reexportNames specifier = .error error) :
    ∃ form, error = .unsupportedModuleForm form := by
  unfold reexportNames at h
  split at h
  · split at h <;> cases h
    exact ⟨_, rfl⟩
  · cases h
    exact ⟨_, rfl⟩

/-- The same for a source that is no string. -/
theorem moduleSpecifier_error {source : Node} {error : WrapError}
    (h : moduleSpecifier source = .error error) :
    ∃ form, error = .unsupportedModuleForm form := by
  unfold moduleSpecifier at h
  split at h <;> cases h
  exact ⟨_, rfl⟩

/-- The same for a specifier of an import. -/
theorem importBinding_error {specifier : Node} {error : WrapError}
    (h : importBinding specifier = .error error) :
    ∃ form, error = .unsupportedModuleForm form := by
  simp only [importBinding] at h
  split at h
  · split at h
    · split at h <;> cases h
      exact ⟨_, rfl⟩
    · cases h
      exact ⟨_, rfl⟩
  · split at h <;> cases h
    exact ⟨_, rfl⟩
  · split at h <;> cases h
    exact ⟨_, rfl⟩
  · cases h
    exact ⟨_, rfl⟩

theorem exportedName_of_entry {specifier : Node} {entry : Node × String}
    (h : exportEntry specifier = .ok entry) : specifier.exportedName = [entry.2] := by
  unfold exportEntry at h
  split at h
  next localName exported =>
    split at h
    next name hname =>
      cases h
      rw [Node.exportedName, hname]
      rfl
    · cases h
  · cases h

theorem exportedName_of_reexport {specifier : Node} {names : String × String}
    (h : reexportNames specifier = .ok names) : specifier.exportedName = [names.2] := by
  unfold reexportNames at h
  split at h
  next localName exported =>
    split at h
    next first second hlocal hexported =>
      cases h
      rw [Node.exportedName, hexported]
      rfl
    · cases h
  · cases h

/-- An entry fails for its form or for its exported name. Its local name is never the reason,
whether it is replaced or assigned. -/
theorem takeExportEntry_repeats {state : Wrapping} {specifier : Node} {error : WrapError}
    (h : state.takeExportEntry specifier = .error error) :
    Repeats (state.exported ++ specifier.exportedName) error := by
  rcases Except.bind_error h with h | ⟨⟨localNode, exported⟩, hentry, h⟩
  · exact .inr (exportEntry_error h)
  · rw [exportedName_of_entry hentry]
    rcases Except.bind_error h with h | ⟨recorded, -, h⟩
    · exact recordExport_error h
    · split at h
      · split at h
        · cases h
        · exact absurd h exportAs_ne_error
      · cases h

theorem takeReexport_repeats {param : String} {state : Wrapping} {specifier : Node}
    {error : WrapError} (h : takeReexport param state specifier = .error error) :
    Repeats (state.exported ++ specifier.exportedName) error := by
  rcases Except.bind_error h with h | ⟨⟨localName, exported⟩, hnames, h⟩
  · exact .inr (reexportNames_error h)
  · rw [exportedName_of_reexport hnames]
    rcases Except.bind_error h with h | ⟨recorded, -, h⟩
    · exact recordExport_error h
    · cases h

/-- A declarator of an exported declaration fails only for its pattern, which is a form that is not
supported. -/
theorem takeDeclarator_error {before : Wrapping × List String} {declarator : Node}
    {error : WrapError} (h : takeDeclarator before declarator = .error error) :
    ∃ form, error = .unsupportedModuleForm form := by
  obtain ⟨state, names⟩ := before
  cases declarator
  case variableDeclarator id init =>
    simp only [takeDeclarator] at h
    split at h
    · cases h
      exact ⟨_, rfl⟩
    · split at h <;> cases h
  all_goals cases h

/-! ## Statements that cannot be taken -/

/-- What is below a child is below the node, so a form in a declaration is one in the statement. -/
theorem nestedForms_subset {node child : Node}
    (h : child ∈ node.children) : child.nestedForms ⊆ node.nestedForms := by
  rw [node.nestedForms_eq]
  exact fun kind hkind => List.mem_flatMap.2 ⟨child, h, List.mem_append_right _ hkind⟩

/-- A default export fails if there is one already, or for a form below what is exported. -/
theorem takeExportDefault_error {state : Wrapping} {declaration : Node} {error : WrapError}
    (h : state.takeExportDefault declaration = .error error) :
    Repeats (state.exported ++ [defaultMember]) error ∨
      ∃ kind ∈ declaration.nestedForms, error = .misplacedModuleForm kind := by
  rcases Except.bind_error h with h | ⟨recorded, -, h⟩
  · exact .inl (recordExport_error h)
  · rcases Except.bind_error h with h | ⟨_, -, h⟩
    · exact .inr (Node.refuseNestedModuleForms_error h)
    · split at h
      · cases h
        exact .inl (.inr ⟨_, rfl⟩)
      · split at h <;> cases h

/-- An exported declaration fails for a form below it, or for a name that has been exported before
it or is declared twice in it. -/
theorem takeExportDeclaration_error {state : Wrapping} {declaration : Node} {error : WrapError}
    (h : state.takeExportDeclaration declaration = .error error) :
    Repeats (state.exported ++ declaration.directDeclarations?.getD []) error ∨
      ∃ kind ∈ declaration.nestedForms, error = .misplacedModuleForm kind := by
  rcases Except.bind_error h with h | ⟨_, -, h⟩
  · exact .inr (Node.refuseNestedModuleForms_error h)
  · refine .inl ?_
    split at h
    next declarations kind =>
      rcases Except.bind_error h with h | ⟨⟨middle, names⟩, hfold, h⟩
      · obtain ⟨_, declarator, _, _, -, -, hdeclarator⟩ := Except.foldlM_error h
        exact .inr (takeDeclarator_error hdeclarator)
      -- The initial values have been assigned without a new name, so the names are recorded next to
      -- those that were exported before the declaration.
      · obtain ⟨hmakes, rfl, -⟩ := takeDeclarators_ok hfold
        have hrepeats := foldlM_repeats exportLocal (fun name => [name])
          (fun other name next hround => by
            rw [(exportLocal_ok hround).1]
            rfl) (fun _ _ _ => exportLocal_error) h
        rw [List.flatMap_singleton', List.nil_append, hmakes.1, after, List.append_nil] at hrepeats
        exact hrepeats
    · split at h
      · cases h
        exact .inr ⟨_, rfl⟩
      next name hname =>
        rw [declarationName?_eq hname]
        have hrepeats := exportLocal_error h
        exact hrepeats

/-- **Why a statement cannot be taken**: for a name that it exports again, for a form that is not
supported, or for a form below it. There is one case for each form of statement. -/
theorem takeStatement_error {state : Wrapping} {statement : Node} {error : WrapError}
    (h : state.takeStatement statement = .error error) :
    Repeats (state.exported ++ statement.exportedNames) error ∨
      ∃ kind ∈ statement.nestedForms, error = .misplacedModuleForm kind := by
  unfold takeStatement at h
  split at h
  next declaration =>
    refine (takeExportDefault_error h).imp_right ?_
    rintro ⟨kind, hkind, heq⟩
    exact ⟨kind, nestedForms_subset (by simp [Node.children, Node.places]) hkind, heq⟩
  next declaration specifiers source =>
    refine (takeExportDeclaration_error h).imp_right ?_
    rintro ⟨kind, hkind, heq⟩
    exact ⟨kind, nestedForms_subset (by simp [Node.children, Node.places]) hkind, heq⟩
  next specifiers source =>
    refine .inl ?_
    rcases Except.bind_error h with h | ⟨specifier, -, h⟩
    · exact .inr (moduleSpecifier_error h)
    · have hfold : specifiers.foldlM
          (takeReexport (dependencyParam (state.dependencies.register specifier).1))
          { state with dependencies := (state.dependencies.register specifier).2 } =
            .error error := h
      -- The list is read entry by entry, and each of them records one name.
      have hrepeats := foldlM_repeats _ Node.exportedName (fun other node next hround => by
          obtain ⟨names, hnames, hround⟩ := Except.bind_ok hround
          rw [exportedName_of_reexport hnames, (assignReexport_ok hround).1]
          rfl) (fun _ _ _ => takeReexport_repeats) hfold
      exact hrepeats
  next specifiers =>
    have hrepeats := foldlM_repeats takeExportEntry Node.exportedName
      (fun other node next hround => by
        obtain ⟨entry, hentry, hround⟩ := Except.bind_ok hround
        rw [exportedName_of_entry hentry, (exportRead_ok hround).1]
        rfl) (fun _ _ _ => takeExportEntry_repeats) h
    exact .inl hrepeats
  · cases h
    exact .inl (.inr ⟨_, rfl⟩)
  · rcases Except.bind_error h with h | ⟨_, -, h⟩
    · exact .inr (Node.refuseNestedModuleForms_error h)
    · cases h

/-! ## Statements after passes -/

theorem exportedName_replaceAll (passes : List Pass) (specifier : Node) :
    (Pass.replaceAll passes specifier).exportedName = specifier.exportedName := by
  have hnone : ∀ {node : Node}, node.kind ≠ .exportSpecifier → node.exportedName = [] := by
    intro node hkind
    cases node <;> first | rfl | exact absurd rfl hkind
  by_cases hkind : specifier.kind = .exportSpecifier
  · obtain ⟨localName, exported, rfl⟩ := Node.hasFormOf_of_kind_eq hkind
    rw [Pass.replaceAll_exportSpecifier]
    rfl
  · rw [hnone hkind, hnone (Pass.kind_replaceAll_ne hkind (by decide) passes)]

theorem exportedNames_of_not_export {statement : Node} (h : isExport statement = false) :
    statement.exportedNames = [] := by
  cases statement <;> first | rfl | cases h

/-- After passes a statement exports what it has exported before, unless they have made an
assignment of the function that it declares. -/
theorem exportedNames_replaceAll_cases (passes : List Pass) (statement : Node) :
    (Pass.replaceAll passes statement).exportedNames = statement.exportedNames ∨
      ∃ declaration specifiers source,
        statement = .exportNamedDeclaration (some declaration) specifiers source ∧
          (Pass.replaceAll passes declaration).kind = .expressionStatement := by
  cases hexport : isExport statement with
  | false =>
    refine .inl ?_
    rw [exportedNames_of_not_export hexport,
      exportedNames_of_not_export (by rwa [Pass.isExport_replaceAll])]
  | true =>
    cases statement
    case exportDefaultDeclaration declaration =>
      rw [Pass.replaceAll_exportDefaultDeclaration]
      exact .inl rfl
    case exportNamedDeclaration declaration specifiers source =>
      rw [Pass.replaceAll_exportNamedDeclaration]
      cases declaration with
      | some declaration =>
        rcases Pass.directDeclarations?_replaceAll passes declaration with hsame | hkind
        · exact .inl (congrArg (Option.getD · []) hsame)
        · exact .inr ⟨declaration, specifiers, source, rfl, hkind⟩
      | none =>
        refine .inl ?_
        change (if source.isNone then specifiers.map (Pass.replaceAll passes)
          else specifiers).flatMap Node.exportedName = specifiers.flatMap Node.exportedName
        split
        · rw [List.flatMap_map, List.flatMap_congr fun specifier _ =>
            exportedName_replaceAll passes specifier]
        · rfl
    case exportAllDeclaration source exported =>
      rw [Pass.replaceAll_exportAllDeclaration]
      exact .inl rfl
    all_goals cases hexport

/-- An expression statement declares nothing. It is what an exported function has become if it has
lost its name. -/
theorem directDeclarations?_of_expressionStatement {node : Node}
    (h : node.kind = .expressionStatement) : node.directDeclarations? = none := by
  cases node <;> first | rfl | cases h

/-- After passes a statement exports what it has exported before, or less. So a name that is
repeated when a statement is taken is repeated in the text. -/
theorem exportedNames_replaceAll (passes : List Pass) (statement : Node) :
    (Pass.replaceAll passes statement).exportedNames.Sublist statement.exportedNames := by
  rcases exportedNames_replaceAll_cases passes statement with
    hsame | ⟨declaration, specifiers, source, rfl, hkind⟩
  · rw [hsame]
  · rw [Pass.replaceAll_exportNamedDeclaration, Option.map_some, Node.exportedNames,
      directDeclarations?_of_expressionStatement hkind]
    exact List.nil_sublist _

/-- What a statement exports when it is taken is what it exports as it stands then. -/
theorem names_of_takes {table : Dependencies} {statement : Node} {names : List String}
    {effects : List Effect} (h : Takes table statement names effects) :
    names = statement.exportedNames := by
  cases h with
  | defaultValue | defaultNamed | declarators => rfl
  | declaration hname =>
    exact (congrArg (Option.getD · []) (declarationName?_eq hname)).symm
  | reexport hsource hknown hnames =>
    rw [List.map_eq_flatMap]
    exact (Except.flatMap_of_mapM_ok hnames fun _ _ => exportedName_of_reexport).symm
  | list hentries =>
    rw [List.map_eq_flatMap]
    exact (Except.flatMap_of_mapM_ok hentries fun _ _ => exportedName_of_entry).symm
  | other hexport => exact (exportedNames_of_not_export hexport).symm

/-- While statements are taken, nothing is exported that they do not export in the text, and it is
exported in the order of the text. -/
theorem exported_of_performed {slots : List String} {taken rest : List Node}
    {state next : Wrapping} (hknown : AllNamed slots taken)
    (hstate : state.Awaits slots (taken ++ rest))
    (h : (taken.map .take).foldlM perform state = .ok next) :
    ∃ names, next.exported = state.exported ++ names ∧
      names.Sublist (taken.flatMap Node.exportedNames) := by
  induction taken generalizing state with
  | nil =>
    cases h
    exact ⟨[], (List.append_nil _).symm, .refl _⟩
  | cons statement taken ih =>
    obtain ⟨middle, hmiddle, hrest⟩ := Except.foldlM_cons_ok h
    obtain ⟨hslots, passes, hpending⟩ := hstate
    have hnamed := hknown statement List.mem_cons_self
    obtain ⟨names, effects, htakes, hmakes⟩ :=
      takeNext_replaceAll_ok hpending (by rwa [hslots]) hmiddle
    have hawaits := Awaits.take ⟨hslots, passes, hpending⟩ hnamed hmiddle
    obtain ⟨others, hothers, hsub⟩ :=
      ih (hknown.mono (List.subset_cons_self _ _)) hawaits.1 hrest
    refine ⟨names ++ others, ?_, ?_⟩
    · rw [hothers, hmakes.1, after, List.append_assoc]
    · rw [List.flatMap_cons]
      exact (names_of_takes htakes ▸ exportedNames_replaceAll passes statement).append hsub

/-! ## Specifiers that cannot be bound -/

/-- A pass that fails refuses one of the statements, and the error is that of the refusal. -/
theorem substitute_error {state : Wrapping} {pass : Pass} {error : WrapError}
    (h : state.substitute pass = .error error) :
    ∃ statement ∈ state.done ++ state.pending, pass.firstViolation? statement = some error := by
  rcases Except.bind_error h with h | ⟨done, -, h⟩
  · obtain ⟨statement, hmem, hviolation⟩ := Pass.applyAll_error h
    exact ⟨statement, List.mem_append_left _ hmem, hviolation⟩
  · rcases Except.bind_error h with h | ⟨pending, -, h⟩
    · obtain ⟨statement, hmem, hviolation⟩ := Pass.applyAll_error h
      exact ⟨statement, List.mem_append_right _ hmem, hviolation⟩
    · cases h

/-- **Why a specifier cannot be bound**: it cannot be read, its local name is bound before, or
its pass refuses a statement. -/
theorem bindImport_error {state : Wrapping} {specifier : String} {node : Node}
    {error : WrapError} (hknown : specifier ∈ state.dependencies.specifiers)
    (h : bindImport specifier state node = .error error) :
    (∃ form, error = .unsupportedModuleForm form) ∨
      ∃ binding : Binding,
        boundBy state.dependencies.specifiers (.bind specifier node) = [binding] ∧
        ((error = .duplicateBinding binding.localName ∧
            binding.localName ∈ state.dependencies.bindings.map (·.localName)) ∨
          (binding.localName ∉ state.dependencies.bindings.map (·.localName) ∧
            ∃ statement ∈ state.done ++ state.pending,
              binding.pass.firstViolation? statement = some error)) := by
  rcases Except.bind_error h with h | ⟨⟨localName, imported⟩, hread, h⟩
  · exact .inl (importBinding_error h)
  · refine .inr ⟨⟨localName, state.dependencies.specifiers.idxOf specifier, imported⟩, ?_, ?_⟩
    · rw [boundBy, hread]
    · rcases Except.bind_error h with h | ⟨⟨binding, dependencies⟩, hbind, h⟩
      · rw [Dependencies.bind] at h
        split at h
        next hbound =>
          cases h
          exact .inl ⟨rfl, by simpa using hbound⟩
        · cases h
      · rw [Dependencies.bind] at hbind
        split at hbind
        · cases hbind
        next hfresh =>
          rw [Dependencies.register_of_mem hknown] at hbind
          cases hbind
          obtain ⟨statement, hmem, hviolation⟩ := substitute_error h
          exact .inr ⟨by simpa using hfresh, statement, hmem, hviolation⟩

/-! ## The text of a module that is refused -/

/-- What the text of a module shows if it is refused for a cause. For a name bound twice there are
three possibilities: by two imports, by two exports, or by an import and an exported declaration.
Forms that are not supported show in the error itself. -/
def Shows (body : List Node) : WrapError → Prop
  | .duplicateBinding name =>
    List.Duplicate name (importedLocals body) ∨
      List.Duplicate name ((statements body).flatMap Node.exportedNames) ∨
      (name ∈ importedLocals body ∧ ∃ statement ∈ statements body,
        ∃ node ∈ statement :: statement.descendants, name ∈ node.declaredExports)
  | .illegalReassignment name =>
    name ∈ importedLocals body ∧ ∃ statement ∈ statements body,
      ∃ node ∈ statement :: statement.descendants, name ∈ node.writtenNames
  | .misplacedModuleForm kind =>
    ∃ statement ∈ statements body, ∃ node ∈ statement.descendants,
      node.kind = kind ∧ kind.isModuleForm = true
  | .unsupportedModuleForm _ => True

/-- What the pass of an import refuses in a statement of the text is a node in it that writes to the
name or exports a declaration of it. -/
theorem shows_of_firstViolation {body : List Node} {pass : Pass} {statement : Node}
    {error : WrapError} (hname : pass.name ∈ importedLocals body)
    (hstatement : statement ∈ statements body)
    (h : pass.firstViolation? statement = some error) : Shows body error := by
  obtain ⟨node, hnode, hviolation⟩ := pass.exists_violation h
  rcases Pass.violation?_cases hviolation with ⟨rfl, hwritten⟩ | ⟨rfl, hdeclared⟩
  · exact ⟨hname, statement, hstatement, node, hnode, hwritten⟩
  · exact .inr (.inr ⟨hname, statement, hstatement, node, hnode, hdeclared⟩)

/-- A module is refused while its imports are bound. Up to the specifier that fails the invariant of
the imports holds, so the pass that refuses meets the text after passes that are apart from it. -/
theorem shows_of_bind {body : List Node} {dependencies : Dependencies}
    (hregistered : body.foldlM registerSource .empty = .ok dependencies)
    (hlocals : ∀ name ∈ importedLocals body, ∀ slot, name ≠ dependencyParam slot)
    {error : WrapError}
    (h : (body.flatMap importActions).foldlM perform (start dependencies body) =
      .error error) : Shows body error := by
  obtain ⟨before, action, after, state, hsplit, hbefore, herror⟩ := Except.foldlM_error h
  have hactions : ∀ other ∈ before ++ action :: after, ∃ specifier node,
      other = .bind specifier node ∧ specifier ∈ dependencies.specifiers := by
    intro other hmem
    rw [← hsplit] at hmem
    obtain ⟨statement, -, haction⟩ := List.mem_flatMap.1 hmem
    obtain ⟨_, _, specifier, node, -, -, -, rfl⟩ := mem_importActions haction
    exact ⟨specifier, node, rfl, mem_specifiers_of_mem_importActions hregistered hmem⟩
  have hstate : state.Importing dependencies.specifiers (statements body) :=
    importing_of_performed hregistered
      (fun other hmem => hsplit ▸ List.mem_append_left _ hmem) hbefore
  have hbindings := bindings_of_performed
    (fun other hmem => hactions other (List.mem_append_left _ hmem)) rfl hbefore
  rw [start, (specifiers_of_registered hregistered).2, List.nil_append] at hbindings
  obtain ⟨specifier, node, rfl, hknown⟩ :=
    hactions action (List.mem_append_right _ List.mem_cons_self)
  rcases bindImport_error (by rwa [hstate.specifiers_eq]) herror with ⟨form, rfl⟩ |
    ⟨binding, hbound, hcause⟩
  · trivial
  · rw [hstate.specifiers_eq] at hbound
    -- The names of the text are those bound so far, the new one and the rest.
    have hnames : importedLocals body = state.dependencies.bindings.map (·.localName) ++
        binding.localName :: (after.flatMap (boundBy dependencies.specifiers)).map
          (·.localName) := by
      rw [importedLocals, ← localNames_boundBy fun _ hmem _ hsource =>
        stringValue?_of_registered hregistered hmem hsource, hsplit, List.flatMap_append,
        List.flatMap_cons, hbound, List.map_append, hbindings]
      rfl
    have hmem : binding.localName ∈ importedLocals body := by
      rw [hnames]
      exact List.mem_append_right _ List.mem_cons_self
    rcases hcause with ⟨rfl, hdouble⟩ | ⟨hfresh, statement, hstatement, hviolation⟩
    · refine .inl ?_
      rw [hnames]
      exact duplicate_append hdouble List.mem_cons_self
    · rw [hstate.done_eq, List.nil_append, hstate.pending_eq] at hstatement
      obtain ⟨original, horiginal, rfl⟩ := List.mem_map.1 hstatement
      rw [Pass.Apart.firstViolation?_replaceAll] at hviolation
      · exact shows_of_firstViolation hmem horiginal hviolation
      · intro pass hpass
        obtain ⟨other, hother, rfl⟩ := List.mem_map.1 hpass
        have hlocal : other.localName ∈ importedLocals body := by
          rw [hnames]
          exact List.mem_append_left _ (List.mem_map_of_mem hother)
        refine ⟨fun heq => hfresh (List.mem_map.2 ⟨other, hother, heq.symm⟩), ?_, ?_⟩
        · rw [Binding.pass, binding.access_object]
          exact (hlocals _ hlocal _).symm
        · rw [Binding.pass, other.access_object]
          exact (hlocals _ hmem _).symm

/-- A module is refused while its statements are taken. The one that fails has gone through passes,
and neither what it exports nor the forms below it have become more by them. -/
theorem shows_of_take {body : List Node} {dependencies : Dependencies} {imported : Wrapping}
    (hregistered : body.foldlM registerSource .empty = .ok dependencies)
    (hstate : imported.Importing dependencies.specifiers (statements body)) {error : WrapError}
    (h : ((statements body).map .take).foldlM perform imported = .error error) :
    Shows body error := by
  obtain ⟨before, action, after, state, hsplit, hbefore, herror⟩ := Except.foldlM_error h
  obtain ⟨taken, rest, hstatements, rfl, hrest⟩ := List.map_eq_append_iff.1 hsplit
  obtain ⟨statement, waiting, rfl, rfl, rfl⟩ := List.map_eq_cons_iff.1 hrest
  have hawaits : imported.Awaits dependencies.specifiers (taken ++ statement :: waiting) :=
    ⟨hstate.specifiers_eq, _, hstatements ▸ hstate.pending_eq⟩
  have hknown : AllNamed dependencies.specifiers (statements body) :=
    (allNamed_of_registered hregistered).mono (List.filter_subset_self _)
  rw [hstatements] at hknown
  replace hknown := hknown.mono (List.subset_append_left _ _)
  obtain ⟨names, hexported, hsub⟩ := exported_of_performed hknown hawaits hbefore
  rw [hstate.exported_eq, List.nil_append] at hexported
  obtain ⟨-, passes, hpending⟩ := awaits_of_performed hknown hawaits hbefore
  rw [perform, takeNext, hpending] at herror
  have hmem : statement ∈ statements body :=
    hstatements ▸ List.mem_append_right _ List.mem_cons_self
  rcases takeStatement_error herror with hrepeats | ⟨kind, hkind, rfl⟩
  -- What has been exported so far, and what this statement exports, the text exports in this order.
  · have hall : (state.exported ++ (Pass.replaceAll passes statement).exportedNames).Sublist
        ((statements body).flatMap Node.exportedNames) := by
      rw [hstatements, List.flatMap_append, List.flatMap_cons, hexported]
      exact hsub.append ((exportedNames_replaceAll passes statement).trans
        (List.sublist_append_left _ _))
    rcases hrepeats.mono hall with ⟨name, rfl, hname⟩ | ⟨form, rfl⟩
    · exact .inr (.inl hname)
    · trivial
  · rw [Pass.nestedForms_replaceAll] at hkind
    obtain ⟨node, hnode, hform⟩ := List.mem_flatMap.1 hkind
    rw [Node.ownForm] at hform
    split at hform
    next hmodule =>
      obtain rfl := List.mem_singleton.1 hform
      exact ⟨statement, hmem, node, hnode, rfl, hmodule⟩
    · cases hform

end Wrapping

/-- **Errors are justified by the text.** If a module is refused because a name is bound twice,
the text has two import specifiers of the name, two exports of it, or an import of it and an
exported declaration. If it is refused because an import is assigned to, the text has the import
and the assignment, and if it is refused because of a form that stands below another statement,
the text has that form there. -/
theorem Program.wrap_error {program : Program} {options : WrapOptions} {error : WrapError}
    (hlocals : ∀ name ∈ Wrapping.importedLocals program.body, ∀ slot, name ≠ dependencyParam slot)
    (h : program.wrap options = .error error) : Wrapping.Shows program.body error := by
  have hrun : Wrapping.run program.body = .error error := by
    rcases Except.bind_error h with h | ⟨_, -, h⟩
    · exact h
    · cases h
  rw [Wrapping.run_eq_foldlM] at hrun
  rcases Except.bind_error hrun with hslots | ⟨dependencies, hregistered, hfold⟩
  · obtain ⟨_, statement, _, table, -, -, hstatement⟩ := Except.foldlM_error hslots
    unfold Wrapping.registerSource at hstatement
    split at hstatement
    · cases hstatement
    · rcases Except.bind_error hstatement with hsource | ⟨_, -, hstatement⟩
      · obtain ⟨form, rfl⟩ := Wrapping.moduleSpecifier_error hsource
        trivial
      · cases hstatement
  · rw [Wrapping.actions, List.foldlM_append] at hfold
    rcases Except.bind_error hfold with himports | ⟨imported, himports, htaken⟩
    · exact Wrapping.shows_of_bind hregistered hlocals himports
    · exact Wrapping.shows_of_take hregistered
        (Wrapping.importing_of_performed hregistered (fun _ hmem => hmem) himports) htaken

/-- The module `import { a } from "m"; { [a] = b; }`, which assigns to an import by a pattern in a
block. -/
def assignedImport : Program :=
  ⟨[.importDeclaration [.importSpecifier (.identifier "a") (.identifier "a")] (.stringLiteral "m"),
    .blockStatement [.assignmentStatement (.arrayPattern [some (.identifier "a")])
      (.identifier "b")]], none⟩

/-- The block holds the assignment that the error is about, and the name is one that is imported. -/
theorem Program.wrap_error_assignedImport :
    (∀ name ∈ Wrapping.importedLocals assignedImport.body, ∀ slot, name ≠ dependencyParam slot) ∧
      assignedImport.wrap .default = .error (.illegalReassignment "a") ∧
      "a" ∈ Wrapping.importedLocals assignedImport.body ∧
      ∃ statement ∈ Wrapping.statements assignedImport.body,
        ∃ node ∈ statement :: statement.descendants, "a" ∈ node.writtenNames := by
  have hlocals : ∀ name ∈ Wrapping.importedLocals assignedImport.body, ∀ slot,
      name ≠ dependencyParam slot := fun name hmem =>
    ne_dependencyParam_of_length ((by decide :
      ∀ name ∈ Wrapping.importedLocals assignedImport.body, name.length < 8) name hmem)
  have h : assignedImport.wrap .default = .error (.illegalReassignment "a") := by
    with_unfolding_all rfl
  exact ⟨hlocals, h, Program.wrap_error hlocals h⟩

end DefineWrap
