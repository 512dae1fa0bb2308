/-
Import and export forms that survive.

Statements that are no exports are checked for forms below them, and so are exported
declarations and what is exported as the default. But the check looks at child places only,
it does not look at the default itself, and it does not look at the locals of an export list.
What it does not see is handed over to the wrapped module. `Program.wrap_moduleForms` says
which forms there are in the wrapped module, anywhere and at child places: the latter stand
at the root of a default export or in a local of an export list.
-/
import DefineWrap.Proofs.Wrap.ModuleForms
import DefineWrap.Proofs.Wrap.Slots

set_option autoImplicit false

namespace DefineWrap

namespace Node

variable {α : Type}

/-! ## What a statement hands over -/

/-- What is collected from the initial value of a declarator. The pattern is not handed over by an
exported declaration, since it has to be a single name. -/
def initialOf (collect : Node → List α) : Node → List α
  | .variableDeclarator _ init => init.toList.flatMap collect
  | _ => []

/-- What is collected from the local of an export specifier. The exported name is no part of what is
put into the module. -/
def localOf (collect : Node → List α) : Node → List α
  | .exportSpecifier localName _ => collect localName
  | _ => []

/-- What is collected from the parts of a statement that are put into the wrapped module. A
re-export hands nothing over, as it is assigned from a parameter. -/
def handed (collect : Node → List α) : Node → List α
  | .exportDefaultDeclaration declaration => collect declaration
  | .exportNamedDeclaration (some (.variableDeclaration declarations _)) _ _ =>
    declarations.flatMap (initialOf collect)
  | .exportNamedDeclaration (some declaration) _ _ => collect declaration
  | .exportNamedDeclaration none specifiers none => specifiers.flatMap (localOf collect)
  | .exportNamedDeclaration none _ (some _) => []
  | .exportAllDeclaration _ _ => []
  | statement => collect statement

/-- An exported declaration that is not of variables is handed over as a whole. -/
theorem handed_declaration (collect : Node → List α) {declaration : Node}
    (h : declaration.kind ≠ .variableDeclaration) (specifiers : List Node)
    (source : Option Node) :
    (exportNamedDeclaration (some declaration) specifiers source).handed collect =
      collect declaration := by
  cases declaration <;> first | rfl | exact absurd rfl h

theorem handed_other (collect : Node → List α) {statement : Node}
    (h : isExport statement = false) : statement.handed collect = collect statement := by
  cases statement <;> first | rfl | cases h

namespace Collects

variable {collect : Node → List α}

theorem initialOf_replaceDeclarator (h : Collects collect) (pass : Pass) (declarator : Node) :
    (pass.replaceDeclarator declarator).initialOf collect = declarator.initialOf collect := by
  cases declarator
  case variableDeclarator id init =>
    exact h.replaceValue pass id init fun value _ => h.replace pass value
  all_goals rfl

theorem localOf_replace (h : Collects collect) (pass : Pass) (specifier : Node) :
    (pass.replace specifier).localOf collect = specifier.localOf collect := by
  have hnone : ∀ other : Node, other.kind ≠ .exportSpecifier → other.localOf collect = [] := by
    intro other hkind
    cases other <;> first | rfl | exact absurd rfl hkind
  by_cases hkind : specifier.kind = .exportSpecifier
  · obtain ⟨localName, exported, rfl⟩ := Node.hasFormOf_of_kind_eq hkind
    rw [pass.replace_exportSpecifier]
    exact h.replace pass localName
  · rw [hnone specifier hkind, hnone _ (pass.kind_replace_ne hkind (by decide))]

/-- **A pass does not change what a statement hands over.** The forms of statements are taken apart
once, and each part is one of the lemmas above. -/
theorem handed_replace (h : Collects collect) (pass : Pass) (statement : Node) :
    (pass.replace statement).handed collect = statement.handed collect := by
  have hall : ∀ other : Node, other.kind ≠ .exportNamedDeclaration →
      other.kind ≠ .exportDefaultDeclaration → other.kind ≠ .exportAllDeclaration →
      other.handed collect = collect other := by
    intro other hnamed hdefault hexport
    refine handed_other collect ?_
    cases other <;>
      first | rfl | exact absurd rfl hnamed | exact absurd rfl hdefault | exact absurd rfl hexport
  -- A pass leaves an export of each form an export of that form, and goes over the parts that are
  -- handed over. Any other statement is handed over as a whole.
  by_cases hnamed : statement.kind = .exportNamedDeclaration
  · obtain ⟨declaration, specifiers, source, rfl⟩ := Node.hasFormOf_of_kind_eq hnamed
    rw [pass.replace_exportNamedDeclaration]
    cases declaration with
    | some declaration =>
      rw [Option.map_some]
      by_cases hkind : declaration.kind = .variableDeclaration
      · obtain ⟨declarations, kind, rfl⟩ := hasFormOf_of_kind_eq hkind
        rw [pass.replace_variableDeclaration]
        change (declarations.map pass.replaceDeclarator).flatMap _ = declarations.flatMap _
        rw [List.flatMap_map]
        exact List.flatMap_congr fun declarator _ => h.initialOf_replaceDeclarator pass declarator
      · rw [handed_declaration collect hkind,
          handed_declaration collect (pass.kind_replace_ne hkind (by decide)), h.replace]
    | none =>
      cases source with
      | some source => rfl
      | none =>
        change (specifiers.map pass.replace).flatMap _ = specifiers.flatMap _
        rw [List.flatMap_map]
        exact List.flatMap_congr fun specifier _ => h.localOf_replace pass specifier
  · by_cases hdefault : statement.kind = .exportDefaultDeclaration
    · obtain ⟨declaration, rfl⟩ := Node.hasFormOf_of_kind_eq hdefault
      rw [pass.replace_exportDefaultDeclaration]
      exact h.replace pass declaration
    · by_cases hexport : statement.kind = .exportAllDeclaration
      · obtain ⟨source, exported, rfl⟩ := Node.hasFormOf_of_kind_eq hexport
        have henters : pass.Enters (.exportAllDeclaration source exported) :=
          ⟨rfl, of_decide_eq_false rfl, rfl⟩
        rw [pass.replace_of_enters henters]
        rfl
      · rw [hall _ hnamed hdefault hexport, hall _ (pass.kind_replace_ne hnamed (by decide))
          (pass.kind_replace_ne hdefault (by decide)) (pass.kind_replace_ne hexport (by decide)),
          h.replace]

/-! ## What is done for statements -/

theorem assign_eq (h : Collects collect) (exported : String) (value : Node) :
    collect (.assignmentStatement (.access exportsParam exported) value) = collect value := by
  rw [assignmentStatement, h.statement_eq]
  exact h.assignment_eq (.member exportsParam exported) value

theorem access_member_eq (h : Collects collect) (object member : String) :
    collect (.access object member) = [] :=
  h.access_eq (.member object member)

/-- **What is emitted for a statement is what it hands over.** Passes that are started add nothing,
and assignments add nothing to their values. -/
theorem flatMap_emitted (h : Collects collect) {table : Dependencies} {statement : Node}
    {names : List String} {effects : List Effect} (htakes : Takes table statement names effects) :
    (Effect.emitted effects).flatMap collect = statement.handed collect := by
  -- One case for each way to take a statement. The assignments that are emitted add nothing to
  -- their values.
  cases htakes with
  | defaultValue hname =>
    change [_].flatMap collect = _
    rw [List.flatMap_singleton, h.assign_eq, h.expression_eq]
    rfl
  | @defaultNamed declaration name hname =>
    change [declaration, _].flatMap collect = _
    rw [List.flatMap_cons, List.flatMap_singleton, h.assign_eq, h.identifier_eq, List.append_nil]
    rfl
  | @declarators declarations specifiers kind source hids =>
    have hpasses := Survey.Carries.emitted_exportAs (declarations.flatMap Node.declaratorNames)
    rw [Effect.emitted_append, hpasses, List.append_nil, Effect.emitted, List.flatMap_assoc,
      List.flatMap_assoc]
    refine List.flatMap_congr fun declarator hmem => ?_
    cases declarator
    case variableDeclarator id init =>
      obtain ⟨name, rfl⟩ := hids id init hmem
      cases init with
      | none => rfl
      | some value =>
        refine (List.append_nil _).trans (Eq.trans ?_ (List.append_nil _).symm)
        exact (List.append_nil _).trans (h.assign_eq name value)
    all_goals rfl
  | @declaration declaration name specifiers source hname =>
    have hkind : declaration.kind ≠ .variableDeclaration := by
      rintro hkind
      obtain ⟨_, _, rfl⟩ := hasFormOf_of_kind_eq hkind
      cases hname
    rw [handed_declaration collect hkind, ← h.expression_eq, ← h.assign_eq name]
    exact List.append_nil _
  | reexport hsource hknown hnames =>
    refine List.flatMap_eq_nil_iff.2 fun node hmem => ?_
    obtain ⟨effect, heffect, hnode⟩ := List.mem_flatMap.1 hmem
    obtain ⟨pair, -, rfl⟩ := List.mem_map.1 heffect
    rw [List.mem_singleton.1 hnode, h.assign_eq, h.access_member_eq]
  | @list specifiers entries hentries =>
    change (Effect.emitted _).flatMap _ = specifiers.flatMap _
    rw [Effect.emitted, List.flatMap_map, List.flatMap_assoc]
    symm
    refine Except.flatMap_of_mapM_ok hentries fun specifier entry hread => ?_
    obtain ⟨localName, exported⟩ := entry
    obtain ⟨node, rfl⟩ := exportEntry_ok hread
    rcases entryEffect_eq table localName node exported with ⟨name, -, rfl, heq⟩ | ⟨-, heq⟩
    · rw [heq]
      exact h.identifier_eq name
    · rw [heq]
      exact ((List.append_nil _).trans (h.assign_eq exported localName)).symm
  | other hother =>
    rw [handed_other collect hother]
    exact List.append_nil _

/-- Effects keep what is collected, and add what they emit. Their passes go over what is done and
change nothing about it. -/
theorem flatMap_applyAll (h : Collects collect) (effects : List Effect) (done : List Node) :
    (Effect.applyAll done effects).flatMap collect =
      done.flatMap collect ++ (Effect.emitted effects).flatMap collect := by
  induction effects generalizing done with
  | nil => exact (List.append_nil _).symm
  | cons effect rest ih =>
    change (Effect.applyAll (Effect.apply done effect) rest).flatMap collect = _
    rw [ih]
    cases effect with
    | emit statement =>
      change (done ++ [statement]).flatMap collect ++ _ =
        done.flatMap collect ++ ([statement] ++ Effect.emitted rest).flatMap collect
      rw [List.flatMap_append, List.flatMap_append, List.append_assoc]
    | substitute pass =>
      change (done.map pass.replace).flatMap collect ++ _ =
        done.flatMap collect ++ ([] ++ Effect.emitted rest).flatMap collect
      rw [List.flatMap_map, List.nil_append]
      exact congrArg (· ++ _) (List.flatMap_congr fun node _ => h.replace pass node)

/-- What all statements emit is what they hand over, though each is taken only after the passes of
those before it. -/
theorem flatMap_takesAll (h : Collects collect) {table : Dependencies} {statements : List Node}
    {names : List String} {effects : List Effect}
    (htakes : TakesAll table statements names effects) :
    (Effect.emitted effects).flatMap collect = statements.flatMap (handed collect) := by
  induction htakes with
  | nil => rfl
  | @cons statement rest _ _ effects _ first _ ih =>
    have hrest : ∀ node, (Pass.replaceAll (Effect.passes effects) node).handed collect =
        node.handed collect := fun node =>
      Pass.replaceAll_invariant (fun pass _ other => h.handed_replace pass other) node
    rw [Effect.emitted_append, List.flatMap_append, h.flatMap_emitted first, ih, List.flatMap_map,
      List.flatMap_cons]
    simp only [hrest]

/-- **What is collected from a finished module** is what its statements hand over, as they stand in
the text. -/
theorem flatMap_done (h : Collects collect) {body : List Node} {final : Wrapping}
    (hrun : Wrapping.run body = .ok final) :
    final.done.flatMap collect = (Wrapping.statements body).flatMap (handed collect) := by
  obtain ⟨imported, names, effects, himporting, -, -, htakes, hdone, -⟩ :=
    Wrapping.run_effects hrun
  have hpending : ∀ node, (Pass.replaceAll imported.importPasses node).handed collect =
      node.handed collect := fun node =>
    Pass.replaceAll_invariant (fun pass _ other => h.handed_replace pass other) node
  rw [hdone, h.flatMap_applyAll, h.flatMap_takesAll htakes, himporting.pending_eq,
    List.flatMap_map]
  simp only [hpending]
  rfl

end Collects

/-! ## What is checked -/

/-- The forms that the check of a statement looks for. An exported declaration may not be a form
itself, whereas a default may: only what is below it is looked at. -/
def refusedForms : Node → List Kind
  | .exportDefaultDeclaration declaration => declaration.nestedForms
  | .exportNamedDeclaration (some declaration) _ _ => declaration.placedForms
  | .exportNamedDeclaration none _ _ => []
  | .exportAllDeclaration _ _ => []
  | statement => statement.nestedForms

theorem refusedForms_other {statement : Node} (h : isExport statement = false) :
    statement.refusedForms = statement.nestedForms := by
  cases statement <;> first | rfl | cases h

/-- A pass neither makes a statement an export nor makes an export something else. -/
theorem isExport_replace (pass : Pass) (statement : Node) :
    isExport (pass.replace statement) = isExport statement := by
  induction statement using pass.replace_induction with
  | reference =>
    rcases Pass.kind_access pass.access with h | h <;>
      cases hnode : pass.access.node <;> first | rfl | (rw [hnode] at h; cases h)
  | function id params body generator isAsync hid => rfl
  | shadowed node hreplaced hshadowed => rfl
  | declaration declarations kind ih => rfl
  | entered node henters ih => cases node <;> rfl

/-- What the check of a statement looks for is not changed by a pass. -/
theorem refusedForms_replace (pass : Pass) (statement : Node) :
    (pass.replace statement).refusedForms = statement.refusedForms := by
  cases hexport : isExport statement with
  | false =>
    rw [refusedForms_other hexport, refusedForms_other (by rwa [isExport_replace]),
      pass.nestedForms_replace]
  | true =>
    cases statement
    case exportDefaultDeclaration declaration =>
      rw [pass.replace_exportDefaultDeclaration]
      exact pass.nestedForms_replace declaration
    case exportNamedDeclaration declaration specifiers source =>
      rw [pass.replace_exportNamedDeclaration]
      cases declaration with
      | none => rfl
      | some declaration => exact collects_placedForms.replace pass declaration
    case exportAllDeclaration source exported =>
      have henters : pass.Enters (.exportAllDeclaration source exported) :=
        ⟨rfl, of_decide_eq_false rfl, rfl⟩
      rw [pass.replace_of_enters henters]
      rfl
    all_goals cases hexport

/-- Nor is it changed by several, so the check of a statement is one of the text. -/
theorem refusedForms_replaceAll (passes : List Pass) (statement : Node) :
    (Pass.replaceAll passes statement).refusedForms = statement.refusedForms :=
  Pass.replaceAll_invariant (fun pass _ other => refusedForms_replace pass other) statement

end Node

namespace Wrapping

/-- A statement that is taken has none of the forms that its check looks for. For each form of
statement the check comes before anything is done. -/
theorem refusedForms_of_taken {state next : Wrapping} {statement : Node}
    (h : state.takeStatement statement = .ok next) : statement.refusedForms = [] := by
  unfold takeStatement at h
  split at h
  next declaration =>
    obtain ⟨_, -, h⟩ := Except.bind_ok h
    obtain ⟨_, hchecked, -⟩ := Except.bind_ok h
    exact Node.refuseNestedModuleForms_ok hchecked
  next declaration specifiers source =>
    obtain ⟨_, hchecked, h⟩ := Except.bind_ok h
    have hown : declaration.ownForm = [] := by
      split at h
      · rfl
      · split at h
        · cases h
        next name hname => cases declaration <;> first | rfl | cases hname
    change declaration.ownForm ++ declaration.nestedForms = []
    rw [hown, Node.refuseNestedModuleForms_ok hchecked]
    rfl
  · rfl
  · rfl
  · cases h
  next hdefault hdeclaration hreexport hlist hall =>
    obtain ⟨_, hchecked, -⟩ := Except.bind_ok h
    rw [Node.refusedForms_other (isExport_eq_false hdefault hdeclaration hreexport hlist hall)]
    exact Node.refuseNestedModuleForms_ok hchecked

/-- Every statement of a finished module has been taken, after some passes. The run is cut before
and after the action that takes it. -/
theorem exists_taken {body : List Node} {final : Wrapping} (h : run body = .ok final)
    {statement : Node} (hmem : statement ∈ statements body) :
    ∃ (state next : Wrapping) (passes : List Pass),
      state.takeStatement (Pass.replaceAll passes statement) = .ok next := by
  obtain ⟨dependencies, hregistered, hfold⟩ := run_ok h
  obtain ⟨before, after, hsplit⟩ := List.append_of_mem hmem
  obtain ⟨imported, himported, htaken⟩ := Except.foldlM_append_ok hfold
  rw [hsplit, List.map_append, List.map_cons] at htaken
  obtain ⟨state, hbefore, hrest⟩ := Except.foldlM_append_ok htaken
  obtain ⟨next, hnext, -⟩ := Except.foldlM_cons_ok hrest
  have himporting := importing_of_performed hregistered (fun _ hmem => hmem) himported
  have hstart : imported.Awaits dependencies.specifiers (before ++ statement :: after) :=
    ⟨himporting.specifiers_eq, _, by rw [himporting.pending_eq, hsplit]⟩
  have hknown : AllNamed dependencies.specifiers (statements body) :=
    (allNamed_of_registered hregistered).mono (List.filter_subset_self _)
  rw [hsplit] at hknown
  replace hknown := hknown.mono (List.subset_append_left _ _)
  obtain ⟨-, passes, hpending⟩ := awaits_of_performed hknown hstart hbefore
  rw [perform, takeNext, hpending] at hnext
  exact ⟨_, next, passes, hnext⟩

theorem refusedForms_eq_nil {body : List Node} {final : Wrapping} (h : run body = .ok final)
    {statement : Node} (hmem : statement ∈ statements body) : statement.refusedForms = [] := by
  obtain ⟨state, next, passes, htaken⟩ := exists_taken h hmem
  rw [← Node.refusedForms_replaceAll passes]
  exact refusedForms_of_taken htaken

end Wrapping

namespace Node

/-- The forms at child places that a statement hands over in spite of its check: a default that is a
form itself, and the locals of an export list. -/
def exposedForms : Node → List Kind
  | .exportDefaultDeclaration declaration => declaration.ownForm
  | .exportNamedDeclaration none specifiers none => specifiers.flatMap (localOf placedForms)
  | _ => []

/-- The check leaves nothing else. For each form of statement what is handed over is either checked
or exposed. -/
theorem handed_placedForms {statement : Node} (h : statement.refusedForms = [])
    (himport : isImport statement = false) :
    statement.handed placedForms = statement.exposedForms := by
  cases hexport : isExport statement with
  | false =>
    rw [refusedForms_other hexport] at h
    rw [handed_other _ hexport, placedForms, h, List.append_nil]
    cases statement <;> first | rfl | cases hexport; done | cases himport
  | true =>
    cases statement
    case exportDefaultDeclaration declaration =>
      change declaration.ownForm ++ declaration.nestedForms = declaration.ownForm
      rw [show declaration.nestedForms = [] from h, List.append_nil]
    case exportNamedDeclaration declaration specifiers source =>
      cases declaration with
      | none => cases source <;> rfl
      | some declaration =>
        -- The whole declaration has been checked, so its initial values have been.
        have hplaced : declaration.placedForms = [] := h
        by_cases hkind : declaration.kind = .variableDeclaration
        · obtain ⟨declarations, kind, rfl⟩ := hasFormOf_of_kind_eq hkind
          rw [collects_placedForms.declaration_eq, List.flatMap_eq_nil_iff] at hplaced
          refine List.flatMap_eq_nil_iff.2 fun declarator hmem => ?_
          cases declarator
          case variableDeclarator id init =>
            have hchildren : (variableDeclarator id init).children = init.toList := by
              simp [children, places]
            have hnone := hplaced _ hmem
            rw [placedForms_eq, hchildren, List.append_eq_nil_iff] at hnone
            exact hnone.2
          all_goals rfl
        · rw [handed_declaration _ hkind, hplaced]
          rfl
    case exportAllDeclaration => rfl
    all_goals cases hexport

/-! ## The wrapper -/

/-- A string is no form. The names of the dependencies and of the module are strings. -/
theorem moduleForms_stringLiteral (value : String) : (stringLiteral value).moduleForms = [] := by
  rw [moduleForms_eq]
  rfl

theorem placedForms_stringLiteral (value : String) : (stringLiteral value).placedForms = [] := by
  rw [placedForms_eq]
  rfl

end Node

/-- The wrapper holds the forms of the body of the module and adds none of its own. -/
theorem moduleForms_wrapper (dependencies : List String) (body : List Node)
    (options : WrapOptions) :
    (wrapper dependencies body options).moduleForms = body.flatMap Node.moduleForms := by
  have hnone : ∀ {α : Type} (items : List α), (items.flatMap fun _ => ([] : List Kind)) = [] :=
    fun _ => List.flatMap_eq_nil_iff.2 fun _ _ => rfl
  simp [hnone, wrapper, Node.moduleForms_statement, Node.call, Node.array, Node.anonymousFunction,
    Node.moduleForms_eq (.callExpression ..), Node.moduleForms_eq (.arrayExpression ..),
    Node.moduleForms_eq (.functionExpression ..), Node.moduleForms_eq (.blockStatement ..),
    Node.ownForm, Node.kind, Node.record, Kind.isModuleForm, Node.parts, Record.inner,
    FieldValue.inner, wrapperSpecifiers, wrapperParams, List.flatMap_map,
    Node.moduleForms_identifier, Node.moduleForms_stringLiteral]

theorem placedForms_wrapper (dependencies : List String) (body : List Node)
    (options : WrapOptions) :
    (wrapper dependencies body options).placedForms = body.flatMap Node.placedForms := by
  have hnone : ∀ {α : Type} (items : List α), (items.flatMap fun _ => ([] : List Kind)) = [] :=
    fun _ => List.flatMap_eq_nil_iff.2 fun _ _ => rfl
  simp [hnone, wrapper, Node.placedForms_statement, Node.call, Node.array, Node.anonymousFunction,
    Node.placedForms_eq (.callExpression ..), Node.placedForms_eq (.arrayExpression ..),
    Node.placedForms_eq (.functionExpression ..), Node.placedForms_eq (.blockStatement ..),
    Node.ownForm, Node.kind, Node.record, Kind.isModuleForm, Node.children, Node.places,
    wrapperSpecifiers, wrapperParams, List.flatMap_map,
    Node.placedForms_identifier, Node.placedForms_stringLiteral]

/-- **Import and export forms in the wrapped module.** Anywhere in it there are those that
its statements hand over, in the order of the text. At child places they stand at the root of
a default export or in a local of an export list, as everything else has been checked. -/
theorem Program.wrap_moduleForms {program : Program} {options : WrapOptions} {wrapped : Wrapped}
    (h : program.wrap options = .ok wrapped) :
    wrapped.program.body.flatMap Node.moduleForms =
        (Wrapping.statements program.body).flatMap (Node.handed Node.moduleForms) ∧
      wrapped.program.body.flatMap Node.placedForms =
        (Wrapping.statements program.body).flatMap Node.exposedForms := by
  obtain ⟨final, hrun, hwrapped⟩ := Except.bind_ok h
  cases hwrapped
  rw [List.flatMap_singleton, List.flatMap_singleton, moduleForms_wrapper, placedForms_wrapper,
    Node.collects_moduleForms.flatMap_done hrun, Node.collects_placedForms.flatMap_done hrun]
  refine ⟨rfl, List.flatMap_congr fun statement hmem => ?_⟩
  exact Node.handed_placedForms (Wrapping.refusedForms_eq_nil hrun hmem)
    (by simpa using (List.mem_filter.1 hmem).2)

/-- The module `import { a } from "m"; export default a; export { a };`, which has all three kinds
of statement that must not survive. -/
def importedDefault : Program :=
  ⟨[.importDeclaration [.importSpecifier (.identifier "a") (.identifier "a")] (.stringLiteral "m"),
    .exportDefaultDeclaration (.identifier "a"),
    .exportNamedDeclaration none [.exportSpecifier (.identifier "a") (.identifier "a")] none], none⟩

/-- The import and both exports are gone from the result. -/
theorem Program.wrap_moduleForms_importedDefault :
    ∃ wrapped, importedDefault.wrap .default = .ok wrapped ∧
      wrapped.program.body.flatMap Node.moduleForms = [] ∧
      wrapped.program.body.flatMap Node.placedForms = [] := by
  have h : importedDefault.wrap .default = .ok ⟨⟨[wrapper ["m"]
      [.assignmentStatement (.access "__exports__" "default") (.access "__uDep0__" "a"),
        .assignmentStatement (.access "__exports__" "a") (.access "__uDep0__" "a")]
      .default], some "script"⟩, ["m"]⟩ := by with_unfolding_all rfl
  obtain ⟨hforms, hplaced⟩ := Program.wrap_moduleForms h
  refine ⟨_, h, hforms.trans ?_, hplaced.trans ?_⟩
  · with_unfolding_all rfl
  · with_unfolding_all rfl

/-- The tree of `export default import "m";`, which no text has but a reader of trees accepts. -/
def formAsDefault : Program :=
  ⟨[.exportDefaultDeclaration (.importDeclaration [] (.stringLiteral "m"))], none⟩

/-- The default itself is not checked, and so an import is assigned to the exports and stands in the
result. -/
theorem Program.wrap_keeps_moduleForm :
    ∃ wrapped, formAsDefault.wrap .default = .ok wrapped ∧
      wrapped.program.body = [wrapper []
        [.assignmentStatement (.access "__exports__" "default")
          (.importDeclaration [] (.stringLiteral "m"))] .default] ∧
      wrapped.program.body.flatMap Node.placedForms = [.importDeclaration] := by
  have h : formAsDefault.wrap .default = .ok ⟨⟨[wrapper []
      [.assignmentStatement (.access "__exports__" "default")
        (.importDeclaration [] (.stringLiteral "m"))] .default], some "script"⟩, []⟩ := by
    with_unfolding_all rfl
  refine ⟨_, h, rfl, ?_⟩
  with_unfolding_all rfl

end DefineWrap
