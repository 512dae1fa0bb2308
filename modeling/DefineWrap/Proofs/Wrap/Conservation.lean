/-
Taking statements neither loses nor adds what a survey looks for.

An exported declaration becomes assignments of its values, an export list becomes passes
and assignments, and everything else stays. A survey that does not care about the names
that are exported finds the same in what is done for a statement as in the statement
(`Survey.Carries.gather_emitted`). So what it finds in the finished module is what it
found in the statements, in their order (`Survey.Carries.gather_applyAll`).

Which names a survey does not care about is a parameter: `foreign` for the local names
that may be given up to a pass, `unseen` for the names they may be exported under.
-/
import DefineWrap.Proofs.Wrap.Effects
import DefineWrap.Proofs.Wrap.Parameters
import DefineWrap.Proofs.Wrap.Stability

set_option autoImplicit false

namespace DefineWrap

/-! ## What a statement hands over -/

/-- What of a statement can be in the result. Of an exported declaration that is the declaration
itself, and of every other statement all of it, though not always in one piece. -/
def Node.content : Node → Node
  | .exportNamedDeclaration (some declaration) _ _ => declaration
  | node => node

/-- The parameter of a slot that has been given out is a parameter of the wrapper. A slot that has
not is none, so the bound is needed. -/
theorem Dependencies.injects_dependencyParam {table : Dependencies} {slot : Nat}
    (h : slot < table.specifiers.length) : table.injects (dependencyParam slot) = true := by
  have hparam : table.isParam (dependencyParam slot) = true :=
    (table.isParam_iff _).2 ⟨slot, h, rfl⟩
  rw [injects, hparam, Bool.or_true]

/-- The parameter of the exports is one of the wrapper whatever the module imports. -/
theorem Dependencies.injects_exportsParam (table : Dependencies) :
    table.injects exportsParam = true := by
  rw [injects, decide_eq_true rfl, Bool.true_or]

/-- A name that is none of the parameters is not that of one. Locals and the objects of accesses are
kept apart by this alone. -/
theorem Dependencies.ne_of_injects {table : Dependencies} {name param : String}
    (hname : table.injects name = false) (hparam : table.injects param = true) : param ≠ name := by
  rintro rfl
  exact Bool.false_ne_true (hname ▸ hparam)

/-- The local name of an entry of an export list that is given up to a pass. The name of a parameter
is not, since it is assigned at once. -/
def entryLocals (table : Dependencies) : Node → List String
  | .exportSpecifier localName _ => localName.identifierName?.toList.filter (!table.injects ·)
  | _ => []

/-- The local names that taking a statement gives up to passes: those of an exported declaration, or
of the entries of a list. A re-export and a default export give up none. -/
def exportedLocals (table : Dependencies) : Node → List String
  | .exportNamedDeclaration (some declaration) _ _ => declaration.directDeclarations?.getD []
  | .exportNamedDeclaration none specifiers none => specifiers.flatMap (entryLocals table)
  | _ => []

/-- The name of a declaration that is exported as the default. It is assigned by its name and stays
a local, so it is no name that is given up. -/
def defaultLocals : Node → List String
  | .exportDefaultDeclaration declaration => (declarationName? declaration).toList
  | _ => []

/-- The statements that some effects put after those that are done, as they are put. Later passes
may still change them. -/
def Effect.emitted (effects : List Effect) : List Node :=
  effects.flatMap fun
    | .emit statement => [statement]
    | .substitute _ => []

/-- What effects in a row put is what the first put and then what the second put. -/
theorem Effect.emitted_append (first second : List Effect) :
    emitted (first ++ second) = emitted first ++ emitted second :=
  List.flatMap_append

/-- A declaration that can be named in a default export declares this name and no other. Variables
are no such declarations. -/
theorem declarationName?_eq {declaration : Node} {name : String}
    (h : declarationName? declaration = some name) :
    declaration.directDeclarations? = some [name] := by
  cases declaration
  case functionDeclaration id params body generator isAsync =>
    exact congrArg some (by rw [show Node.ownName? id = some name from h]; rfl)
  case classDeclaration id superClass body =>
    exact congrArg some (by rw [show Node.ownName? id = some name from h]; rfl)
  all_goals cases h

/-- Only an export specifier can be read as an entry of a list, and the local part is read as it
stands. -/
theorem exportEntry_ok {specifier localName : Node} {exported : String}
    (h : exportEntry specifier = .ok (localName, exported)) :
    ∃ node, specifier = .exportSpecifier localName node := by
  unfold exportEntry at h
  split at h
  next node =>
    split at h
    · cases h
      exact ⟨node, rfl⟩
    · cases h
  · cases h

/-- An entry either gives up its name to a pass or is assigned at once. The two cases of the effect
and of `entryLocals` go together, so a proof splits only once. -/
theorem entryEffect_eq (table : Dependencies) (localName node : Node) (exported : String) :
    (∃ name, entryLocals table (.exportSpecifier localName node) = [name] ∧
      localName = .identifier name ∧
      entryEffect table (localName, exported) = .exportAs name exported) ∨
    (entryLocals table (.exportSpecifier localName node) = [] ∧
      entryEffect table (localName, exported) = .assign exported localName) := by
  unfold entryEffect entryLocals
  cases hname : localName.identifierName? with
  | none => exact .inr ⟨by simp [hname], rfl⟩
  | some name =>
    have hlocal : localName = .identifier name := by
      cases localName
      case identifier =>
        cases hname
        rfl
      all_goals cases hname
    by_cases hinjected : table.injects name = true
    · exact .inr ⟨by simp [hname, hinjected], by simp [hinjected]⟩
    · exact .inl ⟨name, by simp [hname, hinjected], hlocal, by simp [hinjected]⟩

/-- A declarator of a single name adds it to the names of the declaration, whether it has a value or
not. -/
theorem Node.mem_declaratorNames_of_mem {declarations : List Node} {name : String}
    {init : Option Node} (h : .variableDeclarator (.identifier name) init ∈ declarations) :
    name ∈ declarations.flatMap declaratorNames := by
  refine List.mem_flatMap.2 ⟨_, h, ?_⟩
  rw [declaratorNames, boundNames_identifier]
  exact List.mem_singleton_self name

/-- Every pass that taking a statement starts is for a local name that the statement
gives up, under a name that it exports. -/
theorem Takes.mem_passes {table : Dependencies} {statement : Node} {names : List String}
    {effects : List Effect} (htakes : Takes table statement names effects) {pass : Pass}
    (hmem : pass ∈ Effect.passes effects) :
    ∃ name ∈ exportedLocals table statement, ∃ exported ∈ names,
      pass = Effect.exportPass name exported := by
  obtain ⟨effect, heffect, hpass⟩ := List.mem_flatMap.1 hmem
  cases effect with
  | emit _ => cases hpass
  | substitute other =>
    obtain rfl := List.mem_singleton.1 hpass
    -- Only the exports of local names start a pass. In the other cases all effects are statements.
    cases htakes with
    | defaultValue h => simp [Effect.assign] at heffect
    | defaultNamed h => simp [Effect.assign] at heffect
    | declarators h =>
      rcases List.mem_append.1 heffect with heffect | heffect
      · obtain ⟨declarator, -, hinitial⟩ := List.mem_flatMap.1 heffect
        unfold initialEffects at hinitial
        split at hinitial
        · cases List.mem_singleton.1 hinitial
        · cases hinitial
      · obtain ⟨name, hname, heq⟩ := List.mem_map.1 heffect
        cases heq
        exact ⟨name, hname, name, hname, rfl⟩
    | declaration h =>
      rcases List.mem_cons.1 heffect with heq | heffect
      · cases heq
      · cases List.mem_singleton.1 heffect
        refine ⟨_, ?_, _, List.mem_singleton_self _, rfl⟩
        rw [exportedLocals, declarationName?_eq h]
        exact List.mem_singleton_self _
    | reexport hsource hknown hnames =>
      obtain ⟨_, -, heq⟩ := List.mem_map.1 heffect
      cases heq
    | list h =>
      obtain ⟨⟨localName, exported⟩, hentry, heq⟩ := List.mem_map.1 heffect
      obtain ⟨specifier, hspecifier, hread⟩ := Except.mem_of_mapM_ok h hentry
      obtain ⟨node, rfl⟩ := exportEntry_ok hread
      rcases entryEffect_eq table localName node exported with ⟨name, hlocals, -, heq'⟩ |
        ⟨-, heq'⟩
      · rw [heq'] at heq
        cases heq
        refine ⟨name, ?_, exported, List.mem_map.2 ⟨_, hentry, rfl⟩, rfl⟩
        refine List.mem_flatMap.2 ⟨_, hspecifier, ?_⟩
        rw [hlocals]
        exact List.mem_singleton_self _
      · rw [heq'] at heq
        cases heq
    | other h => simp at heffect

/-! ## Statements after a pass -/

namespace Pass

variable (pass : Pass)

/-- A pass goes into what is exported as the default, and the statement stays a default export. It
may be of another form when it is taken, though, for instance an assignment. -/
theorem replace_exportDefaultDeclaration (declaration : Node) :
    pass.replace (.exportDefaultDeclaration declaration) =
      .exportDefaultDeclaration (pass.replace declaration) := by
  have henters : pass.Enters (.exportDefaultDeclaration declaration) :=
    ⟨rfl, of_decide_eq_false rfl, rfl⟩
  rw [pass.replace_of_enters henters]
  rfl

/-- The local part of an entry goes through the pass, while the name it is exported under is no use
of a variable and stays. -/
theorem replace_exportSpecifier (localName exported : Node) :
    pass.replace (.exportSpecifier localName exported) =
      .exportSpecifier (pass.replace localName) exported := by
  have henters : pass.Enters (.exportSpecifier localName exported) :=
    ⟨rfl, of_decide_eq_false rfl, rfl⟩
  rw [pass.replace_of_enters henters]
  rfl

/-- An access is a member expression or an identifier, and so none of the nodes that statements and
declarations are taken apart by. -/
theorem kind_access (access : Access) :
    access.node.kind = .memberExpression ∨ access.node.kind = .identifier := by
  rcases access.node_eq_access_or_identifier with ⟨name, heq⟩ | heq
  · obtain ⟨member, computed, haccess, -⟩ := Node.exists_access_eq access.object name
    rw [heq, haccess]
    exact .inl rfl
  · rw [heq]
    exact .inr rfl

theorem directDeclarations?_access (access : Access) : access.node.directDeclarations? = none := by
  rcases kind_access access with h | h <;>
    cases hnode : access.node <;> first | rfl | (rw [hnode] at h; cases h)

/-- A pass makes nothing an export, an export specifier or a declaration that is none: if the kind
changes at all, then into one of an access or an assignment. -/
theorem kind_replace (node : Node) :
    (pass.replace node).kind = node.kind ∨ (pass.replace node).kind = .memberExpression ∨
      (pass.replace node).kind = .identifier ∨
      (pass.replace node).kind = .expressionStatement := by
  induction node using pass.replace_induction with
  | reference =>
    rcases kind_access pass.access with h | h
    · exact .inr (.inl h)
    · exact .inr (.inr (.inl h))
  | function id params body generator isAsync hid => exact .inr (.inr (.inr rfl))
  | shadowed node hreplaced hshadowed => exact .inl rfl
  | declaration declarations kind ih => exact .inl rfl
  | entered node henters ih => exact .inl (pass.kind_rewrite node)

/-- In the form it is used in: a node that is not of some kind is not of it after the pass, apart
from the three kinds that a pass makes. -/
theorem kind_replace_ne {kind : Kind} {node : Node} (h : node.kind ≠ kind)
    (hother : kind ≠ .memberExpression ∧ kind ≠ .identifier ∧ kind ≠ .expressionStatement) :
    (pass.replace node).kind ≠ kind := by
  intro heq
  rcases pass.kind_replace node with hkind | hkind | hkind | hkind
  · exact h (hkind ▸ heq)
  · exact hother.1 (heq ▸ hkind)
  · exact hother.2.1 (heq ▸ hkind)
  · exact hother.2.2 (heq ▸ hkind)

/-- Taking the declaration out of an export and applying a pass can be done in either order. -/
theorem content_replace (node : Node) :
    (pass.replace node).content = pass.replace node.content := by
  have hcontent : ∀ other : Node, other.kind ≠ .exportNamedDeclaration → other.content = other := by
    intro other hkind
    cases other <;> first | rfl | exact absurd rfl hkind
  by_cases hkind : node.kind = .exportNamedDeclaration
  · obtain ⟨declaration, specifiers, source, rfl⟩ := Node.hasFormOf_of_kind_eq hkind
    rw [replace_exportNamedDeclaration]
    cases declaration with
    | none => exact (pass.replace_exportNamedDeclaration none specifiers source).symm
    | some declaration => rfl
  · rw [hcontent node hkind, hcontent _ (pass.kind_replace_ne hkind (by decide))]

/-- The same for several passes, so that a statement is looked at as it stands in the text and the
passes are applied afterwards. -/
theorem content_replaceAll (passes : List Pass) (node : Node) :
    (replaceAll passes node).content = replaceAll passes node.content := by
  induction passes generalizing node with
  | nil => rfl
  | cons pass rest ih => rw [replaceAll_cons, replaceAll_cons, ih, content_replace]

/-- An exported declaration declares no name after a pass that it did not declare. It may declare
fewer, since a function of the name becomes an assignment. -/
theorem directDeclarations?_replace_sublist (node : Node) :
    ((pass.replace node).directDeclarations?.getD []).Sublist
      (node.directDeclarations?.getD []) := by
  induction node using pass.replace_induction with
  | reference =>
    rw [directDeclarations?_access]
    exact List.nil_sublist _
  | function id params body generator isAsync hid => exact List.nil_sublist _
  | shadowed node hreplaced hshadowed => exact .refl _
  | declaration declarations kind ih =>
    simp only [Node.directDeclarations?, List.flatMap_map, declaratorNames_replaceDeclarator]
    exact .refl _
  | entered node henters ih =>
    rw [pass.directDeclarations?_rewrite henters.undeclared]

/-- If a declaration has a name after a pass, it had this name before. The converse fails for a
function declaration of the name of the pass. -/
theorem declarationName?_replace {node : Node} {name : String}
    (h : declarationName? (pass.replace node) = some name) :
    declarationName? node = some name := by
  induction node using pass.replace_induction with
  | reference =>
    rcases kind_access pass.access with hkind | hkind <;>
      cases hnode : pass.access.node <;> rw [hnode] at h hkind <;>
        first | (cases hkind; done) | cases h
  | function id params body generator isAsync hid => cases h
  | shadowed node hreplaced hshadowed => exact h
  | declaration declarations kind ih => cases h
  | entered node henters ih =>
    have hsame : declarationName? (pass.rewrite node) = declarationName? node := by
      cases node <;> rfl
    rwa [← hsame]

/-- The name that stands at a place after a pass stood there before, or it is the name of
the parameter that the access is on. -/
theorem identifierName?_replace {node : Node} {name : String}
    (h : (pass.replace node).identifierName? = some name) :
    node.identifierName? = some name ∨ name = pass.access.object := by
  induction node using pass.replace_induction with
  | reference =>
    rcases pass.access.node_eq_access_or_identifier with ⟨member, heq⟩ | heq
    · obtain ⟨property, computed, haccess, -⟩ := Node.exists_access_eq pass.access.object member
      rw [heq, haccess] at h
      cases h
    · rw [heq] at h
      cases h
      exact .inr rfl
  | function id params body generator isAsync hid => cases h
  | shadowed node hreplaced hshadowed => exact .inl h
  | declaration declarations kind ih => cases h
  | entered node henters ih => exact .inl (by rwa [← pass.identifierName?_rewrite node])

omit pass in
/-- After a pass its name stands nowhere, unless the access is on it. This is the sense in which a
name is given up to a pass. -/
theorem identifierName?_replace_ne {pass : Pass} (hobject : pass.access.object ≠ pass.name)
    (node : Node) : (pass.replace node).identifierName? ≠ some pass.name := by
  intro h
  rcases pass.identifierName?_replace h with hbefore | hbefore
  · have hnode : node = .identifier pass.name :=
      Node.isIdentifier_iff.1 (by rw [Node.isIdentifier, hbefore, decide_eq_true rfl])
    rw [hnode, replace_identifier, if_pos rfl] at h
    rcases pass.access.node_eq_access_or_identifier with ⟨member, heq⟩ | heq
    · obtain ⟨property, computed, haccess, -⟩ := Node.exists_access_eq pass.access.object member
      rw [heq, haccess] at h
      cases h
    · rw [heq] at h
      exact hobject (Option.some.inj h)
  · exact hobject hbefore.symm

end Pass

/-! ## What a statement hands over after a pass -/

/-- What is no export specifier gives up no name, also if it stands in an export list. -/
theorem entryLocals_of_kind_ne {table : Dependencies} {node : Node}
    (h : node.kind ≠ .exportSpecifier) : entryLocals table node = [] := by
  cases node <;> first | rfl | exact absurd rfl h

/-- What is no named export gives up no name. The default export is among these. -/
theorem exportedLocals_of_kind_ne {table : Dependencies} {node : Node}
    (h : node.kind ≠ .exportNamedDeclaration) : exportedLocals table node = [] := by
  cases node <;> first | rfl | exact absurd rfl h

/-- A pass to a parameter of the wrapper makes an entry give up no new name: where the local name is
replaced, a parameter stands, and that is not given up. -/
theorem entryLocals_replace_sublist {table : Dependencies} {pass : Pass}
    (hobject : table.injects pass.access.object = true) (specifier : Node) :
    (entryLocals table (pass.replace specifier)).Sublist (entryLocals table specifier) := by
  by_cases hentry : specifier.kind = .exportSpecifier
  · obtain ⟨localName, exported, rfl⟩ := Node.hasFormOf_of_kind_eq hentry
    rw [pass.replace_exportSpecifier, entryLocals, entryLocals]
    cases hname : (pass.replace localName).identifierName? with
    | none => exact List.nil_sublist _
    | some name =>
      rcases pass.identifierName?_replace hname with hsame | rfl
      · rw [hsame]
      · simp [hobject]
  · rw [entryLocals_of_kind_ne (pass.kind_replace_ne hentry (by decide))]
    exact List.nil_sublist _

/-- Nor does it make a statement give up new names, and those that it still gives up keep their
order. -/
theorem exportedLocals_replace_sublist {table : Dependencies} {pass : Pass}
    (hobject : table.injects pass.access.object = true) (node : Node) :
    (exportedLocals table (pass.replace node)).Sublist (exportedLocals table node) := by
  by_cases hkind : node.kind = .exportNamedDeclaration
  · obtain ⟨declaration, specifiers, source, rfl⟩ := Node.hasFormOf_of_kind_eq hkind
    rw [pass.replace_exportNamedDeclaration]
    cases declaration with
    | some declaration => exact pass.directDeclarations?_replace_sublist declaration
    | none =>
      cases source with
      | some source => exact .refl _
      | none =>
        change ((specifiers.map pass.replace).flatMap (entryLocals table)).Sublist _
        rw [List.flatMap_map]
        exact .flatMap_right specifiers fun specifier _ =>
          entryLocals_replace_sublist hobject specifier
  · rw [exportedLocals_of_kind_ne (pass.kind_replace_ne hkind (by decide))]
    exact List.nil_sublist _

/-- Nor does a default export get another name by a pass, though it may lose its own. -/
theorem defaultLocals_replace_subset (pass : Pass) (node : Node) :
    defaultLocals (pass.replace node) ⊆ defaultLocals node := by
  have hnone : ∀ other : Node, other.kind ≠ .exportDefaultDeclaration →
      defaultLocals other = [] := by
    intro other hkind
    cases other <;> first | rfl | exact absurd rfl hkind
  by_cases hkind : node.kind = .exportDefaultDeclaration
  · obtain ⟨declaration, rfl⟩ := Node.hasFormOf_of_kind_eq hkind
    rw [pass.replace_exportDefaultDeclaration]
    intro name hmem
    exact Option.mem_toList.2 (pass.declarationName?_replace (Option.mem_toList.1 hmem))
  · rw [hnone _ (pass.kind_replace_ne hkind (by decide))]
    exact fun _ hmem => by cases hmem

/-- Several passes to parameters make no statement give up a new name, either. So what is given up
in a run is bounded by the text. -/
theorem exportedLocals_replaceAll_sublist {table : Dependencies} {passes : List Pass}
    (hobjects : ∀ pass ∈ passes, table.injects pass.access.object = true) (node : Node) :
    (exportedLocals table (Pass.replaceAll passes node)).Sublist (exportedLocals table node) := by
  induction passes generalizing node with
  | nil => exact .refl _
  | cons pass rest ih =>
    have hrest := ih (fun other hmem => hobjects other (List.mem_cons_of_mem _ hmem))
      (pass.replace node)
    exact hrest.trans (exportedLocals_replace_sublist (hobjects pass List.mem_cons_self) node)

theorem exportedLocals_replaceAll_subset {table : Dependencies} {passes : List Pass}
    (hobjects : ∀ pass ∈ passes, table.injects pass.access.object = true) (node : Node) :
    exportedLocals table (Pass.replaceAll passes node) ⊆ exportedLocals table node :=
  (exportedLocals_replaceAll_sublist hobjects node).subset

/-- The names of default exports after several passes are among those in the text, too. -/
theorem defaultLocals_replaceAll_subset (passes : List Pass) (node : Node) :
    defaultLocals (Pass.replaceAll passes node) ⊆ defaultLocals node := by
  induction passes generalizing node with
  | nil => exact fun _ hmem => hmem
  | cons pass rest ih =>
    exact List.Subset.trans (ih (pass.replace node)) (defaultLocals_replace_subset pass node)

namespace Survey

variable {σ α : Type} {survey : Survey σ α}

/-! ## Surveys that do not care about what is exported -/

/-- A survey that does not care about some local names (`foreign`) and some exported names
(`unseen`): passes that export these change nothing for it, it sees through the
assignments to the exports, and it looks into every form of export. -/
structure Carries (survey : Survey σ α) (state : σ) (table : Dependencies)
    (foreign unseen : String → Prop) : Prop where
  stable : ∀ name exported, foreign name → unseen exported →
    survey.Stable (Effect.exportPass name exported)
  seesThrough : ∀ exported, unseen exported → survey.SeesThrough (.member exportsParam exported)
  import_eq : ∀ param name, table.injects param = true →
    survey.gather state (.access param name) = []
  name_eq : ∀ name, foreign name → survey.gather state (.identifier name) = []
  export_eq : ∀ node, isExport node = true ∨ node.kind = .exportSpecifier →
    survey.found state node = [] ∧ ∀ child, survey.below state node child = some state
  expression_eq : ∀ declaration,
    (∀ name, declarationName? declaration = some name → foreign name) →
    survey.gather state declaration.asExpression = survey.gather state declaration
  declarator_eq : ∀ name init, (init.isSome = true → foreign name) →
    survey.gatherDeclarator state (.variableDeclarator (.identifier name) init) =
      init.toList.flatMap (survey.gather state)

namespace Carries

variable {state : σ} {table : Dependencies} {foreign unseen : String → Prop}

/-- At an export the survey finds nothing itself and goes on to what is exported, in the same
state. -/
theorem gather_export (h : survey.Carries state table foreign unseen) {node : Node}
    (hnode : isExport node = true ∨ node.kind = .exportSpecifier) :
    survey.gather state node = node.children.flatMap (survey.gather state) := by
  have hkind : node.kind ≠ .variableDeclaration := by
    intro hkind
    obtain ⟨declarations, kind, rfl⟩ := Node.hasFormOf_of_kind_eq hkind
    rcases hnode with hnode | hnode <;> cases hnode
  exact gather_below hkind (h.export_eq node hnode).1 (h.export_eq node hnode).2

/-- Of a default export the survey finds what it finds in the declaration or expression. -/
theorem default_eq (h : survey.Carries state table foreign unseen) (declaration : Node) :
    survey.gather state (.exportDefaultDeclaration declaration) =
      survey.gather state declaration :=
  (h.gather_export (.inl rfl)).trans (List.append_nil _)

/-- In a re-export there is nothing to find. Its entries are names of another module, and they are
no children. -/
theorem reexport_eq (h : survey.Carries state table foreign unseen) (specifiers : List Node)
    (source : Node) :
    survey.gather state (.exportNamedDeclaration none specifiers (some source)) = [] :=
  h.gather_export (.inl rfl)

theorem list_eq (h : survey.Carries state table foreign unseen) (specifiers : List Node) :
    survey.gather state (.exportNamedDeclaration none specifiers none) =
      specifiers.flatMap (survey.gather state) := by
  rw [h.gather_export (.inl rfl)]
  simp [Node.children, Node.places]

theorem entry_eq (h : survey.Carries state table foreign unseen) (localName exported : Node) :
    survey.gather state (.exportSpecifier localName exported) = survey.gather state localName :=
  (h.gather_export (.inr rfl)).trans (List.append_nil _)

/-- An assignment to an exported name that the survey does not care about shows it the value and
nothing else. -/
theorem gather_assign (h : survey.Carries state table foreign unseen) {exported : String}
    (hexported : unseen exported) (value : Node) :
    (Effect.emitted [.assign exported value]).flatMap (survey.gather state) =
      survey.gather state value := by
  have hassign := (h.seesThrough exported hexported).gather_assignmentStatement state value
  simp only [Effect.assign, Effect.emitted, List.flatMap_singleton]
  exact hassign

/-- What a loop of effects puts is what its rounds put, in their order. -/
theorem emitted_flatMap {β : Type} (items : List β) (effects : β → List Effect) :
    Effect.emitted (items.flatMap effects) =
      items.flatMap fun item => Effect.emitted (effects item) :=
  List.flatMap_assoc

/-- Exporting local names puts no statement. What is in the result for them is only what the passes
change. -/
theorem emitted_exportAs (names : List String) :
    Effect.emitted (names.map fun name => .exportAs name name) = [] := by
  rw [List.map_eq_flatMap, emitted_flatMap]
  exact List.flatMap_eq_nil_iff.2 fun _ _ => rfl

/-- The assignments of an exported declaration show what the survey finds in its declarators. It is
here that the declaration is taken to have single names only: a pattern is no assignment. -/
theorem gather_declarators (h : survey.Carries state table foreign unseen)
    {declarations : List Node}
    (hids : ∀ id init, .variableDeclarator id init ∈ declarations → ∃ name, id = .identifier name)
    (hnames : ∀ name value, .variableDeclarator (.identifier name) (some value) ∈ declarations →
      foreign name ∧ unseen name) :
    (Effect.emitted (declarations.flatMap initialEffects)).flatMap (survey.gather state) =
      declarations.flatMap (survey.gatherDeclarator state) := by
  rw [emitted_flatMap, List.flatMap_assoc]
  refine List.flatMap_congr fun declarator hmem => ?_
  cases declarator
  case variableDeclarator id init =>
    obtain ⟨name, rfl⟩ := hids id init hmem
    cases init with
    | none =>
      rw [h.declarator_eq name none (fun hnone => by cases hnone)]
      rfl
    | some value =>
      obtain ⟨hforeign, hunseen⟩ := hnames name value hmem
      rw [h.declarator_eq name (some value) fun _ => hforeign, Option.toList_some,
        List.flatMap_singleton]
      exact h.gather_assign hunseen value
  all_goals rfl

/-- The effects of an export list show what the survey finds in the entries. An entry that starts a
pass is a name that the survey does not care about, and so it has nothing to show. -/
theorem gather_entries (h : survey.Carries state table foreign unseen)
    {specifiers : List Node} {entries : List (Node × String)}
    (hentries : specifiers.mapM exportEntry = .ok entries)
    (hforeign : ∀ name ∈ specifiers.flatMap (entryLocals table), foreign name)
    (hunseen : ∀ name ∈ entries.map (·.2), unseen name) :
    (Effect.emitted (entries.map (entryEffect table))).flatMap (survey.gather state) =
      specifiers.flatMap (survey.gather state) := by
  induction specifiers generalizing entries with
  | nil =>
    cases hentries
    rfl
  | cons specifier rest ih =>
    obtain ⟨⟨localName, exported⟩, others, hfirst, hrest, rfl⟩ := Except.mapM_cons_ok hentries
    obtain ⟨node, rfl⟩ := exportEntry_ok hfirst
    have htail := ih hrest
      (fun name hmem => hforeign name (List.mem_append_right _ hmem))
      (fun name hmem => hunseen name (List.mem_cons_of_mem _ hmem))
    have hhead : (Effect.emitted [entryEffect table (localName, exported)]).flatMap
        (survey.gather state) = survey.gather state localName := by
      rcases entryEffect_eq table localName node exported with ⟨name, hlocals, rfl, heq⟩ | ⟨-, heq⟩
      · rw [heq, h.name_eq name (hforeign name ?_)]
        · rfl
        · refine List.mem_append_left _ ?_
          rw [hlocals]
          exact List.mem_singleton_self name
      · rw [heq]
        exact h.gather_assign (hunseen exported List.mem_cons_self) localName
    rw [List.map_cons, ← List.singleton_append, Effect.emitted_append, List.flatMap_append, hhead,
      htail, List.flatMap_cons, h.entry_eq]

/-- **What is done for a statement** holds what the survey found in the statement, whichever form it
has. For exported names the survey must not care about what is given up. -/
theorem gather_emitted (h : survey.Carries state table foreign unseen)
    {statement : Node} {names : List String} {effects : List Effect}
    (htakes : Takes table statement names effects)
    (hlocals : ∀ name ∈ exportedLocals table statement, foreign name)
    (hdefault : ∀ name ∈ defaultLocals statement,
      survey.gather state (.identifier name) = [])
    (hnames : ∀ name ∈ names, unseen name) :
    (Effect.emitted effects).flatMap (survey.gather state) =
      survey.gather state statement.content := by
  -- What is emitted are assignments to the exports, and the survey sees through them to their
  -- values. So what is left in each case is that it goes on to these values in the statement, too.
  cases htakes with
  | @defaultValue declaration hname =>
    rw [h.gather_assign (hnames _ (List.mem_singleton_self _)), h.expression_eq declaration]
    · exact (h.default_eq declaration).symm
    · intro name hsome
      rw [hname] at hsome
      cases hsome
  | @defaultNamed declaration name hname =>
    rw [← List.singleton_append, Effect.emitted_append, List.flatMap_append,
      h.gather_assign (hnames _ (List.mem_singleton_self _)), hdefault name (by
        rw [defaultLocals, hname]
        exact List.mem_singleton_self name), List.append_nil]
    exact (List.append_nil _).trans (h.default_eq declaration).symm
  | @declarators declarations specifiers kind source hids =>
    have hdeclared : ∀ name value,
        .variableDeclarator (.identifier name) (some value) ∈ declarations →
        foreign name ∧ unseen name := by
      intro name value hmem
      have hname := Node.mem_declaratorNames_of_mem hmem
      exact ⟨hlocals name hname, hnames name hname⟩
    rw [Effect.emitted_append, emitted_exportAs, List.append_nil,
      h.gather_declarators hids hdeclared]
    exact (gather_variableDeclaration survey state declarations kind).symm
  | @declaration declaration name specifiers source hname =>
    have hforeign : foreign name := by
      refine hlocals name ?_
      rw [exportedLocals, declarationName?_eq hname]
      exact List.mem_singleton_self name
    rw [← List.singleton_append, Effect.emitted_append, List.flatMap_append,
      h.gather_assign (hnames _ (List.mem_singleton_self _)), h.expression_eq declaration]
    · exact List.append_nil _
    · intro other hother
      rw [hname] at hother
      cases hother
      exact hforeign
  | @reexport specifiers source specifier pairs hsource hknown hpairs =>
    change _ = survey.gather state (.exportNamedDeclaration none specifiers (some source))
    rw [h.reexport_eq, List.map_eq_flatMap, emitted_flatMap, List.flatMap_assoc,
      List.flatMap_eq_nil_iff]
    intro pair hpair
    have hassign := h.gather_assign (hnames pair.2 (List.mem_map_of_mem hpair))
      (.access (dependencyParam (table.specifiers.idxOf specifier)) pair.1)
    rw [h.import_eq _ _ (Dependencies.injects_dependencyParam
      (List.idxOf_lt_length_of_mem hknown))] at hassign
    exact hassign
  | @list specifiers entries hentries =>
    change _ = survey.gather state (.exportNamedDeclaration none specifiers none)
    rw [h.list_eq]
    exact h.gather_entries hentries hlocals hnames
  | other hexport =>
    have hcontent : statement.content = statement := by
      cases statement <;> first | rfl | cases hexport
    rw [hcontent]
    exact List.append_nil _

/-! ## All statements -/

/-- A statement gives up no name that the survey cares about, neither to a pass nor as the name of a
default export. -/
structure Settled (survey : Survey σ α) (state : σ) (foreign : String → Prop)
    (table : Dependencies) (statement : Node) : Prop where
  locals : ∀ name ∈ exportedLocals table statement, foreign name
  defaults : ∀ name ∈ defaultLocals statement, survey.gather state (.identifier name) = []

/-- A statement that is settled remains so through passes to parameters, which is why it can be
asked of the text. -/
theorem Settled.replaceAll {statement : Node} {passes : List Pass}
    (h : Settled survey state foreign table statement)
    (hobjects : ∀ pass ∈ passes, table.injects pass.access.object = true) :
    Settled survey state foreign table (Pass.replaceAll passes statement) :=
  ⟨fun name hmem => h.locals name (exportedLocals_replaceAll_subset hobjects statement hmem),
    fun name hmem => h.defaults name (defaultLocals_replaceAll_subset passes statement hmem)⟩

/-- Effects add what they emit, and their passes change nothing. Together with `gather_emitted` this
gives the findings in what is done, statement by statement. -/
theorem gather_apply {effects : List Effect}
    (hpasses : ∀ pass ∈ Effect.passes effects, survey.Stable pass) (done : List Node) :
    (Effect.applyAll done effects).flatMap (survey.gather state) =
      done.flatMap (survey.gather state) ++
        (Effect.emitted effects).flatMap (survey.gather state) := by
  induction effects generalizing done with
  | nil => exact (List.append_nil _).symm
  | cons effect rest ih =>
    have hrest := ih (fun pass hmem => hpasses pass (List.mem_append_right _ hmem))
      (Effect.apply done effect)
    have hstep : Effect.applyAll done (effect :: rest) =
        Effect.applyAll (Effect.apply done effect) rest := rfl
    rw [hstep, hrest]
    cases effect with
    | emit statement =>
      simp only [Effect.apply, Effect.emitted, List.flatMap_append, List.flatMap_cons,
        List.flatMap_nil, List.append_nil, List.append_assoc]
    | substitute pass =>
      have hpass : survey.Stable pass :=
        hpasses pass (List.mem_append_left _ (List.mem_singleton_self _))
      rw [Effect.apply, List.flatMap_map]
      simp only [hpass.gather_replace]
      rfl

/-- **The finished module** holds what the survey found in what was done before and in the
statements that were taken, in their order. -/
theorem gather_applyAll (h : survey.Carries state table foreign unseen)
    {statements : List Node} {names : List String} {effects : List Effect}
    (htakes : TakesAll table statements names effects)
    (hsettled : ∀ statement ∈ statements, Settled survey state foreign table statement)
    (hnames : ∀ name ∈ names, unseen name) (done : List Node) :
    (Effect.applyAll done effects).flatMap (survey.gather state) =
      done.flatMap (survey.gather state) ++
        statements.flatMap fun statement => survey.gather state statement.content := by
  -- The statements that follow are taken as the passes of the first one have left them. The survey
  -- finds the same in them, so it does not matter that the induction is not about the source.
  induction htakes generalizing done with
  | nil => exact (List.append_nil _).symm
  | @cons statement rest names names' effects effects' first others ih =>
    have hfirst := hsettled statement List.mem_cons_self
    have hpass : ∀ pass ∈ Effect.passes effects, survey.Stable pass ∧
        table.injects pass.access.object = true := by
      intro pass hmem
      obtain ⟨name, hname, exported, hexported, rfl⟩ := first.mem_passes hmem
      refine ⟨h.stable name exported (hfirst.locals name hname)
        (hnames exported (List.mem_append_left _ hexported)), ?_⟩
      exact table.injects_exportsParam
    have hrest := ih (by
        intro other hother
        obtain ⟨original, horiginal, rfl⟩ := List.mem_map.1 hother
        exact (hsettled original (List.mem_cons_of_mem _ horiginal)).replaceAll
          fun pass hmem => (hpass pass hmem).2)
      (fun name hmem => hnames name (List.mem_append_right _ hmem))
      (Effect.applyAll done effects)
    rw [Effect.applyAll_append, hrest, gather_apply (fun pass hmem => (hpass pass hmem).1),
      h.gather_emitted first hfirst.locals hfirst.defaults
        (fun name hmem => hnames name (List.mem_append_left _ hmem)),
      List.flatMap_cons, List.append_assoc, List.flatMap_map]
    congr 2
    refine List.flatMap_congr fun other _ => ?_
    rw [Pass.content_replaceAll]
    exact gather_replaceAll (fun pass hmem => (hpass pass hmem).1) state other.content

end Carries

end Survey

end DefineWrap
