/-
Which local names the passes of some statements are for.

Taking statements starts a pass for every local name that one of them gives up, and for no
others (`TakesAll.mem_passed_iff`). A name that a statement gives up is still given up after
passes for other names, and no longer after one for the name itself, unless the statement
declares it.
-/
import DefineWrap.Proofs.Wrap.Assigned

set_option autoImplicit false

namespace DefineWrap

namespace Pass

/-! ## Names after passes -/

/-- The name that stands at a place after a pass is the name that stood there before, if
the pass is for another one. -/
theorem identifierName?_replace_iff {pass : Pass} {name : String} (h : pass.access.object ≠ name)
    (node : Node) :
    (pass.replace node).identifierName? = some name ↔
      node.identifierName? = some name ∧ name ≠ pass.name := by
  constructor
  · intro hname
    refine ⟨(pass.identifierName?_replace hname).resolve_right (Ne.symm h), ?_⟩
    rintro rfl
    exact identifierName?_replace_ne h node hname
  · rintro ⟨hnode, hname⟩
    rw [Node.isIdentifier_iff.1 (decide_eq_true hnode : node.isIdentifier name = true),
      replace_identifier, if_neg hname]
    rfl

/-- After passes a name stands where it stood, if there has been none for it. Accesses must not be
to the name, or a pass would bring it in. -/
theorem identifierName?_replaceAll_iff {passes : List Pass} {name : String}
    (h : ∀ pass ∈ passes, pass.access.object ≠ name) (node : Node) :
    (replaceAll passes node).identifierName? = some name ↔
      node.identifierName? = some name ∧ name ∉ passes.map (·.name) := by
  induction passes generalizing node with
  | nil => simp
  | cons pass rest ih =>
    rw [replaceAll_cons, ih fun other hmem => h other (List.mem_cons_of_mem _ hmem),
      identifierName?_replace_iff (h pass List.mem_cons_self), List.map_cons, List.mem_cons,
      not_or, and_assoc]

/-- Of an entry the local name goes through the passes, and the exported one stays. -/
theorem replaceAll_exportSpecifier (passes : List Pass) (localName exported : Node) :
    replaceAll passes (.exportSpecifier localName exported) =
      .exportSpecifier (replaceAll passes localName) exported := by
  induction passes generalizing localName with
  | nil => rfl
  | cons pass rest ih => rw [replaceAll_cons, replace_exportSpecifier, ih, replaceAll_cons]

theorem replaceAll_exportDefaultDeclaration (passes : List Pass) (declaration : Node) :
    replaceAll passes (.exportDefaultDeclaration declaration) =
      .exportDefaultDeclaration (replaceAll passes declaration) := by
  induction passes generalizing declaration with
  | nil => rfl
  | cons pass rest ih => rw [replaceAll_cons, replace_exportDefaultDeclaration, ih, replaceAll_cons]

/-- A variable declaration goes on declaring the same names, as its patterns stay and no declarator
is lost. -/
theorem replaceAll_variableDeclaration (passes : List Pass) (declarations : List Node)
    (kind : VariableKind) :
    ∃ others, replaceAll passes (.variableDeclaration declarations kind) =
        .variableDeclaration others kind ∧
      others.flatMap Node.declaratorNames = declarations.flatMap Node.declaratorNames := by
  induction passes generalizing declarations with
  | nil => exact ⟨declarations, rfl, rfl⟩
  | cons pass rest ih =>
    obtain ⟨others, heq, hnames⟩ := ih (declarations.map pass.replaceDeclarator)
    refine ⟨others, by rw [replaceAll_cons, replace_variableDeclaration, heq], ?_⟩
    rw [hnames, List.flatMap_map]
    exact List.flatMap_congr fun declarator _ => pass.declaratorNames_replaceDeclarator declarator

/-- A pass keeps what a declaration declares, or makes it an expression statement. The latter
happens to a function of the name of the pass. -/
theorem directDeclarations?_replace (pass : Pass) (node : Node) :
    (pass.replace node).directDeclarations? = node.directDeclarations? ∨
      (pass.replace node).kind = .expressionStatement := by
  induction node using pass.replace_induction with
  | reference => exact .inl (directDeclarations?_access pass.access)
  | function id params body generator isAsync hid => exact .inr rfl
  | shadowed node hreplaced hshadowed => exact .inl rfl
  | declaration declarations kind ih =>
    refine .inl ?_
    simp only [Node.directDeclarations?, List.flatMap_map, declaratorNames_replaceDeclarator]
  | entered node henters ih => exact .inl (pass.directDeclarations?_rewrite henters.undeclared)

/-- An expression statement stays one, so a declaration that has been lost does not come back. -/
theorem kind_replaceAll_expressionStatement (passes : List Pass) {node : Node}
    (h : node.kind = .expressionStatement) :
    (replaceAll passes node).kind = .expressionStatement := by
  induction passes generalizing node with
  | nil => exact h
  | cons pass rest ih =>
    have henters : pass.Enters node := by
      cases node
      case expressionStatement => exact ⟨rfl, of_decide_eq_false rfl, rfl⟩
      all_goals cases h
    rw [replaceAll_cons]
    refine ih ?_
    rw [pass.replace_of_enters henters, pass.kind_rewrite, h]

/-- What a declaration declares it declares after passes, too, unless they have made it an
expression statement. -/
theorem directDeclarations?_replaceAll (passes : List Pass) (node : Node) :
    (replaceAll passes node).directDeclarations? = node.directDeclarations? ∨
      (replaceAll passes node).kind = .expressionStatement := by
  induction passes generalizing node with
  | nil => exact .inl rfl
  | cons pass rest ih =>
    rcases directDeclarations?_replace pass node with hfirst | hfirst
    · exact (ih (pass.replace node)).imp_left fun hrest => hrest.trans hfirst
    · exact .inr (kind_replaceAll_expressionStatement rest hfirst)

theorem declarationName?_replaceAll {passes : List Pass} {node : Node} {name : String}
    (h : declarationName? (replaceAll passes node) = some name) :
    declarationName? node = some name := by
  induction passes generalizing node with
  | nil => exact h
  | cons pass rest ih => exact pass.declarationName?_replace (ih h)

end Pass

/-! ## What a statement gives up after passes -/

section

variable {table : Dependencies} {passes : List Pass}

/-- The local name of an entry is given up as long as there has been no pass for it. After that the
entry is an access, which is assigned at once. -/
theorem mem_entryLocals_replaceAll
    (hobjects : ∀ pass ∈ passes, table.injects pass.access.object = true) {name : String}
    {specifier : Node} :
    name ∈ entryLocals table (Pass.replaceAll passes specifier) ↔
      name ∈ entryLocals table specifier ∧ name ∉ passes.map (·.name) := by
  by_cases hkind : specifier.kind = .exportSpecifier
  · obtain ⟨localName, exported, rfl⟩ := Node.hasFormOf_of_kind_eq hkind
    rw [Pass.replaceAll_exportSpecifier, entryLocals, entryLocals, List.mem_filter,
      List.mem_filter, Option.mem_toList, Option.mem_toList]
    by_cases hparam : table.injects name = true
    · simp [hparam]
    · have hname : ∀ pass ∈ passes, pass.access.object ≠ name := by
        rintro pass hmem rfl
        exact hparam (hobjects pass hmem)
      rw [Pass.identifierName?_replaceAll_iff hname]
      exact and_right_comm
  · rw [entryLocals_of_kind_ne hkind,
      entryLocals_of_kind_ne (Pass.kind_replaceAll_ne hkind (by decide) passes)]
    simp

/-- A statement that can be taken declares what it declared before the passes: the one that has lost
its declaration is refused, as it exports an expression. -/
theorem Takes.declaredLocals_eq {statement : Node} {names : List String} {effects : List Effect}
    (htakes : Takes table (Pass.replaceAll passes statement) names effects) :
    declaredLocals (Pass.replaceAll passes statement) = declaredLocals statement := by
  have hnone : ∀ node : Node, node.kind ≠ .exportNamedDeclaration → declaredLocals node = [] := by
    intro node hkind
    cases node <;> first | rfl | exact absurd rfl hkind
  by_cases hkind : statement.kind = .exportNamedDeclaration
  · obtain ⟨declaration, specifiers, source, rfl⟩ := Node.hasFormOf_of_kind_eq hkind
    rw [Pass.replaceAll_exportNamedDeclaration] at htakes ⊢
    cases declaration with
    | none => rfl
    | some declaration =>
      rcases Pass.directDeclarations?_replaceAll passes declaration with hsame | hstatement
      · exact congrArg (·.getD []) hsame
      -- No expression statement is exported.
      · rw [Option.map_some] at htakes
        generalize Pass.replaceAll passes declaration = replaced at htakes hstatement
        cases htakes with
        | declarators h => cases hstatement
        | declaration h => cases replaced <;> first | (cases hstatement; done) | cases h
        | other h => cases h
  · rw [hnone _ hkind, hnone _ (Pass.kind_replaceAll_ne hkind (by decide) passes)]

theorem Takes.declaredLocals_subset {statement : Node} {names : List String}
    {effects : List Effect} (htakes : Takes table statement names effects) :
    declaredLocals statement ⊆ names := by
  cases htakes with
  | declarators h => exact fun _ hmem => hmem
  | declaration h =>
    rw [declaredLocals, declarationName?_eq h]
    exact fun _ hmem => hmem
  | other h =>
    have hnone : declaredLocals statement = [] := by
      cases statement <;> first | rfl | cases h
    rw [hnone]
    exact List.nil_subset _
  | _ => exact List.nil_subset _

/-- What is declared in an export is exported, for each of the statements that are taken. So no two
of them declare the same name, since exported names are distinct. -/
theorem TakesAll.declaredLocals_subset {statements : List Node} {names : List String}
    {effects : List Effect}
    (htakes : TakesAll table (statements.map (Pass.replaceAll passes)) names effects)
    {statement : Node} (hmem : statement ∈ statements) : declaredLocals statement ⊆ names := by
  obtain ⟨first, rest, rfl⟩ := List.append_of_mem hmem
  obtain ⟨names₁, effects₁, names', effects', names₂, effects₂, rfl, -, -, hstatement, -⟩ :=
    htakes.split (List.map_append.trans (congrArg _ List.map_cons))
  rw [← Pass.replaceAll_append] at hstatement
  rw [← hstatement.declaredLocals_eq]
  intro name hname
  exact List.mem_append_left _ (List.mem_append_right _ (hstatement.declaredLocals_subset hname))

/-! ## The passes of statements -/

/-- The passes of an export list are for the local names of its entries, in their order. -/
theorem passed_entries {specifiers : List Node} {entries : List (Node × String)}
    (h : specifiers.mapM exportEntry = .ok entries) :
    Effect.passed (entries.map (entryEffect table)) = specifiers.flatMap (entryLocals table) := by
  induction specifiers generalizing entries with
  | nil =>
    cases h
    rfl
  | cons specifier rest ih =>
    obtain ⟨⟨localName, exported⟩, others, hfirst, hrest, rfl⟩ := Except.mapM_cons_ok h
    obtain ⟨node, rfl⟩ := exportEntry_ok hfirst
    rw [List.map_cons, ← List.singleton_append, Effect.passed_append, ih hrest, List.flatMap_cons]
    congr 1
    rcases entryEffect_eq table localName node exported with ⟨name, hlocals, -, heq⟩ |
      ⟨hlocals, heq⟩ <;>
      rw [hlocals, heq] <;> rfl

/-- **A statement starts one pass for each local name that it gives up**, in the same order. The
names are those of the statement as it is taken. -/
theorem Takes.passed_eq {statement : Node} {names : List String} {effects : List Effect}
    (htakes : Takes table statement names effects) :
    Effect.passed effects = exportedLocals table statement := by
  cases htakes with
  | @declarators declarations specifiers kind source h =>
    rw [Effect.passed_append, Effect.passed, Effect.passed, assigns.passes_initialEffects,
      Effect.passes_exportAs, List.map_map]
    exact List.map_id _
  | declaration h =>
    rw [exportedLocals, declarationName?_eq h]
    rfl
  | @reexport specifiers source specifier pairs hsource hknown hnames =>
    have hnone : Effect.passes (pairs.map (reexportEffect
        (dependencyParam (table.specifiers.idxOf specifier)))) = [] := by
      rw [Effect.passes, List.flatMap_map]
      exact List.flatMap_eq_nil_iff.2 fun _ _ => rfl
    rw [Effect.passed, hnone]
    rfl
  | list h => exact passed_entries h
  | other h => cases statement <;> first | rfl | cases h
  | _ => rfl

/-- A local name is given up after passes for other names, if the statement can be taken. For a
declaration it is given up even after a pass for itself, and so lists are looked at apart. -/
theorem Takes.mem_exportedLocals {statement : Node} {names : List String} {effects : List Effect}
    (htakes : Takes table (Pass.replaceAll passes statement) names effects)
    (hobjects : ∀ pass ∈ passes, table.injects pass.access.object = true) {name : String}
    (hmem : name ∈ exportedLocals table statement) (hname : name ∉ passes.map (·.name)) :
    name ∈ exportedLocals table (Pass.replaceAll passes statement) := by
  cases hlist : isExportList statement with
  | true =>
    obtain ⟨specifiers, rfl⟩ := isExportList_iff.1 hlist
    obtain ⟨specifier, hspecifier, hlocal⟩ := List.mem_flatMap.1 hmem
    rw [Pass.replaceAll_exportNamedDeclaration]
    refine List.mem_flatMap.2 ⟨_, List.mem_map_of_mem hspecifier, ?_⟩
    exact (mem_entryLocals_replaceAll hobjects).2 ⟨hlocal, hname⟩
  | false =>
    have hlist' : isExportList (Pass.replaceAll passes statement) = false := by
      rw [Bool.eq_false_iff, Ne, isExportList_iff]
      rintro ⟨specifiers, heq⟩
      obtain ⟨original, others, rfl, hnone, -⟩ := Pass.exists_of_replaceAll_eq heq
      rw [Option.map_eq_none_iff.1 hnone.symm] at hlist
      cases hlist
    rw [exportedLocals_eq hlist] at hmem
    rwa [exportedLocals_eq hlist', htakes.declaredLocals_eq]

/-- **The passes of statements** are for the local names that they give up, other than those
that there have been passes for before. -/
theorem TakesAll.mem_passed_iff {statements : List Node} {names : List String}
    {effects : List Effect}
    (htakes : TakesAll table (statements.map (Pass.replaceAll passes)) names effects)
    (hobjects : ∀ pass ∈ passes, table.injects pass.access.object = true) {name : String}
    (hname : name ∉ passes.map (·.name)) :
    name ∈ Effect.passed effects ↔ name ∈ statements.flatMap (exportedLocals table) := by
  constructor
  · intro hmem
    obtain ⟨pass, hpass, rfl⟩ := List.mem_map.1 hmem
    obtain ⟨statement, hstatement, name, hname, exported, -, rfl⟩ := htakes.mem_passes hpass
    obtain ⟨original, horiginal, rfl⟩ := List.mem_map.1 hstatement
    exact List.mem_flatMap.2 ⟨original, horiginal,
      exportedLocals_replaceAll_subset hobjects original hname⟩
  · intro hmem
    obtain ⟨statement, hstatement, hlocal⟩ := List.mem_flatMap.1 hmem
    obtain ⟨first, rest, rfl⟩ := List.append_of_mem hstatement
    obtain ⟨names₁, effects₁, names', effects', names₂, effects₂, -, rfl, hfirst, htakes', -⟩ :=
      htakes.split (List.map_append.trans (congrArg _ List.map_cons))
    rw [Effect.passed_append, Effect.passed_append, List.mem_append, List.mem_append]
    -- If the name has not been given up before, the passes so far have left it in the statement.
    by_cases hpassed : name ∈ Effect.passed effects₁
    · exact .inl (.inl hpassed)
    · rw [← Pass.replaceAll_append] at htakes'
      have hall : ∀ pass ∈ passes ++ Effect.passes effects₁,
          table.injects pass.access.object = true := by
        intro pass hpass
        rcases List.mem_append.1 hpass with hpass | hpass
        · exact hobjects pass hpass
        · obtain ⟨-, -, other, -, member, -, rfl⟩ := hfirst.mem_passes hpass
          exact table.injects_exportsParam
      have hnone : name ∉ (passes ++ Effect.passes effects₁).map (·.name) := by
        rw [List.map_append, List.mem_append]
        exact not_or.2 ⟨hname, hpassed⟩
      exact .inl (.inr (htakes'.passed_eq ▸
        (htakes'.mem_exportedLocals hall hlocal hnone)))

end

end DefineWrap
