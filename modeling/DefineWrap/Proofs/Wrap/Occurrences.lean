/-
Which occurrences of an imported name are left in the wrapped module.

The import itself is gone, so every use of its name that is left outside the scopes that
bind the name anew refers to nothing. `occurrences` is the survey of these uses. It has two
ways through a tree: `passedBy` looks at every expression, and `visited` looks at those
only that the pass for the name does not come to, which stand inside the patterns of
variable declarations.

After the pass for a name the one finds what the other found before
(`gather_passedBy_replace`), and nothing else that is done to a module touches uses of the
name. So the uses that are left are exactly the ones in default values and computed keys
inside the patterns of variable declarations (`Program.wrap_occurrences`).
-/
import DefineWrap.Proofs.Wrap.Imported

set_option autoImplicit false

namespace DefineWrap

/-! ## Occurrences of a name -/

/-- How a survey has come to a node: on the way that the pass goes, or on one that the
pass passes by. -/
inductive Way where
  | visited
  | passedBy
  deriving DecidableEq, Repr

namespace Node

/-- Whether a node is a function declaration of the name. Such a one is not entered by the pass but
replaced as a whole, with all that is in it. -/
def isFunctionDeclarationOf (name : String) : Node → Bool
  | .functionDeclaration id _ _ _ _ => id.any (·.isIdentifier name)
  | _ => false

/-- Whether a node hides what is below it: the name is bound anew there, or the pass takes
the whole node away and puts a function of the same name in its place. -/
def hides (name : String) (way : Way) (node : Node) : Bool :=
  node.rebinds name || (way = .visited && node.isFunctionDeclarationOf name)

end Node

/-- The uses of a name outside the scopes that bind it anew, and outside the initial
values of declarators that declare it. -/
def occurrences (name : String) : Survey Way String where
  found way node := node.identifierName?.toList.filter (· = name && way = .passedBy)
  below way node _ := if node.hides name way then none else some way
  declared _ _ _ := []
  pattern _ _ := some .passedBy
  value way id := if id.binds name then none else some way

namespace occurrences

variable {name : String}

theorem found_of_not_identifier {way : Way} {node : Node} (h : node.identifierName? = none) :
    (occurrences name).found way node = [] := by
  simp [occurrences, h]

/-- On the way of the pass nothing is found, since each use that the pass comes to is replaced. -/
theorem found_visited (node : Node) : (occurrences name).found .visited node = [] := by
  simp [occurrences]

/-- An identifier of another name is no occurrence, on either way. -/
theorem found_of_ne {way : Way} {node : Node} (h : node.identifierName? ≠ some name) :
    (occurrences name).found way node = [] := by
  simp only [occurrences, List.filter_eq_nil_iff, Option.mem_toList]
  rintro other hother hkeep
  rw [Bool.and_eq_true, decide_eq_true_iff] at hkeep
  exact h (hkeep.1 ▸ hother)

/-- So there is nothing to find at and below an identifier of another name, in particular at that of
a parameter. -/
theorem gather_identifier_of_ne {way : Way} {other : String} (h : other ≠ name) :
    (occurrences name).gather way (.identifier other) = [] := by
  rw [Survey.gather_eq _ way (.identifier other) (of_decide_eq_false rfl),
    found_of_ne fun heq => h (by simpa using heq)]
  rfl

/-- Inside a node that hides the name nothing is found, by the way of the survey and not by what is
there. -/
theorem gather_of_hides {way : Way} {node : Node} (hname : node.identifierName? = none)
    (hkind : node.kind ≠ .variableDeclaration) (h : node.hides name way = true) :
    (occurrences name).gather way node = [] := by
  rw [Survey.gather_eq _ way node hkind, found_of_not_identifier hname, List.nil_append,
    List.flatMap_eq_nil_iff]
  intro child _
  simp only [occurrences, h, if_true]
  rfl

/-- Assignments to accesses of other objects show the survey their values only. They hide nothing
either, as they are no scopes. -/
theorem seesThrough {access : Access} (h : access.object ≠ name) :
    (occurrences name).SeesThrough access where
  access_eq := Survey.gather_access (fun _ _ _ _ => found_of_not_identifier rfl)
    (fun _ => found_of_ne fun heq => h (by simpa using heq))
    (fun _ _ _ => found_of_not_identifier rfl)
  assignment_eq _ _ := found_of_not_identifier rfl
  value_eq way value := by simp [occurrences, Node.hides, Node.rebinds, Node.assignment,
    Node.isFunctionDeclarationOf]
  statement_eq _ _ := found_of_not_identifier rfl
  expression_eq way value := by simp [occurrences, Node.hides, Node.rebinds, Node.statement,
    Node.isFunctionDeclarationOf]

/-! ## Passes for other names -/

/-- A function that is not of the name hides as much as a declaration and as an expression. One of
the name would hide as an expression what it binds. -/
theorem hides_functionExpression {way : Way} {id : Option Node} (params : List Node)
    (body : Node) (generator isAsync : Bool) (h : id.any (·.isIdentifier name) = false) :
    (Node.functionExpression id params body generator isAsync).hides name way =
      (Node.functionDeclaration id params body generator isAsync).hides name way := by
  simp [Node.hides, Node.rebinds, Node.isFunctionDeclarationOf, h]

/-- A function that is not of the name is surveyed alike as a declaration and as an expression. A
pass and a default export turn the one into the other. -/
theorem gather_functionExpression {way : Way} {id : Option Node} (params : List Node)
    (body : Node) (generator isAsync : Bool) (h : id.any (·.isIdentifier name) = false) :
    (occurrences name).gather way (.functionExpression id params body generator isAsync) =
      (occurrences name).gather way (.functionDeclaration id params body generator isAsync) := by
  rw [Survey.gather_eq _ way (.functionExpression ..) (of_decide_eq_false rfl),
    Survey.gather_eq _ way (.functionDeclaration ..) (of_decide_eq_false rfl)]
  simp only [occurrences, hides_functionExpression params body generator isAsync h]
  rfl

/-- What a pass for another name enters hides the name as before: it binds the same names, and it is
a function of the name or not as before. -/
theorem hides_rewrite {pass : Pass} (hname : name ≠ pass.name)
    (hobject : name ≠ pass.access.object) (way : Way) (node : Node) :
    (pass.rewrite node).hides name way = node.hides name way := by
  have hfunction : (pass.rewrite node).isFunctionDeclarationOf name =
      node.isFunctionDeclarationOf name := by
    cases node <;> rfl
  rw [Node.hides, Node.hides, pass.rebinds_rewrite hname hobject, hfunction]

/-- A pass for another name changes no occurrences, if its accesses are not to the name. -/
theorem stable {pass : Pass} (hname : name ≠ pass.name) (hobject : name ≠ pass.access.object) :
    (occurrences name).Stable pass where
  seesThrough := seesThrough (Ne.symm hobject)
  reference _ := gather_identifier_of_ne (Ne.symm hname)
  function way id params body generator isAsync hid :=
    gather_functionExpression params body generator isAsync
      (pass.any_isIdentifier_of_isOwnName hname hid)
  found_eq way node _ := by
    simp only [occurrences, pass.identifierName?_rewrite]
  below_eq way node child _ _ := by
    simp only [occurrences, hides_rewrite hname hobject]
  declared_eq _ _ _ := rfl

/-! ## The pass for the name -/

/-- After the pass for the name, a survey that passes by is hidden exactly where the pass was
stopped before. This ties the two ways of the survey to each other. -/
theorem hides_rewrite_self {pass : Pass} {node : Node} (h : pass.Enters node) :
    (pass.rewrite node).hides pass.name .passedBy = node.hides pass.name .visited := by
  have hbefore := h.rebinds_eq_false
  have hfunction : node.isFunctionDeclarationOf pass.name = false := by
    cases node
    case functionDeclaration id params body generator isAsync =>
      exact pass.isOwnName_eq_false h.unreplaced
    all_goals rfl
  simp [Node.hides, pass.rebinds_rewrite_self h, hbefore, hfunction]

/-- What shadows the name from the pass hides it from the survey, too, or is an import, which
mentions no variable. -/
theorem gather_of_shadowed {pass : Pass} {node : Node} (hreplaced : pass.replacement? node = none)
    (hshadowed : pass.isShadowedBy node = true) (way : Way) :
    (occurrences pass.name).gather way node = [] := by
  rw [pass.isShadowedBy_eq, Bool.or_eq_true] at hshadowed
  rcases hshadowed with hrebinds | himport
  · have hidentifier : node.identifierName? = none := by
      cases node <;> first | rfl | cases hrebinds
    have hkind : node.kind ≠ .variableDeclaration := by
      intro hkind
      obtain ⟨declarations, kind, rfl⟩ := Node.hasFormOf_of_kind_eq hkind
      cases hrebinds
    exact gather_of_hides hidentifier hkind (by rw [Node.hides, hrebinds, Bool.true_or])
  · cases node
    case importDeclaration specifiers source =>
      rw [Survey.gather_eq _ way (.importDeclaration ..) (of_decide_eq_false rfl),
        found_of_not_identifier rfl]
      rfl
    all_goals simp [Node.kind, Node.record] at himport

/-- A declarator holds after the pass, on the way that passes by, what it held before on
the way that the pass goes. -/
theorem gatherDeclarator_replaceDeclarator (pass : Pass) (declarator : Node)
    (ih : ∀ id value, declarator = .variableDeclarator id (some value) →
      (occurrences pass.name).gather .passedBy (pass.replace value) =
        (occurrences pass.name).gather .visited value) :
    (occurrences pass.name).gatherDeclarator .passedBy (pass.replaceDeclarator declarator) =
      (occurrences pass.name).gatherDeclarator .visited declarator := by
  cases declarator
  case variableDeclarator id init =>
    rw [Pass.replaceDeclarator, Survey.gatherDeclarator, Survey.gatherDeclarator]
    congr 1
    -- If the pattern binds the name, the pass does not go over the initial value, and on neither
    -- way does the survey.
    by_cases hbinds : id.binds pass.name = true
    · have hnone : ∀ way, (occurrences pass.name).value way id = none := by
        intro way
        simp [occurrences, hbinds]
      have hnil : ∀ parts : List Node,
          parts.flatMap ((occurrences pass.name).gatherIf none) = [] :=
        fun _ => List.flatMap_eq_nil_iff.2 fun _ _ => rfl
      rw [hnone, hnone, hnil, hnil]
    · have hself : id.isIdentifier pass.name = false := by
        rw [Bool.eq_false_iff]
        intro hself
        rw [Node.isIdentifier_iff] at hself
        exact hbinds (by simp [hself, Node.binds])
      have hsome : ∀ way, (occurrences pass.name).value way id = some way := by
        intro way
        simp [occurrences, hbinds]
      rw [hsome, hsome, Pass.replaceValue, hself, if_neg Bool.false_ne_true, if_neg hbinds]
      cases init with
      | none => rfl
      | some value =>
        simp only [Option.map_some, Option.toList_some, List.flatMap_singleton]
        exact ih id value rfl
  all_goals rfl

/-- **What the pass for a name leaves of it**: the uses that it passes by. The induction carries the
change of the way, from a survey of what the pass does not come to into one of everything that is
left. -/
theorem gather_passedBy_replace {pass : Pass} (hobject : pass.access.object ≠ pass.name)
    (node : Node) :
    (occurrences pass.name).gather .passedBy (pass.replace node) =
      (occurrences pass.name).gather .visited node := by
  induction node using pass.replace_induction with
  | reference =>
    rw [(seesThrough hobject).access_eq,
      Survey.gather_eq _ _ (.identifier pass.name) (of_decide_eq_false rfl), found_visited]
    rfl
  | function id params body generator isAsync hid =>
    have hown : id.any (·.isIdentifier pass.name) = true := hid
    -- The name of the function hides what is inside it, in the declaration as in the expression.
    have hbefore : (occurrences pass.name).gather .visited
        (.functionDeclaration id params body generator isAsync) = [] :=
      gather_of_hides rfl (of_decide_eq_false rfl)
        (by simp [Node.hides, Node.isFunctionDeclarationOf, hown])
    have hafter : (occurrences pass.name).gather .passedBy
        (.functionExpression id params body generator isAsync) = [] :=
      gather_of_hides rfl (of_decide_eq_false rfl) (by simp [Node.hides, Node.rebinds, hown])
    rw [(seesThrough hobject).gather_assignmentStatement, hbefore, hafter]
  | shadowed node hreplaced hshadowed =>
    rw [gather_of_shadowed hreplaced hshadowed, gather_of_shadowed hreplaced hshadowed]
  | declaration declarations kind ih =>
    rw [Survey.gather_variableDeclaration, Survey.gather_variableDeclaration, List.flatMap_map]
    refine List.flatMap_congr fun declarator hmem => ?_
    exact gatherDeclarator_replaceDeclarator pass declarator fun id value heq =>
      ih id value (heq ▸ hmem)
  | entered node henters ih =>
    have hkind := henters.rewrite_undeclared
    have hfound : (occurrences pass.name).found .passedBy (pass.rewrite node) = [] := by
      refine found_of_ne fun heq => ?_
      rw [pass.identifierName?_rewrite] at heq
      have hkept := henters.unreplaced
      cases node
      case identifier other =>
        cases heq
        simp [Pass.replacement?] at hkept
      all_goals cases heq
    rw [Survey.gather_eq _ _ _ hkind, Survey.gather_eq _ _ _ henters.undeclared, hfound,
      found_visited, pass.children_rewrite, List.flatMap_map]
    congr 1
    refine List.flatMap_congr fun child hchild => ?_
    simp only [occurrences, hides_rewrite_self henters]
    split
    · rfl
    · exact ih child hchild

/-! ## Everything else that is done to a module -/

/-- At a node that is no identifier and hides nothing, the occurrences are those of the children. -/
theorem gather_below (way : Way) (node : Node) (hname : node.identifierName? = none)
    (hkind : node.kind ≠ .variableDeclaration) (h : node.hides name way = false) :
    (occurrences name).gather way node =
      node.children.flatMap ((occurrences name).gather way) := by
  rw [Survey.gather_eq _ way node hkind, found_of_not_identifier hname, List.nil_append]
  refine List.flatMap_congr fun child _ => ?_
  simp only [occurrences, h, Bool.false_eq_true, if_false]
  rfl

/-- A declaration of another name has the same occurrences as an expression. -/
theorem gather_asExpression {declaration : Node}
    (h : ∀ other, declarationName? declaration = some other → other ≠ name) (way : Way) :
    (occurrences name).gather way declaration.asExpression =
      (occurrences name).gather way declaration := by
  cases declaration
  case functionDeclaration id params body generator isAsync =>
    exact gather_functionExpression params body generator isAsync
      (Node.any_isIdentifier_eq_false h)
  case classDeclaration id superClass body =>
    have hnone := Node.any_isIdentifier_eq_false h
    rw [Node.asExpression, gather_below way (.classExpression ..) rfl (of_decide_eq_false rfl) (by
        simp [Node.hides, Node.rebinds, Node.isFunctionDeclarationOf, hnone]),
      gather_below way (.classDeclaration ..) rfl (of_decide_eq_false rfl) (by
        simp [Node.hides, Node.rebinds, Node.isFunctionDeclarationOf])]
    rfl
  all_goals rfl

/-- Nothing that is done for other names than the imported one touches its occurrences. The
parameters of the wrapper count as other names, which is the condition on the table. -/
theorem carries {table : Dependencies} (hparam : table.injects name = false) :
    (occurrences name).Carries .passedBy table (· ≠ name) fun _ => True := by
  have hne : ∀ param, table.injects param = true → param ≠ name := fun _ =>
    Dependencies.ne_of_injects hparam
  have hexports : exportsParam ≠ name := hne exportsParam table.injects_exportsParam
  refine
    { stable := fun other exported hother _ => stable (Ne.symm hother) (Ne.symm hexports)
      seesThrough := fun exported _ => seesThrough hexports
      import_eq := fun param member hinjects => ?_
      name_eq := fun other hother => gather_identifier_of_ne hother
      export_eq := fun node hnode => ?_
      expression_eq := fun declaration hdeclaration => gather_asExpression hdeclaration _
      declarator_eq := fun other init hother => ?_ }
  · have haccess : (Access.member param member).object ≠ name := hne param hinjects
    exact (seesThrough haccess).access_eq .passedBy
  · cases node <;> first
      | exact ⟨rfl, fun _ => rfl⟩
      | (rcases hnode with hnode | hnode <;> cases hnode)
  · rw [Survey.gatherDeclarator, Node.patternExpressions_identifier]
    cases init with
    | none => rfl
    | some value =>
      have hbinds : (Node.identifier other).binds name = false := by
        simpa [Node.binds] using Ne.symm (hother rfl)
      simp [occurrences, hbinds, Survey.gatherIf]

end occurrences

/-! ## The wrapped module -/

/-- **The occurrences of an imported name that are left.** In the wrapped module they are
those, in the order of the text, that stand in default values and computed keys inside the
patterns of variable declarations, where the pass for the name does not come. So no
occurrence is left exactly if there are no such. -/
theorem Program.wrap_occurrences {program : Program} {options : WrapOptions} {wrapped : Wrapped}
    {name : String} (h : program.wrap options = .ok wrapped)
    (hname : name ∈ Wrapping.importedLocals program.body)
    (hexports : name ≠ exportsParam)
    (hslots : ∀ slot < wrapped.dependencies.length, name ≠ dependencyParam slot) :
    ∃ body, wrapped.program.body = [wrapper wrapped.dependencies body options] ∧
      body.flatMap ((occurrences name).gather .passedBy) =
        (Wrapping.statements program.body).flatMap fun statement =>
          (occurrences name).gather .visited statement.content := by
  obtain ⟨body, before, pass, hbody, rfl, hobject, hbefore, hgather⟩ := Program.wrap_gather h hname
    hexports hslots (fun _ => occurrences.carries) fun _ => occurrences.stable
  refine ⟨body, hbody, hgather.trans (List.flatMap_congr fun statement _ => ?_)⟩
  have hstable : ∀ other ∈ before, (occurrences pass.name).Stable other := fun other hmem =>
    occurrences.stable (hbefore other hmem).1 (hbefore other hmem).2
  exact (occurrences.gather_passedBy_replace hobject _).trans
    (Survey.gather_replaceAll hstable _ _)

/-- The module `import { a } from "m"; a(function (a) \x7b return a; \x7d);`, where the name is used
once as the import and once as a parameter of its own. -/
def shadowedArgument : Program :=
  ⟨[.importDeclaration [.importSpecifier (.identifier "a") (.identifier "a")] (.stringLiteral "m"),
    .statement (.call (.identifier "a")
      [.anonymousFunction [.identifier "a"] [.returnStatement (some (.identifier "a"))]])], none⟩

/-- The use of the parameter is none of the imported name, and no occurrence is left. -/
theorem Program.wrap_occurrences_shadowedArgument :
    ∃ wrapped body, shadowedArgument.wrap .default = .ok wrapped ∧
      wrapped.program.body = [wrapper wrapped.dependencies body .default] ∧
      body.flatMap ((occurrences "a").gather .passedBy) = [] := by
  have h : shadowedArgument.wrap .default = .ok ⟨⟨[wrapper ["m"]
      [.statement (.call (.access "__uDep0__" "a")
        [.anonymousFunction [.identifier "a"] [.returnStatement (some (.identifier "a"))]])]
      .default], some "script"⟩, ["m"]⟩ := by with_unfolding_all rfl
  have hname : "a" ∈ Wrapping.importedLocals shadowedArgument.body := by decide
  obtain ⟨body, hbody, hoccurrences⟩ :=
    Program.wrap_occurrences h hname (by decide) (by decide)
  refine ⟨_, body, h, hbody, hoccurrences.trans ?_⟩
  with_unfolding_all rfl

/-- The module `import { a } from "m"; var { p = a } = o;`, where the imported name stands only in
the default value of a pattern. -/
def defaultFromImport : Program :=
  ⟨[.importDeclaration [.importSpecifier (.identifier "a") (.identifier "a")] (.stringLiteral "m"),
    .variableDeclaration [.variableDeclarator (.objectPattern [.property (.identifier "p")
      (.assignmentPattern (.identifier "p") (.identifier "a")) "init" false false true])
      (some (.identifier "o"))] .var], none⟩

/-- A default value in the pattern of a variable declaration keeps the imported name, which nothing
binds any more when the result runs. -/
theorem Program.wrap_leaves_occurrence :
    ∃ wrapped body, defaultFromImport.wrap .default = .ok wrapped ∧
      "a" ∈ Wrapping.importedLocals defaultFromImport.body ∧
      "a" ≠ exportsParam ∧
      (∀ slot < wrapped.dependencies.length, "a" ≠ dependencyParam slot) ∧
      wrapped.program.body = [wrapper wrapped.dependencies body .default] ∧
      body.flatMap ((occurrences "a").gather .passedBy) = ["a"] := by
  have h : defaultFromImport.wrap .default = .ok ⟨⟨[wrapper ["m"]
      [.variableDeclaration [.variableDeclarator (.objectPattern [.property (.identifier "p")
        (.assignmentPattern (.identifier "p") (.identifier "a")) "init" false false true])
        (some (.identifier "o"))] .var]
      .default], some "script"⟩, ["m"]⟩ := by with_unfolding_all rfl
  refine ⟨_, _, h, by decide, by decide, by decide, rfl, ?_⟩
  with_unfolding_all rfl

end DefineWrap
