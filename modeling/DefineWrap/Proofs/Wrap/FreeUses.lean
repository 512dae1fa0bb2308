/-
The substitution theorem: what a pass does to the free uses of names.

`freeUses` is the survey of the uses of a name where the name still has the meaning that it has
at the root, and `definitions` the survey of the places on the same way where the name is given a
value by its own declaration: an initial value, or a function. Both stop where a pass for the name
stops.

After a pass its name has no free use (`freeUses.gather_replace_self`), the free uses of every
other name are what they were, and a tree with neither a free use nor a definition of the name is
left as it is (`Pass.replace_eq_self`). `Pass.apply_freeUses` puts these together.
-/
import DefineWrap.Proofs.Wrap.Identifiers
import DefineWrap.Proofs.Wrap.Occurrences

set_option autoImplicit false

namespace DefineWrap

/-! ## The two surveys -/

namespace Node

/-- Whether what is below a node is closed to a name: the name means something else there, or
the node is the function declaration that the name stands for. -/
def closes (name : String) (node : Node) : Bool :=
  node.rebinds name || node.isFunctionDeclarationOf name

end Node

/-- The free uses of a name. Of a variable declaration only the initial values are looked at, and
not those of declarators that declare the name. -/
def freeUses (name : String) : Survey Unit String where
  found _ node := node.identifierName?.toList.filter (· = name)
  below _ node _ := if node.closes name then none else some ()
  declared _ _ _ := []
  pattern _ _ := none
  value _ id := if id.binds name then none else some ()

/-- The definitions of a name that stand where its free uses are looked for: the initial values
of declarators of the name alone, and its function declarations, as expressions. -/
def definitions (name : String) : Survey Unit Node where
  found _ node := if node.isFunctionDeclarationOf name then [node.asExpression] else []
  below _ node _ := if node.closes name then none else some ()
  declared _ id init := if id.isIdentifier name then init.toList else []
  pattern _ _ := none
  value _ id := if id.binds name then none else some ()

/-! ## Free uses -/

namespace freeUses

variable {name : String}

/-- An identifier of another name is no free use of this one. -/
theorem found_of_ne {node : Node} (h : node.identifierName? ≠ some name) :
    (freeUses name).found () node = [] := by
  simp only [freeUses, List.filter_eq_nil_iff, Option.mem_toList, decide_eq_true_iff]
  rintro other hother rfl
  exact h hother

/-- So there is nothing to find at an identifier of another name, in particular not at that of a
parameter. -/
theorem gather_identifier_of_ne {other : String} (h : other ≠ name) :
    (freeUses name).gather () (.identifier other) = [] := by
  rw [Survey.gather_eq _ () (.identifier other) (of_decide_eq_false rfl),
    found_of_ne fun heq => h (by simpa using heq)]
  rfl

/-- Below a node that is closed to the name nothing is found, as the survey does not go on there. -/
theorem gather_of_closes {node : Node} (hname : node.identifierName? = none)
    (hkind : node.kind ≠ .variableDeclaration) (h : node.closes name = true) :
    (freeUses name).gather () node = [] := by
  rw [Survey.gather_eq_nil_iff _ () node hkind]
  refine ⟨found_of_ne (by simp [hname]), fun child _ => ?_⟩
  simp only [freeUses, h, if_true]
  rfl

/-- Nor is anything found inside a node that shadows the name for its pass: either it binds the name
anew, or it is an import. -/
theorem gather_of_shadowed {pass : Pass} {node : Node}
    (hshadowed : pass.isShadowedBy node = true) : (freeUses pass.name).gather () node = [] := by
  have hkind := pass.kind_ne_of_shadowed hshadowed
  rw [pass.isShadowedBy_eq, Bool.or_eq_true] at hshadowed
  rcases hshadowed with hrebinds | himport
  · have hname : node.identifierName? = none := by
      cases node <;> first | rfl | cases hrebinds
    exact gather_of_closes hname hkind (by rw [Node.closes, hrebinds, Bool.true_or])
  · cases node
    case importDeclaration specifiers source =>
      rw [Survey.gather_eq _ () _ hkind, found_of_ne (of_decide_eq_false rfl)]
      rfl
    all_goals simp [Node.kind, Node.record] at himport

/-- The survey sees through assignments to accesses of another object. They are no scopes, and the
access is a use of its object only. -/
theorem seesThrough {access : Access} (h : access.object ≠ name) :
    (freeUses name).SeesThrough access where
  access_eq := Survey.gather_access (fun _ _ _ _ => rfl)
    (fun _ => found_of_ne fun heq => h (by simpa using heq)) (fun _ _ _ => rfl)
  assignment_eq _ _ := rfl
  value_eq _ _ := rfl
  statement_eq _ _ := rfl
  expression_eq _ _ := rfl

/-! ## Passes for other names -/

/-- Whether a node is closed to a name is not changed by a pass for another one. -/
theorem closes_rewrite {pass : Pass} (hname : name ≠ pass.name)
    (hobject : name ≠ pass.access.object) (node : Node) :
    (pass.rewrite node).closes name = node.closes name := by
  have hfunction : (pass.rewrite node).isFunctionDeclarationOf name =
      node.isFunctionDeclarationOf name := by
    cases node <;> rfl
  rw [Node.closes, Node.closes, pass.rebinds_rewrite hname hobject, hfunction]

/-- A pass for another name leaves the free uses of a name, even if it makes expressions of
functions that they stand in. -/
theorem stable {pass : Pass} (hname : name ≠ pass.name) (hobject : name ≠ pass.access.object) :
    (freeUses name).Stable pass where
  seesThrough := seesThrough (Ne.symm hobject)
  reference _ := gather_identifier_of_ne (Ne.symm hname)
  function _ id params body generator isAsync hid := by
    have hother := pass.any_isIdentifier_of_isOwnName hname hid
    have hcloses : (Node.functionExpression id params body generator isAsync).closes name =
        (Node.functionDeclaration id params body generator isAsync).closes name := by
      simp [Node.closes, Node.rebinds, Node.isFunctionDeclarationOf, hother]
    rw [Survey.gather_eq _ () (.functionExpression ..) (of_decide_eq_false rfl),
      Survey.gather_eq _ () (.functionDeclaration ..) (of_decide_eq_false rfl)]
    simp only [freeUses, hcloses]
    rfl
  found_eq _ node _ := by simp only [freeUses, pass.identifierName?_rewrite]
  below_eq _ node child _ _ := by simp only [freeUses, closes_rewrite hname hobject]
  declared_eq _ _ _ := rfl

/-! ## The pass for the name -/

/-- In a declarator that the pass has gone over there is no free use, if there is none in the
initial value when the pass has gone over that. -/
theorem gatherDeclarator_replaceDeclarator {pass : Pass} (id : Node) (init : Option Node)
    (ih : ∀ value, init = some value →
      (freeUses pass.name).gather () (pass.replace value) = []) :
    (freeUses pass.name).gatherDeclarator ()
      (pass.replaceDeclarator (.variableDeclarator id init)) = [] := by
  have hnone : ∀ parts : List Node,
      parts.flatMap ((freeUses pass.name).gatherIf none) = [] :=
    fun _ => List.flatMap_eq_nil_iff.2 fun _ _ => rfl
  rw [Pass.replaceDeclarator, Survey.gatherDeclarator]
  change [] ++ id.patternExpressions.flatMap ((freeUses pass.name).gatherIf none) ++ _ = []
  rw [hnone, List.nil_append, List.nil_append]
  by_cases hbinds : id.binds pass.name = true
  · have hvalue : (freeUses pass.name).value () id = none := if_pos hbinds
    rw [hvalue, hnone]
  · have hself : ¬ id.isIdentifier pass.name = true := fun hself =>
      hbinds (Node.binds_of_isIdentifier hself)
    have hvalue : (freeUses pass.name).value () id = some () := if_neg hbinds
    rw [hvalue, Pass.replaceValue, if_neg hself, if_neg hbinds]
    cases init with
    | none => rfl
    | some value =>
      rw [Option.map_some, Option.toList_some, List.flatMap_singleton]
      exact ih value rfl

/-- **After a pass its name has no free use.** The access must not be on the name, or each use would
be replaced by another one. Along the five cases, each of which is either closed or replaced. -/
theorem gather_replace_self {pass : Pass} (hobject : pass.access.object ≠ pass.name)
    (node : Node) : (freeUses pass.name).gather () (pass.replace node) = [] := by
  induction node using pass.replace_induction with
  | reference => exact (seesThrough hobject).access_eq ()
  | function id params body generator isAsync hid =>
    -- The function keeps its name as an expression, and so what it holds stays out of reach.
    rw [(seesThrough hobject).gather_assignmentStatement]
    have hown : id.any (·.isIdentifier pass.name) = true := hid
    exact gather_of_closes rfl (of_decide_eq_false rfl) (by simp [Node.closes, Node.rebinds, hown])
  | shadowed node hreplaced hshadowed => exact gather_of_shadowed hshadowed
  | declaration declarations kind ih =>
    rw [Survey.gather_variableDeclaration, List.flatMap_map, List.flatMap_eq_nil_iff]
    intro declarator hmem
    cases declarator
    case variableDeclarator id init =>
      exact gatherDeclarator_replaceDeclarator id init fun value heq => ih id value (heq ▸ hmem)
    all_goals rfl
  | entered node henters ih =>
    rw [Survey.gather_eq_nil_iff _ () _ henters.rewrite_undeclared, pass.children_rewrite,
      List.forall_mem_map]
    constructor
    · apply found_of_ne
      rw [pass.identifierName?_rewrite]
      intro hname
      have hself : node = .identifier pass.name := Node.isIdentifier_iff.1 (decide_eq_true hname)
      have hkept := henters.unreplaced
      rw [hself] at hkept
      simp [Pass.replacement?] at hkept
    · intro child hchild
      simp only [freeUses]
      split
      · rfl
      · exact ih child hchild

end freeUses

/-! ## Where a pass has nothing to do -/

namespace Pass

variable {pass : Pass}

theorem isFunctionDeclarationOf_eq_false {node : Node} (h : pass.replacement? node = none) :
    node.isFunctionDeclarationOf pass.name = false := by
  cases node
  case functionDeclaration id params body generator isAsync => exact pass.isOwnName_eq_false h
  all_goals rfl

/-- A node that the pass enters is not closed to its name, so the survey goes on wherever the pass
does. -/
theorem Enters.closes_eq_false {node : Node} (h : pass.Enters node) :
    node.closes pass.name = false := by
  rw [Node.closes, h.rebinds_eq_false, isFunctionDeclarationOf_eq_false h.unreplaced,
    Bool.or_false]

/-- A property whose value is no free use of the name is not spelled out. -/
theorem spellOut_eq_self {node : Node}
    (h : ∀ child ∈ node.children, child.isIdentifier pass.name = false) :
    pass.spellOut node = node := by
  cases node
  case property key value kind computed method shorthand =>
    have hvalue : value.isIdentifier pass.name = false :=
      h value (by simp [Node.children, Node.places])
    rw [spellOut, hvalue, Bool.not_false, Bool.and_true]
  all_goals rfl

/-- A declarator stays as it is if it does not define the name and its initial value stays. In a
pattern with the name nothing is looked at, and so nothing is asked of the value there. -/
theorem replaceDeclarator_eq_self (id : Node) (init : Option Node)
    (hdefined : (definitions pass.name).declared () id init = [])
    (ih : ∀ value, init = some value → id.binds pass.name = false → pass.replace value = value) :
    pass.replaceDeclarator (.variableDeclarator id init) = .variableDeclarator id init := by
  cases init with
  | none => rw [replaceDeclarator, pass.replaceValue_none]
  | some value =>
    have hself : ¬ id.isIdentifier pass.name = true := by
      intro hself
      simp [definitions, hself] at hdefined
    rw [replaceDeclarator, replaceValue, if_neg hself]
    by_cases hbinds : id.binds pass.name = true
    · rw [if_pos hbinds]
    · rw [if_neg hbinds, Option.map_some, ih value rfl (Bool.eq_false_iff.2 hbinds)]

/-- **A tree with neither a free use nor a definition of the name is left as it is.** A free use
alone is not enough to ask for, since definitions become assignments. -/
theorem replace_eq_self {node : Node} (huses : (freeUses pass.name).gather () node = [])
    (hdefinitions : (definitions pass.name).gather () node = []) : pass.replace node = node := by
  induction node using pass.replace_induction with
  | reference =>
    rw [Survey.gather_eq_nil_iff _ () (.identifier _) (of_decide_eq_false rfl)] at huses
    simp [freeUses] at huses
  | function id params body generator isAsync hid =>
    rw [Survey.gather_eq_nil_iff _ () (.functionDeclaration ..) (of_decide_eq_false rfl)]
      at hdefinitions
    have hown : id.any (·.isIdentifier pass.name) = true := hid
    simp [definitions, Node.isFunctionDeclarationOf, hown] at hdefinitions
  | shadowed node hreplaced hshadowed => rfl
  | declaration declarations kind ih =>
    rw [Survey.gather_variableDeclaration, List.flatMap_eq_nil_iff] at huses hdefinitions
    congr 1
    refine (List.map_congr_left fun declarator hmem => ?_).trans (List.map_id _)
    have hnouse := huses declarator hmem
    have hnodefinition := hdefinitions declarator hmem
    cases declarator
    case variableDeclarator id init =>
      rw [Survey.gatherDeclarator, List.append_eq_nil_iff, List.append_eq_nil_iff]
        at hnouse hnodefinition
      refine replaceDeclarator_eq_self id init hnodefinition.1.1 fun value heq hbinds => ?_
      subst heq
      rw [Option.toList_some, List.flatMap_singleton] at hnouse hnodefinition
      simp only [freeUses, definitions, hbinds, Bool.false_eq_true, if_false]
        at hnouse hnodefinition
      exact ih id value hmem hnouse.2 hnodefinition.2
    all_goals rfl
  | entered node henters ih =>
    rw [Survey.gather_eq_nil_iff _ () node henters.undeclared] at huses hdefinitions
    simp only [freeUses, definitions, henters.closes_eq_false, Bool.false_eq_true, if_false]
      at huses hdefinitions
    -- No child is the name itself, so a shorthand property is not spelled out for it.
    have hchildren : ∀ child ∈ node.children, child.isIdentifier pass.name = false := by
      intro child hchild
      rw [Bool.eq_false_iff]
      intro hself
      have hnouse : (freeUses pass.name).gather () child = [] := huses.2 child hchild
      rw [Node.isIdentifier_iff.1 hself,
        Survey.gather_eq_nil_iff _ () (.identifier _) (of_decide_eq_false rfl)] at hnouse
      simp [freeUses] at hnouse
    rw [rewrite, spellOut_eq_self hchildren]
    exact Node.mapChildren_eq_self fun child hchild =>
      ih child hchild (huses.2 child hchild) (hdefinitions.2 child hchild)

/-! ## The theorem -/

/-- **The substitution theorem.** A pass that is not strict always succeeds. Then its name has no
free use in the tree; every other name that is not the parameter it brings in has as many free
uses as before; and if the tree held neither a free use nor a definition of the name, it is
exactly what it was. -/
theorem apply_freeUses {pass : Pass} (hstrict : pass.strict = false)
    (hobject : pass.access.object ≠ pass.name) (node : Node) :
    ∃ after, pass.apply node = .ok after ∧
      (freeUses pass.name).gather () after = [] ∧
      (∀ other, other ≠ pass.name → other ≠ pass.access.object →
        ((freeUses other).gather () after).length = ((freeUses other).gather () node).length) ∧
      ((freeUses pass.name).gather () node = [] → (definitions pass.name).gather () node = [] →
        after = node) := by
  refine ⟨pass.replace node, apply_of_not_strict hstrict node,
    freeUses.gather_replace_self hobject node, ?_, replace_eq_self⟩
  intro other hname hparam
  rw [(freeUses.stable hname hparam).gather_replace]

/-- The pass of an exported function `f`, which is not strict and replaces `f` by the member of the
exports. -/
def exportF : Pass := ⟨"f", .member exportsParam "f", false⟩

/-- The block `\x7b f(g); try \x7b f = g; \x7d catch (f) \x7b f(g); \x7d function f() \x7b return f;
\x7d \x7d`, with free uses, one that is caught and one inside the function itself. -/
def caughtAndDeclared : Node :=
  .blockStatement [
    .statement (.callExpression (.identifier "f") [.identifier "g"] false),
    .tryStatement
      (.blockStatement [.assignmentStatement (.identifier "f") (.identifier "g")])
      (some (.catchClause (some (.identifier "f"))
        (.blockStatement [.statement (.callExpression (.identifier "f") [.identifier "g"] false)])))
      none,
    .functionDeclaration (some (.identifier "f")) []
      (.blockStatement [.returnStatement (some (.identifier "f"))]) false false]

/-- Two of the four uses of `f` are free, and the function is a definition of it. None is left,
and the uses of `g` stay, one of them in the clause that the pass does not enter. -/
theorem apply_freeUses_caughtAndDeclared :
    exportF.strict = false ∧ exportF.access.object ≠ exportF.name ∧
      (freeUses "f").gather () caughtAndDeclared = ["f", "f"] ∧
      (freeUses "g").gather () caughtAndDeclared = ["g", "g", "g"] ∧
      ((definitions "f").gather () caughtAndDeclared).length = 1 ∧
      ∃ after, exportF.apply caughtAndDeclared = .ok after ∧
        (freeUses "f").gather () after = [] ∧
        ((freeUses "g").gather () after).length = 3 := by
  have hstrict : exportF.strict = false := rfl
  have hobject : exportF.access.object ≠ exportF.name := by decide
  have hg : (freeUses "g").gather () caughtAndDeclared = ["g", "g", "g"] := by
    with_unfolding_all rfl
  obtain ⟨after, happly, hnone, hothers, -⟩ :=
    apply_freeUses hstrict hobject caughtAndDeclared
  have hcount := hothers "g" (by decide) (by decide)
  rw [hg] at hcount
  exact ⟨hstrict, hobject, by with_unfolding_all rfl, hg, by with_unfolding_all rfl, after, happly,
    hnone, hcount⟩

end Pass

end DefineWrap
