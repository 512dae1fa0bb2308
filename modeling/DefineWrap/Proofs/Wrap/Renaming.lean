/-
A pass in two steps.

A pass can put a name of its own choice in the place of the name that it is for, and a second pass
can then go for that name. If the name in between does not occur in the tree, the two do what one
pass does that puts the access in directly (`Pass.apply_inSteps`). So it is of no consequence under
which local name a module is imported.

The second pass does not go the same way as the first. It also looks into what shadows the first
name, and finds nothing there, as the name in between does not occur. And it goes on wherever the
first pass went on: there the name in between has only taken the place of uses, and so nothing
binds it (`Pass.Enters.rebinds_rewrite_eq_false`).
-/
import DefineWrap.Proofs.Wrap.Reached

set_option autoImplicit false

namespace DefineWrap

namespace Node

/-! ## Names that do not occur are bound nowhere -/

/-- What is declared in a scope occurs in it, at whatever depth the declaration stands. -/
theorem scopeDeclarations_subset_identifiers (node : Node) :
    node.scopeDeclarations ⊆ node.identifiers := by
  induction node using children_induction with
  | step node ih =>
    intro name hname
    rw [scopeDeclarations_eq] at hname
    cases hdirect : node.directDeclarations? with
    | some names =>
      rw [hdirect] at hname
      apply node.directDeclarations?_subset_identifiers
      rw [hdirect]
      exact hname
    | none =>
      rw [hdirect] at hname
      obtain ⟨child, hchild, hmem⟩ := List.mem_flatMap.1 hname
      apply identifiers_subset_of_mem_children hchild
      exact ih child hchild hmem

theorem binds_eq_false_of_fresh {node : Node} {name : String} (h : name ∉ node.identifiers) :
    node.binds name = false := by
  rw [← Bool.not_eq_true, binds_iff]
  intro hmem
  exact h (node.boundNames_subset_identifiers hmem)

/-- A node in which a name does not occur is no use of it. -/
theorem isIdentifier_eq_false_of_fresh {node : Node} {name : String}
    (h : name ∉ node.identifiers) : node.isIdentifier name = false := by
  rw [Bool.eq_false_iff]
  intro hself
  exact h (mem_identifiers_of_isIdentifier hself)

/-- What binds a name anew has it among its identifiers. So where a name does not occur no scope is
one of the name. -/
theorem rebinds_eq_false_of_fresh {node : Node} {name : String} (h : name ∉ node.identifiers) :
    node.rebinds name = false := by
  -- A node looks for the name in its parts only, as a name, a pattern or a declaration.
  have hpart : ∀ part ∈ node.parts, part.isIdentifier name = false ∧ part.binds name = false ∧
      part.declares name = false := by
    intro part hmem
    have hfresh : name ∉ part.identifiers := notMem_identifiers_of_mem_parts h hmem
    refine ⟨isIdentifier_eq_false_of_fresh hfresh, binds_eq_false_of_fresh hfresh, ?_⟩
    rw [← Bool.not_eq_true, declares_iff]
    intro hdeclared
    exact hfresh (part.scopeDeclarations_subset_identifiers hdeclared)
  cases node
  case functionDeclaration id params body generator isAsync =>
    simp_all [rebinds, parts, record, Record.inner, FieldValue.inner]
  case functionExpression id params body generator isAsync =>
    cases id <;> simp_all [rebinds, parts, record, Record.inner, FieldValue.inner]
  case arrowFunctionExpression params body isExpression isAsync =>
    simp_all [rebinds, parts, record, Record.inner, FieldValue.inner]
  case classExpression id superClass body =>
    cases id <;> simp_all [rebinds, parts, record, Record.inner, FieldValue.inner]
  case staticBlock body =>
    simp_all [rebinds, parts, record, Record.inner, FieldValue.inner]
  case catchClause param body =>
    cases param <;> simp_all [rebinds, parts, record, Record.inner, FieldValue.inner]
  all_goals rfl

end Node

namespace Pass

variable {pass : Pass} {node : Node}

/-- A pass for a name that does not occur replaces no node as a whole. -/
theorem replacement?_eq_none_of_fresh (h : pass.name ∉ node.identifiers) :
    pass.replacement? node = none := by
  by_contra hreplaced
  rcases pass.replacement?_isSome hreplaced with rfl |
    ⟨id, params, body, generator, isAsync, rfl, hid⟩
  · exact h (by simp)
  · cases id with
    | none => cases hid
    | some id =>
      have hmem : id ∈
          (Node.functionDeclaration (some id) params body generator isAsync).parts := by
        simp [Node.parts, Node.record, Record.inner, FieldValue.inner]
      apply h
      apply Node.identifiers_subset_of_mem_parts hmem
      exact Node.mem_identifiers_of_isIdentifier hid

/-! ## Two steps -/

/-- The first pass puts the name of the second in the place of its own, and the joint pass has the
name of the first and the access of the second. -/
structure InSteps (first second joint : Pass) : Prop where
  between : first.access = .whole second.name
  name_eq : joint.name = first.name
  access_eq : joint.access = second.access

namespace InSteps

variable {first second joint : Pass}

/-- What the second pass finds is what the first one has put there, and nothing else, as the name in
between did not occur. -/
theorem isIdentifier_replace (h : InSteps first second joint)
    (hfresh : second.name ∉ node.identifiers) :
    (first.replace node).isIdentifier second.name = node.isIdentifier first.name := by
  have haccess : first.access.node = .identifier second.name := by rw [h.between, Access.node]
  rw [Bool.eq_iff_iff, Node.isIdentifier_iff, Node.isIdentifier_iff, ← haccess]
  constructor
  · intro hput
    rcases eq_name_of_replace_eq_access hput with hname | hold
    · exact hname
    · rw [h.between] at hold
      exact absurd hold hfresh
  · rintro rfl
    rw [replace_identifier]
    exact if_pos rfl

/-- The second pass goes on where the first one went on: there the name in between is bound by
nothing, since it stands for uses only. -/
theorem enters_rewrite (hfresh : second.name ∉ node.identifiers) (henters : first.Enters node) :
    second.Enters (first.rewrite node) := by
  refine ⟨?_, henters.rewrite_undeclared, ?_⟩
  · rw [replacement?_rewrite]
    exact replacement?_eq_none_of_fresh hfresh
  · have hunshadowed := henters.unshadowed
    rw [isShadowedBy_eq, Bool.or_eq_false_iff] at hunshadowed ⊢
    rw [kind_rewrite]
    refine ⟨?_, hunshadowed.2⟩
    apply henters.rebinds_rewrite_eq_false
    exact Node.rebinds_eq_false_of_fresh hfresh

/-- A property that the second pass would have to spell out is spelled out already, because the
first pass has put its value there. -/
theorem spellOut_rewrite (h : InSteps first second joint)
    (hfresh : second.name ∉ node.identifiers) :
    second.spellOut (first.rewrite node) = first.rewrite node := by
  cases node
  case property key value kind computed method shorthand =>
    have hvalue : second.name ∉ value.identifiers := by
      apply Node.notMem_identifiers_of_mem_parts hfresh
      simp [Node.parts, Node.record, Record.inner, FieldValue.inner]
    simp [rewrite_eq_mapped, spellOut, Node.places, h.isIdentifier_replace hvalue]
  all_goals rfl

/-- A declarator in two steps. It binds what it bound, and so never the name in between. If it is of
the first name its value is assigned by the first pass, and the second replaces the target. -/
theorem replaceDeclarator_replaceDeclarator (h : InSteps first second joint) {declarator : Node}
    (hfresh : second.name ∉ declarator.identifiers)
    (ih : ∀ id value, declarator = .variableDeclarator id (some value) →
      second.replace (first.replace value) = joint.replace value) :
    second.replaceDeclarator (first.replaceDeclarator declarator) =
      joint.replaceDeclarator declarator := by
  cases declarator
  case variableDeclarator id init =>
    have hpart : ∀ part ∈ id :: init.toList, second.name ∉ part.identifiers := by
      intro part hmem
      rw [← Node.parts_variableDeclarator] at hmem
      exact Node.notMem_identifiers_of_mem_parts hfresh hmem
    have hid : second.name ∉ id.identifiers := hpart id List.mem_cons_self
    have hself := Node.isIdentifier_eq_false_of_fresh hid
    have hbinds := Node.binds_eq_false_of_fresh hid
    cases init with
    | none => simp [replaceDeclarator, replaceValue]
    | some value =>
      -- A value that the first pass has left alone has nothing in it for the second.
      have hkept : second.replace value = value := replace_of_fresh (hpart value (by simp))
      have hput : second.replace first.access.node = joint.access.node := by
        rw [h.between, h.access_eq, Access.node, replace_identifier]
        exact if_pos rfl
      simp only [replaceDeclarator, replaceValue, hself, hbinds, h.name_eq, Bool.false_eq_true,
        if_false]
      by_cases hname : id.isIdentifier first.name = true
      · simp [hname, replace_assignment_parts, hkept, hput]
      · by_cases hpattern : id.binds first.name = true
        · simp [hname, hpattern, hkept]
        · simp [hname, hpattern, ih id value rfl]
  all_goals rfl

/-- **The joint pass does what the two passes do**, if the name in between does not occur. The
induction is along the first pass. In what it leaves alone the second one finds nothing. -/
theorem replace_replace (h : InSteps first second joint)
    (hfresh : second.name ∉ node.identifiers) :
    second.replace (first.replace node) = joint.replace node := by
  have hput : second.replace first.access.node = joint.access.node := by
    rw [h.between, h.access_eq, Access.node, replace_identifier]
    exact if_pos rfl
  induction node using first.replace_induction with
  | reference =>
    rw [hput, ← h.name_eq, replace_identifier]
    exact (if_pos rfl).symm
  | function id params body generator isAsync hid =>
    -- The function becomes an expression, and its own name and its body stay as they are.
    have hfunction : second.replace (.functionExpression id params body generator isAsync) =
        .functionExpression id params body generator isAsync := by
      apply replace_of_fresh
      rw [Node.identifiers_eq] at hfresh ⊢
      exact hfresh
    have hown : joint.isOwnName id = true := by
      rw [isOwnName, h.name_eq]
      exact hid
    rw [replace_assignmentStatement_parts, hput, hfunction,
      joint.replace_functionDeclaration_own params body generator isAsync hown]
  | shadowed node hreplaced hshadowed =>
    -- The first pass leaves the node as it is, and so the second finds nothing in it.
    rw [replace_of_fresh hfresh, joint.replace_of_shadowed]
    · exact replacement?_eq_none_of_name_eq h.name_eq hreplaced
    · rw [isShadowedBy_of_name_eq h.name_eq, hshadowed]
  | declaration declarations kind ih =>
    rw [replace_variableDeclaration, replace_variableDeclaration, List.map_map]
    congr 1
    apply List.map_congr_left
    intro declarator hmem
    have hdeclarator : second.name ∉ declarator.identifiers := by
      apply Node.notMem_identifiers_of_mem_parts hfresh
      rwa [Node.parts_variableDeclaration]
    apply h.replaceDeclarator_replaceDeclarator hdeclarator
    rintro id value rfl
    apply ih id value hmem
    apply Node.notMem_identifiers_of_mem_parts hdeclarator
    simp [Node.parts_variableDeclarator]
  | entered node henters ih =>
    rw [second.replace_of_enters (enters_rewrite hfresh henters),
      joint.replace_of_enters (henters.of_name_eq h.name_eq), rewrite, h.spellOut_rewrite hfresh,
      rewrite, rewrite, Node.mapChildren_mapChildren, spellOut_of_name_eq h.name_eq]
    apply Node.mapChildren_congr
    intro child hchild
    rw [children_spellOut] at hchild
    apply ih child hchild
    exact Node.notMem_identifiers_of_mem_parts hfresh (node.children_subset_parts hchild)

end InSteps

/-- **The name in between is of no consequence.** A plain pass from a name to a name that does not
occur in the tree, and one from there to any access, both succeed, and make of the tree what the
plain pass makes of it that goes from the first name to the access. -/
theorem apply_inSteps (name fresh : String) (access : Access) {node : Node}
    (hfresh : fresh ∉ node.identifiers) :
    ∃ between result, apply ⟨name, .whole fresh, false⟩ node = .ok between ∧
      apply ⟨fresh, access, false⟩ between = .ok result ∧
      apply ⟨name, access, false⟩ node = .ok result := by
  have h : InSteps ⟨name, .whole fresh, false⟩ ⟨fresh, access, false⟩ ⟨name, access, false⟩ :=
    ⟨rfl, rfl, rfl⟩
  refine ⟨_, _, apply_of_not_strict rfl _, apply_of_not_strict rfl _, ?_⟩
  rw [h.replace_replace hfresh]
  exact apply_of_not_strict rfl _

/-- The block `\x7b g(\x7b x \x7d); function h(x = y) \x7b return x; \x7d let \x7b v = x \x7d = x;
\x7d`, with uses of `x` in a shorthand, in a scope that binds it, and around a pattern. -/
def localUses : Node :=
  .blockStatement
    [.statement (.call (.identifier "g") [.objectExpression
        [.property (.identifier "x") (.identifier "x") "init" false false true]]),
      .functionDeclaration (some (.identifier "h"))
        [.assignmentPattern (.identifier "x") (.identifier "y")]
        (.blockStatement [.returnStatement (some (.identifier "x"))]) false false,
      .variableDeclaration [.variableDeclarator (.objectPattern [.property (.identifier "v")
        (.assignmentPattern (.identifier "v") (.identifier "x")) "init" false false true])
        (some (.identifier "x"))] .let]

/-- The second pass looks into the function, where the first one does not go, and finds nothing to
replace there. -/
theorem apply_inSteps_localUses :
    "z" ∉ localUses.identifiers ∧
      ∃ between result, apply ⟨"x", .whole "z", false⟩ localUses = .ok between ∧
        apply ⟨"z", .member (dependencyParam 0) "a", false⟩ between = .ok result ∧
        apply ⟨"x", .member (dependencyParam 0) "a", false⟩ localUses = .ok result := by
  have hnames : localUses.identifiers =
      ["g", "x", "x", "h", "x", "y", "x", "v", "v", "x", "x"] := by with_unfolding_all rfl
  have hfresh : "z" ∉ localUses.identifiers := by
    rw [hnames]
    decide
  exact ⟨hfresh, apply_inSteps "x" "z" (.member (dependencyParam 0) "a") hfresh⟩

end Pass

end DefineWrap
