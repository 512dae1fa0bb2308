/-
Import and export forms in trees, and what passes do to them.

A tree may hold such a form anywhere, also where the table of child places does not look:
in the pattern of a declarator, in a label, in a key. `Node.moduleForms` finds all of them.
The check for misplaced forms goes through the child places only, and `Node.placedForms` is
what it can find.

A pass takes identifiers and function declarations away and puts accesses and assignments in
their places. None of these is an import or export form, and what stands inside a function
goes with it. So a pass leaves both lists as they are (`Node.Collects.replace`).
-/
import DefineWrap.Proofs.Wrap.Exporting
import DefineWrap.Estree.Walk
import DefineWrap.Wrap.Placement

set_option autoImplicit false

namespace DefineWrap

namespace Node

/-! ## Forms in a tree -/

/-- The nodes directly inside a node, at child places and elsewhere. They are taken from the record
of the fields, which knows nothing of the table of child places. -/
def parts (node : Node) : List Node := node.record.inner

/-- The kind of a node that is itself an import or export form, as a list, so that the lists below
are put together by appending. -/
def ownForm (node : Node) : List Kind := if node.kind.isModuleForm then [node.kind] else []

/-- The kinds of all import and export forms in a tree, wherever they stand in it. -/
def moduleForms (node : Node) : List Kind :=
  node.ownForm ++ node.parts.attach.flatMap fun part => moduleForms part.1
termination_by sizeOf node
decreasing_by exact sizeOf_lt_of_mem_record part.2

theorem moduleForms_eq (node : Node) :
    node.moduleForms = node.ownForm ++ node.parts.flatMap moduleForms := by
  rw [moduleForms, List.flatMap_subtype (g := moduleForms) fun _ _ => rfl, List.unattach_attach]

/-- The kinds of the forms below a node, through the child places. This is what the check of a
statement can see. -/
def nestedForms (node : Node) : List Kind := node.descendants.flatMap ownForm

/-- The kinds of the forms at a node and below it, through the child places. -/
def placedForms (node : Node) : List Kind := node.ownForm ++ node.nestedForms

/-- What is below a node are its children and what is below them, so the two lists call each
other. -/
theorem nestedForms_eq (node : Node) :
    node.nestedForms = node.children.flatMap placedForms := by
  rw [nestedForms, descendants_eq, List.flatMap_assoc]
  exact List.flatMap_congr fun child _ => List.flatMap_cons

/-- The list as a recursion of its own over the children, in the same form as that of all forms. -/
theorem placedForms_eq (node : Node) :
    node.placedForms = node.ownForm ++ node.children.flatMap placedForms := by
  rw [placedForms, nestedForms_eq]

/-! ## The check -/

/-- Going through some nodes, the check reports the first form among them and looks at no node after
it. -/
theorem forM_refuseModuleForm (nodes : List Node) :
    nodes.forM refuseModuleForm =
      match nodes.find? (·.kind.isModuleForm) with
      | none => .ok ()
      | some form => .error (.misplacedModuleForm form.kind) := by
  induction nodes with
  | nil => rfl
  | cons node rest ih =>
    rw [List.forM_eq_forM, List.forM_cons, List.find?_cons, refuseModuleForm]
    cases node.kind.isModuleForm with
    | true => rfl
    | false => exact ih

/-- The check reports the first form below a statement, through the child places. The walk is one
over the list of descendants, so the former lemma applies. -/
theorem refuseNestedModuleForms_eq (statement : Node) :
    statement.refuseNestedModuleForms =
      match statement.descendants.find? (·.kind.isModuleForm) with
      | none => .ok ()
      | some form => .error (.misplacedModuleForm form.kind) := by
  rw [refuseNestedModuleForms, walk_eq, forM_refuseModuleForm]

/-- The check passes a statement with no form below it, and no other one. -/
theorem refuseNestedModuleForms_ok {statement : Node} {result : Unit}
    (h : statement.refuseNestedModuleForms = .ok result) : statement.nestedForms = [] := by
  rw [refuseNestedModuleForms_eq] at h
  split at h
  next hnone =>
    exact List.flatMap_eq_nil_iff.2 fun node hmem => if_neg (List.find?_eq_none.1 hnone node hmem)
  · cases h

/-- What the check reports is a form below the statement, and the error names its kind. -/
theorem refuseNestedModuleForms_error {statement : Node} {error : WrapError}
    (h : statement.refuseNestedModuleForms = .error error) :
    ∃ kind ∈ statement.nestedForms, error = .misplacedModuleForm kind := by
  rw [refuseNestedModuleForms_eq] at h
  split at h
  · cases h
  next form hform =>
    cases h
    refine ⟨form.kind, List.mem_flatMap.2 ⟨form, List.mem_of_find?_eq_some hform, ?_⟩, rfl⟩
    rw [ownForm, if_pos (List.find?_some hform)]
    exact List.mem_singleton_self _

/-! ## Nodes with other children -/

/-- What is collected from the parts of a node stays the same if every child is replaced by one from
which the same is collected. -/
theorem flatMap_parts_mapChildren_of_forall {α : Type} {f : Node → Node} {g : Node → List α}
    (h : ∀ node, g (f node) = g node) (node : Node) :
    (node.mapChildren f).parts.flatMap g = node.parts.flatMap g := by
  have hoption : ∀ other : Option Node,
      (other.map f).toList.flatMap g = other.toList.flatMap g := by
    intro other
    cases other <;> simp [h]
  have hholes : ∀ elements : List (Option Node),
      ((elements.map (Option.map f)).filterMap id).flatMap g =
        (elements.filterMap id).flatMap g := by
    intro elements
    rw [filterMap_id_map, List.flatMap_map]
    exact List.flatMap_congr fun child _ => h child
  cases node
  -- A flag decides whether the key is a child, but it is a part in any case.
  case property _ _ _ computed _ _ | methodDefinition _ _ _ computed _
      | memberExpression _ _ computed _ | propertyDefinition _ _ computed _ =>
    cases computed <;>
      simp [mapChildren_eq_mapped, places, parts, record, Record.inner, FieldValue.inner, h,
        hoption]
  case exportNamedDeclaration _ _ source =>
    cases source <;>
      simp [mapChildren_eq_mapped, places, parts, record, Record.inner, FieldValue.inner, h,
        hoption, List.flatMap_map]
  case arrayExpression elements | arrayPattern elements =>
    simpa [mapChildren_eq_mapped, places, parts, record, Record.inner, FieldValue.inner]
      using hholes elements
  all_goals
    simp [mapChildren_eq_mapped, places, parts, record, Record.inner, FieldValue.inner, h, hoption,
      List.flatMap_map]

open Classical in
/-- What is the same for every child and for what takes its place is the same for a node and
for what arises from it. -/
theorem flatMap_parts_mapChildren {α : Type} {f : Node → Node} {g : Node → List α} (node : Node)
    (h : ∀ child ∈ node.children, g (f child) = g child) :
    (node.mapChildren f).parts.flatMap g = node.parts.flatMap g := by
  -- Only the children are replaced, so on other nodes the function may do nothing.
  let only : Node → Node := fun child => if child ∈ node.children then f child else child
  have hsame : node.mapChildren f = node.mapChildren only := by
    rw [mapChildren, mapChildren]
    congr 1
    exact List.map_congr_left fun child hchild => (if_pos hchild).symm
  rw [hsame]
  refine flatMap_parts_mapChildren_of_forall (fun child => ?_) node
  by_cases hchild : child ∈ node.children
  · rw [show only child = f child from if_pos hchild]
    exact h child hchild
  · rw [show only child = child from if_neg hchild]

end Node

/-! ## Forms after a pass -/

/-- A list that is collected from a tree in such a way that a pass does not change it:
nothing is collected from accesses and identifiers, and assignments to accesses and function
expressions have what is collected from the value and from the declaration. -/
structure Node.Collects {α : Type} (collect : Node → List α) : Prop where
  access_eq : ∀ access : Access, collect access.node = []
  identifier_eq : ∀ name, collect (.identifier name) = []
  assignment_eq : ∀ (access : Access) value, collect (.assignment access.node value) = collect value
  statement_eq : ∀ expression, collect (.statement expression) = collect expression
  expression_eq : ∀ node : Node, collect node.asExpression = collect node
  declaration_eq : ∀ declarations kind, collect (.variableDeclaration declarations kind) =
    declarations.flatMap collect
  declarator_eq : ∀ id init other, init.toList.flatMap collect = other.toList.flatMap collect →
    collect (.variableDeclarator id init) = collect (.variableDeclarator id other)
  rewrite_eq : ∀ (pass : Pass) node,
    (∀ child ∈ node.children, collect (pass.replace child) = collect child) →
    collect (pass.rewrite node) = collect node

namespace Node.Collects

variable {α : Type} {collect : Node → List α}

/-- From the initial value of a declarator the same is collected before and after, also if the pass
has made it the value of an assignment. -/
theorem replaceValue (h : Collects collect) (pass : Pass) (id : Node) (init : Option Node)
    (ih : ∀ value, init = some value → collect (pass.replace value) = collect value) :
    (pass.replaceValue id init).toList.flatMap collect = init.toList.flatMap collect := by
  cases init with
  | none => rw [pass.replaceValue_none]
  | some value =>
    unfold Pass.replaceValue
    split
    · simp [h.assignment_eq]
    · split
      · rfl
      · simpa using ih value rfl

/-- **A pass does not change what is collected.** The cases of the pass are the fields of
`Collects`, and a shadowed node is the same node. -/
theorem replace (h : Collects collect) (pass : Pass) (node : Node) :
    collect (pass.replace node) = collect node := by
  induction node using pass.replace_induction with
  | reference => rw [h.access_eq, h.identifier_eq]
  | function id params body generator isAsync hid =>
    rw [Node.assignmentStatement, h.statement_eq, h.assignment_eq]
    exact h.expression_eq (.functionDeclaration id params body generator isAsync)
  | shadowed node hreplaced hshadowed => rfl
  | declaration declarations kind ih =>
    rw [h.declaration_eq, h.declaration_eq, List.flatMap_map]
    refine List.flatMap_congr fun declarator hmem => ?_
    cases declarator
    case variableDeclarator id init =>
      exact h.declarator_eq _ _ _ (h.replaceValue pass id init fun value heq =>
        ih id value (heq ▸ hmem))
    all_goals rfl
  | entered node henters ih => exact h.rewrite_eq pass node ih

end Node.Collects

/-- A node that a pass enters is a form afterwards if it was one before. -/
theorem Pass.ownForm_rewrite (pass : Pass) (node : Node) :
    (pass.rewrite node).ownForm = node.ownForm := by
  rw [Node.ownForm, pass.kind_rewrite]
  rfl

/-- This holds of every node: what a pass replaces as a whole was no form, and becomes none. -/
theorem Pass.ownForm_replace (pass : Pass) (node : Node) :
    (pass.replace node).ownForm = node.ownForm := by
  induction node using pass.replace_induction with
  | reference =>
    rcases Pass.kind_access pass.access with hkind | hkind <;> (rw [Node.ownForm, hkind]; rfl)
  | function id params body generator isAsync hid => rfl
  | shadowed node hreplaced hshadowed => rfl
  | declaration declarations kind ih => rfl
  | entered node henters ih => exact pass.ownForm_rewrite node

namespace Node

theorem moduleForms_identifier (name : String) : (identifier name).moduleForms = [] := by
  rw [moduleForms_eq]
  rfl

theorem placedForms_identifier (name : String) : (identifier name).placedForms = [] := by
  rw [placedForms_eq]
  rfl

/-- An access has no form in it, whether its member is a name or a string. -/
theorem moduleForms_access (object member : String) : (access object member).moduleForms = [] := by
  have hliteral : (stringLiteral member).moduleForms = [] := by
    rw [moduleForms_eq]
    rfl
  rw [access_eq, moduleForms_eq]
  cases isBracketed member <;>
    simp [ownForm, parts, record, kind, Record.inner, FieldValue.inner, Kind.isModuleForm,
      moduleForms_identifier, hliteral]

theorem placedForms_access (object member : String) : (access object member).placedForms = [] := by
  have hliteral : (stringLiteral member).placedForms = [] := by
    rw [placedForms_eq]
    rfl
  rw [access_eq, placedForms_eq]
  cases isBracketed member <;>
    simp [ownForm, children, places, record, kind, Kind.isModuleForm, placedForms_identifier,
      hliteral]

theorem moduleForms_node (access : Access) : access.node.moduleForms = [] := by
  cases access with
  | member object member => exact moduleForms_access object member
  | whole object => exact moduleForms_identifier object

theorem moduleForms_statement (expression : Node) :
    (statement expression).moduleForms = expression.moduleForms := by
  rw [statement, moduleForms_eq]
  exact List.append_nil expression.moduleForms

theorem placedForms_node (access : Access) : access.node.placedForms = [] := by
  cases access with
  | member object member => exact placedForms_access object member
  | whole object => exact placedForms_identifier object

theorem placedForms_statement (expression : Node) :
    (statement expression).placedForms = expression.placedForms := by
  rw [statement, placedForms_eq]
  exact List.append_nil expression.placedForms

/-- All forms of a tree go through a pass unchanged, also those that the check does not see. -/
theorem collects_moduleForms : Collects moduleForms where
  access_eq := moduleForms_node
  identifier_eq := moduleForms_identifier
  assignment_eq access value := by
    rw [assignment, moduleForms_eq]
    change [access.node, value].flatMap moduleForms = _
    simp [moduleForms_node]
  statement_eq := moduleForms_statement
  expression_eq node := by
    cases node <;> first | rfl | (rw [asExpression, moduleForms_eq, moduleForms_eq]; rfl)
  declaration_eq declarations kind := by
    rw [moduleForms_eq]
    change (declarations ++ []).flatMap moduleForms = _
    rw [List.append_nil]
  declarator_eq id init other h := by
    rw [moduleForms_eq, moduleForms_eq]
    change (id :: (init.toList ++ [])).flatMap moduleForms =
      (id :: (other.toList ++ [])).flatMap moduleForms
    simp [h]
  rewrite_eq pass node ih := by
    have hparts : (pass.spellOut node).parts = node.parts := by
      cases node <;> rfl
    rw [moduleForms_eq, moduleForms_eq, pass.ownForm_rewrite, Pass.rewrite,
      flatMap_parts_mapChildren _ (by rwa [pass.children_spellOut]), hparts]

/-- So do the forms that are at child places. Both are instances of one notion, since the result of
the check and the forms that survive are about different lists. -/
theorem collects_placedForms : Collects placedForms where
  access_eq := placedForms_node
  identifier_eq := placedForms_identifier
  assignment_eq access value := by
    rw [assignment, placedForms_eq]
    change [access.node, value].flatMap placedForms = _
    simp [placedForms_node]
  statement_eq := placedForms_statement
  expression_eq node := by
    cases node <;> first | rfl | (rw [asExpression, placedForms_eq, placedForms_eq]; rfl)
  declaration_eq declarations kind := by
    have hchildren : (variableDeclaration declarations kind).children = declarations := by
      simp [children, places]
    rw [placedForms_eq, hchildren]
    rfl
  declarator_eq id init other h := by
    have hchildren : ∀ init, (variableDeclarator id init).children = init.toList := fun init => by
      simp [children, places]
    rw [placedForms_eq, placedForms_eq, hchildren, hchildren, h]
    rfl
  rewrite_eq pass node ih := by
    rw [placedForms_eq, placedForms_eq, pass.ownForm_rewrite, pass.children_rewrite,
      List.flatMap_map]
    exact congrArg _ (List.flatMap_congr ih)

end Node

/-- **The check finds the same before and after a pass**, so a statement is refused for its forms at
whatever time it is taken. -/
theorem Pass.nestedForms_replace (pass : Pass) (node : Node) :
    (pass.replace node).nestedForms = node.nestedForms := by
  have hplaced := Node.collects_placedForms.replace pass node
  rw [Node.placedForms, Node.placedForms, pass.ownForm_replace] at hplaced
  exact List.append_cancel_left hplaced

theorem Pass.nestedForms_replaceAll (passes : List Pass) (node : Node) :
    (Pass.replaceAll passes node).nestedForms = node.nestedForms :=
  Pass.replaceAll_invariant (fun pass _ other => pass.nestedForms_replace other) node

end DefineWrap
