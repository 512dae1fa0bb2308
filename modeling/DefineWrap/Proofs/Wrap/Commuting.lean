/-
Passes for different names commute.

Two passes are apart if they are for different names and neither puts an access on the name
of the other. Then a node goes through both in either order with the same result
(`Pass.Apart.replace_comm`), and what one of them refuses in a tree it refuses after the other
(`Pass.Apart.firstViolation?_replace`). So the order of passes that are apart from each other
is of no consequence (`Pass.replaceAll_perm`).

Both are shown along the cases of one pass; in each of them the other pass has the same five
cases. What makes them fit is that a pass for another name changes neither where a name is
bound anew nor what a pattern binds.
-/
import DefineWrap.Proofs.Wrap.Locals

set_option autoImplicit false

namespace DefineWrap

namespace Node

/-! ## Children replaced twice -/

theorem mapChildren_mapChildren (f g : Node → Node) (node : Node) :
    (node.mapChildren f).mapChildren g = node.mapChildren (g ∘ f) := by
  cases node
  case methodDefinition _ _ _ computed _ | property _ _ _ computed _ _
      | memberExpression _ _ computed _ | propertyDefinition _ _ computed _ =>
    cases computed <;> simp [mapChildren_eq_mapped, places]
  case exportNamedDeclaration _ _ source =>
    cases source <;> simp [mapChildren_eq_mapped, places]
  all_goals simp [mapChildren_eq_mapped, places]

/-- Only what becomes of the children counts, so two functions that agree on them make the same of
the node. -/
theorem mapChildren_congr {f g : Node → Node} {node : Node}
    (h : ∀ child ∈ node.children, f child = g child) : node.mapChildren f = node.mapChildren g := by
  rw [mapChildren, mapChildren, List.map_congr_left h]

end Node

namespace Pass

/-! ## A pass at an access to something else -/

section Foreign

variable (pass : Pass)

theorem replace_identifier_of_ne {name : String} (h : name ≠ pass.name) :
    pass.replace (.identifier name) = .identifier name := by
  rw [replace_identifier, if_neg h]

/-- A pass leaves an access alone that is not on its name. The member of the access is no use of a
name, or it is the string of a computed one. -/
theorem replace_access {access : Access} (h : access.object ≠ pass.name) :
    pass.replace access.node = access.node := by
  cases access with
  | whole object => exact pass.replace_identifier_of_ne h
  | member object member =>
    have hliteral : ∀ value, pass.replace (.stringLiteral value) = .stringLiteral value := by
      intro value
      have henters : pass.Enters (.stringLiteral value) := ⟨rfl, of_decide_eq_false rfl, rfl⟩
      rw [pass.replace_of_enters henters]
      rfl
    have henters : ∀ object property computed,
        pass.Enters (.memberExpression object property computed false) := fun _ _ _ =>
      ⟨rfl, of_decide_eq_false rfl, rfl⟩
    have hobject : pass.replace (.identifier object) = .identifier object :=
      pass.replace_identifier_of_ne h
    rw [Access.node, Node.access_eq, pass.replace_of_enters (henters ..)]
    cases Node.isBracketed member <;>
      simp [rewrite_eq_mapped, spellOut, Node.places, hobject, hliteral]

/-- An assignment goes through a pass in its two parts, whatever is assigned to. -/
theorem replace_assignment_parts (target value : Node) :
    pass.replace (.assignment target value) =
      .assignment (pass.replace target) (pass.replace value) := by
  have henters : pass.Enters (.assignment target value) := ⟨rfl, of_decide_eq_false rfl, rfl⟩
  rw [pass.replace_of_enters henters]
  rfl

theorem replace_assignmentStatement_parts (target value : Node) :
    pass.replace (.assignmentStatement target value) =
      .assignmentStatement (pass.replace target) (pass.replace value) := by
  have henters : pass.Enters (.assignmentStatement target value) :=
    ⟨rfl, of_decide_eq_false rfl, rfl⟩
  rw [pass.replace_of_enters henters, Node.assignmentStatement, Node.assignmentStatement,
    ← pass.replace_assignment_parts]
  rfl

/-- If the target is an access to something else, only the value changes. -/
theorem replace_assignment {access : Access} (h : access.object ≠ pass.name) (value : Node) :
    pass.replace (.assignment access.node value) =
      .assignment access.node (pass.replace value) := by
  rw [pass.replace_assignment_parts, pass.replace_access h]

/-- The same for the statement, which is what the first pass has made of a function when the second
one comes. -/
theorem replace_assignmentStatement {access : Access} (h : access.object ≠ pass.name)
    (value : Node) :
    pass.replace (.assignmentStatement access.node value) =
      .assignmentStatement access.node (pass.replace value) := by
  rw [pass.replace_assignmentStatement_parts, pass.replace_access h]

/-- A function that is not of the name of the pass is changed alike as a declaration and as an
expression. Existence is enough here: that the new parts are the same in both is the point. -/
theorem replace_function {id : Option Node} (params : List Node) (body : Node)
    (generator isAsync : Bool) (h : pass.isOwnName id = false) :
    ∃ params' body',
      pass.replace (.functionDeclaration id params body generator isAsync) =
        .functionDeclaration id params' body' generator isAsync ∧
      pass.replace (.functionExpression id params body generator isAsync) =
        .functionExpression id params' body' generator isAsync := by
  have hkept :
      pass.replacement? (.functionDeclaration id params body generator isAsync) = none := by
    simp [replacement?, h]
  by_cases hbound : pass.isBoundBy params body = true
  · refine ⟨params, body, pass.replace_of_shadowed hkept hbound,
      pass.replace_of_shadowed rfl ?_⟩
    simp [isShadowedBy, hbound]
  · have hdeclaration : pass.Enters (.functionDeclaration id params body generator isAsync) :=
      ⟨hkept, of_decide_eq_false rfl, by simpa [isShadowedBy] using hbound⟩
    have hexpression : pass.Enters (.functionExpression id params body generator isAsync) :=
      ⟨rfl, of_decide_eq_false rfl, by simpa [isShadowedBy, h] using hbound⟩
    refine ⟨params.map pass.replace, pass.replace body, ?_, ?_⟩
    · rw [pass.replace_of_enters hdeclaration]
      simp [rewrite_eq_mapped, spellOut, Node.places]
    · rw [pass.replace_of_enters hexpression]
      simp [rewrite_eq_mapped, spellOut, Node.places]

end Foreign

/-! ## Two passes -/

/-- A pass replaces the same nodes as a whole before and after another pass has entered them,
because only the head of a node decides it. -/
theorem replacement?_rewrite (pass other : Pass) {node : Node} :
    pass.replacement? (other.rewrite node) = none ↔ pass.replacement? node = none := by
  cases node
  case functionDeclaration id params body generator isAsync =>
    have hrewrite : other.rewrite (.functionDeclaration id params body generator isAsync) =
        .functionDeclaration id (params.map other.replace) (other.replace body) generator
          isAsync := by
      simp [rewrite_eq_mapped, spellOut, Node.places]
    rw [hrewrite]
    simp [replacement?]
  all_goals rfl

/-- Two passes are for different names, and neither puts an access on the name of the other. The
relation is symmetric, and the passes of a module whose locals are no parameters are all in it. -/
structure Apart (first second : Pass) : Prop where
  name_ne : first.name ≠ second.name
  first_object : first.access.object ≠ second.name
  second_object : second.access.object ≠ first.name

namespace Apart

variable {first second : Pass}

/-- The relation is symmetric, so each case of one pass is a case of the other. -/
theorem symm (h : first.Apart second) : second.Apart first :=
  ⟨h.name_ne.symm, h.second_object, h.first_object⟩

/-- A function of the name of one pass is not of the name of the other. -/
theorem isOwnName_eq_false (h : first.Apart second) {id : Option Node}
    (hid : second.isOwnName id = true) : first.isOwnName id = false :=
  second.any_isIdentifier_of_isOwnName h.name_ne hid

/-- What stands for the name of a pass stood for it before a pass for another name, and the other
way round. -/
theorem isIdentifier_replace (h : first.Apart second) (node : Node) :
    (second.replace node).isIdentifier first.name = node.isIdentifier first.name := by
  rw [Node.isIdentifier, Node.isIdentifier, Bool.eq_iff_iff, decide_eq_true_iff,
    decide_eq_true_iff, identifierName?_replace_iff h.second_object, and_iff_left h.name_ne]

theorem isShadowedBy_rewrite (h : first.Apart second) (node : Node) :
    first.isShadowedBy (second.rewrite node) = first.isShadowedBy node := by
  rw [isShadowedBy_eq, isShadowedBy_eq,
    second.rebinds_rewrite h.name_ne h.second_object.symm, second.kind_rewrite]

/-- A pass enters a node after another pass if it entered it before. So in the case where both
enter, the children are replaced twice in either order. -/
theorem enters_rewrite (h : first.Apart second) {node : Node} (henters : first.Enters node) :
    first.Enters (second.rewrite node) :=
  ⟨(first.replacement?_rewrite second).2 henters.unreplaced, by
      rw [second.kind_rewrite]
      exact henters.undeclared,
    by rw [h.isShadowedBy_rewrite, henters.unshadowed]⟩

/-! ## Both orders -/

/-- Whether a property is spelled out depends on its value being a use of the name, and this is the
same after the other pass. -/
theorem spellOut_mapChildren (h : first.Apart second) (node : Node) :
    first.spellOut (node.mapChildren second.replace) =
      (first.spellOut node).mapChildren second.replace := by
  cases node
  case property key value kind computed method shorthand =>
    simp [Node.mapChildren_eq_mapped, Node.places, spellOut, h.isIdentifier_replace]
  all_goals rfl

/-- A property is spelled out if one of the two passes asks for it, in either order. -/
theorem spellOut_comm (node : Node) :
    first.spellOut (second.spellOut node) = second.spellOut (first.spellOut node) := by
  cases node
  case property key value kind computed method shorthand =>
    simp [spellOut, Bool.and_assoc, Bool.and_comm (!value.isIdentifier first.name)]
  all_goals rfl

/-- Where both passes enter a node, the result is the same in either order if it is for the
children. -/
theorem rewrite_comm (h : first.Apart second) {node : Node}
    (ih : ∀ child ∈ node.children,
      first.replace (second.replace child) = second.replace (first.replace child)) :
    first.rewrite (second.rewrite node) = second.rewrite (first.rewrite node) := by
  rw [rewrite, rewrite, rewrite, rewrite, h.spellOut_mapChildren, h.symm.spellOut_mapChildren,
    Node.mapChildren_mapChildren, Node.mapChildren_mapChildren, spellOut_comm]
  refine Node.mapChildren_congr fun child hchild => ih child ?_
  rwa [second.children_spellOut, first.children_spellOut] at hchild

/-- The initial value of a declarator in either order. At most one of the two passes assigns it; the
other one then finds the value below the assignment. -/
theorem replaceValue_comm (h : first.Apart second) (id : Node) (init : Option Node)
    (ih : ∀ value, init = some value →
      first.replace (second.replace value) = second.replace (first.replace value)) :
    first.replaceValue id (second.replaceValue id init) =
      second.replaceValue id (first.replaceValue id init) := by
  cases init with
  | none => rw [replaceValue_none, replaceValue_none, replaceValue_none]
  | some value =>
    have hidentifier : ∀ {one other : Pass}, one.Apart other → id.isIdentifier other.name = true →
        id.isIdentifier one.name = false ∧ id.binds one.name = false := by
      intro one other hapart hid
      rw [Node.isIdentifier_iff.1 hid]
      simp [Node.binds, hapart.name_ne, hapart.name_ne.symm]
    -- The pattern is at most one of the two names alone, and the pass for that name assigns the
    -- value.
    by_cases hsecond : id.isIdentifier second.name = true
    · obtain ⟨hfirst, hbinds⟩ := hidentifier h hsecond
      simp [replaceValue, hsecond, hfirst, hbinds, first.replace_assignment h.second_object]
    · by_cases hfirst : id.isIdentifier first.name = true
      · obtain ⟨-, hbinds⟩ := hidentifier h.symm hfirst
        simp [replaceValue, hsecond, hfirst, hbinds, second.replace_assignment h.first_object]
      · by_cases hbinds : id.binds second.name = true
        · simp [replaceValue, hsecond, hfirst, hbinds]
        · by_cases hbinds' : id.binds first.name = true
          · simp [replaceValue, hsecond, hfirst, hbinds, hbinds']
          · simp [replaceValue, hsecond, hfirst, hbinds, hbinds', ih value rfl]

theorem replaceDeclarator_comm (h : first.Apart second) (declarator : Node)
    (ih : ∀ id value, declarator = .variableDeclarator id (some value) →
      first.replace (second.replace value) = second.replace (first.replace value)) :
    first.replaceDeclarator (second.replaceDeclarator declarator) =
      second.replaceDeclarator (first.replaceDeclarator declarator) := by
  cases declarator
  case variableDeclarator id init =>
    simp only [replaceDeclarator]
    rw [h.replaceValue_comm id init fun value heq => ih id value (by rw [heq])]
  all_goals rfl

/-- A function declaration of the name of the first pass in either order: once it is an assignment
when the second pass comes, and once it is changed inside first. -/
theorem replace_comm_function (h : first.Apart second) {id : Option Node} (params : List Node)
    (body : Node) (generator isAsync : Bool) (hid : first.isOwnName id = true) :
    first.replace (second.replace (.functionDeclaration id params body generator isAsync)) =
      second.replace (first.replace (.functionDeclaration id params body generator isAsync)) := by
  obtain ⟨params', body', hdeclaration, hexpression⟩ :=
    second.replace_function params body generator isAsync (h.symm.isOwnName_eq_false hid)
  rw [hdeclaration, first.replace_functionDeclaration_own params' body' generator isAsync hid,
    first.replace_functionDeclaration_own params body generator isAsync hid,
    second.replace_assignmentStatement h.first_object, hexpression]

/-- A node that means something else to the first pass in either order. After the second pass it
still does, or has been replaced as a whole. -/
theorem replace_comm_shadowed (h : first.Apart second) {node : Node}
    (hreplaced : first.replacement? node = none) (hshadowed : first.isShadowedBy node = true) :
    first.replace (second.replace node) = second.replace node := by
  by_cases hsecond : second.replacement? node = none
  · by_cases hshadows : second.isShadowedBy node = true
    · rw [second.replace_of_shadowed hsecond hshadows,
        first.replace_of_shadowed hreplaced hshadowed]
    · have hkind : node.kind ≠ .variableDeclaration := by
        intro hkind
        obtain ⟨_, _, rfl⟩ := Node.hasFormOf_of_kind_eq hkind
        cases hshadowed
      have henters : second.Enters node := ⟨hsecond, hkind, by simpa using hshadows⟩
      rw [second.replace_of_enters henters]
      exact first.replace_of_shadowed ((first.replacement?_rewrite second).2 hreplaced)
        (by rw [h.isShadowedBy_rewrite, hshadowed])
  · rcases second.replacement?_isSome hsecond with rfl |
      ⟨id, params, body, generator, isAsync, rfl, hid⟩
    · cases hshadowed
    · have hexpression : first.isShadowedBy
          (.functionExpression id params body generator isAsync) = true := by
        have hbound : first.isBoundBy params body = true := hshadowed
        simp [isShadowedBy, hbound]
      rw [second.replace_functionDeclaration_own params body generator isAsync hid,
        first.replace_assignmentStatement h.second_object,
        first.replace_of_shadowed rfl hexpression]

/-- **Passes that are apart commute.** The induction is along the cases of the second pass, and in
each of them the first one is in a case that is known. -/
theorem replace_comm (h : first.Apart second) (node : Node) :
    first.replace (second.replace node) = second.replace (first.replace node) := by
  induction node using second.replace_induction with
  | reference =>
    rw [first.replace_access h.second_object, first.replace_identifier_of_ne h.name_ne.symm,
      replace_identifier, if_pos rfl]
  | function id params body generator isAsync hid =>
    rw [← second.replace_functionDeclaration_own params body generator isAsync hid]
    exact (h.symm.replace_comm_function params body generator isAsync hid).symm
  | shadowed node hreplaced hshadowed =>
    exact (h.symm.replace_comm_shadowed hreplaced hshadowed).symm
  | declaration declarations kind ih =>
    rw [first.replace_variableDeclaration, first.replace_variableDeclaration,
      second.replace_variableDeclaration, List.map_map, List.map_map]
    congr 1
    refine List.map_congr_left fun declarator hmem => ?_
    exact h.replaceDeclarator_comm declarator fun id value heq => ih id value (heq ▸ hmem)
  | entered node henters ih =>
    -- The other pass meets the same node, and its cases are the same.
    rw [← second.replace_of_enters henters]
    by_cases hreplaced : first.replacement? node = none
    · by_cases hshadowed : first.isShadowedBy node = true
      · rw [first.replace_of_shadowed hreplaced hshadowed]
        exact h.replace_comm_shadowed hreplaced hshadowed
      · have hfirst : first.Enters node := ⟨hreplaced, henters.undeclared, by simpa using hshadowed⟩
        rw [second.replace_of_enters henters, first.replace_of_enters hfirst,
          first.replace_of_enters (h.enters_rewrite hfirst),
          second.replace_of_enters (h.symm.enters_rewrite henters)]
        exact h.rewrite_comm ih
    · rcases first.replacement?_isSome hreplaced with rfl |
        ⟨id, params, body, generator, isAsync, rfl, hid⟩
      · rw [second.replace_identifier_of_ne h.name_ne, replace_identifier, if_pos rfl,
          second.replace_access h.first_object]
      · exact h.replace_comm_function params body generator isAsync hid

end Apart

/-! ## Many passes -/

/-- All passes of a list are apart from each other, not only those that are next to each other. -/
def AllApart (passes : List Pass) : Prop := passes.Pairwise Apart

/-- **The order of passes that are apart is of no consequence.** By induction on the permutation:
two neighbours may change places by `Apart.replace_comm`. -/
theorem replaceAll_perm {passes others : List Pass} (hperm : passes.Perm others)
    (h : AllApart passes) (node : Node) : replaceAll passes node = replaceAll others node := by
  induction hperm generalizing node with
  | nil => rfl
  | cons pass _ ih =>
    rw [replaceAll_cons, replaceAll_cons]
    exact ih (List.pairwise_cons.1 h).2 _
  | swap first second rest =>
    have hapart : second.Apart first := (List.pairwise_cons.1 h).1 first List.mem_cons_self
    simp only [replaceAll_cons]
    rw [hapart.replace_comm]
  | trans hfirst _ ih ih' =>
    rw [ih h, ih' (h.perm hfirst fun hapart => hapart.symm)]

end Pass

end DefineWrap
