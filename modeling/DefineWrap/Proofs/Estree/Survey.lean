/-
Surveys: going through a tree and writing down what is found.

Much of what is said about a tree and a name is of one form: start at the root, go on
to some of the parts of each node, remember a little about the way, and note what is
found. A survey is such a rule. It is given a node and a state, it notes findings,
and it says in which state each child is surveyed, or that the child is passed by.

Variable declarations are surveyed through their declarators, because the table of
children leaves out what stands inside the pattern of a declarator: the default values
and the computed keys, which are expressions like any other
(`Node.patternExpressions`).
-/
import DefineWrap.Estree.Children
import DefineWrap.Estree.Pattern
import DefineWrap.Estree.Record

set_option autoImplicit false

namespace DefineWrap

namespace Node

/-- What holds of a node if it holds of its children holds of every node. It follows the sizes of
nodes, since the children are those of the table and no constructor shows them. -/
theorem children_induction {motive : Node → Prop}
    (step : ∀ node, (∀ child ∈ node.children, motive child) → motive node) (node : Node) :
    motive node := by
  induction hsize : sizeOf node using Nat.strongRecOn generalizing node with
  | _ size ih =>
    subst hsize
    exact step node fun child hmem => ih _ (sizeOf_lt_of_mem_children hmem) child rfl

/-! ## The expressions inside a pattern -/

/-- The key of a property, if it is computed. Otherwise it is a name and no expression. -/
def computedKey : Node → List Node
  | .property key _ _ true _ _ => [key]
  | _ => []

/-- The expressions of a pattern that are not inside a pattern below it: the computed keys of an
object pattern, and a default value. -/
def ownExpressions : Node → List Node
  | .objectPattern properties => properties.flatMap computedKey
  | .assignmentPattern _ right => [right]
  | _ => []

/-- The default values and the computed keys inside a pattern. They are evaluated where the pattern
is bound, but the table of children does not list them for declarators. -/
def patternExpressions (node : Node) : List Node :=
  node.ownExpressions ++ node.subpatterns.attach.flatMap fun part => patternExpressions part.1
termination_by sizeOf node
decreasing_by exact sizeOf_lt_of_mem_subpatterns part.2

/-- The expressions inside a pattern, without the proofs that the recursion ends: those of its own,
and those of the patterns below it. -/
theorem patternExpressions_eq (node : Node) :
    node.patternExpressions =
      node.ownExpressions ++ node.subpatterns.flatMap patternExpressions := by
  rw [patternExpressions, List.flatMap_subtype (g := patternExpressions) fun _ _ => rfl,
    List.unattach_attach]

/-- A name alone has no expressions in it, which is the usual case of a declarator. -/
@[simp] theorem patternExpressions_identifier (name : String) :
    (identifier name).patternExpressions = [] := by
  rw [patternExpressions_eq]
  rfl

theorem sizeOf_lt_of_mem_computedKey {node key : Node} (h : key ∈ node.computedKey) :
    sizeOf key < sizeOf node := by
  unfold computedKey at h
  split at h
  · rw [List.mem_singleton.1 h]
    simp +arith
  · cases h

theorem sizeOf_lt_of_mem_ownExpressions {node part : Node} (h : part ∈ node.ownExpressions) :
    sizeOf part < sizeOf node := by
  unfold ownExpressions at h
  split at h
  · obtain ⟨property, hproperty, hpart⟩ := List.mem_flatMap.1 h
    have hkey := sizeOf_lt_of_mem_computedKey hpart
    have hlist := List.sizeOf_lt_of_mem hproperty
    simp only [objectPattern.sizeOf_spec]
    omega
  · rw [List.mem_singleton.1 h]
    simp +arith
  · cases h

/-- The expressions inside a pattern are smaller than it, so a survey may go on to them. -/
theorem sizeOf_lt_of_mem_patternExpressions {node part : Node}
    (h : part ∈ node.patternExpressions) : sizeOf part < sizeOf node := by
  induction hsize : sizeOf node using Nat.strongRecOn generalizing node with
  | _ size ih =>
    subst hsize
    rw [patternExpressions_eq] at h
    rcases List.mem_append.1 h with hown | hbelow
    · exact sizeOf_lt_of_mem_ownExpressions hown
    · obtain ⟨sub, hsub, hpart⟩ := List.mem_flatMap.1 hbelow
      have hlt := sizeOf_lt_of_mem_subpatterns hsub
      exact Nat.lt_trans (ih _ hlt hpart rfl) hlt

/-! ## Kinds -/

/-- What a node of a kind is made of, for the kinds that are told apart in statements and their
entries: variable declarations and exports. Of a node of another kind it says nothing. -/
def HasFormOf (node : Node) : Kind → Prop
  | .variableDeclaration => ∃ declarations kind, node = .variableDeclaration declarations kind
  | .exportNamedDeclaration => ∃ declaration specifiers source,
      node = .exportNamedDeclaration declaration specifiers source
  | .exportDefaultDeclaration => ∃ declaration, node = .exportDefaultDeclaration declaration
  | .exportAllDeclaration => ∃ source exported, node = .exportAllDeclaration source exported
  | .exportSpecifier => ∃ localName exported, node = .exportSpecifier localName exported
  | _ => True

/-- A kind has one constructor, so a node that is known by its kind only can be taken apart. -/
theorem hasFormOf_of_kind_eq {node : Node} {kind : Kind} (h : node.kind = kind) :
    node.HasFormOf kind := by
  subst h
  cases node <;>
    first | exact ⟨_, _, _, rfl⟩ | exact ⟨_, _, rfl⟩ | exact ⟨_, rfl⟩ | exact trivial

end Node

/-! ## Surveys -/

/-- A rule for going through a tree in states of `σ`, with findings of `α`. Declarators have rules
of their own, as the expressions in a pattern are no children. A state that is nothing says that a
part is passed by. -/
structure Survey (σ α : Type) where
  /-- What is found at a node that is no variable declaration. -/
  found : σ → Node → List α
  /-- The state in which a child of such a node is surveyed, unless it is passed by. -/
  below : σ → Node → Node → Option σ
  /-- What is found at a declarator with a pattern and perhaps an initial value. -/
  declared : σ → Node → Option Node → List α
  /-- The state in which the expressions inside the pattern are surveyed. -/
  pattern : σ → Node → Option σ
  /-- The state in which the initial value is surveyed. -/
  value : σ → Node → Option σ

namespace Survey

variable {σ α : Type}

/-- A part to be surveyed, if there is a state to do it in. -/
def visit (state : Option σ) (part : Node) : List (α ⊕ σ × Node) :=
  state.toList.map fun next => .inr (next, part)

/-- The findings and the parts of a declarator: first what is found at it, then the expressions
inside its pattern, and then its initial value. -/
def declaratorEntries (survey : Survey σ α) (state : σ) : Node → List (α ⊕ σ × Node)
  | .variableDeclarator id init =>
    (survey.declared state id init).map .inl ++
      id.patternExpressions.flatMap (visit (survey.pattern state id)) ++
      init.toList.flatMap (visit (survey.value state id))
  | _ => []

/-- The findings at a node and its parts that are still to be surveyed, in order. The recursion is
in `gather` only, so this is one layer of a survey and can be unfolded. -/
def entries (survey : Survey σ α) (state : σ) : Node → List (α ⊕ σ × Node)
  | .variableDeclaration declarations _ => declarations.flatMap (survey.declaratorEntries state)
  | node =>
    (survey.found state node).map .inl ++
      node.children.flatMap fun child => visit (survey.below state node child) child

theorem mem_visit {state : Option σ} {part other : Node} {next : σ}
    (h : (Sum.inr (next, part) : α ⊕ σ × Node) ∈ visit state other) : part = other := by
  obtain ⟨_, _, heq⟩ := List.mem_map.1 h
  exact (Prod.mk.inj (Sum.inr.inj heq)).2.symm

theorem sizeOf_lt_of_mem_declaratorEntries {survey : Survey σ α} {state next : σ}
    {node part : Node} (h : .inr (next, part) ∈ survey.declaratorEntries state node) :
    sizeOf part < sizeOf node := by
  unfold declaratorEntries at h
  split at h
  next id init =>
    simp only [Node.variableDeclarator.sizeOf_spec]
    rcases List.mem_append.1 h with h | h
    · rcases List.mem_append.1 h with h | h
      · obtain ⟨_, _, heq⟩ := List.mem_map.1 h
        cases heq
      · obtain ⟨expression, hmem, hvisit⟩ := List.mem_flatMap.1 h
        have hlt := Node.sizeOf_lt_of_mem_patternExpressions hmem
        rw [mem_visit hvisit]
        omega
    · obtain ⟨value, hmem, hvisit⟩ := List.mem_flatMap.1 h
      rw [Option.mem_toList.1 hmem, mem_visit hvisit]
      simp +arith
  · cases h

theorem entries_eq {survey : Survey σ α} {state : σ} {node : Node}
    (h : node.kind ≠ .variableDeclaration) :
    survey.entries state node = (survey.found state node).map .inl ++
      node.children.flatMap fun child => visit (survey.below state node child) child := by
  cases node <;> first | rfl | exact absurd rfl h

theorem sizeOf_lt_of_mem_entries {survey : Survey σ α} {state next : σ} {node part : Node}
    (h : .inr (next, part) ∈ survey.entries state node) : sizeOf part < sizeOf node := by
  by_cases hkind : node.kind = .variableDeclaration
  · obtain ⟨declarations, kind, rfl⟩ := Node.hasFormOf_of_kind_eq hkind
    obtain ⟨declarator, hmem, hpart⟩ := List.mem_flatMap.1 h
    have hlt := sizeOf_lt_of_mem_declaratorEntries hpart
    have hlist := List.sizeOf_lt_of_mem hmem
    simp only [Node.variableDeclaration.sizeOf_spec]
    omega
  · rw [entries_eq hkind] at h
    rcases List.mem_append.1 h with h | h
    · obtain ⟨_, _, heq⟩ := List.mem_map.1 h
      cases heq
    · obtain ⟨child, hmem, hvisit⟩ := List.mem_flatMap.1 h
      rw [mem_visit hvisit]
      exact Node.sizeOf_lt_of_mem_children hmem

/-- All that a survey finds in a tree, in the order of the text. It ends because every part is
smaller than the node, and not by the states, of which nothing is asked. -/
def gather (survey : Survey σ α) (state : σ) (node : Node) : List α :=
  (survey.entries state node).attach.flatMap fun
    | ⟨.inl finding, _⟩ => [finding]
    | ⟨.inr (next, part), _⟩ => gather survey next part
termination_by sizeOf node
decreasing_by exact sizeOf_lt_of_mem_entries ‹_›

/-- The survey of a part, if there is a state to do it in. Where there is none the part counts as
empty. -/
def gatherIf (survey : Survey σ α) (state : Option σ) (part : Node) : List α :=
  state.elim [] fun next => survey.gather next part

/-- All that a survey finds at a declarator. -/
def gatherDeclarator (survey : Survey σ α) (state : σ) : Node → List α
  | .variableDeclarator id init =>
    survey.declared state id init ++
      id.patternExpressions.flatMap (survey.gatherIf (survey.pattern state id)) ++
      init.toList.flatMap (survey.gatherIf (survey.value state id))
  | _ => []

/-- What an entry comes to: the finding that it is, or all that is found in the part. -/
def follow (survey : Survey σ α) : α ⊕ σ × Node → List α
  | .inl finding => [finding]
  | .inr (next, part) => survey.gather next part

/-- A survey is one layer and then the surveys of the parts. All other equations of `gather` are
this one with the entries written out. -/
theorem gather_eq_follow (survey : Survey σ α) (state : σ) (node : Node) :
    survey.gather state node = (survey.entries state node).flatMap survey.follow := by
  rw [gather, List.flatMap_subtype (g := survey.follow), List.unattach_attach]
  intro entry _
  cases entry <;> rfl

theorem follow_findings (survey : Survey σ α) (findings : List α) :
    (findings.map Sum.inl).flatMap survey.follow = findings := by
  rw [List.flatMap_map]
  exact List.flatMap_singleton' findings

theorem follow_visit (survey : Survey σ α) (state : Option σ) (part : Node) :
    (visit state part).flatMap survey.follow = survey.gatherIf state part := by
  cases state with
  | none => rfl
  | some next => exact List.append_nil _

/-- A node that is no variable declaration is surveyed at itself and then below. With the rule of a
survey unfolded this is the equation for any of the other kinds. -/
theorem gather_eq (survey : Survey σ α) (state : σ) (node : Node)
    (h : node.kind ≠ .variableDeclaration) :
    survey.gather state node = survey.found state node ++
      node.children.flatMap fun child =>
        survey.gatherIf (survey.below state node child) child := by
  rw [gather_eq_follow, entries_eq h, List.flatMap_append, follow_findings, List.flatMap_assoc]
  simp only [follow_visit]

/-- A survey that finds nothing at a node and goes on in the same state finds what it finds in the
children. -/
theorem gather_below {survey : Survey σ α} {state : σ} {node : Node}
    (hkind : node.kind ≠ .variableDeclaration) (hfound : survey.found state node = [])
    (hbelow : ∀ child, survey.below state node child = some state) :
    survey.gather state node = node.children.flatMap (survey.gather state) := by
  rw [survey.gather_eq state node hkind, hfound, List.nil_append]
  simp only [hbelow]
  rfl

/-- Nothing is found in a tree if nothing is found at its root and below. Each part can so be looked
at by itself, as it does not matter here in what order things are found. -/
theorem gather_eq_nil_iff (survey : Survey σ α) (state : σ) (node : Node)
    (h : node.kind ≠ .variableDeclaration) :
    survey.gather state node = [] ↔ survey.found state node = [] ∧
      ∀ child ∈ node.children, survey.gatherIf (survey.below state node child) child = [] := by
  rw [survey.gather_eq state node h, List.append_eq_nil_iff, List.flatMap_eq_nil_iff]

/-- A variable declaration is surveyed declarator by declarator, all of them in the state of the
declaration. -/
theorem gather_variableDeclaration (survey : Survey σ α) (state : σ) (declarations : List Node)
    (kind : VariableKind) :
    survey.gather state (.variableDeclaration declarations kind) =
      declarations.flatMap (survey.gatherDeclarator state) := by
  rw [gather_eq_follow, entries, List.flatMap_assoc]
  congr 1
  funext declarator
  unfold declaratorEntries gatherDeclarator
  split
  · simp only [List.flatMap_append, List.flatMap_assoc, follow_findings, follow_visit]
  · rfl

/-- **Induction along a survey**: over a node and its children, and over a variable declaration and
the parts of its declarators. It serves every survey, as the states do not decide where a survey can
go. -/
theorem induction {motive : Node → Prop}
    (node : ∀ node, node.kind ≠ .variableDeclaration →
      (∀ child ∈ node.children, motive child) → motive node)
    (declaration : ∀ declarations kind,
      (∀ id init, .variableDeclarator id init ∈ declarations →
        (∀ part ∈ id.patternExpressions, motive part) ∧ ∀ value ∈ init, motive value) →
      motive (.variableDeclaration declarations kind))
    (root : Node) : motive root := by
  induction hsize : sizeOf root using Nat.strongRecOn generalizing root with
  | _ size ih =>
    subst hsize
    by_cases hkind : root.kind = .variableDeclaration
    · obtain ⟨declarations, kind, rfl⟩ := Node.hasFormOf_of_kind_eq hkind
      refine declaration declarations kind fun id init hmem => ?_
      have hlt := List.sizeOf_lt_of_mem hmem
      simp only [Node.variableDeclarator.sizeOf_spec] at hlt
      refine ⟨fun part hpart => ih _ ?_ part rfl, fun value hvalue => ih _ ?_ value rfl⟩
      · have hpart' := Node.sizeOf_lt_of_mem_patternExpressions hpart
        simp only [Node.variableDeclaration.sizeOf_spec]
        omega
      · rw [Option.mem_def.1 hvalue, Option.some.sizeOf_spec] at hlt
        simp only [Node.variableDeclaration.sizeOf_spec]
        omega
    · exact node root hkind fun child hmem =>
        ih _ (Node.sizeOf_lt_of_mem_children hmem) child rfl

end Survey

end DefineWrap
