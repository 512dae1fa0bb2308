/-
Surveys that a pass does not disturb.

A survey that looks for one name finds after a pass for another name what it found
before, in the same order. What has to be known for this is local (`Survey.Stable`): what
the survey finds at the access, at the assignment that takes the place of a function, and
at one node that the pass enters. `Survey.Stable.gather_replace` carries it over to whole
trees, and to several passes in a row.
-/
import DefineWrap.Proofs.Wrap.Binding

set_option autoImplicit false

namespace DefineWrap

namespace Survey

variable {σ α : Type} {survey : Survey σ α}

/-! ## Accesses and assignments to them -/

/-- A survey finds nothing at an access if it finds nothing at the parts of one. There are four
parts at most, the expression, its object, its member and the string of a computed one. -/
theorem gather_access {access : Access}
    (hmember : ∀ state node member computed,
      survey.found state (.memberExpression node member computed false) = [])
    (hobject : ∀ state, survey.found state (.identifier access.object) = [])
    (hliteral : ∀ state value raw, survey.found state (.literal value raw none) = [])
    (state : σ) : survey.gather state access.node = [] := by
  have hname : ∀ next, survey.gather next (.identifier access.object) = [] := by
    intro next
    rw [gather_eq survey next (.identifier _) (of_decide_eq_false rfl), hobject]
    rfl
  have hpart : ∀ next, survey.gatherIf next (.identifier access.object) = [] := by
    intro next
    cases next with
    | none => rfl
    | some next => exact hname next
  -- An access is a member of an object, written with a dot or as a string in brackets, or an object
  -- itself.
  rcases access.node_eq_access_or_identifier with ⟨name, heq⟩ | heq
  · obtain ⟨member, computed, haccess, hcomputed⟩ := Node.exists_access_eq access.object name
    rw [heq, haccess, gather_eq survey state (.memberExpression _ _ _ _) (of_decide_eq_false rfl),
      hmember]
    cases computed with
    | false => simp [Node.children, Node.places, hpart]
    | true =>
      obtain ⟨raw, rfl⟩ := hcomputed rfl
      have hproperty : ∀ next, survey.gatherIf next (.literal (.string name) raw none) = [] := by
        intro next
        cases next with
        | none => rfl
        | some next =>
          change survey.gather next (.literal _ raw none) = []
          rw [gather_eq survey next (.literal _ _ _) (of_decide_eq_false rfl), hliteral]
          rfl
      simp [Node.children, Node.places, hpart, hproperty]
  · rw [heq, hname]

/-- A survey sees through an assignment to an access: it finds there what it finds at the
value that is assigned. -/
structure SeesThrough (survey : Survey σ α) (access : Access) : Prop where
  access_eq : ∀ state, survey.gather state access.node = []
  assignment_eq : ∀ state value, survey.found state (.assignment access.node value) = []
  value_eq : ∀ state value, survey.below state (.assignment access.node value) value = some state
  statement_eq : ∀ state value,
    survey.found state (.statement (.assignment access.node value)) = []
  expression_eq : ∀ state value, survey.below state
    (.statement (.assignment access.node value)) (.assignment access.node value) = some state

namespace SeesThrough

variable {access : Access}

/-- At an assignment to an access a survey finds what it finds at the value, as the access has
nothing and the value is surveyed in the state of the whole. -/
theorem gather_assignment (h : survey.SeesThrough access) (state : σ) (value : Node) :
    survey.gather state (.assignment access.node value) = survey.gather state value := by
  have haccess : ∀ next, survey.gatherIf next access.node = [] := by
    intro next
    cases next with
    | none => rfl
    | some next => exact h.access_eq next
  have hchildren : (Node.assignment access.node value).children = [access.node, value] := rfl
  rw [gather_eq survey state (.assignment _ _) (of_decide_eq_false rfl), h.assignment_eq, hchildren,
    List.flatMap_cons, haccess, List.flatMap_singleton, h.value_eq]
  rfl

/-- The same for the statement of the assignment, which is what a pass puts in the place of a
function declaration. -/
theorem gather_assignmentStatement (h : survey.SeesThrough access) (state : σ) (value : Node) :
    survey.gather state (.assignmentStatement access.node value) = survey.gather state value := by
  have hchildren : (Node.statement (.assignment access.node value)).children =
      [.assignment access.node value] := rfl
  rw [Node.assignmentStatement, gather_eq survey state (.statement _) (of_decide_eq_false rfl),
    h.statement_eq, hchildren, List.flatMap_singleton, h.expression_eq, ← h.gather_assignment]
  rfl

end SeesThrough

/-! ## Passes for other names -/

/-- What has to be known of a survey and a pass at one node, so that the pass changes
nothing for the survey. -/
structure Stable (survey : Survey σ α) (pass : Pass) : Prop where
  seesThrough : survey.SeesThrough pass.access
  reference : ∀ state, survey.gather state (.identifier pass.name) = []
  function : ∀ state id params body generator isAsync, pass.isOwnName id = true →
    survey.gather state (.functionExpression id params body generator isAsync) =
      survey.gather state (.functionDeclaration id params body generator isAsync)
  found_eq : ∀ state node, pass.Enters node →
    survey.found state (pass.rewrite node) = survey.found state node
  below_eq : ∀ state node child, pass.Enters node → child ∈ node.children →
    survey.below state (pass.rewrite node) (pass.replace child) = survey.below state node child
  declared_eq : ∀ state id init,
    survey.declared state id (pass.replaceValue id init) = survey.declared state id init

namespace Stable

variable {pass : Pass}

/-- At a declarator a survey finds what it found before. If the declarator is of the name, its value
becomes that of an assignment, which the survey sees through. -/
theorem gatherDeclarator_eq (h : survey.Stable pass) (state : σ) (id : Node)
    (init : Option Node)
    (ih : ∀ value, init = some value → ∀ state,
      survey.gather state (pass.replace value) = survey.gather state value) :
    survey.gatherDeclarator state (.variableDeclarator id (pass.replaceValue id init)) =
      survey.gatherDeclarator state (.variableDeclarator id init) := by
  rw [gatherDeclarator, gatherDeclarator, h.declared_eq]
  congr 1
  cases init with
  | none => rw [pass.replaceValue_none]
  | some value =>
    unfold Pass.replaceValue
    rw [Option.toList_some, List.flatMap_singleton]
    cases survey.value state id with
    | none => split <;> [skip; split] <;> rfl
    | some next =>
      split
      · exact List.append_nil _ |>.trans (h.seesThrough.gather_assignment next value)
      · split
        · exact List.append_nil _
        · exact List.append_nil _ |>.trans (ih value rfl next)

/-- **A pass for another name changes nothing for a survey.** The five cases of a pass are each one
field of `Stable`, and the shadowed case needs none, since nothing changes there. -/
theorem gather_replace (h : survey.Stable pass) (state : σ) (node : Node) :
    survey.gather state (pass.replace node) = survey.gather state node := by
  induction node using pass.replace_induction generalizing state with
  | reference => rw [h.seesThrough.access_eq, h.reference]
  | function id params body generator isAsync hid =>
    rw [h.seesThrough.gather_assignmentStatement, h.function state _ _ _ _ _ hid]
  | shadowed node hreplaced hshadowed => rfl
  | declaration declarations kind ih =>
    rw [gather_variableDeclaration, gather_variableDeclaration, List.flatMap_map]
    refine List.flatMap_congr fun declarator hmem => ?_
    cases declarator
    case variableDeclarator id init =>
      refine h.gatherDeclarator_eq state id init fun value hvalue next => ?_
      exact ih id value (hvalue ▸ hmem) next
    all_goals rfl
  | entered node henters ih =>
    have hkind := henters.rewrite_undeclared
    rw [gather_eq survey state _ hkind, gather_eq survey state _ henters.undeclared,
      h.found_eq state _ henters, pass.children_rewrite, List.flatMap_map]
    congr 1
    refine List.flatMap_congr fun child hchild => ?_
    rw [h.below_eq state node child henters hchild]
    cases survey.below state node child with
    | none => rfl
    | some next => exact ih child hchild next

end Stable

/-- Several passes for other names change nothing either, so a survey of a name may skip all passes
before and after the one for the name. -/
theorem gather_replaceAll {passes : List Pass} (h : ∀ pass ∈ passes, survey.Stable pass)
    (state : σ) (node : Node) :
    survey.gather state (Pass.replaceAll passes node) = survey.gather state node :=
  Pass.replaceAll_invariant (fun pass hmem other => (h pass hmem).gather_replace state other) node

end Survey

end DefineWrap
