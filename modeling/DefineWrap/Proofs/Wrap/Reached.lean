/-
The nodes that a pass comes to, and what a strict pass refuses.

A pass looks at a node, and then at what is below it unless its name means something else there.
`Node.Reaches` says which nodes are met in this way, without a word about the pass: only the name
counts. A strict pass goes the same way and checks each node when it comes to it, in between the
changes that it makes. The checks do not depend on what it has put into the tree so far, so they
can be taken apart from the changes (`Pass.apply_eq`). It succeeds exactly if no node that is
reached writes to the name or exports a declaration of it (`Pass.firstViolation?_eq_none_iff`),
and then it makes of the tree what the plain pass makes of it (`Pass.apply_strict`).
-/
import DefineWrap.Proofs.Wrap.StrictWrites

set_option autoImplicit false

namespace DefineWrap

namespace Node

/-! ## The nodes that are reached -/

/-- A node of a tree is reached with a name if the name means there what it means at the root.
The way goes from child to child. Of a variable declaration it goes to the initial values only,
and not to those of declarators that bind the name. -/
inductive Reaches (name : String) : Node → Node → Prop
  | root (node : Node) : Reaches name node node
  | child {node child part : Node} (hkind : node.kind ≠ .variableDeclaration)
    (hopen : node.closes name = false) (hchild : child ∈ node.children)
    (hpart : Reaches name child part) : Reaches name node part
  | value {declarations : List Node} {kind : VariableKind} {id value part : Node}
    (hmem : .variableDeclarator id (some value) ∈ declarations) (hopen : id.binds name = false)
    (hpart : Reaches name value part) :
    Reaches name (.variableDeclaration declarations kind) part

variable {name : String} {node part : Node}

/-- What is reached of a node that is no variable declaration: the node itself, and what is reached
of its children unless the node is closed to the name. -/
theorem reaches_iff (hkind : node.kind ≠ .variableDeclaration) :
    node.Reaches name part ↔ part = node ∨
      (node.closes name = false ∧ ∃ child ∈ node.children, child.Reaches name part) := by
  constructor
  · intro h
    cases h with
    | root => exact .inl rfl
    | child _ hopen hchild hpart => exact .inr ⟨hopen, _, hchild, hpart⟩
    | value => exact absurd rfl hkind
  · rintro (rfl | ⟨hopen, child, hchild, hpart⟩)
    · exact .root part
    · exact .child hkind hopen hchild hpart

/-- Of a variable declaration the initial values are reached that do not belong to a declarator of
the name. -/
theorem reaches_variableDeclaration_iff {declarations : List Node} {kind : VariableKind} :
    (variableDeclaration declarations kind).Reaches name part ↔
      part = .variableDeclaration declarations kind ∨
        ∃ id value, .variableDeclarator id (some value) ∈ declarations ∧ id.binds name = false ∧
          value.Reaches name part := by
  constructor
  · intro h
    cases h with
    | root => exact .inl rfl
    | child hkind => exact absurd rfl hkind
    | value hmem hopen hpart => exact .inr ⟨_, _, hmem, hopen, hpart⟩
  · rintro (rfl | ⟨id, value, hmem, hopen, hpart⟩)
    · exact .root _
    · exact .value hmem hopen hpart

/-- What is below a node that is closed to the name is not reached. -/
theorem reaches_of_closes (hkind : node.kind ≠ .variableDeclaration)
    (hclosed : node.closes name = true) : node.Reaches name part ↔ part = node := by
  rw [reaches_iff hkind, hclosed]
  exact or_iff_left fun h => Bool.noConfusion h.1

/-- Nothing is below a node without children, so it is all that is reached of it. -/
theorem reaches_of_children_eq_nil (hkind : node.kind ≠ .variableDeclaration)
    (hchildren : node.children = []) : node.Reaches name part ↔ part = node := by
  rw [reaches_iff hkind, hchildren]
  apply or_iff_left
  rintro ⟨-, child, hchild, -⟩
  cases hchild

/-- What holds of every node that is reached, if it is the root alone. Three of the five cases of a
pass are of this kind. -/
theorem forall_reached_iff {holds : Node → Prop}
    (h : ∀ part, node.Reaches name part ↔ part = node) :
    (∀ part, node.Reaches name part → holds part) ↔ holds node := by
  simp only [h, forall_eq]

end Node

namespace Pass

variable {pass : Pass} {node part : Node}

/-! ## The way of a pass

The five cases of a pass in terms of what is reached with its name. -/

/-- A node that shadows the name is reached, and nothing in it. It binds the name anew, or it is an
import, and that has no children to go on to. -/
theorem reaches_of_shadowed (hshadowed : pass.isShadowedBy node = true) :
    node.Reaches pass.name part ↔ part = node := by
  have hkind := pass.kind_ne_of_shadowed hshadowed
  rw [pass.isShadowedBy_eq, Bool.or_eq_true] at hshadowed
  rcases hshadowed with hrebinds | himport
  · apply Node.reaches_of_closes hkind
    rw [Node.closes, hrebinds, Bool.true_or]
  · -- An import is not closed to any name, but it has no children.
    apply Node.reaches_of_children_eq_nil hkind
    cases node
    case importDeclaration specifiers source => rfl
    all_goals simp [Node.kind, Node.record] at himport

/-- A function declaration of the name is reached, and nothing in it, as the pass replaces it as a
whole. -/
theorem reaches_function {id : Option Node} (params : List Node) (body : Node)
    (generator isAsync : Bool) (hid : pass.isOwnName id = true) :
    (Node.functionDeclaration id params body generator isAsync).Reaches pass.name part ↔
      part = .functionDeclaration id params body generator isAsync := by
  apply Node.reaches_of_closes (of_decide_eq_false rfl)
  have hown : id.any (·.isIdentifier pass.name) = true := hid
  rw [Node.closes, Node.isFunctionDeclarationOf, hown, Bool.or_true]

/-- Where the pass enters, the node is reached and all that is reached of its children. -/
theorem reaches_of_enters (henters : pass.Enters node) :
    node.Reaches pass.name part ↔
      part = node ∨ ∃ child ∈ node.children, child.Reaches pass.name part := by
  rw [Node.reaches_iff henters.undeclared, henters.closes_eq_false]
  simp only [true_and]

/-! ## What is refused -/

/-- Nothing is wrong with a node that neither writes to the name nor exports a declaration of it,
and only with such a node. -/
theorem violation?_eq_none_iff :
    pass.violation? node = none ↔
      pass.name ∉ node.writtenNames ∧ pass.name ∉ node.declaredExports := by
  constructor
  · intro h
    -- What is written to is accepted only if it binds other names, also as a head of a loop.
    have hplace : ∀ {place : Node}, pass.writeViolation? place = none →
        pass.name ∉ place.boundNames := by
      intro place hnone hmem
      have hbinds := not_binds_of_writeViolation?_eq_none hnone
      rw [Node.binds_iff.2 hmem] at hbinds
      cases hbinds
    have hhead : ∀ {head : Node}, pass.headViolation? head = none →
        pass.name ∉ if head.kind = .variableDeclaration then [] else head.boundNames := by
      intro head hnone
      rw [headViolation?_eq] at hnone
      split
      · exact List.not_mem_nil
      next hkind =>
        rw [if_neg hkind] at hnone
        exact hplace hnone
    have hexport : ∀ {declaration : Node}, pass.exportViolation? declaration = none →
        pass.name ∉ declaration.directDeclarations?.getD [] := by
      intro declaration hnone hmem
      rw [exportViolation?, if_pos hmem] at hnone
      cases hnone
    cases node
    case assignmentExpression => exact ⟨hplace h, List.not_mem_nil⟩
    case updateExpression => exact ⟨hplace h, List.not_mem_nil⟩
    case forInStatement => exact ⟨hhead h, List.not_mem_nil⟩
    case forOfStatement => exact ⟨hhead h, List.not_mem_nil⟩
    case exportDefaultDeclaration => exact ⟨List.not_mem_nil, hexport h⟩
    case exportNamedDeclaration declaration specifiers source =>
      cases declaration with
      | none => exact ⟨List.not_mem_nil, List.not_mem_nil⟩
      | some declaration => exact ⟨List.not_mem_nil, hexport h⟩
    all_goals exact ⟨List.not_mem_nil, List.not_mem_nil⟩
  · rintro ⟨hwritten, hdeclared⟩
    rw [Option.eq_none_iff_forall_ne_some]
    intro error h
    rcases violation?_cases h with ⟨-, hmem⟩ | ⟨-, hmem⟩
    · exact hwritten hmem
    · exact hdeclared hmem

/-- **A strict pass accepts a tree exactly if nothing is wrong with any node that it reaches.**
The one direction is about failures and the other about success, and the induction is the same for
both. -/
theorem firstViolation?_eq_none_iff :
    pass.firstViolation? node = none ↔
      ∀ part, node.Reaches pass.name part → pass.violation? part = none := by
  -- The induction follows the pass: what it does not enter is all that is reached of it.
  induction node using pass.replace_induction with
  | reference =>
    have hroot : ∀ part, (Node.identifier pass.name).Reaches pass.name part ↔
        part = .identifier pass.name := fun part =>
      Node.reaches_of_children_eq_nil (of_decide_eq_false rfl) rfl
    rw [Node.forall_reached_iff hroot, firstViolation?_identifier]
    exact iff_of_true rfl rfl
  | function id params body generator isAsync hid =>
    rw [Node.forall_reached_iff fun _ => reaches_function params body generator isAsync hid,
      pass.firstViolation?_of_replaced (by simp [replacement?, hid])]
    exact iff_of_true rfl rfl
  | shadowed node hreplaced hshadowed =>
    rw [Node.forall_reached_iff fun _ => reaches_of_shadowed hshadowed,
      pass.firstViolation?_of_shadowed hreplaced hshadowed]
    refine iff_of_true rfl ?_
    -- Nothing that shadows a name is a write or an export.
    cases node <;> first | rfl | cases hshadowed
  | declaration declarations kind ih =>
    rw [firstViolation?_variableDeclaration, List.findSome?_eq_none_iff]
    constructor
    · intro h part hreaches
      rcases Node.reaches_variableDeclaration_iff.1 hreaches with
        rfl | ⟨id, value, hmem, hopen, hpart⟩
      · rfl
      · have hvalue := h _ hmem
        rw [declaratorViolation?, hopen, if_neg Bool.false_ne_true] at hvalue
        exact (ih id value hmem).1 hvalue part hpart
    · intro h declarator hmem
      cases declarator
      case variableDeclarator id init =>
        rw [declaratorViolation?]
        split
        · rfl
        next hopen =>
          cases init with
          | none => rfl
          | some value =>
            apply (ih id value hmem).2
            intro part hpart
            apply h
            exact .value hmem (Bool.eq_false_iff.2 hopen) hpart
      all_goals rfl
  | entered node henters ih =>
    rw [pass.firstViolation?_of_enters henters, Option.or_eq_none_iff,
      List.findSome?_eq_none_iff]
    constructor
    · rintro ⟨hnode, hbelow⟩ part hreaches
      rcases (reaches_of_enters henters).1 hreaches with rfl | ⟨child, hchild, hpart⟩
      · exact hnode
      · exact (ih child hchild).1 (hbelow child hchild) part hpart
    · intro h
      refine ⟨h node (.root node), fun child hchild => (ih child hchild).2 fun part hpart => ?_⟩
      apply h
      exact (reaches_of_enters henters).2 (.inr ⟨child, hchild, hpart⟩)

/-! ## Strict and plain -/

/-- What a pass replaces as a whole depends on its name, as far as whether it does. What it puts
there depends on the access. -/
theorem replacement?_eq_none_of_name_eq {other : Pass} (hname : other.name = pass.name)
    (hkept : pass.replacement? node = none) : other.replacement? node = none := by
  by_contra hreplaced
  rcases other.replacement?_isSome hreplaced with rfl |
    ⟨id, params, body, generator, isAsync, rfl, hid⟩
  · simp [replacement?, hname] at hkept
  · have hown := pass.isOwnName_eq_false hkept
    rw [isOwnName, ← hname] at hown
    rw [isOwnName, hown] at hid
    cases hid

theorem isShadowedBy_of_name_eq {other : Pass} (hname : other.name = pass.name) (node : Node) :
    other.isShadowedBy node = pass.isShadowedBy node := by
  rw [isShadowedBy_eq, isShadowedBy_eq, hname]

/-- Which nodes a pass enters depends on its name only, and so a strict pass enters those that a
plain one does. -/
theorem Enters.of_name_eq {other : Pass} (hname : other.name = pass.name)
    (henters : pass.Enters node) : other.Enters node :=
  ⟨replacement?_eq_none_of_name_eq hname henters.unreplaced, henters.undeclared, by
    rw [isShadowedBy_of_name_eq hname, henters.unshadowed]⟩

theorem spellOut_of_name_eq {other : Pass} (hname : other.name = pass.name) (node : Node) :
    other.spellOut node = pass.spellOut node := by
  cases node <;> first | rfl | rw [spellOut, hname, ← spellOut]

/-- A pass that is strict and one that is not make the same of a tree. What is refused is a matter
of the checks, and these are no part of the replacement. -/
theorem replace_congr {other : Pass} (hname : other.name = pass.name)
    (haccess : other.access = pass.access) (node : Node) :
    other.replace node = pass.replace node := by
  -- No case asks whether the pass is strict: that matters for what it refuses only.
  induction node using pass.replace_induction with
  | reference => rw [replace_identifier, if_pos hname.symm, haccess]
  | function id params body generator isAsync hid =>
    have hown : other.isOwnName id = true := by
      rw [isOwnName, hname]
      exact hid
    rw [other.replace_functionDeclaration_own params body generator isAsync hown, haccess]
  | shadowed node hreplaced hshadowed =>
    apply other.replace_of_shadowed
    · exact replacement?_eq_none_of_name_eq hname hreplaced
    · rw [isShadowedBy_of_name_eq hname, hshadowed]
  | declaration declarations kind ih =>
    rw [replace_variableDeclaration]
    congr 1
    apply List.map_congr_left
    intro declarator hmem
    cases declarator
    case variableDeclarator id init =>
      rw [replaceDeclarator, replaceDeclarator, replaceValue, replaceValue, hname, haccess]
      cases init with
      | none => rfl
      | some value => rw [Option.map_some, Option.map_some, Option.map_some, ih id value hmem]
    all_goals rfl
  | entered node henters ih =>
    rw [other.replace_of_enters (henters.of_name_eq hname), rewrite, rewrite,
      spellOut_of_name_eq hname]
    apply Node.mapChildren_congr
    intro child hchild
    rw [pass.children_spellOut] at hchild
    exact ih child hchild

/-- A pass that fails has come to something that is wrong for its name, and there are two such
things. -/
theorem apply_error {error : WrapError} (h : pass.apply node = .error error) :
    error = .duplicateBinding pass.name ∨ error = .illegalReassignment pass.name := by
  obtain ⟨part, -, hviolation⟩ := pass.exists_violation (apply_error_iff.1 h).2
  rcases violation?_cases hviolation with ⟨rfl, -⟩ | ⟨rfl, -⟩
  · exact .inr rfl
  · exact .inl rfl

/-- **A strict pass is the plain pass with a check.** The plain pass always succeeds. The strict
pass for the same name and access succeeds exactly if no node that is reached with the name writes
to it or exports a declaration of it; then the result is that of the plain pass. If it fails, the
error is about the name, and says that it is bound twice or that it is assigned to. -/
theorem apply_strict (name : String) (access : Access) (node : Node) :
    ∃ after, apply ⟨name, access, false⟩ node = .ok after ∧
      ((∃ result, apply ⟨name, access, true⟩ node = .ok result) ↔
        ∀ part, node.Reaches name part →
          name ∉ part.writtenNames ∧ name ∉ part.declaredExports) ∧
      (∀ result, apply ⟨name, access, true⟩ node = .ok result → result = after) ∧
      ∀ error, apply ⟨name, access, true⟩ node = .error error →
        error = .duplicateBinding name ∨ error = .illegalReassignment name := by
  refine ⟨_, apply_of_not_strict rfl node, ?_, ?_, ?_⟩
  · have haccepted : firstViolation? ⟨name, access, true⟩ node = none ↔ ∀ part,
        node.Reaches name part → violation? ⟨name, access, true⟩ part = none :=
      firstViolation?_eq_none_iff
    simp only [violation?_eq_none_iff] at haccepted
    rw [← haccepted]
    constructor
    · rintro ⟨result, hresult⟩
      exact (apply_ok_iff.1 hresult).2 rfl
    · intro hnone
      exact ⟨_, apply_ok_iff.2 ⟨rfl, fun _ => hnone⟩⟩
  · intro result hresult
    rw [← (apply_ok_iff.1 hresult).1]
    apply replace_congr
    · rfl
    · rfl
  · intro error herror
    exact apply_error herror

end Pass

end DefineWrap
