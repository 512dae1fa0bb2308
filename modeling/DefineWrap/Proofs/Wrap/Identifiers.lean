/-
The identifiers of a tree, and passes for names that do not occur.

`Node.identifiers` lists every identifier in a tree, wherever it stands: uses and declarations,
but labels, keys and the names of specifiers, too. What a node binds, declares or writes to is
among them. So a pass for a name that is not among them has nothing to do: it leaves the tree as
it is (`Pass.replace_of_fresh`), and refuses nothing in it (`Pass.firstViolation?_of_fresh`).
-/
import DefineWrap.Proofs.Wrap.Causes
import DefineWrap.Proofs.Wrap.ModuleForms

set_option autoImplicit false

namespace DefineWrap

namespace Node

/-! ## The identifiers of a tree -/

/-- The names of all identifiers in a tree, wherever they stand in it. This is more than what a pass
looks at, and easy to check for a name that is to be new. -/
def identifiers (node : Node) : List String :=
  node.identifierName?.toList ++ node.parts.attach.flatMap fun part => identifiers part.1
termination_by sizeOf node
decreasing_by exact sizeOf_lt_of_mem_record part.2

theorem identifiers_eq (node : Node) :
    node.identifiers = node.identifierName?.toList ++ node.parts.flatMap identifiers := by
  rw [identifiers, List.flatMap_subtype (g := identifiers) fun _ _ => rfl, List.unattach_attach]

@[simp] theorem identifiers_identifier (name : String) :
    (identifier name).identifiers = [name] := by
  rw [identifiers_eq]
  rfl

/-- The identifiers of a part are among those of the node, so a name that does not occur in a node
occurs in no part of it. -/
theorem identifiers_subset_of_mem_parts {node part : Node} (h : part ∈ node.parts) :
    part.identifiers ⊆ node.identifiers := by
  intro name hname
  rw [node.identifiers_eq]
  exact List.mem_append_right _ (List.mem_flatMap.2 ⟨part, h, hname⟩)

/-- The parts of a variable declaration are its declarators. They are no children, so the step down
to them needs a lemma of its own. -/
theorem parts_variableDeclaration (declarations : List Node) (kind : VariableKind) :
    (variableDeclaration declarations kind).parts = declarations := by
  simp [parts, record, Record.inner, FieldValue.inner]

/-- The parts of a declarator are its pattern and its initial value. -/
theorem parts_variableDeclarator (id : Node) (init : Option Node) :
    (variableDeclarator id init).parts = id :: init.toList := by
  cases init <;> rfl

/-- The same for a name that does not occur, in the direction in which it is used. -/
theorem notMem_identifiers_of_mem_parts {node part : Node} {name : String}
    (h : name ∉ node.identifiers) (hpart : part ∈ node.parts) : name ∉ part.identifiers :=
  fun hname => h (identifiers_subset_of_mem_parts hpart hname)

/-- Every child is a part. The two come from different tables, and this is checked for each
constructor. -/
theorem children_subset_parts (node : Node) : node.children ⊆ node.parts := by
  intro child h
  cases node
  case property _ _ _ computed _ _ | methodDefinition _ _ _ computed _
      | memberExpression _ _ computed _ | propertyDefinition _ _ computed _ =>
    cases computed <;>
      simp_all [children, places, parts, record, Record.inner, FieldValue.inner]
  case exportNamedDeclaration _ _ source =>
    cases source <;>
      simp_all [children, places, parts, record, Record.inner, FieldValue.inner]
  case doWhileStatement body test =>
    simpa [children, places, parts, record, Record.inner, FieldValue.inner, or_comm] using h
  all_goals
    simp [children, places] at h
  all_goals
    simp_all [parts, record, Record.inner, FieldValue.inner]

/-- So the identifiers of a child are among those of the node. -/
theorem identifiers_subset_of_mem_children {node child : Node} (h : child ∈ node.children) :
    child.identifiers ⊆ node.identifiers :=
  identifiers_subset_of_mem_parts (node.children_subset_parts h)

/-- The same for everything below the node that is reached by children. The errors of a pass stand
at such nodes. -/
theorem identifiers_subset_of_mem_descendants {node other : Node} (h : other ∈ node.descendants) :
    other.identifiers ⊆ node.identifiers := by
  induction node using children_induction with
  | step node ih =>
    rw [descendants_eq] at h
    obtain ⟨child, hchild, hother⟩ := List.mem_flatMap.1 h
    have hsub := identifiers_subset_of_mem_children hchild
    rcases List.mem_cons.1 hother with rfl | hother
    · exact hsub
    · exact List.Subset.trans (ih child hchild hother) hsub

/-! ## What is bound, declared or written to -/

theorem mem_identifiers_of_isIdentifier {node : Node} {name : String}
    (h : node.isIdentifier name = true) : name ∈ node.identifiers := by
  rw [isIdentifier_iff.1 h, identifiers_identifier]
  exact List.mem_singleton_self name

/-- The identifiers of a part of a pattern are among those of the pattern. -/
theorem identifiers_subset_of_mem_subpatterns {node part : Node} (h : part ∈ node.subpatterns) :
    part.identifiers ⊆ node.identifiers := by
  cases node
  case objectPattern properties =>
    obtain ⟨entry, hentry, rfl⟩ := List.mem_map.1 h
    have hsub : entry.identifiers ⊆ (objectPattern properties).identifiers :=
      identifiers_subset_of_mem_parts (by
        simpa [parts, record, Record.inner, FieldValue.inner] using hentry)
    refine List.Subset.trans ?_ hsub
    cases entry
    case property key value kind computed method shorthand =>
      exact identifiers_subset_of_mem_parts (by
        simp [propertyPattern, parts, record, Record.inner, FieldValue.inner])
    all_goals exact List.Subset.refl _
  case arrayPattern elements =>
    exact identifiers_subset_of_mem_parts (by
      simpa [subpatterns, parts, record, Record.inner, FieldValue.inner] using h)
  case restElement argument =>
    exact identifiers_subset_of_mem_parts (by
      simpa [subpatterns, parts, record, Record.inner, FieldValue.inner] using h)
  case assignmentPattern left right =>
    refine identifiers_subset_of_mem_parts ?_
    rw [List.mem_singleton.1 h]
    simp [parts, record, Record.inner, FieldValue.inner]
  all_goals cases h

/-- What a pattern binds occurs in it. The induction is on the size, since a pattern is taken apart
by `subpatterns` and not by its constructors. -/
theorem boundNames_subset_identifiers (node : Node) : node.boundNames ⊆ node.identifiers := by
  induction hsize : sizeOf node using Nat.strongRecOn generalizing node with
  | _ size ih =>
    subst hsize
    intro name hname
    cases hnode : node.identifierName? with
    | some other =>
      rw [isIdentifier_iff.1 (decide_eq_true hnode : node.isIdentifier other = true)] at hname ⊢
      rwa [boundNames_identifier, ← identifiers_identifier] at hname
    | none =>
      rw [boundNames_eq hnode] at hname
      obtain ⟨part, hpart, hmem⟩ := List.mem_flatMap.1 hname
      exact identifiers_subset_of_mem_subpatterns hpart
        (ih _ (sizeOf_lt_of_mem_subpatterns hpart) part rfl hmem)

/-- The own name of a function or a class occurs in it. -/
theorem ownName_subset_identifiers {node : Node} {id : Option Node}
    (h : id.toList ⊆ node.parts) : (ownName? id).toList ⊆ node.identifiers := by
  cases id with
  | none => exact List.nil_subset _
  | some id =>
    intro name hname
    refine identifiers_subset_of_mem_parts (h List.mem_cons_self) ?_
    rw [id.identifiers_eq]
    exact List.mem_append_left _ hname

/-- So does everything that a declaration declares. -/
theorem directDeclarations?_subset_identifiers (node : Node) :
    node.directDeclarations?.getD [] ⊆ node.identifiers := by
  cases node
  case variableDeclaration declarations kind =>
    intro name hname
    obtain ⟨declarator, hmem, hbound⟩ := List.mem_flatMap.1 hname
    refine identifiers_subset_of_mem_parts
      (by rwa [parts_variableDeclaration]) ?_
    cases declarator
    case variableDeclarator id init =>
      exact identifiers_subset_of_mem_parts (by simp [parts_variableDeclarator])
        (id.boundNames_subset_identifiers hbound)
    all_goals cases hbound
  case functionDeclaration id params body generator isAsync =>
    exact ownName_subset_identifiers (by simp [parts, record, Record.inner, FieldValue.inner])
  case classDeclaration id superClass body =>
    exact ownName_subset_identifiers (by simp [parts, record, Record.inner, FieldValue.inner])
  all_goals exact List.nil_subset _

/-- What a node writes to occurs in it, so a write to a name that does not occur cannot be found. -/
theorem writtenNames_subset_identifiers (node : Node) :
    node.writtenNames ⊆ node.identifiers := by
  have hpart : ∀ part ∈ node.parts, part.boundNames ⊆ node.identifiers := fun part hmem =>
    List.Subset.trans part.boundNames_subset_identifiers (identifiers_subset_of_mem_parts hmem)
  cases node
  case assignmentExpression operator left right =>
    exact hpart left (by simp [parts, record, Record.inner, FieldValue.inner])
  case updateExpression operator isPrefix argument =>
    exact hpart argument (by simp [parts, record, Record.inner, FieldValue.inner])
  case forInStatement left right body =>
    rw [writtenNames]
    split
    · exact List.nil_subset _
    · exact hpart left (by simp [parts, record, Record.inner, FieldValue.inner])
  case forOfStatement left right body isAwait =>
    rw [writtenNames]
    split
    · exact List.nil_subset _
    · exact hpart left (by simp [parts, record, Record.inner, FieldValue.inner])
  all_goals exact List.nil_subset _

theorem declaredExports_subset_identifiers (node : Node) :
    node.declaredExports ⊆ node.identifiers := by
  cases node
  case exportNamedDeclaration declaration specifiers source =>
    cases declaration with
    | none => exact List.nil_subset _
    | some declaration =>
      exact List.Subset.trans declaration.directDeclarations?_subset_identifiers
        (identifiers_subset_of_mem_parts (by simp [parts, record, Record.inner, FieldValue.inner]))
  case exportDefaultDeclaration declaration =>
    exact List.Subset.trans declaration.directDeclarations?_subset_identifiers
      (identifiers_subset_of_mem_parts (by simp [parts, record, Record.inner, FieldValue.inner]))
  all_goals exact List.nil_subset _

/-- A node all of whose children stay as they are stays as it is. -/
theorem mapChildren_eq_self {f : Node → Node} {node : Node}
    (h : ∀ child ∈ node.children, f child = child) : node.mapChildren f = node := by
  rw [mapChildren_congr (g := id) h]
  cases node
  case property _ _ _ computed _ _ | methodDefinition _ _ _ computed _
      | memberExpression _ _ computed _ | propertyDefinition _ _ computed _ =>
    cases computed <;> simp [mapChildren_eq_mapped, places]
  case exportNamedDeclaration _ _ source => cases source <;> simp [mapChildren_eq_mapped, places]
  all_goals simp [mapChildren_eq_mapped, places]

end Node

namespace Pass

variable {pass : Pass}

/-! ## Passes for names that do not occur -/

/-- A declarator stays as it is if the name does not occur in it and its value stays. -/
theorem replaceDeclarator_of_fresh {declarator : Node} (h : pass.name ∉ declarator.identifiers)
    (ih : ∀ id value, declarator = .variableDeclarator id (some value) →
      pass.replace value = value) : pass.replaceDeclarator declarator = declarator := by
  cases declarator
  case variableDeclarator id init =>
    have hbinds : ¬ id.binds pass.name = true := by
      intro hbinds
      have hid : id ∈ (Node.variableDeclarator id init).parts := by
        simp [Node.parts_variableDeclarator]
      exact h (Node.identifiers_subset_of_mem_parts hid
        (id.boundNames_subset_identifiers (Node.binds_iff.1 hbinds)))
    have hself : ¬ id.isIdentifier pass.name = true := fun hself =>
      hbinds (Node.binds_of_isIdentifier hself)
    rw [replaceDeclarator, replaceValue, if_neg hself, if_neg hbinds]
    cases init with
    | none => rfl
    | some value => rw [Option.map_some, ih id value rfl]
  all_goals rfl

theorem parts_spellOut (node : Node) : (pass.spellOut node).parts = node.parts := by
  cases node <;> rfl

theorem spellOut_of_fresh {node : Node} (h : pass.name ∉ node.identifiers) :
    pass.spellOut node = node := by
  cases node
  case property key value kind computed method shorthand =>
    have hvalue : value.isIdentifier pass.name = false := by
      rw [Bool.eq_false_iff]
      intro hself
      have hpart : value ∈ (Node.property key value kind computed method shorthand).parts := by
        simp [Node.parts, Node.record, Record.inner, FieldValue.inner]
      exact h (Node.identifiers_subset_of_mem_parts hpart
        (Node.mem_identifiers_of_isIdentifier hself))
    rw [spellOut, hvalue, Bool.not_false, Bool.and_true]
  all_goals rfl

/-- **A pass leaves a tree as it is in which its name does not occur.** The first two cases of a
pass cannot arise, and in the others all that the pass goes on to stays. -/
theorem replace_of_fresh {node : Node} (h : pass.name ∉ node.identifiers) :
    pass.replace node = node := by
  induction node using pass.replace_induction with
  | reference => exact absurd (by simp) h
  | function id params body generator isAsync hid =>
    -- The function would have the name of the pass.
    cases id with
    | none => cases hid
    | some id =>
      have hmem :
          id ∈ (Node.functionDeclaration (some id) params body generator isAsync).parts := by
        simp [Node.parts, Node.record, Record.inner, FieldValue.inner]
      exact absurd (Node.identifiers_subset_of_mem_parts hmem
        (Node.mem_identifiers_of_isIdentifier hid)) h
  | shadowed node hreplaced hshadowed => rfl
  | declaration declarations kind ih =>
    have hsame : ∀ declarator ∈ declarations, pass.replaceDeclarator declarator = declarator := by
      intro declarator hmem
      have hfresh : pass.name ∉ declarator.identifiers := fun hname =>
        h (Node.identifiers_subset_of_mem_parts
          (by rwa [Node.parts_variableDeclaration]) hname)
      refine replaceDeclarator_of_fresh hfresh fun id value heq => ?_
      subst heq
      refine ih id value hmem fun hname => hfresh (Node.identifiers_subset_of_mem_parts ?_ hname)
      simp [Node.parts_variableDeclarator]
    rw [List.map_congr_left hsame, List.map_id']
  | entered node henters ih =>
    rw [rewrite, spellOut_of_fresh h]
    exact Node.mapChildren_eq_self fun child hchild =>
      ih child hchild fun hname => h (Node.identifiers_subset_of_mem_children hchild hname)

/-- A pass refuses nothing in a tree in which its name does not occur, since each refusal is about
an occurrence of the name. -/
theorem firstViolation?_of_fresh {node : Node} (h : pass.name ∉ node.identifiers) :
    pass.firstViolation? node = none := by
  rw [Option.eq_none_iff_forall_ne_some]
  intro error herror
  obtain ⟨part, hpart, hviolation⟩ := pass.exists_violation herror
  have hsub : part.identifiers ⊆ node.identifiers := by
    rcases List.mem_cons.1 hpart with rfl | hpart
    · exact List.Subset.refl _
    · exact Node.identifiers_subset_of_mem_descendants hpart
  rcases violation?_cases hviolation with ⟨-, hwritten⟩ | ⟨-, hdeclared⟩
  · exact h (hsub (part.writtenNames_subset_identifiers hwritten))
  · exact h (hsub (part.declaredExports_subset_identifiers hdeclared))

theorem replaceAll_of_fresh {passes : List Pass} {node : Node}
    (h : ∀ pass ∈ passes, pass.name ∉ node.identifiers) : replaceAll passes node = node := by
  induction passes with
  | nil => rfl
  | cons pass rest ih =>
    rw [replaceAll_cons, replace_of_fresh (h pass List.mem_cons_self)]
    exact ih fun other hmem => h other (List.mem_cons_of_mem _ hmem)

end Pass

end DefineWrap
