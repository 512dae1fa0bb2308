/-
Writes to an import.

A strict pass is for a name that nothing may be assigned to. It refuses the writes to the name
that it comes to, and puts the access in the place of every use. So one would have it that nothing
is written to the access afterwards. But the pass writes to the access itself, where it comes to a
declaration of the name.

`Node.writtenPlaces` lists what a node writes to: the left side of an assignment, place by place
if it is a pattern, the operand of an update, and the head of a loop. A pass keeps the shape of a
pattern (`Pass.assignedPlaces_replace`), so a node that it enters writes to the access afterwards
only if it wrote to the name, and then it is refused (`Pass.Enters.access_notMem_writtenPlaces`).
What is left are the assignments that the pass makes: one for each definition of the name that it
comes to, and no others (`Pass.applyAll_writes`). A block with a declaration of the name comes out
with such an assignment (`Pass.applyAll_writesAccess`).
-/
import DefineWrap.Proofs.Wrap.FreeUses

set_option autoImplicit false

namespace DefineWrap

namespace Node

/-! ## The places that are written to -/

/-- Whether a node takes a value apart, or stands for a part of it. A property is none of these,
though it stands in a pattern. -/
def isPattern : Node → Bool
  | .objectPattern _ => true
  | .arrayPattern _ => true
  | .restElement _ => true
  | .assignmentPattern _ _ => true
  | _ => false

/-- The places that a value is put into when it is assigned to a node. They are what is left of a
pattern when it is taken apart to its ends. -/
def assignedPlaces (node : Node) : List Node :=
  if node.isPattern then node.subpatterns.attach.flatMap fun part => assignedPlaces part.1
  else [node]
termination_by sizeOf node
decreasing_by exact sizeOf_lt_of_mem_subpatterns part.2

theorem assignedPlaces_of_isPattern {node : Node} (h : node.isPattern = true) :
    node.assignedPlaces = node.subpatterns.flatMap assignedPlaces := by
  rw [assignedPlaces, if_pos h, List.flatMap_subtype (g := assignedPlaces) fun _ _ => rfl,
    List.unattach_attach]

/-- Anything else is the one place itself, be it a name, an access or an expression that cannot be
assigned to. -/
theorem assignedPlaces_of_not_isPattern {node : Node} (h : node.isPattern = false) :
    node.assignedPlaces = [node] := by
  rw [assignedPlaces, h, if_neg Bool.false_ne_true]

/-- Induction over a pattern: for the places in it, and for what is made of smaller patterns. The
parts of a pattern lie deeper than its fields, so the recursion is not one over constructors. -/
theorem pattern_induction {motive : Node → Prop}
    (place : ∀ node, node.isPattern = false → motive node)
    (pattern : ∀ node, node.isPattern = true → (∀ part ∈ node.subpatterns, motive part) →
      motive node)
    (node : Node) : motive node := by
  induction hsize : sizeOf node using Nat.strongRecOn generalizing node with
  | _ size ih =>
    subst hsize
    by_cases hpattern : node.isPattern = true
    · exact pattern node hpattern fun part hpart =>
        ih _ (sizeOf_lt_of_mem_subpatterns hpart) part rfl
    · exact place node (Bool.eq_false_iff.2 hpattern)

/-- The places that a node writes to, if it is an assignment, an update or a loop over values
whose head is no declaration. -/
def writtenPlaces : Node → List Node
  | .assignmentExpression _ left _ => left.assignedPlaces
  | .updateExpression _ _ argument => argument.assignedPlaces
  | .forInStatement left _ _ => if left.kind = .variableDeclaration then [] else left.assignedPlaces
  | .forOfStatement left _ _ _ =>
    if left.kind = .variableDeclaration then [] else left.assignedPlaces
  | _ => []

theorem identifiers_subset_of_mem_assignedPlaces {node place : Node}
    (h : place ∈ node.assignedPlaces) : place.identifiers ⊆ node.identifiers := by
  induction node using pattern_induction with
  | place node hplace =>
    rw [assignedPlaces_of_not_isPattern hplace] at h
    rw [List.mem_singleton.1 h]
    exact List.Subset.refl _
  | pattern node hpattern ih =>
    rw [assignedPlaces_of_isPattern hpattern] at h
    obtain ⟨part, hpart, hplace⟩ := List.mem_flatMap.1 h
    exact List.Subset.trans (ih part hpart hplace) (identifiers_subset_of_mem_subpatterns hpart)

/-- An identifier that a value is put into is a name that the pattern binds. So a pass that looks
for bound names finds all writes to its name. -/
theorem mem_boundNames_of_mem_assignedPlaces {node : Node} {name : String}
    (h : identifier name ∈ node.assignedPlaces) : name ∈ node.boundNames := by
  induction node using pattern_induction with
  | place node hplace =>
    rw [assignedPlaces_of_not_isPattern hplace] at h
    rw [← List.mem_singleton.1 h, boundNames_identifier]
    exact List.mem_singleton_self name
  | pattern node hpattern ih =>
    have hother : node.identifierName? = none := by
      cases node <;> first | rfl | cases hpattern
    rw [assignedPlaces_of_isPattern hpattern] at h
    obtain ⟨part, hpart, hplace⟩ := List.mem_flatMap.1 h
    rw [boundNames_eq hother]
    exact List.mem_flatMap.2 ⟨part, hpart, ih part hpart hplace⟩

/-- The identifiers of a place that is written to occur in the node that writes. -/
theorem identifiers_subset_of_mem_writtenPlaces {node place : Node}
    (h : place ∈ node.writtenPlaces) : place.identifiers ⊆ node.identifiers := by
  have hpart : ∀ part ∈ node.parts, place ∈ part.assignedPlaces →
      place.identifiers ⊆ node.identifiers := fun part hmem hplace =>
    List.Subset.trans (identifiers_subset_of_mem_assignedPlaces hplace)
      (identifiers_subset_of_mem_parts hmem)
  cases node
  case assignmentExpression operator left right =>
    exact hpart left (by simp [parts, record, Record.inner, FieldValue.inner]) h
  case updateExpression operator isPrefix argument =>
    exact hpart argument (by simp [parts, record, Record.inner, FieldValue.inner]) h
  case forInStatement left right body =>
    rw [writtenPlaces] at h
    split at h
    · cases h
    · exact hpart left (by simp [parts, record, Record.inner, FieldValue.inner]) h
  case forOfStatement left right body isAwait =>
    rw [writtenPlaces] at h
    split at h
    · cases h
    · exact hpart left (by simp [parts, record, Record.inner, FieldValue.inner]) h
  all_goals cases h

/-! ## The writes in a tree -/

/-- A node and all nodes inside it, at child places and elsewhere. The statement about writes is to
be one about the whole tree and not about what a pass sees of it. -/
def within (node : Node) : List Node :=
  node :: node.parts.attach.flatMap fun part => within part.1
termination_by sizeOf node
decreasing_by exact sizeOf_lt_of_mem_record part.2

theorem within_eq (node : Node) : node.within = node :: node.parts.flatMap within := by
  rw [within, List.flatMap_subtype (g := within) fun _ _ => rfl, List.unattach_attach]

/-- One of the nodes of a tree writes to a place. The node that writes is named, so that the writes
can be listed. -/
def HasWrite (place node write : Node) : Prop :=
  write ∈ node.within ∧ place ∈ write.writtenPlaces

variable {place node write : Node}

/-- What writes to a place is the node itself, or it stands in one of the parts. -/
theorem hasWrite_iff :
    HasWrite place node write ↔
      (write = node ∧ place ∈ node.writtenPlaces) ∨
        ∃ part ∈ node.parts, HasWrite place part write := by
  constructor
  · rintro ⟨hmem, hplace⟩
    rw [within_eq] at hmem
    rcases List.mem_cons.1 hmem with rfl | hmem
    · exact .inl ⟨rfl, hplace⟩
    · obtain ⟨part, hpart, hwithin⟩ := List.mem_flatMap.1 hmem
      exact .inr ⟨part, hpart, hwithin, hplace⟩
  · rintro (⟨rfl, hplace⟩ | ⟨part, hpart, hwithin, hplace⟩)
    · exact ⟨by rw [within_eq]; exact List.mem_cons_self, hplace⟩
    · refine ⟨?_, hplace⟩
      rw [within_eq]
      exact List.mem_cons_of_mem _ (List.mem_flatMap.2 ⟨part, hpart, hwithin⟩)

/-- A node that is no write itself has the writes of its parts, and this is so for most nodes. -/
theorem hasWrite_of_writtenPlaces (h : place ∉ node.writtenPlaces) :
    HasWrite place node write ↔ ∃ part ∈ node.parts, HasWrite place part write := by
  rw [hasWrite_iff]
  exact or_iff_right fun ⟨_, hplace⟩ => h hplace

/-- Nothing is written to a place with an identifier that does not occur in the tree. For accesses
to a parameter this is the state before the pass. -/
theorem not_hasWrite_of_fresh {name : String} (hplace : name ∈ place.identifiers)
    (h : name ∉ node.identifiers) : ¬ HasWrite place node write := by
  intro hwrite
  induction node using record_induction with
  | step node ih =>
    rcases hasWrite_iff.1 hwrite with ⟨-, hself⟩ | ⟨part, hpart, hwrite⟩
    · exact h (identifiers_subset_of_mem_writtenPlaces hself hplace)
    · exact ih part hpart (fun hname => h (identifiers_subset_of_mem_parts hpart hname)) hwrite

open Classical in
/-- The parts of a node with other children are old parts and the new children. Which is which does
not matter for writes, as the old ones have none. -/
theorem mem_parts_mapChildren {f : Node → Node} {part : Node}
    (h : part ∈ (node.mapChildren f).parts) :
    part ∈ node.parts ∨ ∃ child ∈ node.children, part = f child := by
  -- What is collected from all other nodes is not there before, and so not there afterwards.
  let other (part : Node) : List Node :=
    if part ∈ node.parts ∨ ∃ child ∈ node.children, part = f child then [] else [part]
  have hbefore : node.parts.flatMap other = [] :=
    List.flatMap_eq_nil_iff.2 fun part hpart => if_pos (.inl hpart)
  have hafter : (node.mapChildren f).parts.flatMap other = [] := by
    rw [flatMap_parts_mapChildren node, hbefore]
    intro child hchild
    have hold : other child = [] := if_pos (.inl (node.children_subset_parts hchild))
    have hnew : other (f child) = [] := if_pos (.inr ⟨child, hchild, rfl⟩)
    rw [hold, hnew]
  by_contra hneither
  have hnone : other part = [] := List.flatMap_eq_nil_iff.1 hafter part h
  rw [show other part = [part] from if_neg hneither] at hnone
  cases hnone

end Node

/-! ## Accesses -/

/-- The object of an access occurs in it, so where the object does not occur there is no access. -/
theorem Access.object_mem_identifiers (access : Access) :
    access.object ∈ access.node.identifiers := by
  rcases access.node_eq_access_or_identifier with ⟨name, heq⟩ | heq
  · obtain ⟨member, computed, haccess, -⟩ := Node.exists_access_eq access.object name
    have hpart : Node.identifier access.object ∈ (Node.memberExpression
        (.identifier access.object) member computed false).parts := by
      simp [Node.parts, Node.record, Record.inner, FieldValue.inner]
    rw [heq, haccess]
    exact Node.identifiers_subset_of_mem_parts hpart (by simp)
  · rw [heq, Node.identifiers_identifier]
    exact List.mem_singleton_self _

/-- An access is no pattern, and so it is the one place that an assignment to it writes to. -/
theorem Access.isPattern_node (access : Access) : access.node.isPattern = false := by
  rcases access.node_eq_access_or_identifier with ⟨name, heq⟩ | heq
  · rw [heq, Node.access_eq]
    rfl
  · rw [heq]
    rfl

/-- The parts of an access to a member: the object, and the member as a name or as a string. -/
theorem Access.mem_parts_member {object member : String} {part : Node}
    (h : part ∈ (Access.member object member).node.parts) :
    part = .identifier object ∨ part = .stringLiteral member ∨ part = .identifier member := by
  rw [Access.node, Node.access_eq] at h
  cases hbracketed : Node.isBracketed member <;>
    simp [hbracketed, Node.parts, Node.record, Record.inner, FieldValue.inner] at h <;>
    tauto

/-- Nothing is written inside an access. -/
theorem Access.not_hasWrite_node (access : Access) {place write : Node} :
    ¬ Node.HasWrite place access.node write := by
  have hleaf : ∀ {leaf : Node}, leaf.parts = [] → leaf.writtenPlaces = [] →
      ¬ Node.HasWrite place leaf write := by
    intro leaf hparts hplaces hwrite
    rw [Node.hasWrite_iff, hparts, hplaces] at hwrite
    simp at hwrite
  cases access with
  | whole object => exact hleaf rfl rfl
  | member object member =>
    have hplaces : (Access.member object member).node.writtenPlaces = [] := by
      rw [Access.node, Node.access_eq]
      rfl
    rw [Node.hasWrite_of_writtenPlaces (hplaces ▸ List.not_mem_nil)]
    rintro ⟨part, hpart, hwrite⟩
    rcases Access.mem_parts_member hpart with rfl | rfl | rfl <;> exact hleaf rfl rfl hwrite

namespace Pass

variable {pass : Pass}

/-! ## Places after a pass -/

/-- What a pass makes an identifier of is one, and the same one, or the name of the pass whose
access is an identifier. -/
theorem eq_identifier_of_replace {node : Node} {name : String}
    (h : pass.replace node = .identifier name) :
    node = .identifier name ∨ pass.access.node = .identifier name := by
  induction node using pass.replace_induction with
  | reference => exact .inr h
  | function id params body generator isAsync hid => cases h
  | shadowed node hreplaced hshadowed => exact .inl h
  | declaration declarations kind ih => cases h
  | entered node henters ih =>
    have hname : (pass.rewrite node).identifierName? = some name := by rw [h]; rfl
    rw [pass.identifierName?_rewrite] at hname
    exact .inl (Node.isIdentifier_iff.1 (decide_eq_true hname))

/-- What a pass makes the access of is a use of its name, or had the object in it before. So a place
that is the access after the pass was the name before it. -/
theorem eq_name_of_replace_eq_access {node : Node} (h : pass.replace node = pass.access.node) :
    node = .identifier pass.name ∨ pass.access.object ∈ node.identifiers := by
  induction node using pass.replace_induction with
  | reference => exact .inl rfl
  | function id params body generator isAsync hid =>
    rcases kind_access pass.access with hkind | hkind <;> (rw [← h] at hkind; cases hkind)
  | shadowed node hreplaced hshadowed =>
    rw [h]
    exact .inr pass.access.object_mem_identifiers
  | declaration declarations kind ih =>
    rcases kind_access pass.access with hkind | hkind <;> (rw [← h] at hkind; cases hkind)
  | entered node henters ih =>
    right
    have hkind : node.kind = pass.access.node.kind := by rw [← h, kind_rewrite]
    rcases pass.access.node_eq_access_or_identifier with ⟨name, haccess⟩ | haccess
    · obtain ⟨member, computed, heq, -⟩ := Node.exists_access_eq pass.access.object name
      rw [haccess, heq] at h hkind
      cases node
      case memberExpression base property computed isOptional =>
        -- The base of the access was the object before, as it is none that the pass puts there.
        have hbase : pass.replace base = .identifier pass.access.object := by
          simp only [rewrite_eq_mapped, spellOut, Node.places, Places.mapped_seq,
            Places.mapped_map, Places.mapped_one, Node.memberExpression.injEq] at h
          exact h.1
        rcases eq_identifier_of_replace hbase with rfl | hwhole
        · have hpart : Node.identifier pass.access.object ∈ (Node.memberExpression
              (.identifier pass.access.object) property computed isOptional).parts := by
            simp [Node.parts, Node.record, Record.inner, FieldValue.inner]
          exact Node.identifiers_subset_of_mem_parts hpart (by simp)
        · rw [haccess, heq] at hwhole
          cases hwhole
      all_goals cases hkind
    · have hname : (pass.rewrite node).identifierName? = some pass.access.object := by
        rw [h, haccess]
        rfl
      rw [pass.identifierName?_rewrite] at hname
      exact Node.mem_identifiers_of_isIdentifier (decide_eq_true hname)

theorem isPattern_replace (node : Node) : (pass.replace node).isPattern = node.isPattern := by
  induction node using pass.replace_induction with
  | reference => exact pass.access.isPattern_node
  | function id params body generator isAsync hid => rfl
  | shadowed node hreplaced hshadowed => rfl
  | declaration declarations kind ih => rfl
  | entered node henters ih => cases node <;> rfl

/-- The position in a property stays with its value, and any other node is a position itself.
Spelling out a shorthand does not change this. -/
theorem propertyPattern_replace (node : Node) :
    (pass.replace node).propertyPattern = pass.replace node.propertyPattern := by
  by_cases hkind : node.kind = .property
  · cases node
    case property key value kind computed method shorthand =>
      have henters : pass.Enters (.property key value kind computed method shorthand) :=
        ⟨rfl, of_decide_eq_false rfl, rfl⟩
      rw [pass.replace_of_enters henters]
      simp [rewrite_eq_mapped, spellOut, Node.places, Node.propertyPattern]
    all_goals cases hkind
  · have hself : ∀ {other : Node}, other.kind ≠ .property → other.propertyPattern = other := by
      intro other hother
      cases other <;> first | rfl | exact absurd rfl hother
    rw [hself hkind, hself (pass.kind_replace_ne hkind (by decide))]

/-- A pass goes on to all positions of a pattern, since a pattern shadows nothing. -/
theorem subpatterns_replace {node : Node} (h : node.isPattern = true) :
    (pass.replace node).subpatterns = node.subpatterns.map pass.replace := by
  have henters : pass.Enters node := by
    constructor <;> cases node <;> first | rfl | exact of_decide_eq_false rfl | cases h
  rw [pass.replace_of_enters henters]
  cases node
  case objectPattern properties =>
    simp only [rewrite_eq_mapped, spellOut, Node.places, Places.mapped_map, Places.mapped_many,
      Node.subpatterns, List.map_map]
    exact List.map_congr_left fun property _ => propertyPattern_replace property
  case arrayPattern elements =>
    simp only [rewrite_eq_mapped, spellOut, Node.places, Places.mapped_map, Places.mapped_holes,
      Node.subpatterns, Node.filterMap_id_map]
  case restElement argument => rfl
  case assignmentPattern left right => rfl
  all_goals cases h

/-- **A pass keeps the places that are assigned to**, and goes over each of them. So the places
after it can be traced back to those before it. -/
theorem assignedPlaces_replace (node : Node) :
    (pass.replace node).assignedPlaces = node.assignedPlaces.map pass.replace := by
  induction node using Node.pattern_induction with
  | place node hplace =>
    rw [Node.assignedPlaces_of_not_isPattern hplace,
      Node.assignedPlaces_of_not_isPattern (by rw [isPattern_replace, hplace]),
      List.map_singleton]
  | pattern node hpattern ih =>
    rw [Node.assignedPlaces_of_isPattern hpattern,
      Node.assignedPlaces_of_isPattern (by rw [isPattern_replace, hpattern]),
      subpatterns_replace hpattern, List.flatMap_map, List.map_flatMap]
    exact List.flatMap_congr ih

/-- A place that a strict pass allows to be written to does not bind the name, alone or in a
pattern. -/
theorem not_binds_of_writeViolation?_eq_none {place : Node}
    (h : pass.writeViolation? place = none) : place.binds pass.name = false := by
  rw [Bool.eq_false_iff]
  intro hbinds
  rw [writeViolation?, if_pos hbinds] at h
  cases h

/-- Nothing puts a value into the access after a pass that put none into the name before. -/
theorem access_notMem_assignedPlaces {node : Node} (hbinds : node.binds pass.name = false)
    (hobject : pass.access.object ∉ node.identifiers) :
    pass.access.node ∉ (pass.replace node).assignedPlaces := by
  rw [assignedPlaces_replace]
  intro hmem
  obtain ⟨place, hplace, heq⟩ := List.mem_map.1 hmem
  rcases eq_name_of_replace_eq_access heq with rfl | hold
  · have hname := Node.binds_iff.2 (Node.mem_boundNames_of_mem_assignedPlaces hplace)
    rw [hbinds] at hname
    cases hname
  · exact hobject (Node.identifiers_subset_of_mem_assignedPlaces hplace hold)

/-- The same for the head of a loop, which is a declaration or places that are assigned to. -/
theorem access_notMem_headPlaces {node : Node} (hhead : pass.headViolation? node = none)
    (hobject : pass.access.object ∉ node.identifiers) :
    pass.access.node ∉
      if (pass.replace node).kind = .variableDeclaration then []
      else (pass.replace node).assignedPlaces := by
  rw [pass.headViolation?_eq] at hhead
  simp only [pass.kind_replace_eq_variableDeclaration]
  split
  · exact List.not_mem_nil
  next hkind =>
    rw [if_neg hkind] at hhead
    exact access_notMem_assignedPlaces (not_binds_of_writeViolation?_eq_none hhead) hobject

/-- **A node that is not refused writes to the access only if it did before.** The three kinds of
writes are the three kinds that a strict pass looks at. -/
theorem access_notMem_writtenPlaces {node : Node} (hviolation : pass.violation? node = none)
    (hobject : pass.access.object ∉ node.identifiers) :
    pass.access.node ∉ (pass.rewrite node).writtenPlaces := by
  have hpart : ∀ part ∈ node.parts, pass.access.object ∉ part.identifiers :=
    fun part hmem hname => hobject (Node.identifiers_subset_of_mem_parts hmem hname)
  cases node
  case assignmentExpression operator left right =>
    exact access_notMem_assignedPlaces (not_binds_of_writeViolation?_eq_none hviolation)
      (hpart left (by simp [Node.parts, Node.record, Record.inner, FieldValue.inner]))
  case updateExpression operator isPrefix argument =>
    exact access_notMem_assignedPlaces (not_binds_of_writeViolation?_eq_none hviolation)
      (hpart argument (by simp [Node.parts, Node.record, Record.inner, FieldValue.inner]))
  case forInStatement left right body =>
    exact access_notMem_headPlaces hviolation
      (hpart left (by simp [Node.parts, Node.record, Record.inner, FieldValue.inner]))
  case forOfStatement left right body isAwait =>
    exact access_notMem_headPlaces hviolation
      (hpart left (by simp [Node.parts, Node.record, Record.inner, FieldValue.inner]))
  all_goals exact List.not_mem_nil

/-! ## The writes that a pass makes -/

/-- The assignments that a pass makes of the definitions of its name: to the access, of the value or
the function that defined it. -/
def definedWrites (pass : Pass) (node : Node) : List Node :=
  ((definitions pass.name).gather () node).map (.assignment pass.access.node)

theorem definedWrites_function {id : Option Node} (params : List Node) (body : Node)
    (generator isAsync : Bool) (hid : pass.isOwnName id = true) :
    pass.definedWrites (.functionDeclaration id params body generator isAsync) =
      [.assignment pass.access.node (.functionExpression id params body generator isAsync)] := by
  have hown : id.any (·.isIdentifier pass.name) = true := hid
  have hcloses : (Node.functionDeclaration id params body generator isAsync).closes pass.name =
      true := by
    simp [Node.closes, Node.isFunctionDeclarationOf, hown]
  rw [definedWrites, Survey.gather_eq _ () (.functionDeclaration ..) (of_decide_eq_false rfl)]
  simp [definitions, Node.isFunctionDeclarationOf, hown, hcloses, Survey.gatherIf,
    Node.asExpression]

/-- Inside a node that shadows the name there is none, as the pass does not come there. -/
theorem definedWrites_of_shadowed {node : Node} (hreplaced : pass.replacement? node = none)
    (hshadowed : pass.isShadowedBy node = true) : pass.definedWrites node = [] := by
  have hkind := pass.kind_ne_of_shadowed hshadowed
  rw [definedWrites, List.map_eq_nil_iff, Survey.gather_eq_nil_iff _ () node hkind]
  constructor
  · simp [definitions, isFunctionDeclarationOf_eq_false hreplaced]
  · intro child hchild
    rw [pass.isShadowedBy_eq, Bool.or_eq_true] at hshadowed
    rcases hshadowed with hrebinds | himport
    · simp [definitions, Node.closes, hrebinds, Survey.gatherIf]
    · cases node
      case importDeclaration specifiers source => cases hchild
      all_goals simp [Node.kind, Node.record] at himport

theorem definedWrites_of_enters {node : Node} (henters : pass.Enters node) :
    pass.definedWrites node = node.children.flatMap pass.definedWrites := by
  rw [definedWrites, Survey.gather_eq _ () node henters.undeclared]
  simp only [definitions, isFunctionDeclarationOf_eq_false henters.unreplaced,
    henters.closes_eq_false, Bool.false_eq_true, if_false, List.nil_append, List.map_flatMap]
  rfl

/-- The assignments that a pass makes in a declarator: of its value if it is of the name alone, or
in its value if it does not bind the name. -/
def declaratorWrites (pass : Pass) : Node → List Node
  | .variableDeclarator id init =>
    if id.isIdentifier pass.name then init.toList.map (.assignment pass.access.node)
    else if id.binds pass.name then []
    else init.toList.flatMap pass.definedWrites
  | _ => []

/-- In a variable declaration the assignments are made in the declarators, one after the other. -/
theorem definedWrites_variableDeclaration (declarations : List Node) (kind : VariableKind) :
    pass.definedWrites (.variableDeclaration declarations kind) =
      declarations.flatMap pass.declaratorWrites := by
  rw [definedWrites, Survey.gather_variableDeclaration, List.map_flatMap]
  refine List.flatMap_congr fun declarator hmem => ?_
  cases declarator
  case variableDeclarator id init =>
    have hpattern : id.patternExpressions.flatMap
        ((definitions pass.name).gatherIf ((definitions pass.name).pattern () id)) = [] :=
      List.flatMap_eq_nil_iff.2 fun _ _ => rfl
    rw [Survey.gatherDeclarator, hpattern, List.append_nil, declaratorWrites]
    by_cases hself : id.isIdentifier pass.name = true
    · have hbinds := Node.binds_of_isIdentifier hself
      cases init <;> simp [definitions, hself, hbinds, Survey.gatherIf]
    · by_cases hbinds : id.binds pass.name = true
      · cases init <;> simp [definitions, hself, hbinds, Survey.gatherIf]
      · cases init <;> simp [definitions, hself, hbinds, Survey.gatherIf, definedWrites]
  all_goals rfl

/-! ## The writes after a pass -/

/-- The assignments to the access that a pass makes of a value are writes, and in the value there
are no others. -/
theorem hasWrite_assignment {value write : Node} (h : pass.access.object ∉ value.identifiers) :
    Node.HasWrite pass.access.node (.assignment pass.access.node value) write ↔
      write = .assignment pass.access.node value := by
  have hparts : (Node.assignment pass.access.node value).parts = [pass.access.node, value] := rfl
  have hplaces : (Node.assignment pass.access.node value).writtenPlaces = [pass.access.node] :=
    Node.assignedPlaces_of_not_isPattern pass.access.isPattern_node
  rw [Node.hasWrite_iff, hparts, hplaces]
  constructor
  · rintro (⟨rfl, -⟩ | ⟨part, hpart, hwrite⟩)
    · rfl
    · rcases List.mem_pair.1 hpart with rfl | rfl
      · exact absurd hwrite pass.access.not_hasWrite_node
      · exact absurd hwrite (Node.not_hasWrite_of_fresh pass.access.object_mem_identifiers h)
  · rintro rfl
    exact .inl ⟨rfl, List.mem_singleton_self _⟩

/-- The writes in a declarator that the pass has gone over. The pattern stays, and the initial
value is assigned, or stays, or the pass has gone over that. -/
theorem hasWrite_replaceDeclarator {declarator write : Node}
    (hobject : pass.access.object ∉ declarator.identifiers)
    (ih : ∀ id value, declarator = .variableDeclarator id (some value) →
      id.binds pass.name = false →
      (Node.HasWrite pass.access.node (pass.replace value) write ↔
        write ∈ pass.definedWrites value)) :
    Node.HasWrite pass.access.node (pass.replaceDeclarator declarator) write ↔
      write ∈ pass.declaratorWrites declarator := by
  have hnone : ∀ {part : Node}, pass.access.object ∉ part.identifiers →
      ¬ Node.HasWrite pass.access.node part write := fun hpart =>
    Node.not_hasWrite_of_fresh pass.access.object_mem_identifiers hpart
  cases declarator
  case variableDeclarator id init =>
    have hfresh : ∀ part ∈ id :: init.toList, pass.access.object ∉ part.identifiers := by
      intro part hpart
      rw [← Node.parts_variableDeclarator] at hpart
      exact Node.notMem_identifiers_of_mem_parts hobject hpart
    rw [replaceDeclarator, Node.hasWrite_of_writtenPlaces List.not_mem_nil,
      Node.parts_variableDeclarator, List.exists_mem_cons_iff,
      or_iff_right (hnone (hfresh id List.mem_cons_self)), declaratorWrites]
    cases init with
    | none => simp [replaceValue]
    | some value =>
      have hvalue : pass.access.object ∉ value.identifiers := hfresh value (by simp)
      -- The pass assigns the value, leaves it or goes over it.
      by_cases hself : id.isIdentifier pass.name = true
      · simp [replaceValue, hself, hasWrite_assignment hvalue]
      · by_cases hbinds : id.binds pass.name = true
        · simp [replaceValue, hself, hbinds, hnone hvalue]
        · simp [replaceValue, hself, hbinds, ih id value rfl (Bool.eq_false_iff.2 hbinds)]
  all_goals exact iff_of_false (hnone hobject) List.not_mem_nil

/-- **The writes to the access in a tree that a strict pass accepts.** If the object did not occur
in it before, they are the assignments that the pass makes of definitions. -/
theorem hasWrite_replace {node write : Node} (haccepted : pass.firstViolation? node = none)
    (hobject : pass.access.object ∉ node.identifiers) :
    Node.HasWrite pass.access.node (pass.replace node) write ↔ write ∈ pass.definedWrites node := by
  induction node using pass.replace_induction with
  | reference =>
    have hnone : pass.definedWrites (.identifier pass.name) = [] := by
      rw [definedWrites, Survey.gather_eq _ () (.identifier _) (of_decide_eq_false rfl)]
      rfl
    rw [hnone]
    exact iff_of_false pass.access.not_hasWrite_node List.not_mem_nil
  | function id params body generator isAsync hid =>
    have hvalue : pass.access.object ∉
        (Node.functionExpression id params body generator isAsync).identifiers := by
      rw [Node.identifiers_eq] at hobject ⊢
      exact hobject
    have hparts : (Node.assignmentStatement pass.access.node
        (.functionExpression id params body generator isAsync)).parts =
        [.assignment pass.access.node (.functionExpression id params body generator isAsync)] := rfl
    rw [definedWrites_function params body generator isAsync hid,
      Node.hasWrite_of_writtenPlaces List.not_mem_nil, hparts]
    simp [hasWrite_assignment hvalue]
  | shadowed node hreplaced hshadowed =>
    rw [definedWrites_of_shadowed hreplaced hshadowed]
    exact iff_of_false (Node.not_hasWrite_of_fresh pass.access.object_mem_identifiers hobject)
      List.not_mem_nil
  | declaration declarations kind ih =>
    rw [firstViolation?_variableDeclaration, List.findSome?_eq_none_iff] at haccepted
    rw [definedWrites_variableDeclaration, Node.hasWrite_of_writtenPlaces List.not_mem_nil,
      Node.parts_variableDeclaration, List.mem_flatMap]
    simp only [List.mem_map, exists_exists_and_eq_and]
    refine exists_congr fun declarator => and_congr_right fun hmem => ?_
    have hfresh : pass.access.object ∉ declarator.identifiers :=
      Node.notMem_identifiers_of_mem_parts hobject (by rwa [Node.parts_variableDeclaration])
    refine hasWrite_replaceDeclarator hfresh fun id value heq hbinds => ?_
    subst heq
    refine ih id value hmem ?_ (Node.notMem_identifiers_of_mem_parts hfresh ?_)
    · simpa [declaratorViolation?, hbinds] using haccepted _ hmem
    · simp [Node.parts_variableDeclarator]
  | entered node henters ih =>
    rw [pass.firstViolation?_of_enters henters, Option.or_eq_none_iff,
      List.findSome?_eq_none_iff] at haccepted
    have hfresh : ∀ part ∈ node.parts, pass.access.object ∉ part.identifiers :=
      fun part hpart => Node.notMem_identifiers_of_mem_parts hobject hpart
    have hchild : ∀ child ∈ node.children,
        (Node.HasWrite pass.access.node (pass.replace child) write ↔
          write ∈ pass.definedWrites child) := fun child hmem =>
      ih child hmem (haccepted.2 child hmem) (hfresh child (node.children_subset_parts hmem))
    -- The construct itself writes to no access, since the pass is strict, and of its parts only the
    -- children are gone over.
    rw [Node.hasWrite_of_writtenPlaces (access_notMem_writtenPlaces haccepted.1 hobject),
      definedWrites_of_enters henters, List.mem_flatMap]
    constructor
    · rintro ⟨part, hpart, hwrite⟩
      rcases Node.mem_parts_mapChildren hpart with hold | ⟨child, hmem, rfl⟩
      · rw [parts_spellOut] at hold
        exact absurd hwrite
          (Node.not_hasWrite_of_fresh pass.access.object_mem_identifiers (hfresh part hold))
      · rw [children_spellOut] at hmem
        exact ⟨child, hmem, (hchild child hmem).1 hwrite⟩
    · rintro ⟨child, hmem, hwrite⟩
      refine ⟨pass.replace child, ?_, (hchild child hmem).2 hwrite⟩
      refine Node.children_subset_parts _ ?_
      rw [pass.children_rewrite]
      exact List.mem_map_of_mem hmem

/-- **The writes that a strict pass leaves.** Take trees without the object of the access in them.
If a strict pass accepts them all, then what writes to the access in the trees that it makes of
them are the assignments of the definitions that it comes to. -/
theorem applyAll_writes {pass : Pass} {nodes others : List Node} (hstrict : pass.strict = true)
    (h : pass.applyAll nodes = .ok others)
    (hobject : ∀ node ∈ nodes, pass.access.object ∉ node.identifiers) (write : Node) :
    (∃ node ∈ others, Node.HasWrite pass.access.node node write) ↔
      write ∈ nodes.flatMap pass.definedWrites := by
  obtain ⟨rfl, haccepted⟩ := applyAll_ok_iff.1 h
  rw [List.mem_flatMap]
  constructor
  · rintro ⟨_, hother, hwrite⟩
    obtain ⟨node, hmem, rfl⟩ := List.mem_map.1 hother
    exact ⟨node, hmem,
      (hasWrite_replace (haccepted hstrict node hmem) (hobject node hmem)).1 hwrite⟩
  · rintro ⟨node, hmem, hwrite⟩
    exact ⟨pass.replace node, List.mem_map_of_mem hmem,
      (hasWrite_replace (haccepted hstrict node hmem) (hobject node hmem)).2 hwrite⟩

/-- The pass of an import `a` from the module in slot 0, which is strict. -/
def importA : Pass := ⟨"a", .member (dependencyParam 0) "a", true⟩

/-- The statements `[c = a] = b;` and `if (b) \x7b function a() \x7b\x7d \x7d`, of which one only
reads the import and one declares the name again. -/
def functionInBranch : List Node :=
  [.assignmentStatement (.arrayPattern [some (.assignmentPattern (.identifier "c")
      (.identifier "a"))]) (.identifier "b"),
    .ifStatement (.identifier "b")
      (.blockStatement [.functionDeclaration (some (.identifier "a")) [] (.blockStatement [])
        false false]) none]

/-- The function of the block as an expression, which is what the pass assigns. -/
def branchFunction : Node :=
  .functionExpression (some (.identifier "a")) [] (.blockStatement []) false false

/-- The use of the import in the pattern is no write. The function is assigned to the import, and
this is the only write. -/
theorem applyAll_writes_functionInBranch :
    importA.strict = true ∧
      (∀ node ∈ functionInBranch, importA.access.object ∉ node.identifiers) ∧
      ∃ others, importA.applyAll functionInBranch = .ok others ∧
        ∀ write, (∃ node ∈ others, Node.HasWrite importA.access.node node write) ↔
          write = .assignment importA.access.node branchFunction := by
  have hstrict : importA.strict = true := rfl
  have hobject : ∀ node ∈ functionInBranch, importA.access.object ∉ node.identifiers := by
    have hnames : functionInBranch.map Node.identifiers = [["c", "a", "b"], ["b", "a"]] := by
      with_unfolding_all rfl
    have hfresh : ∀ names ∈ functionInBranch.map Node.identifiers,
        importA.access.object ∉ names := by
      rw [hnames]
      decide
    exact fun node hmem => hfresh node.identifiers (List.mem_map_of_mem hmem)
  have h : importA.applyAll functionInBranch = .ok
      [.assignmentStatement (.arrayPattern [some (.assignmentPattern (.identifier "c")
          (.access (dependencyParam 0) "a"))]) (.identifier "b"),
        .ifStatement (.identifier "b")
          (.blockStatement [.assignmentStatement (.access (dependencyParam 0) "a")
            branchFunction]) none] := by with_unfolding_all rfl
  have hwrites : functionInBranch.flatMap importA.definedWrites =
      [.assignment importA.access.node branchFunction] := by with_unfolding_all rfl
  refine ⟨hstrict, hobject, _, h, fun write => ?_⟩
  rw [applyAll_writes hstrict h hobject write, hwrites, List.mem_singleton]

/-- The block `\x7b let a = b; a(b); \x7d`, which declares the name of an import again. -/
def letInBlock : Node :=
  .blockStatement
    [.variableDeclaration [.variableDeclarator (.identifier "a") (some (.identifier "b"))] .let,
      .statement (.call (.identifier "a") [.identifier "b"])]

/-- A strict pass accepts a block with a variable of the name, and assigns to the import what is
the initial value of the variable. -/
theorem applyAll_writesAccess :
    importA.strict = true ∧ importA.access.object ∉ letInBlock.identifiers ∧
      ∃ other, importA.applyAll [letInBlock] = .ok [other] ∧
        Node.HasWrite importA.access.node other
          (.assignment importA.access.node (.identifier "b")) := by
  have h : importA.applyAll [letInBlock] = .ok
      [.blockStatement
        [.variableDeclaration [.variableDeclarator (.identifier "a")
            (some (.assignment importA.access.node (.identifier "b")))] .let,
          .statement (.call importA.access.node [.identifier "b"])]] := by with_unfolding_all rfl
  have hobject : importA.access.object ∉ letInBlock.identifiers := by
    have hnames : letInBlock.identifiers = ["a", "b", "a", "b"] := by with_unfolding_all rfl
    rw [hnames]
    decide
  have hdefined : importA.definedWrites letInBlock =
      [.assignment importA.access.node (.identifier "b")] := by with_unfolding_all rfl
  obtain ⟨hother, haccepted⟩ := applyAll_ok_iff.1 h
  refine ⟨rfl, hobject, _, h, ?_⟩
  rw [← List.singleton_inj.1 hother,
    hasWrite_replace (haccepted rfl letInBlock (List.mem_singleton_self _)) hobject, hdefined]
  exact List.mem_singleton_self _

end Pass

end DefineWrap
