/-
What a strict pass refuses.

A strict pass goes through a tree on the same way on which it replaces, and refuses the tree if
it comes to something that is wrong for its name. What is wrong stands at one node, and the
node is in the tree (`Pass.exists_violation`). A pass for another name neither makes anything
wrong nor puts it right (`Pass.Apart.firstViolation?_replace`).
-/
import DefineWrap.Proofs.Wrap.Commuting
import DefineWrap.Estree.Walk

set_option autoImplicit false

namespace DefineWrap

/-- The first find in a list that is put together is the first one in the first part that has
any. -/
theorem findSome?_flatMap {α β γ : Type} (f : β → Option γ) (g : α → List β) (xs : List α) :
    (xs.flatMap g).findSome? f = xs.findSome? fun x => (g x).findSome? f := by
  induction xs with
  | nil => rfl
  | cons x rest ih =>
    rw [List.flatMap_cons, List.findSome?_append, ih, List.findSome?_cons]
    cases (g x).findSome? f <;> rfl

/-- Two ways to look that agree on the elements of a list find the same in it first. -/
theorem findSome?_congr {α β : Type} {f g : α → Option β} {xs : List α}
    (h : ∀ x ∈ xs, f x = g x) : xs.findSome? f = xs.findSome? g := by
  induction xs with
  | nil => rfl
  | cons x rest ih =>
    rw [List.findSome?_cons, List.findSome?_cons, h x List.mem_cons_self,
      ih fun other hmem => h other (List.mem_cons_of_mem _ hmem)]

namespace Node

/-- What is below a child, or is the child, is below the node. The node where something is wrong is
found on the way down in these two forms. -/
theorem mem_descendants_of_mem_child {node other : Node} (child : Node) (h : child ∈ node.children)
    (hother : other ∈ child :: child.descendants) : other ∈ node.descendants := by
  rw [descendants_eq]
  exact List.mem_flatMap.2 ⟨child, h, hother⟩

end Node

namespace Places

/-- The places of a list are those of its elements, one after the other. -/
theorem nodes_each (f : Node → Places Node) (nodes : List Node) :
    (each f nodes).nodes = nodes.flatMap fun node => (f node).nodes := by
  induction nodes with
  | nil => rfl
  | cons node rest ih => rw [each, nodes_seq, nodes_map, ih, List.flatMap_cons]

end Places

namespace Pass

variable (pass : Pass)

/-! ## The five cases -/

/-- Nothing is refused at an identifier: reading an import is always allowed, and if it is of the
name the pass replaces it. -/
theorem firstViolation?_identifier (name : String) :
    pass.firstViolation? (.identifier name) = none := by
  by_cases h : pass.replacement? (.identifier name) = none
  · rw [pass.firstViolation?_eq h]
    rfl
  · exact pass.firstViolation?_of_replaced h

/-- Nothing is refused inside a node that shadows the name, since what is written there is another
variable. -/
theorem firstViolation?_of_shadowed {node : Node} (h : pass.replacement? node = none)
    (hshadowed : pass.isShadowedBy node = true) : pass.firstViolation? node = none := by
  have hkind : node.kind ≠ .variableDeclaration := by
    intro hkind
    obtain ⟨_, _, rfl⟩ := Node.hasFormOf_of_kind_eq hkind
    cases hshadowed
  have hviolation : pass.violation? node = none := by
    cases node <;> first | rfl | cases hshadowed
  rw [pass.firstViolation?_eq h, hviolation, onward, places_eq pass hkind, if_pos hshadowed]
  rfl

/-- What is refused in the initial value of a declarator. Nothing is if the declarator is for the
name, as the pass does not look into such a value. -/
def declaratorViolation? : Node → Option WrapError
  | .variableDeclarator id init =>
    if id.binds pass.name then none else init.bind pass.firstViolation?
  | _ => none

/-- In a variable declaration only the initial values are looked at, in their order. The declaration
itself is never refused. -/
theorem firstViolation?_variableDeclaration (declarations : List Node) (kind : VariableKind) :
    pass.firstViolation? (.variableDeclaration declarations kind) =
      declarations.findSome? pass.declaratorViolation? := by
  have hdeclarator : ∀ declarator, (pass.declaratorPlaces declarator).nodes.findSome?
      pass.firstViolation? = pass.declaratorViolation? declarator := by
    intro declarator
    cases declarator
    case variableDeclarator id init =>
      unfold declaratorPlaces declaratorViolation?
      by_cases hbinds : id.binds pass.name = true
      · by_cases hself : id.isIdentifier pass.name = true <;> simp [hbinds, hself]
      · have hself : id.isIdentifier pass.name ≠ true := fun hself =>
          hbinds (Node.binds_of_isIdentifier hself)
        cases init <;> simp [hbinds, hself]
    all_goals rfl
  rw [pass.firstViolation?_eq rfl, onward]
  change (none : Option WrapError).or _ = _
  rw [Option.none_or, places, Places.nodes_map, Places.nodes_each, findSome?_flatMap]
  simp only [hdeclarator]

/-- Where the pass enters, it looks at the node and then at the children, so the first violation in
the order of the text is found. -/
theorem firstViolation?_of_enters {node : Node} (h : pass.Enters node) :
    pass.firstViolation? node =
      (pass.violation? node).or (node.children.findSome? pass.firstViolation?) := by
  rw [pass.firstViolation?_eq h.unreplaced, onward, places_eq pass h.undeclared, h.unshadowed,
    if_neg Bool.false_ne_true, pass.nodes_places_spellOut]
  rfl

/-- Nothing is refused in an entry of an export list that is for a name: an imported name may be
exported again. -/
theorem firstViolation?_exportSpecifier (localName : String) (exported : Node) :
    pass.firstViolation? (.exportSpecifier (.identifier localName) exported) = none := by
  have henters : pass.Enters (.exportSpecifier (.identifier localName) exported) :=
    ⟨rfl, of_decide_eq_false rfl, rfl⟩
  rw [pass.firstViolation?_of_enters henters]
  simp [violation?, Node.children, Node.places, firstViolation?_identifier]

/-- **What is refused stands at a node of the tree.** So the cause of an error can be pointed at,
wherever in the statement it is. -/
theorem exists_violation {node : Node} {error : WrapError}
    (h : pass.firstViolation? node = some error) :
    ∃ part ∈ node :: node.descendants, pass.violation? part = some error := by
  induction node using pass.replace_induction generalizing error with
  | reference =>
    rw [firstViolation?_identifier] at h
    cases h
  | function id params body generator isAsync hid =>
    rw [pass.firstViolation?_of_replaced (by simp [replacement?, hid])] at h
    cases h
  | shadowed node hreplaced hshadowed =>
    rw [pass.firstViolation?_of_shadowed hreplaced hshadowed] at h
    cases h
  | declaration declarations kind ih =>
    rw [firstViolation?_variableDeclaration] at h
    obtain ⟨declarator, hmem, hdeclarator⟩ := List.exists_of_findSome?_eq_some h
    cases declarator
    case variableDeclarator id init =>
      rw [declaratorViolation?] at hdeclarator
      split at hdeclarator
      · cases hdeclarator
      · obtain ⟨value, rfl, hvalue⟩ := Option.bind_eq_some_iff.1 hdeclarator
        obtain ⟨part, hpart, hviolation⟩ := ih id value hmem hvalue
        -- The initial value is two levels down, below its declarator.
        refine ⟨part, List.mem_cons_of_mem _ ?_, hviolation⟩
        refine Node.mem_descendants_of_mem_child (.variableDeclarator id (some value))
          (by simpa [Node.children, Node.places] using hmem) (List.mem_cons_of_mem _ ?_)
        exact Node.mem_descendants_of_mem_child value
          (by simp [Node.children, Node.places]) hpart
    all_goals cases hdeclarator
  | entered node henters ih =>
    rw [pass.firstViolation?_of_enters henters] at h
    rcases Option.or_eq_some_iff.1 h with hnode | ⟨-, hbelow⟩
    · exact ⟨node, List.mem_cons_self, hnode⟩
    · obtain ⟨child, hchild, hviolation⟩ := List.exists_of_findSome?_eq_some hbelow
      obtain ⟨part, hpart, herror⟩ := ih child hchild hviolation
      exact ⟨part, List.mem_cons_of_mem _ (Node.mem_descendants_of_mem_child child hchild hpart),
        herror⟩

/-! ## After a pass for another name -/

/-- A pass for another name does not change whether a declaration declares this one. It is lost only
with a function of the name of that pass. -/
theorem mem_directDeclarations?_replace {name : String} (hname : name ≠ pass.name) (node : Node) :
    name ∈ (pass.replace node).directDeclarations?.getD [] ↔
      name ∈ node.directDeclarations?.getD [] := by
  induction node using pass.replace_induction with
  | reference =>
    rw [directDeclarations?_access]
    exact Iff.rfl
  | function id params body generator isAsync hid =>
    have hid' : id = some (.identifier pass.name) := by
      cases id with
      | none => cases hid
      | some id =>
        exact congrArg some (Node.isIdentifier_iff.1 (by simpa [isOwnName] using hid))
    rw [hid']
    simp [Node.directDeclarations?, Node.assignmentStatement, Node.statement, Node.ownName?, hname]
  | shadowed node hreplaced hshadowed => exact Iff.rfl
  | declaration declarations kind ih =>
    simp only [Node.directDeclarations?, List.flatMap_map, declaratorNames_replaceDeclarator]
  | entered node henters ih => rw [pass.directDeclarations?_rewrite henters.undeclared]

/-- A loop may declare its variable or write to a place that there is. Only the latter can be
wrong. -/
theorem headViolation?_eq (head : Node) :
    pass.headViolation? head =
      if head.kind = .variableDeclaration then none else pass.writeViolation? head := by
  cases head <;> rfl

/-- A pass makes nothing a variable declaration, nor takes one away. So the head of a loop is of the
same form before and after. -/
theorem kind_replace_eq_variableDeclaration (node : Node) :
    (pass.replace node).kind = .variableDeclaration ↔ node.kind = .variableDeclaration := by
  constructor
  · intro h
    by_contra hkind
    exact pass.kind_replace_ne hkind (by decide) h
  · intro h
    obtain ⟨declarations, kind, rfl⟩ := Node.hasFormOf_of_kind_eq h
    rw [replace_variableDeclaration]
    rfl

/-- Nothing is wrong with an access, whichever pass comes to it, as it writes to nothing. -/
theorem firstViolation?_access (access : Access) : pass.firstViolation? access.node = none := by
  cases access with
  | whole object => exact pass.firstViolation?_identifier object
  | member object member =>
    have hliteral : ∀ value, pass.firstViolation? (.stringLiteral value) = none := fun value => by
      have henters : pass.Enters (.stringLiteral value) := ⟨rfl, of_decide_eq_false rfl, rfl⟩
      rw [pass.firstViolation?_of_enters henters]
      rfl
    have henters : ∀ object property computed,
        pass.Enters (.memberExpression object property computed false) := fun _ _ _ =>
      ⟨rfl, of_decide_eq_false rfl, rfl⟩
    rw [Access.node, Node.access_eq, pass.firstViolation?_of_enters (henters ..)]
    cases Node.isBracketed member <;>
      simp [violation?, Node.children, Node.places, firstViolation?_identifier, hliteral]

/-- In an assignment to an access of something else only the value can be wrong. -/
theorem firstViolation?_assignment {access : Access} (h : access.object ≠ pass.name)
    (value : Node) :
    pass.firstViolation? (.assignment access.node value) = pass.firstViolation? value := by
  have henters : pass.Enters (.assignment access.node value) := ⟨rfl, of_decide_eq_false rfl, rfl⟩
  have hwrite : pass.violation? (.assignment access.node value) = none := by
    refine if_neg ?_
    rw [Node.binds_iff]
    exact fun hmem => h (mem_boundNames_access hmem).symm
  have hchildren : (Node.assignment access.node value).children = [access.node, value] := rfl
  rw [pass.firstViolation?_of_enters henters, hwrite, hchildren, Option.none_or]
  simp [firstViolation?_access]

theorem firstViolation?_assignmentStatement {access : Access} (h : access.object ≠ pass.name)
    (value : Node) :
    pass.firstViolation? (.assignmentStatement access.node value) =
      pass.firstViolation? value := by
  have henters : pass.Enters (.assignmentStatement access.node value) :=
    ⟨rfl, of_decide_eq_false rfl, rfl⟩
  have hchildren : (Node.assignmentStatement access.node value).children =
      [.assignment access.node value] := rfl
  rw [pass.firstViolation?_of_enters henters, hchildren, ← pass.firstViolation?_assignment h]
  simp [violation?, Node.assignmentStatement, Node.statement]

namespace Apart

variable {first second : Pass}

/-- A place binds the name after the other pass if it did before, and so writing to it is as wrong
as before. -/
theorem writeViolation?_replace (h : first.Apart second) (place : Node) :
    first.writeViolation? (second.replace place) = first.writeViolation? place := by
  rw [writeViolation?, writeViolation?, second.binds_replace h.name_ne h.second_object.symm]

theorem headViolation?_replace (h : first.Apart second) (head : Node) :
    first.headViolation? (second.replace head) = first.headViolation? head := by
  rw [headViolation?_eq, headViolation?_eq, h.writeViolation?_replace]
  simp only [second.kind_replace_eq_variableDeclaration]

theorem exportViolation?_replace (h : first.Apart second) (declaration : Node) :
    first.exportViolation? (second.replace declaration) = first.exportViolation? declaration := by
  rw [exportViolation?, exportViolation?]
  simp only [second.mem_directDeclarations?_replace h.name_ne]

/-- Nothing becomes wrong with a node that another pass enters, and nothing becomes right: the three
kinds of writes and the two of exports are each looked at above. -/
theorem violation?_rewrite (h : first.Apart second) (node : Node) :
    first.violation? (second.rewrite node) = first.violation? node := by
  cases node
  case assignmentExpression operator left right => exact h.writeViolation?_replace left
  case updateExpression operator isPrefix argument => exact h.writeViolation?_replace argument
  case forInStatement left right body => exact h.headViolation?_replace left
  case forOfStatement left right body isAwait => exact h.headViolation?_replace left
  case exportDefaultDeclaration declaration => exact h.exportViolation?_replace declaration
  case exportNamedDeclaration declaration specifiers source =>
    have hrewrite : second.rewrite (.exportNamedDeclaration declaration specifiers source) =
        .exportNamedDeclaration (declaration.map second.replace)
          (if source.isNone then specifiers.map second.replace else specifiers) source := by
      simp [rewrite_eq_mapped, spellOut, Node.places]
    rw [hrewrite]
    cases declaration with
    | none => rfl
    | some declaration => exact h.exportViolation?_replace declaration
  all_goals rfl

/-- What is refused in the initial value of a declarator, after a pass for another name. If that
pass assigns the value, the assignment is to an access and adds nothing. -/
theorem declaratorViolation?_replaceDeclarator (h : first.Apart second) (declarator : Node)
    (ih : ∀ id value, declarator = .variableDeclarator id (some value) →
      first.firstViolation? (second.replace value) = first.firstViolation? value) :
    first.declaratorViolation? (second.replaceDeclarator declarator) =
      first.declaratorViolation? declarator := by
  cases declarator
  case variableDeclarator id init =>
    simp only [replaceDeclarator, declaratorViolation?]
    split
    · rfl
    · cases init with
      | none => rw [second.replaceValue_none]
      | some value =>
        unfold replaceValue
        split
        · exact first.firstViolation?_assignment h.second_object value
        · split
          · rfl
          · exact ih id value rfl
  all_goals rfl

/-- A function that is not of the name of the pass is refused alike as a declaration and as an
expression, since nothing is wrong with either itself. -/
theorem firstViolation?_function {pass : Pass} {id : Option Node} (params : List Node)
    (body : Node) (generator isAsync : Bool) (h : pass.isOwnName id = false) :
    pass.firstViolation? (.functionExpression id params body generator isAsync) =
      pass.firstViolation? (.functionDeclaration id params body generator isAsync) := by
  have hkept :
      pass.replacement? (.functionDeclaration id params body generator isAsync) = none := by
    simp [replacement?, h]
  by_cases hbound : pass.isBoundBy params body = true
  · rw [pass.firstViolation?_of_shadowed hkept hbound,
      pass.firstViolation?_of_shadowed rfl (by simp [isShadowedBy, hbound])]
  · have hdeclaration : pass.Enters (.functionDeclaration id params body generator isAsync) :=
      ⟨hkept, of_decide_eq_false rfl, by simpa [isShadowedBy] using hbound⟩
    have hexpression : pass.Enters (.functionExpression id params body generator isAsync) :=
      ⟨rfl, of_decide_eq_false rfl, by simpa [isShadowedBy, h] using hbound⟩
    rw [pass.firstViolation?_of_enters hdeclaration, pass.firstViolation?_of_enters hexpression]
    rfl

/-- **What a pass refuses does not depend on a pass for another name.** So a refusal can be found in
the text, although the pass comes late in the run. -/
theorem firstViolation?_replace (h : first.Apart second) (node : Node) :
    first.firstViolation? (second.replace node) = first.firstViolation? node := by
  induction node using second.replace_induction with
  | reference => rw [first.firstViolation?_access, first.firstViolation?_identifier]
  | function id params body generator isAsync hid =>
    rw [first.firstViolation?_assignmentStatement h.second_object,
      firstViolation?_function params body generator isAsync (h.isOwnName_eq_false hid)]
  | shadowed node hreplaced hshadowed => rfl
  | declaration declarations kind ih =>
    rw [firstViolation?_variableDeclaration, firstViolation?_variableDeclaration,
      List.findSome?_map]
    refine findSome?_congr fun declarator hmem => ?_
    exact h.declaratorViolation?_replaceDeclarator declarator fun id value heq =>
      ih id value (heq ▸ hmem)
  | entered node henters ih =>
    -- The second pass goes on from the node, and the first may replace it, pass by it or go on,
    -- too.
    by_cases hreplaced : first.replacement? node = none
    · have hreplaced' := (first.replacement?_rewrite second).2 hreplaced
      by_cases hshadowed : first.isShadowedBy node = true
      · rw [first.firstViolation?_of_shadowed hreplaced hshadowed,
          first.firstViolation?_of_shadowed hreplaced' (by rw [h.isShadowedBy_rewrite, hshadowed])]
      · have hfirst : first.Enters node := ⟨hreplaced, henters.undeclared, by simpa using hshadowed⟩
        rw [first.firstViolation?_of_enters hfirst,
          first.firstViolation?_of_enters (h.enters_rewrite hfirst), h.violation?_rewrite,
          second.children_rewrite, List.findSome?_map,
          findSome?_congr (f := first.firstViolation? ∘ second.replace) ih]
    · rw [first.firstViolation?_of_replaced hreplaced, first.firstViolation?_of_replaced
        fun hnone => hreplaced ((first.replacement?_rewrite second).1 hnone)]

/-- What a pass refuses does not depend on any number of passes for other names, which are all those
before it in a run. -/
theorem firstViolation?_replaceAll {passes : List Pass}
    (h : ∀ other ∈ passes, first.Apart other) (node : Node) :
    first.firstViolation? (replaceAll passes node) = first.firstViolation? node :=
  replaceAll_invariant (fun other hmem node => (h other hmem).firstViolation?_replace node) node

end Apart

end Pass

end DefineWrap
