/-
A pass does not disturb the scopes of other names.

The names that a pattern binds and the names that a scope declares are what they were,
apart from the name of the pass itself (`Pass.boundNames_replace`,
`Pass.filter_scopeDeclarations_replace`). So a node binds another name anew after a pass
exactly if it did so before (`Pass.rebinds_rewrite`), and the order of passes for
different names is of no consequence to where each of them stops.
-/
import DefineWrap.Proofs.Wrap.Rewrite
import Mathlib.Data.List.Basic

set_option autoImplicit false

namespace DefineWrap

namespace Node

/-- What is no identifier and takes nothing apart binds nothing. Of the many kinds of nodes this
leaves the few that are patterns. -/
theorem boundNames_eq_nil {node : Node} (hname : node.identifierName? = none)
    (hparts : node.subpatterns = []) : node.boundNames = [] := by
  rw [boundNames_eq hname, hparts]
  rfl

/-- Whether a name means something else inside a node: a function that binds it by a parameter or
declares it in its body, a function or class expression of that name, a static block that declares
it, or a catch clause that binds it. -/
def rebinds (name : String) : Node → Bool
  | .functionDeclaration _ params body _ _ => params.any (·.binds name) || body.declares name
  | .functionExpression id params body _ _ =>
    id.any (·.isIdentifier name) || params.any (·.binds name) || body.declares name
  | .arrowFunctionExpression params body _ _ => params.any (·.binds name) || body.declares name
  | .classExpression id _ _ => id.any (·.isIdentifier name)
  | .staticBlock body => body.any (·.declares name)
  | .catchClause param _ => param.any (·.binds name)
  | _ => false

end Node

namespace Pass

variable (pass : Pass)

/-! ## The names that a pattern binds -/

/-- What a pattern binds for a name that it bound before the pass: the name itself, or what the
access binds that has taken its place. -/
def boundAs (name : String) : List String :=
  if name = pass.name then pass.access.node.boundNames else [name]

/-- An access binds at most the parameter that it is on, and only if the name stands for a whole
module. -/
theorem mem_boundNames_access {access : Access} {name : String}
    (h : name ∈ access.node.boundNames) : name = access.object := by
  rcases access.node_eq_access_or_identifier with ⟨member, heq⟩ | heq
  · obtain ⟨property, computed, haccess, -⟩ := Node.exists_access_eq access.object member
    rw [heq, haccess, Node.boundNames_eq_nil rfl rfl] at h
    cases h
  · rw [heq, Node.boundNames_identifier] at h
    exact List.mem_singleton.1 h

/-- What a node binds as a pattern and what it binds as the property of an object pattern, in one
induction. The pattern of a property is two levels below its object pattern, so the one cannot be
proved without the other. -/
theorem boundNames_replace_aux (node : Node) :
    (pass.replace node).boundNames = node.boundNames.flatMap pass.boundAs ∧
      (pass.replace node).propertyPattern.boundNames =
        node.propertyPattern.boundNames.flatMap pass.boundAs := by
  -- The pattern of a property is two levels below its object pattern, hence the second part.
  induction node using pass.replace_induction with
  | reference =>
    have hproperty : pass.access.node.propertyPattern = pass.access.node := by
      rcases pass.access.node_eq_access_or_identifier with ⟨member, heq⟩ | heq
      · obtain ⟨property, computed, haccess, -⟩ :=
          Node.exists_access_eq pass.access.object member
        rw [heq, haccess]
        rfl
      · rw [heq]
        rfl
    rw [hproperty]
    simp [Node.propertyPattern, boundAs]
  | function id params body generator isAsync hid =>
    have hbefore : (Node.functionDeclaration id params body generator isAsync).boundNames = [] :=
      Node.boundNames_eq_nil rfl rfl
    have hafter : (Node.assignmentStatement pass.access.node
        (.functionExpression id params body generator isAsync)).boundNames = [] :=
      Node.boundNames_eq_nil rfl rfl
    refine ⟨by rw [hbefore, hafter]; rfl, ?_⟩
    change (Node.assignmentStatement pass.access.node _).boundNames =
      (Node.functionDeclaration id params body generator isAsync).boundNames.flatMap _
    rw [hbefore, hafter]
    rfl
  | shadowed node hreplaced hshadowed =>
    have hnil : node.boundNames = [] := by
      cases node <;> first | cases hshadowed; done | exact Node.boundNames_eq_nil rfl rfl
    have hproperty : node.propertyPattern = node := by
      cases node <;> first | cases hshadowed; done | rfl
    rw [hproperty, hnil]
    exact ⟨rfl, rfl⟩
  | declaration declarations kind ih =>
    have hnil : ∀ declarations, (Node.variableDeclaration declarations kind).boundNames = [] :=
      fun _ => Node.boundNames_eq_nil rfl rfl
    simp only [Node.propertyPattern, hnil, List.flatMap_nil, and_self]
  | entered node henters ih =>
    have hname : (pass.rewrite node).identifierName? = node.identifierName? :=
      pass.identifierName?_rewrite node
    cases node
    case identifier name =>
      have hne : name ≠ pass.name := by
        intro heq
        have hkept := henters.unreplaced
        simp [replacement?, heq] at hkept
      have hrewrite : pass.rewrite (.identifier name) = .identifier name := rfl
      rw [hrewrite]
      simp [Node.propertyPattern, boundAs, hne]
    case property key value kind computed method shorthand =>
      have hvalue := (ih value (by simp [Node.children, Node.places])).1
      have hrewrite : (pass.rewrite (.property key value kind computed method
          shorthand)).propertyPattern = pass.replace value := by
        simp [rewrite_eq_mapped, spellOut, Node.places, Node.propertyPattern]
      have hnil : (Node.property key value kind computed method shorthand).boundNames = [] :=
        Node.boundNames_eq_nil rfl rfl
      have hnil' : (pass.rewrite (.property key value kind computed method
          shorthand)).boundNames = [] := Node.boundNames_eq_nil rfl rfl
      rw [hrewrite, hnil, hnil']
      exact ⟨rfl, hvalue⟩
    case objectPattern properties =>
      have hrewrite : pass.rewrite (.objectPattern properties) =
          .objectPattern (properties.map pass.replace) := by
        simp [rewrite_eq_mapped, spellOut, Node.places]
      have hparts : (Node.objectPattern (properties.map pass.replace)).boundNames =
          (Node.objectPattern properties).boundNames.flatMap pass.boundAs := by
        rw [Node.boundNames_eq rfl, Node.boundNames_eq rfl, Node.subpatterns, Node.subpatterns,
          List.map_map, List.flatMap_map, List.flatMap_map, List.flatMap_assoc]
        exact List.flatMap_congr fun property hmem =>
          (ih property (by simpa [Node.children, Node.places] using hmem)).2
      rw [hrewrite]
      exact ⟨hparts, hparts⟩
    case arrayPattern elements =>
      have hrewrite : pass.rewrite (.arrayPattern elements) =
          .arrayPattern (elements.map (Option.map pass.replace)) := by
        simp [rewrite_eq_mapped, spellOut, Node.places]
      have hparts : (Node.arrayPattern (elements.map (Option.map pass.replace))).boundNames =
          (Node.arrayPattern elements).boundNames.flatMap pass.boundAs := by
        rw [Node.boundNames_eq rfl, Node.boundNames_eq rfl, Node.subpatterns, Node.subpatterns,
          Node.filterMap_id_map, List.flatMap_map, List.flatMap_assoc]
        exact List.flatMap_congr fun element hmem =>
          (ih element (by simpa [Node.children, Node.places] using hmem)).1
      rw [hrewrite]
      exact ⟨hparts, hparts⟩
    case restElement argument =>
      have hparts : (Node.restElement (pass.replace argument)).boundNames =
          (Node.restElement argument).boundNames.flatMap pass.boundAs := by
        rw [Node.boundNames_eq rfl, Node.boundNames_eq rfl]
        simpa [Node.subpatterns] using (ih argument (by simp [Node.children, Node.places])).1
      exact ⟨hparts, hparts⟩
    case assignmentPattern left right =>
      have hparts : (Node.assignmentPattern (pass.replace left) (pass.replace right)).boundNames =
          (Node.assignmentPattern left right).boundNames.flatMap pass.boundAs := by
        rw [Node.boundNames_eq rfl, Node.boundNames_eq rfl]
        simpa [Node.subpatterns] using (ih left (by simp [Node.children, Node.places])).1
      exact ⟨hparts, hparts⟩
    -- No other node binds anything, and its children are no matter.
    all_goals
      refine ⟨?_, ?_⟩
      · rw [Node.boundNames_eq_nil rfl rfl, Node.boundNames_eq_nil rfl rfl]
        rfl
      · change (pass.rewrite _).boundNames = _
        rw [Node.boundNames_eq_nil rfl rfl, Node.propertyPattern, Node.boundNames_eq_nil rfl rfl]
        · rfl
        · intro key value kind computed method shorthand h
          cases h

/-- **The names that a pattern binds after a pass.** They are those it bound before, and
in the place of the name of the pass what the access binds: nothing, or the parameter
itself if the name stands for a whole module. -/
theorem boundNames_replace (node : Node) :
    (pass.replace node).boundNames = node.boundNames.flatMap pass.boundAs :=
  (pass.boundNames_replace_aux node).1

/-- Other names are bound as before, as long as the access is not on one of them. -/
theorem mem_boundNames_replace {name : String} (hname : name ≠ pass.name)
    (hobject : name ≠ pass.access.object) (node : Node) :
    name ∈ (pass.replace node).boundNames ↔ name ∈ node.boundNames := by
  rw [boundNames_replace, List.mem_flatMap]
  constructor
  · rintro ⟨other, hother, hmem⟩
    unfold boundAs at hmem
    split at hmem
    · exact absurd (mem_boundNames_access hmem) hobject
    · rwa [List.mem_singleton.1 hmem]
  · intro hmem
    exact ⟨name, hmem, by simp [boundAs, hname]⟩

/-- The same for whether a name is bound, in the form in which the model asks for it. -/
@[simp] theorem binds_replace {name : String} (hname : name ≠ pass.name)
    (hobject : name ≠ pass.access.object) (node : Node) :
    (pass.replace node).binds name = node.binds name := by
  rw [Bool.eq_iff_iff, Node.binds_iff, Node.binds_iff]
  exact pass.mem_boundNames_replace hname hobject node

/-- A pattern that does not bind the name of the pass binds the same afterwards. No condition on the
access is needed here, as it is put nowhere in the pattern. -/
theorem boundNames_replace_of_not_binds {node : Node} (h : node.binds pass.name = false) :
    (pass.replace node).boundNames = node.boundNames := by
  have hnot : pass.name ∉ node.boundNames := by
    rw [← Node.binds_iff, h]
    exact Bool.false_ne_true
  rw [boundNames_replace]
  calc node.boundNames.flatMap pass.boundAs
      = node.boundNames.flatMap fun name => [name] := by
        refine List.flatMap_congr fun name hmem => if_neg ?_
        rintro rfl
        exact hnot hmem
    _ = node.boundNames := List.flatMap_singleton' _

/-! ## The names that a scope declares -/

/-- A node that is entered declares what it has declared, since names of declarations are no
children. -/
theorem directDeclarations?_rewrite {node : Node} (h : node.kind ≠ .variableDeclaration) :
    (pass.rewrite node).directDeclarations? = node.directDeclarations? := by
  cases node <;> first | rfl | exact absurd rfl h

theorem declaratorNames_replaceDeclarator (node : Node) :
    (pass.replaceDeclarator node).declaratorNames = node.declaratorNames := by
  cases node <;> rfl

/-- An access declares nothing, wherever it is put. -/
theorem scopeDeclarations_access (access : Access) : access.node.scopeDeclarations = [] := by
  have hname : ∀ name, (Node.identifier name).scopeDeclarations = [] := fun name => by
    rw [Node.scopeDeclarations_eq]
    rfl
  rcases access.node_eq_access_or_identifier with ⟨member, heq⟩ | heq
  · obtain ⟨property, computed, haccess, hliteral⟩ :=
      Node.exists_access_eq access.object member
    rw [heq, haccess, Node.scopeDeclarations_eq]
    cases computed with
    | false => simp [Node.directDeclarations?, Node.children, Node.places, hname]
    | true =>
      obtain ⟨raw, rfl⟩ := hliteral rfl
      have hvalue : (Node.literal (.string member) raw none).scopeDeclarations = [] := by
        rw [Node.scopeDeclarations_eq]
        rfl
      simp [Node.directDeclarations?, Node.children, Node.places, hname, hvalue]
  · rw [heq, hname]

/-- The assignment that takes the place of a function declaration declares nothing. The function is
an expression now, and its name is known inside of it only. -/
theorem scopeDeclarations_assignmentStatement (id : Option Node) (params : List Node)
    (body : Node) (generator isAsync : Bool) :
    (Node.assignmentStatement pass.access.node
      (.functionExpression id params body generator isAsync)).scopeDeclarations = [] := by
  have hfunction :
      (Node.functionExpression id params body generator isAsync).scopeDeclarations = [] := by
    rw [Node.scopeDeclarations_eq]
    rfl
  have hassignment : (Node.assignment pass.access.node
      (.functionExpression id params body generator isAsync)).scopeDeclarations = [] := by
    rw [Node.assignment, Node.scopeDeclarations_eq]
    simp [Node.directDeclarations?, Node.children, Node.places, scopeDeclarations_access,
      hfunction]
  rw [Node.assignmentStatement, Node.statement, Node.scopeDeclarations_eq]
  simp [Node.directDeclarations?, Node.children, Node.places, hassignment]

/-- A function declaration of the name of the pass declares that name and no other. -/
theorem scopeDeclarations_functionDeclaration_own {id : Option Node} (params : List Node)
    (body : Node) (generator isAsync : Bool) (h : pass.isOwnName id = true) :
    (Node.functionDeclaration id params body generator isAsync).scopeDeclarations =
      [pass.name] := by
  rw [Node.scopeDeclarations_eq]
  cases id with
  | none => cases h
  | some id =>
    have hid : id = .identifier pass.name := Node.isIdentifier_iff.1 (by simpa [isOwnName] using h)
    rw [hid]
    rfl

/-- **A scope declares the other names as before**, in the same order. What goes are function
declarations of the name of the pass, which become assignments; that is why its own name is filtered
out. -/
theorem filter_scopeDeclarations_replace (keep : String → Bool) (h : keep pass.name = false)
    (node : Node) :
    (pass.replace node).scopeDeclarations.filter keep = node.scopeDeclarations.filter keep := by
  induction node using pass.replace_induction with
  | reference =>
    rw [scopeDeclarations_access, Node.scopeDeclarations_eq]
    rfl
  | function id params body generator isAsync hid =>
    rw [scopeDeclarations_assignmentStatement,
      pass.scopeDeclarations_functionDeclaration_own params body generator isAsync hid]
    simp [h]
  | shadowed node hreplaced hshadowed => rfl
  | declaration declarations kind ih =>
    rw [Node.scopeDeclarations_eq, Node.scopeDeclarations_eq]
    simp only [Node.directDeclarations?, Option.getD_some, List.flatMap_map,
      declaratorNames_replaceDeclarator]
  | entered node henters ih =>
    rw [Node.scopeDeclarations_eq, Node.scopeDeclarations_eq,
      pass.directDeclarations?_rewrite henters.undeclared, children_rewrite]
    cases node.directDeclarations? with
    | some names => rfl
    | none =>
      rw [Option.getD_none, Option.getD_none, List.filter_flatMap, List.filter_flatMap,
        List.flatMap_map]
      exact List.flatMap_congr ih

/-- A pass makes no scope declare anything new. -/
theorem mem_scopeDeclarations_of_replace {name : String} (node : Node)
    (h : name ∈ (pass.replace node).scopeDeclarations) : name ∈ node.scopeDeclarations := by
  induction node using pass.replace_induction with
  | reference =>
    rw [scopeDeclarations_access] at h
    cases h
  | function id params body generator isAsync hid =>
    rw [scopeDeclarations_assignmentStatement] at h
    cases h
  | shadowed node hreplaced hshadowed => exact h
  | declaration declarations kind ih =>
    rw [Node.scopeDeclarations_eq] at h ⊢
    simpa only [Node.directDeclarations?, Option.getD_some, List.flatMap_map,
      declaratorNames_replaceDeclarator] using h
  | entered node henters ih =>
    rw [Node.scopeDeclarations_eq, pass.directDeclarations?_rewrite henters.undeclared,
      children_rewrite] at h
    rw [Node.scopeDeclarations_eq]
    cases hdirect : node.directDeclarations? with
    | some names => rwa [hdirect] at h
    | none =>
      rw [hdirect, Option.getD_none, List.flatMap_map] at h
      obtain ⟨child, hchild, hmem⟩ := List.mem_flatMap.1 h
      exact List.mem_flatMap.2 ⟨child, hchild, ih child hchild hmem⟩

@[simp] theorem declares_replace {name : String} (hname : name ≠ pass.name) (node : Node) :
    (pass.replace node).declares name = node.declares name := by
  have hfilter := pass.filter_scopeDeclarations_replace (· = name)
    (decide_eq_false fun heq => hname heq.symm) node
  have hmem : ∀ names : List String, name ∈ names ↔ name ∈ names.filter (· = name) := by
    simp
  rw [Bool.eq_iff_iff, Node.declares_iff, Node.declares_iff, hmem, hfilter, ← hmem]

/-! ## Where a name is bound anew -/

/-- What a pass stops at are the nodes that bind its name anew, and imports. The first of these is a
matter of names alone, and can be asked for the name of another pass, too. -/
theorem isShadowedBy_eq (node : Node) :
    pass.isShadowedBy node =
      (node.rebinds pass.name || node.kind = .importDeclaration : Bool) := by
  cases node <;> simp [isShadowedBy, isBoundBy, isOwnName, Node.rebinds, Node.kind, Node.record,
    Bool.or_assoc]

/-- A node binds another name anew after a pass exactly if it did so before. So passes for different
names stop at the same nodes in either order. -/
theorem rebinds_rewrite {name : String} (hname : name ≠ pass.name)
    (hobject : name ≠ pass.access.object) (node : Node) :
    (pass.rewrite node).rebinds name = node.rebinds name := by
  cases node
  case catchClause param body =>
    cases param <;>
      simp [rewrite_eq_mapped, spellOut, Node.places, Node.rebinds, hname, hobject]
  all_goals
    simp [rewrite_eq_mapped, spellOut, Node.places, Node.rebinds, hname, hobject,
      Function.comp_def]

theorem Enters.rebinds_eq_false {pass : Pass} {node : Node} (h : pass.Enters node) :
    node.rebinds pass.name = false := by
  have hshadowed := h.unshadowed
  rw [isShadowedBy_eq, Bool.or_eq_false_iff] at hshadowed
  exact hshadowed.1

/-- Where a pass goes on, it makes nothing bind a name anew. It may take declarations away, so the
other direction does not hold for every name. -/
theorem Enters.rebinds_rewrite_eq_false {pass : Pass} {node : Node} {name : String}
    (henters : pass.Enters node) (h : node.rebinds name = false) :
    (pass.rewrite node).rebinds name = false := by
  have hbinds : ∀ part : Node, part.binds pass.name = false → part.binds name = false →
      (pass.replace part).binds name = false := by
    intro part hopen hpart
    rw [Node.binds, pass.boundNames_replace_of_not_binds hopen]
    exact hpart
  have hdeclares : ∀ part : Node, part.declares name = false →
      (pass.replace part).declares name = false := by
    intro part hpart
    rw [← Bool.not_eq_true, Node.declares_iff] at hpart ⊢
    exact fun hmem => hpart (pass.mem_scopeDeclarations_of_replace part hmem)
  have hopen := henters.rebinds_eq_false
  cases node
  case catchClause param body =>
    cases param <;> simp_all [rewrite_eq_mapped, spellOut, Node.places, Node.rebinds]
  all_goals simp_all [rewrite_eq_mapped, spellOut, Node.places, Node.rebinds]

/-- Where a pass goes on, its own name is not bound anew afterwards either. -/
theorem rebinds_rewrite_self {node : Node} (h : pass.Enters node) :
    (pass.rewrite node).rebinds pass.name = false :=
  h.rebinds_rewrite_eq_false h.rebinds_eq_false

end Pass

end DefineWrap
