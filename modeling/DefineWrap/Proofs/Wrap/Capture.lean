/-
References to a parameter that a construct of the module takes over.

An access is put in the place of a name by the fixed name of its parameter. A pass looks for
shadowing of the name that it replaces, and not for shadowing of the parameter. So an access that
comes to stand in a construct of the module that binds the name of the parameter is captured there.

`captured` is the survey of what stands for a name inside the constructs that bind it, by the
scopes of the language: a `var` holds for the function around it, a `let`, a `const`, a class or a
function for the block. `placed` is the survey of the places in such constructs where the pass for
another name puts an access in. No construct begins or ceases to bind a name through a pass for
another one (`Pass.Enters.bindsFor_rewrite`). Therefore a pass captures one access for each such
place that it has (`captured.length_gather_replace_of_object`), none if its accesses are to another
parameter (`captured.gather_replace_of_ne`), and makes no places for the passes after it
(`placed.length_gather_replace_le`).
-/
import DefineWrap.Proofs.Wrap.Mentions

set_option autoImplicit false

namespace DefineWrap

/-! ## Lists of findings -/

section

variable {α β γ : Type} {items : List α} {f : α → List β} {g h : α → List γ}

theorem length_flatMap_eq_add
    (each : ∀ item ∈ items, (f item).length = (g item).length + (h item).length) :
    (items.flatMap f).length = (items.flatMap g).length + (items.flatMap h).length := by
  induction items with
  | nil => rfl
  | cons item rest ih =>
    have hfirst := each item List.mem_cons_self
    have hrest := ih fun other hmem => each other (List.mem_cons_of_mem _ hmem)
    simp only [List.flatMap_cons, List.length_append]
    omega

end

/-! ## Constructs that bind a name -/

namespace Node

/-- The names that a declaration declares for the whole function it stands in, if it is a `var`. -/
def varNames : Node → List String
  | .variableDeclaration declarations kind =>
    if kind = .var then declarations.flatMap declaratorNames else []
  | _ => []

/-- The names that are declared by `var` anywhere in a node but in the functions inside it. It stops
at declarations, as those of functions and classes are scopes of their own. -/
def hoistedNames (node : Node) : List String :=
  match node.directDeclarations? with
  | some _ => node.varNames
  | none => node.children.attach.flatMap fun child => hoistedNames child.1
termination_by sizeOf node
decreasing_by exact sizeOf_lt_of_mem_children child.2

theorem hoistedNames_eq (node : Node) :
    node.hoistedNames = (node.directDeclarations?.map fun _ => node.varNames).getD
      (node.children.flatMap hoistedNames) := by
  rw [hoistedNames, List.flatMap_subtype (g := hoistedNames) fun _ _ => rfl, List.unattach_attach]
  cases node.directDeclarations? <;> rfl

/-- The names that a statement declares for the body that it stands in: those of the block and those
that come up from inside it. -/
def bodyNames (node : Node) : List String := node.lexicalNames ++ node.hoistedNames

/-- Whether a construct binds a name for what stands in one of its children, by the scopes of the
language. A function binds its parameters and its `var`s, and a function expression also its own
name. -/
def bindsFor (name : String) (node child : Node) : Bool :=
  match node with
  | .functionDeclaration _ params _ _ _ =>
    params.any (·.binds name) || name ∈ child.hoistedNames
  | .functionExpression id params _ _ _ =>
    id.any (·.isIdentifier name) || params.any (·.binds name) || name ∈ child.hoistedNames
  | .arrowFunctionExpression params _ _ _ =>
    params.any (·.binds name) || name ∈ child.hoistedNames
  | .classExpression id _ _ => id.any (·.isIdentifier name)
  | .staticBlock body => body.any (name ∈ ·.bodyNames)
  | .catchClause param _ => param.any (·.binds name)
  | node => node.encloses name child

/-- In the model of the passes, too, what is declared by `var` is declared. The pass takes more for
declared, since it makes no difference between the kinds. -/
theorem hoistedNames_subset_scopeDeclarations (node : Node) :
    node.hoistedNames ⊆ node.scopeDeclarations := by
  induction node using children_induction with
  | step node ih =>
    rw [hoistedNames_eq, scopeDeclarations_eq]
    cases hdirect : node.directDeclarations? with
    | none =>
      intro name hname
      obtain ⟨child, hchild, hmem⟩ := List.mem_flatMap.1 hname
      exact List.mem_flatMap.2 ⟨child, hchild, ih child hchild hmem⟩
    | some names =>
      cases node
      case variableDeclaration declarations kind =>
        cases hdirect
        rw [Option.map_some, Option.getD_some, Option.getD_some, varNames]
        split
        · exact List.Subset.refl _
        · exact List.nil_subset _
      all_goals exact List.nil_subset _

theorem hoistedNames_eq_nil {node : Node} (h : node.scopeDeclarations = []) :
    node.hoistedNames = [] :=
  List.subset_nil.1 (h ▸ node.hoistedNames_subset_scopeDeclarations)

end Node

/-- The region of a child, if all constructs that bind the name count, and not only those that a
pass does not respect. -/
def Region.under (region : Region) (name : String) (node child : Node) : Region :=
  if node.bindsFor name child then .inside else region

/-! ## The surveys -/

/-- Where a name stands inside a construct that binds it. Every use counts, also in patterns,
because the question is what the language takes the name for. -/
def captured (name : String) : Survey Region String where
  found region node := if region = .inside && node.isIdentifier name then [name] else []
  below region node child := some (region.under name node child)
  declared _ _ _ := []
  pattern region _ := some region
  value region _ := some region

/-- Where the pass for a name puts an access to a parameter inside a construct that binds the name
of the parameter. It goes where the pass goes, so scopes of the name and patterns are left out. -/
def placed (param name : String) : Survey Region String where
  found region node :=
    if region = .inside && (node.isIdentifier name || node.isFunctionDeclarationOf name) then
      [param]
    else []
  below region node child :=
    if node.hides name .visited then none else some (region.under param node child)
  declared region id init :=
    if region = .inside && id.isIdentifier name && init.isSome then [param] else []
  pattern _ _ := none
  value region id := if id.binds name then none else some region

/-! ## What a pass does to the constructs -/

namespace Pass

variable (pass : Pass)

/-- What a pass enters is no use of a name afterwards if it was none before, and the other way
round. -/
theorem isIdentifier_rewrite (node : Node) (name : String) :
    (pass.rewrite node).isIdentifier name = node.isIdentifier name := by
  rw [Node.isIdentifier, Node.isIdentifier, identifierName?_rewrite]

/-- Nor does it become a function of some name or cease to be one, since the names of functions are
no uses. -/
theorem isFunctionDeclarationOf_rewrite (node : Node) (name : String) :
    (pass.rewrite node).isFunctionDeclarationOf name = node.isFunctionDeclarationOf name := by
  cases node <;> rfl

/-- A pass leaves every `var` as it is. Only functions of the name of the pass are taken away, and
these are not declared by `var`. -/
@[simp] theorem hoistedNames_replace (node : Node) :
    (pass.replace node).hoistedNames = node.hoistedNames := by
  induction node using pass.replace_induction with
  | reference =>
    have hidentifier : (Node.identifier pass.name).scopeDeclarations = [] := by
      rw [Node.scopeDeclarations_eq]
      rfl
    rw [Node.hoistedNames_eq_nil (scopeDeclarations_access pass.access),
      Node.hoistedNames_eq_nil hidentifier]
  | function id params body generator isAsync hid =>
    rw [Node.hoistedNames_eq_nil
      (pass.scopeDeclarations_assignmentStatement id params body generator isAsync),
      Node.hoistedNames_eq]
    rfl
  | shadowed node hreplaced hshadowed => rfl
  | declaration declarations kind ih =>
    rw [Node.hoistedNames_eq, Node.hoistedNames_eq]
    simp only [Node.directDeclarations?, Option.map_some, Option.getD_some, Node.varNames,
      List.flatMap_map, declaratorNames_replaceDeclarator]
  | entered node henters ih =>
    have hvar : (pass.rewrite node).varNames = node.varNames := by
      cases node <;> first | rfl | exact absurd rfl henters.undeclared
    rw [Node.hoistedNames_eq, Node.hoistedNames_eq,
      pass.directDeclarations?_rewrite henters.undeclared, hvar, children_rewrite, List.flatMap_map]
    exact congrArg _ (List.flatMap_congr ih)

/-- A statement goes on declaring the names other than that of the pass, for the block and for the
function around it. -/
theorem mem_bodyNames_replace {name : String} (hname : name ≠ pass.name) (node : Node) :
    name ∈ (pass.replace node).bodyNames ↔ name ∈ node.bodyNames := by
  rw [Node.bodyNames, Node.bodyNames, List.mem_append, List.mem_append, hoistedNames_replace,
    pass.mem_lexicalNames_replace_iff hname]

/-- Patterns that do not bind the name of the pass bind every name as before. Where one does bind
it, the pass is shadowed and does not come to them. -/
theorem any_binds_replace {params : List Node}
    (h : params.any (·.binds pass.name) = false) (name : String) :
    (params.map pass.replace).any (·.binds name) = params.any (·.binds name) := by
  rw [Bool.eq_iff_iff, List.any_map, List.any_eq_true, List.any_eq_true]
  refine exists_congr fun param => and_congr_right fun hmem => ?_
  have hbinds : param.binds pass.name = false := by
    simpa using List.any_eq_false.1 h param hmem
  rw [Function.comp_apply, Node.binds_iff, Node.binds_iff,
    pass.boundNames_replace_of_not_binds hbinds]

/-- **What a pass enters binds another name as before**, also the name of the parameter. -/
theorem Enters.bindsFor_rewrite {pass : Pass} {node : Node} (h : pass.Enters node) {name : String}
    (hname : name ≠ pass.name) (child : Node) :
    (pass.rewrite node).bindsFor name (pass.replace child) = node.bindsFor name child := by
  have hunshadowed := h.unshadowed
  have hencloses : (pass.rewrite node).encloses name (pass.replace child) =
      node.encloses name child := by
    rw [Node.encloses, Node.encloses, pass.redeclares_rewrite_eq hname, pass.kind_rewrite,
      kind_replace_switchCase]
  -- Most constructs bind names by their declarations (`hencloses`). Functions, catch clauses and
  -- static blocks have a condition of their own.
  cases node
  case functionDeclaration id params body generator isAsync =>
    have hparams := pass.any_binds_replace (Bool.or_eq_false_iff.1 hunshadowed).1 name
    simp [rewrite_eq_mapped, spellOut, Node.places, Node.bindsFor, hparams]
  case functionExpression id params body generator isAsync =>
    have hparams := pass.any_binds_replace
      (Bool.or_eq_false_iff.1 (Bool.or_eq_false_iff.1 hunshadowed).2).1 name
    simp [rewrite_eq_mapped, spellOut, Node.places, Node.bindsFor, hparams]
  case arrowFunctionExpression params body isExpression isAsync =>
    have hparams := pass.any_binds_replace (Bool.or_eq_false_iff.1 hunshadowed).1 name
    simp [rewrite_eq_mapped, spellOut, Node.places, Node.bindsFor, hparams]
  case classExpression id superClass body => rfl
  case staticBlock body =>
    have hbody : (fun statement => decide (name ∈ statement.bodyNames)) ∘ pass.replace =
        fun statement => decide (name ∈ statement.bodyNames) :=
      funext fun statement => decide_eq_decide.2 (pass.mem_bodyNames_replace hname statement)
    simp [rewrite_eq_mapped, spellOut, Node.places, Node.bindsFor, hbody]
  case catchClause param body =>
    have hbefore : param.toList.any (·.binds pass.name) = false := by
      cases param <;> simp_all [isShadowedBy]
    have hparam := pass.any_binds_replace hbefore name
    cases param <;>
      simp_all [rewrite_eq_mapped, spellOut, Node.places, Node.bindsFor]
  all_goals exact hencloses

theorem Enters.under_rewrite {pass : Pass} {node : Node} (h : pass.Enters node) {name : String}
    (hname : name ≠ pass.name) (region : Region) (child : Node) :
    region.under name (pass.rewrite node) (pass.replace child) = region.under name node child := by
  rw [Region.under, Region.under, h.bindsFor_rewrite hname]

end Pass

/-! ## Surveys that pass through accesses -/

namespace Survey

variable {σ α : Type} {survey : Survey σ α}

/-- Whether a node is of a form that accesses and assignments to them consist of, apart from names.
None of these forms binds anything. -/
def isPlain : Node → Bool
  | .literal _ _ _ => true
  | .memberExpression _ _ _ _ => true
  | .assignmentExpression _ _ _ => true
  | .expressionStatement _ _ => true
  | _ => false

/-- A survey finds nothing at such nodes and goes on in the same state. This is all that has to be
known of a survey to look through an access. -/
structure Plain (survey : Survey σ α) : Prop where
  found_eq : ∀ state node, isPlain node = true → survey.found state node = []
  below_eq : ∀ state node child, isPlain node = true → survey.below state node child = some state

/-- At a name the survey finds what it finds for the name itself, as there is nothing below. -/
theorem gather_identifier (survey : Survey σ α) (state : σ) (name : String) :
    survey.gather state (.identifier name) = survey.found state (.identifier name) :=
  (gather_eq survey state (.identifier name) (of_decide_eq_false rfl)).trans (List.append_nil _)

namespace Plain

variable (h : survey.Plain) (state : σ) (access : Access)
include h

/-- At a node of such a form the survey finds what it finds in the children. -/
theorem gather_children {node : Node} (hplain : isPlain node = true) :
    survey.gather state node = node.children.flatMap (survey.gather state) := by
  have hkind : node.kind ≠ .variableDeclaration := by
    cases node <;> first | (cases hplain; done) | exact of_decide_eq_false rfl
  exact gather_below hkind (h.found_eq state node hplain)
    fun child => h.below_eq state node child hplain

/-- Of an access the survey finds the name of the parameter and nothing else, in the state that it
has there. -/
theorem gather_access :
    survey.gather state access.node = survey.found state (.identifier access.object) := by
  rcases access.node_eq_access_or_identifier with ⟨member, heq⟩ | heq
  · obtain ⟨property, computed, haccess, hliteral⟩ := Node.exists_access_eq access.object member
    rw [heq, haccess, h.gather_children state rfl]
    cases computed with
    | false => simp [Node.children, Node.places, gather_identifier]
    | true =>
      obtain ⟨raw, rfl⟩ := hliteral rfl
      have hproperty : survey.gather state (.literal (.string member) raw none) = [] :=
        h.gather_children state rfl
      simp [Node.children, Node.places, gather_identifier, hproperty]
  · rw [heq, gather_identifier]

/-- Of an assignment to an access it finds the name of the parameter and what there is in the
value. -/
theorem gather_assignment (value : Node) :
    survey.gather state (.assignment access.node value) =
      survey.found state (.identifier access.object) ++ survey.gather state value := by
  have hchildren : (Node.assignment access.node value).children = [access.node, value] := rfl
  rw [h.gather_children state rfl, hchildren, List.flatMap_cons, h.gather_access,
    List.flatMap_singleton]

/-- The same for the statement, in the same state, as neither of its two nodes is a scope. -/
theorem gather_assignmentStatement (value : Node) :
    survey.gather state (.assignmentStatement access.node value) =
      survey.found state (.identifier access.object) ++ survey.gather state value := by
  have hchildren : (Node.assignmentStatement access.node value).children =
      [.assignment access.node value] := rfl
  rw [h.gather_children state rfl, hchildren, List.flatMap_singleton, h.gather_assignment]

omit state in
/-- If the survey does not look for the parameter, it sees through assignments to the access. Thus
surveys of a name are stable under passes to other parameters. -/
theorem seesThrough (hobject : ∀ state, survey.found state (.identifier access.object) = []) :
    survey.SeesThrough access where
  access_eq state := by rw [h.gather_access, hobject]
  assignment_eq state _ := h.found_eq state _ rfl
  value_eq state _ := h.below_eq state _ _ rfl
  statement_eq state _ := h.found_eq state _ rfl
  expression_eq state _ := h.below_eq state _ _ rfl

end Plain

end Survey

/-! ## What is captured -/

namespace captured

variable {name : String}

theorem found_of_not_isIdentifier {region : Region} {node : Node}
    (h : node.isIdentifier name = false) : (captured name).found region node = [] := by
  simp [captured, h]

theorem found_identifier_of_ne {region : Region} {other : String} (h : other ≠ name) :
    (captured name).found region (.identifier other) = [] :=
  found_of_not_isIdentifier (by simp [Node.isIdentifier, h])

/-- The survey finds nothing at the parts of an access other than names, and none of them binds a
name. -/
theorem plain : (captured name).Plain where
  found_eq region node hplain := found_of_not_isIdentifier (by
    cases node <;> first | rfl | cases hplain)
  below_eq region node child hplain := by cases node <;> first | rfl | cases hplain

/-- A function that is not of the name holds the same as a declaration and as an expression, since
only the expression binds its name for its own body. -/
theorem gather_functionExpression {id : Option Node} (region : Region) (params : List Node)
    (body : Node) (generator isAsync : Bool) (h : id.any (·.isIdentifier name) = false) :
    (captured name).gather region (.functionExpression id params body generator isAsync) =
      (captured name).gather region (.functionDeclaration id params body generator isAsync) := by
  rw [Survey.gather_eq _ region (.functionExpression ..) (of_decide_eq_false rfl),
    Survey.gather_eq _ region (.functionDeclaration ..) (of_decide_eq_false rfl),
    found_of_not_isIdentifier rfl, found_of_not_isIdentifier rfl]
  simp only [captured, Region.under, Node.bindsFor, h, Bool.false_or]
  rfl

/-- A declaration of another name holds the same as an expression. -/
theorem gather_asExpression {declaration : Node}
    (h : ∀ other, declarationName? declaration = some other → other ≠ name) (region : Region) :
    (captured name).gather region declaration.asExpression =
      (captured name).gather region declaration := by
  cases declaration
  case functionDeclaration id params body generator isAsync =>
    exact gather_functionExpression region params body generator isAsync
      (Node.any_isIdentifier_eq_false h)
  case classDeclaration id superClass body =>
    have hclass := Node.any_isIdentifier_eq_false h
    rw [Node.asExpression, Survey.gather_eq _ region (.classExpression ..) (of_decide_eq_false rfl),
      Survey.gather_eq _ region (.classDeclaration ..) (of_decide_eq_false rfl),
      found_of_not_isIdentifier rfl, found_of_not_isIdentifier rfl]
    simp only [captured, Region.under, Node.bindsFor, hclass]
    rfl
  all_goals rfl

/-- Both the default values of a pattern and the initial value are looked into, in the region of the
declaration. -/
theorem gatherDeclarator_eq (region : Region) (id : Node) (init : Option Node) :
    (captured name).gatherDeclarator region (.variableDeclarator id init) =
      id.patternExpressions.flatMap ((captured name).gather region) ++
        init.toList.flatMap ((captured name).gather region) := rfl

/-- A pass for another name and to another parameter captures nothing and frees nothing: no
construct begins or ceases to bind the name by it. -/
theorem stable {pass : Pass} (hname : name ≠ pass.name) (hobject : name ≠ pass.access.object) :
    (captured name).Stable pass where
  seesThrough := plain.seesThrough _ fun _ => found_identifier_of_ne (Ne.symm hobject)
  reference region := by
    rw [Survey.gather_identifier, found_identifier_of_ne (Ne.symm hname)]
  function region _ params body generator isAsync hid :=
    gather_functionExpression region params body generator isAsync
      (pass.any_isIdentifier_of_isOwnName hname hid)
  found_eq region node _ := by simp only [captured, pass.isIdentifier_rewrite]
  below_eq region node child henters _ := congrArg some (henters.under_rewrite hname region child)
  declared_eq _ _ _ := rfl

end captured

/-! ## Where an access is placed -/

namespace placed

variable {param name : String}

/-- An access is placed only at a use of the name or at a function declaration of it. -/
theorem found_eq_nil {region : Region} {node : Node} (hidentifier : node.isIdentifier name = false)
    (hfunction : node.isFunctionDeclarationOf name = false) :
    (placed param name).found region node = [] := by
  simp [placed, hidentifier, hfunction]

theorem found_identifier_of_ne {region : Region} {other : String} (h : other ≠ name) :
    (placed param name).found region (.identifier other) = [] :=
  found_eq_nil (by simp [Node.isIdentifier, h]) rfl

theorem plain : (placed param name).Plain where
  found_eq region node hplain := by
    cases node <;> first | exact found_eq_nil rfl rfl | cases hplain
  below_eq region node child hplain := by cases node <;> first | rfl | cases hplain

/-- Where the pass goes on, this survey goes on, in the region for the parameter. -/
theorem below_of_hides_eq_false {region : Region} {node : Node} (child : Node)
    (h : node.hides name .visited = false) :
    (placed param name).below region node child = some (region.under param node child) := by
  simp only [placed, h, Bool.false_eq_true, if_false]

/-- Where the pass does not go on, only the node itself can be a place, for instance a function of
the name. -/
theorem gather_of_hides {region : Region} {node : Node} (h : node.hides name .visited = true)
    (hkind : node.kind ≠ .variableDeclaration) :
    (placed param name).gather region node = (placed param name).found region node := by
  have hbelow : ∀ child, (placed param name).below region node child = none := fun child => by
    simp only [placed, h, if_true]
  have hnone : node.children.flatMap ((placed param name).gatherIf none) = [] :=
    List.flatMap_eq_nil_iff.2 fun _ _ => rfl
  rw [Survey.gather_eq _ region node hkind]
  simp only [hbelow]
  exact (congrArg _ hnone).trans (List.append_nil _)

/-- Where the pass goes on, the places are at a node and below it, in the regions for the
parameter. -/
theorem gather_of_hides_eq_false {region : Region} {node : Node}
    (h : node.hides name .visited = false) (hkind : node.kind ≠ .variableDeclaration) :
    (placed param name).gather region node = (placed param name).found region node ++
      node.children.flatMap fun child =>
        (placed param name).gather (region.under param node child) child := by
  rw [Survey.gather_eq _ region node hkind]
  simp only [below_of_hides_eq_false _ h]
  rfl

/-- A function that is not of one of the names holds the same as a declaration and as an expression.
The name of the parameter matters for the regions and that of the pass for the places. -/
theorem gather_functionExpression {id : Option Node} (region : Region) (params : List Node)
    (body : Node) (generator isAsync : Bool) (hname : id.any (·.isIdentifier name) = false)
    (hparam : id.any (·.isIdentifier param) = false) :
    (placed param name).gather region (.functionExpression id params body generator isAsync) =
      (placed param name).gather region
        (.functionDeclaration id params body generator isAsync) := by
  have hfunction : (Node.functionDeclaration id params body generator
      isAsync).isFunctionDeclarationOf name = false := hname
  rw [Survey.gather_eq _ region (.functionExpression ..) (of_decide_eq_false rfl),
    Survey.gather_eq _ region (.functionDeclaration ..) (of_decide_eq_false rfl),
    found_eq_nil rfl rfl, found_eq_nil rfl hfunction]
  simp only [placed, occurrences.hides_functionExpression params body generator isAsync hname,
    Region.under, Node.bindsFor, hparam, Bool.false_or]
  rfl

/-- A declarator is surveyed at itself, and its initial value unless it declares the name. Patterns
are left out, since the pass puts nothing there. -/
theorem gatherDeclarator_eq (region : Region) (id : Node) (init : Option Node) :
    (placed param name).gatherDeclarator region (.variableDeclarator id init) =
      (placed param name).declared region id init ++
        if id.binds name then [] else init.toList.flatMap ((placed param name).gather region) := by
  have hpattern : id.patternExpressions.flatMap
      ((placed param name).gatherIf ((placed param name).pattern region id)) = [] :=
    List.flatMap_eq_nil_iff.2 fun _ _ => rfl
  rw [Survey.gatherDeclarator, hpattern, List.append_nil]
  by_cases hbinds : id.binds name = true
  · have hvalue : (placed param name).value region id = none := by simp [placed, hbinds]
    have hnone : init.toList.flatMap ((placed param name).gatherIf none) = [] :=
      List.flatMap_eq_nil_iff.2 fun _ _ => rfl
    rw [hvalue, hnone, if_pos hbinds]
  · have hvalue : (placed param name).value region id = some region := by simp [placed, hbinds]
    rw [hvalue, if_neg hbinds]
    rfl

/-- A pass for another name leaves the places for this one as they are, also if its accesses are to
the same parameter. -/
theorem stable {pass : Pass} (hname : name ≠ pass.name) (hobject : name ≠ pass.access.object)
    (hparam : param ≠ pass.name) : (placed param name).Stable pass where
  seesThrough := plain.seesThrough _ fun _ => found_identifier_of_ne (Ne.symm hobject)
  reference region := by
    rw [Survey.gather_identifier, found_identifier_of_ne (Ne.symm hname)]
  function region _ params body generator isAsync hid :=
    gather_functionExpression region params body generator isAsync
      (pass.any_isIdentifier_of_isOwnName hname hid) (pass.any_isIdentifier_of_isOwnName hparam hid)
  found_eq region node _ := by
    simp only [placed, pass.isIdentifier_rewrite, pass.isFunctionDeclarationOf_rewrite]
  below_eq region node child henters _ := by
    simp only [placed, occurrences.hides_rewrite hname hobject, henters.under_rewrite hparam]
  declared_eq region id init := by simp only [placed, pass.isSome_replaceValue]

/-- A declaration has no more places as an expression. It may have fewer, since a function
expression of the name hides all of its body from the pass. -/
theorem length_gather_asExpression_le {declaration : Node}
    (hparam : ∀ other, declarationName? declaration = some other → other ≠ param)
    (region : Region) :
    ((placed param name).gather region declaration.asExpression).length ≤
      ((placed param name).gather region declaration).length := by
  by_cases hhides : declaration.asExpression.hides name .visited = true
  · -- A function or class expression of the name hides all of it.
    cases declaration
    case functionDeclaration | classDeclaration =>
      rw [gather_of_hides hhides (of_decide_eq_false rfl), found_eq_nil rfl rfl]
      exact Nat.zero_le _
    all_goals exact Nat.le_refl _
  · cases declaration
    case functionDeclaration id params body generator isAsync =>
      have hname : id.any (·.isIdentifier name) = false := by
        rw [← Bool.not_eq_true]
        exact fun hown => hhides (by simp [Node.asExpression, Node.hides, Node.rebinds, hown])
      exact Nat.le_of_eq (congrArg List.length (gather_functionExpression region params body
        generator isAsync hname (Node.any_isIdentifier_eq_false hparam)))
    case classDeclaration id superClass body =>
      have hclass := Node.any_isIdentifier_eq_false hparam
      have hbefore : (Node.classDeclaration id superClass body).hides name .visited = false := rfl
      have hafter : (Node.classExpression id superClass body).hides name .visited = false :=
        Bool.eq_false_iff.2 hhides
      change ((placed param name).gather region (.classExpression id superClass body)).length ≤ _
      rw [gather_of_hides_eq_false hafter (of_decide_eq_false rfl),
        gather_of_hides_eq_false hbefore (of_decide_eq_false rfl), found_eq_nil rfl rfl,
        found_eq_nil rfl rfl]
      simp only [Region.under, Node.bindsFor, hclass]
      exact Nat.le_refl _
    all_goals exact Nat.le_refl _

/-! ### After the pass itself -/

variable {pass : Pass}

/-- After the pass for a name, no node that it has entered hides the name from a further one. So the
survey goes the same way before and after. -/
theorem hides_rewrite_self {node : Node} (h : pass.Enters node) :
    (pass.rewrite node).hides pass.name .visited = false := by
  have hbefore := changes.hides_of_enters h
  rw [Node.hides, Bool.or_eq_false_iff] at hbefore
  rw [Node.hides, pass.rebinds_rewrite_self h, pass.isFunctionDeclarationOf_rewrite, hbefore.2]
  rfl

/-- Whether a node that is entered is a place depends on its head only, which the pass does not
touch. -/
theorem found_rewrite (region : Region) (node : Node) :
    (placed param name).found region (pass.rewrite node) =
      (placed param name).found region node := by
  simp only [placed, pass.isIdentifier_rewrite, pass.isFunctionDeclarationOf_rewrite]

/-- Where the pass enters, there are no places at the node itself: a use or a function of the name
would have been replaced. -/
theorem found_entered {region : Region} {node : Node} (h : pass.Enters node) :
    (placed param pass.name).found region node = [] := by
  have hkept := h.unreplaced
  cases node
  case identifier other =>
    by_cases hother : other = pass.name
    · simp [Pass.replacement?, hother] at hkept
    · exact found_identifier_of_ne hother
  case functionDeclaration id params body generator isAsync =>
    exact found_eq_nil rfl (pass.isOwnName_eq_false hkept)
  all_goals exact found_eq_nil rfl rfl

/-- What the pass does not come to has no places, at the node and below it. -/
theorem gather_shadowed {region : Region} {node : Node} (hreplaced : pass.replacement? node = none)
    (hshadowed : pass.isShadowedBy node = true) :
    (placed param pass.name).gather region node = [] := by
  have hfound : (placed param pass.name).found region node = [] := by
    cases node
    case identifier => cases hshadowed
    case functionDeclaration => exact found_eq_nil rfl (pass.isOwnName_eq_false hreplaced)
    all_goals exact found_eq_nil rfl rfl
  have hkind := pass.kind_ne_of_shadowed hshadowed
  rw [pass.isShadowedBy_eq, Bool.or_eq_true] at hshadowed
  rcases hshadowed with hrebinds | himport
  · have hhides : node.hides pass.name .visited = true := by
      rw [Node.hides, hrebinds, Bool.true_or]
    rw [gather_of_hides hhides hkind, hfound]
  · cases node
    case importDeclaration =>
      rw [Survey.gather_eq _ region _ hkind, hfound]
      rfl
    all_goals simp [Node.kind, Node.record] at himport

/-- A declarator has no more places after the pass than before. That of the declarator itself stays,
as the pass does not take the initial value away. -/
theorem length_replaceDeclarator_le {region : Region} (id : Node) (init : Option Node)
    (ih : ∀ value ∈ init, ((placed param pass.name).gather region (pass.replace value)).length ≤
      ((placed param pass.name).gather region value).length) :
    ((placed param pass.name).gatherDeclarator region
        (pass.replaceDeclarator (.variableDeclarator id init))).length ≤
      ((placed param pass.name).gatherDeclarator region (.variableDeclarator id init)).length := by
  have hdeclared : (placed param pass.name).declared region id (pass.replaceValue id init) =
      (placed param pass.name).declared region id init := by
    simp only [placed, pass.isSome_replaceValue]
  rw [Pass.replaceDeclarator, gatherDeclarator_eq, gatherDeclarator_eq, hdeclared,
    List.length_append, List.length_append]
  refine Nat.add_le_add_left ?_ _
  by_cases hbinds : id.binds pass.name = true
  · simp only [if_pos hbinds, Nat.le_refl]
  · have hself : ¬id.isIdentifier pass.name = true := fun h =>
      hbinds (Node.binds_of_isIdentifier h)
    rw [if_neg hbinds, if_neg hbinds, Pass.replaceValue, if_neg hself, if_neg hbinds]
    cases init with
    | none => exact Nat.le_refl _
    | some value => simpa using ih value rfl

/-- **After the pass for a name there are no more places for it.** Those at uses and functions are
gone, and those at declarators stay. -/
theorem length_gather_replace_self_le (hobject : pass.access.object ≠ pass.name)
    (hparam : param ≠ pass.name) (node : Node) :
    ∀ region, ((placed param pass.name).gather region (pass.replace node)).length ≤
      ((placed param pass.name).gather region node).length := by
  have hsees : ∀ access : Access, access.object ≠ pass.name →
      (placed param pass.name).SeesThrough access := fun access h =>
    plain.seesThrough access fun _ => found_identifier_of_ne h
  induction node using pass.replace_induction with
  | reference =>
    intro region
    rw [(hsees _ hobject).access_eq]
    exact Nat.zero_le _
  | function id params body generator isAsync hid =>
    intro region
    have hown : id.any (·.isIdentifier pass.name) = true := hid
    have hhides : (Node.functionExpression id params body generator isAsync).hides pass.name
        .visited = true := by
      simp [Node.hides, Node.rebinds, hown]
    -- As an expression the function has its own name inside, which hides that of the pass.
    rw [(hsees _ hobject).gather_assignmentStatement,
      gather_of_hides hhides (of_decide_eq_false rfl), found_eq_nil rfl rfl]
    exact Nat.zero_le _
  | shadowed node hreplaced hshadowed => exact fun _ => Nat.le_refl _
  | declaration declarations kind ih =>
    intro region
    rw [Survey.gather_variableDeclaration, Survey.gather_variableDeclaration, List.flatMap_map]
    refine length_flatMap_le fun declarator hmem => ?_
    cases declarator
    case variableDeclarator id init =>
      refine length_replaceDeclarator_le id init fun value hvalue => ?_
      rw [Option.mem_def.1 hvalue] at hmem
      exact ih id value hmem region
    all_goals exact Nat.le_refl _
  | entered node henters ih =>
    intro region
    rw [gather_of_hides_eq_false (hides_rewrite_self henters) henters.rewrite_undeclared,
      gather_of_hides_eq_false (changes.hides_of_enters henters) henters.undeclared, found_rewrite,
      found_entered henters, pass.children_rewrite, List.flatMap_map, List.nil_append,
      List.nil_append]
    refine length_flatMap_le fun child hchild => ?_
    rw [henters.under_rewrite hparam]
    exact ih child hchild _

/-- **A pass makes no places for another one or for itself.** So the places in the text bound those
of every pass, at whatever time it comes. -/
theorem length_gather_replace_le (hobject : pass.access.object ≠ name) (hparam : param ≠ pass.name)
    (region : Region) (node : Node) :
    ((placed param name).gather region (pass.replace node)).length ≤
      ((placed param name).gather region node).length := by
  by_cases hname : name = pass.name
  · subst hname
    exact length_gather_replace_self_le hobject hparam node region
  · have hsame := (stable hname (Ne.symm hobject) hparam).gather_replace region node
    exact Nat.le_of_eq (congrArg List.length hsame)

end placed

/-! ## What a pass captures -/

namespace captured

variable {param : String} {pass : Pass}

/-- At a name itself the pass captures what it puts in: the parameter stands where the name stood,
in the same region. -/
theorem found_object (hobject : pass.access.object = param) (region : Region) :
    (captured param).found region (.identifier pass.access.object) =
      (placed param pass.name).found region (.identifier pass.name) := by
  simp [captured, placed, Node.isIdentifier, hobject]

/-- A declarator captures one access more for each place in it. The access of an assigned value is
the one that the declarator itself counts. -/
theorem length_replaceDeclarator (hobject : pass.access.object = param) {region : Region}
    (id : Node) (init : Option Node)
    (ih : ∀ value ∈ init, ((captured param).gather region (pass.replace value)).length =
      ((captured param).gather region value).length +
        ((placed param pass.name).gather region value).length) :
    ((captured param).gatherDeclarator region
        (pass.replaceDeclarator (.variableDeclarator id init))).length =
      ((captured param).gatherDeclarator region (.variableDeclarator id init)).length +
        ((placed param pass.name).gatherDeclarator region
          (.variableDeclarator id init)).length := by
  rw [Pass.replaceDeclarator, gatherDeclarator_eq, gatherDeclarator_eq, placed.gatherDeclarator_eq,
    List.length_append, List.length_append, List.length_append, Nat.add_assoc]
  refine congrArg _ ?_
  unfold Pass.replaceValue
  by_cases hself : id.isIdentifier pass.name = true
  · rw [if_pos hself, if_pos (Node.binds_of_isIdentifier hself)]
    cases init with
    | none => simp [placed]
    | some value =>
      -- The assignment that is put before the value is what the declarator counts.
      have hassigned : (captured param).gather region (.assignment pass.access.node value) =
          (placed param pass.name).declared region id (some value) ++
            (captured param).gather region value := by
        have hname : (Node.identifier pass.name).isIdentifier pass.name = true :=
          Node.isIdentifier_iff.2 rfl
        rw [plain.gather_assignment, found_object hobject]
        simp [placed, hself, hname]
      simp [hassigned, Nat.add_comm]
  · have hdeclared : (placed param pass.name).declared region id init = [] := by
      simp [placed, hself]
    rw [if_neg hself, hdeclared]
    by_cases hbinds : id.binds pass.name = true
    · simp [hbinds]
    · cases init with
      | none => simp [hbinds]
      | some value => simpa [hbinds] using ih value rfl

/-- **A pass captures one access for each place that it has.** By the cases of the pass: each place
is a node where the access is put, and the region of the place is that of the access. -/
theorem length_gather_replace_of_object (hobject : pass.access.object = param)
    (hparam : param ≠ pass.name) (node : Node) :
    ∀ region, ((captured param).gather region (pass.replace node)).length =
      ((captured param).gather region node).length +
        ((placed param pass.name).gather region node).length := by
  induction node using pass.replace_induction with
  | reference =>
    intro region
    rw [plain.gather_access, Survey.gather_identifier, Survey.gather_identifier,
      found_identifier_of_ne (Ne.symm hparam), found_object hobject, List.length_nil, Nat.zero_add]
  | function id params body generator isAsync hid =>
    intro region
    have hown : id.any (·.isIdentifier pass.name) = true := hid
    have hhides : (Node.functionDeclaration id params body generator isAsync).hides pass.name
        .visited = true := by
      simp [Node.hides, Node.isFunctionDeclarationOf, hown]
    have hplace : (placed param pass.name).found region
        (.functionDeclaration id params body generator isAsync) =
          (placed param pass.name).found region (.identifier pass.name) := by
      have hname : (Node.identifier pass.name).isIdentifier pass.name = true :=
        Node.isIdentifier_iff.2 rfl
      have hfunction : (Node.functionDeclaration id params body generator
          isAsync).isFunctionDeclarationOf pass.name = true := hown
      simp only [placed, hname, hfunction, Bool.or_true, Bool.true_or]
    -- The declaration is one place, where the access is assigned to. What is inside it stays.
    rw [plain.gather_assignmentStatement, found_object hobject,
      placed.gather_of_hides hhides (of_decide_eq_false rfl),
      gather_functionExpression _ _ _ _ _ (pass.any_isIdentifier_of_isOwnName hparam hid), hplace,
      List.length_append, Nat.add_comm]
  | shadowed node hreplaced hshadowed =>
    intro region
    rw [placed.gather_shadowed hreplaced hshadowed, List.length_nil, Nat.add_zero]
  | declaration declarations kind ih =>
    intro region
    rw [Survey.gather_variableDeclaration, Survey.gather_variableDeclaration,
      Survey.gather_variableDeclaration, List.flatMap_map]
    refine length_flatMap_eq_add fun declarator hmem => ?_
    cases declarator
    case variableDeclarator id init =>
      refine length_replaceDeclarator hobject id init fun value hvalue => ?_
      rw [Option.mem_def.1 hvalue] at hmem
      exact ih id value hmem region
    all_goals rfl
  | entered node henters ih =>
    intro region
    have hfound : (captured param).found region (pass.rewrite node) =
        (captured param).found region node := by
      simp only [captured, pass.isIdentifier_rewrite]
    rw [Survey.gather_eq _ _ _ henters.rewrite_undeclared,
      Survey.gather_eq _ _ _ henters.undeclared,
      placed.gather_of_hides_eq_false (changes.hides_of_enters henters) henters.undeclared,
      placed.found_entered henters, hfound, pass.children_rewrite, List.flatMap_map,
      List.nil_append, List.length_append, List.length_append, Nat.add_assoc]
    refine congrArg _ (length_flatMap_eq_add fun child hchild => ?_)
    change ((captured param).gather (region.under param _ _) _).length =
      ((captured param).gather (region.under param node child) child).length + _
    -- The pass is for another name than the parameter, so the construct binds the parameter as
    -- before.
    rw [henters.under_rewrite hparam]
    exact ih child hchild _

theorem gather_replace_of_ne (hobject : pass.access.object ≠ param) (hparam : param ≠ pass.name)
    (region : Region) (node : Node) :
    (captured param).gather region (pass.replace node) = (captured param).gather region node :=
  (stable hparam (Ne.symm hobject)).gather_replace region node

end captured

end DefineWrap
