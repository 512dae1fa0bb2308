/-
Blocks, loops and switches that declare an imported name again.

In such a construct the name is a variable of its own, and so the uses in it and the
declaration itself should stay as they are. `mentions` is the survey of what there is of a
name in these constructs: its uses and its declarations, each declarator with the number
of assignments that its initial value begins with.

The scopes of a pass are flat, and a construct outside all functions is no scope for it.
So the pass for an imported name goes on into such a construct, and what it changes there
is what the survey `changes` finds. A change takes a mention away or puts an assignment
before an initial value. Therefore what there is of the name in the constructs stays as it
is exactly if the pass finds nothing to change in them (`Program.wrap_mentions`).
-/
import DefineWrap.Proofs.Wrap.Imported
import DefineWrap.Proofs.Wrap.Occurrences

set_option autoImplicit false

namespace DefineWrap

/-! ## Constructs that declare a name again -/

namespace Node

/-- The names that a statement declares for the block it stands in, if it is a `let`, a
`const`, a class or a function. -/
def lexicalNames : Node → List String
  | .variableDeclaration declarations kind =>
    if kind = .var then [] else declarations.flatMap declaratorNames
  | .functionDeclaration id _ _ _ _ => (ownName? id).toList
  | .classDeclaration id _ _ => (ownName? id).toList
  | _ => []

/-- The statements of a case of a switch. Declarations in one case hold for all cases, so these are
not nodes of a scope of their own. -/
def caseStatements : Node → List Node
  | .switchCase _ consequent => consequent
  | _ => []

/-- The statements whose declarations hold for a whole construct: those of a block, those
of all cases of a switch, or the head of a loop. -/
def scopeStatements : Node → List Node
  | .blockStatement body => body
  | .switchStatement _ cases => cases.flatMap caseStatements
  | .forStatement init _ _ _ => init.toList
  | .forInStatement left _ _ => [left]
  | .forOfStatement left _ _ _ => [left]
  | _ => []

/-- A statement that declares for a construct is a child of it, or stands in a case of it. The two
cases are exclusive, and a proof about children goes two levels down only for a switch. -/
theorem mem_scopeStatements {node statement : Node} (h : statement ∈ node.scopeStatements) :
    (statement ∈ node.children ∧ node.kind ≠ .switchStatement) ∨
      ∃ branch ∈ node.children, branch.kind = .switchCase ∧ statement ∈ branch.caseStatements := by
  cases node
  case blockStatement body =>
    exact .inl ⟨by simpa [children, places, scopeStatements] using h, of_decide_eq_false rfl⟩
  case switchStatement discriminant cases =>
    obtain ⟨branch, hbranch, hmem⟩ := List.mem_flatMap.1 h
    refine .inr ⟨branch, by simp [children, places, hbranch], ?_, hmem⟩
    cases branch <;> first | rfl | cases hmem
  case forStatement init test update body =>
    refine .inl ⟨?_, of_decide_eq_false rfl⟩
    have hinit : init = some statement := by simpa [scopeStatements] using h
    simp [children, places, hinit]
  case forInStatement left right body =>
    exact .inl ⟨by simp [children, places, List.mem_singleton.1 h], of_decide_eq_false rfl⟩
  case forOfStatement left right body isAwait =>
    exact .inl ⟨by simp [children, places, List.mem_singleton.1 h], of_decide_eq_false rfl⟩
  all_goals cases h

/-- Whether a construct declares a name again, by one of the statements whose declarations hold for
all of it. -/
def redeclares (name : String) (node : Node) : Bool :=
  node.scopeStatements.any (name ∈ ·.lexicalNames)

/-- Whether a child of a construct is in the scope of its declarations. What is switched on is not,
as it is evaluated outside. -/
def encloses (name : String) (node child : Node) : Bool :=
  node.redeclares name && (node.kind ≠ .switchStatement || child.kind = .switchCase)

/-- The number of assignments that an expression begins with. A pass that assigns an initial value
adds one, so two results can be told apart by it. -/
def leadingAssignments : Node → Nat
  | .assignmentExpression _ _ right => right.leadingAssignments + 1
  | _ => 0

end Node

/-- Whether a survey is inside a construct that declares the name again. There is no way back out,
since what stands in such a construct stays in its scope. -/
inductive Region where
  | outside
  | inside
  deriving DecidableEq, Repr

namespace Region

/-- The region of a child of a node: inside from the first construct on that declares the name. -/
def below (region : Region) (name : String) (node child : Node) : Region :=
  if node.encloses name child then .inside else region

end Region

/-- What there can be of a name: a use, or a declaration of one of three kinds. Declarators carry a
number, which tells whether an assignment has been put before their value. -/
inductive Mention where
  | reference
  /-- A declarator that declares the name. -/
  | declarator (assignments : Nat)
  | functionName
  | className
  deriving DecidableEq, Repr

/-- The mention of a name that a node is by itself. Declarators are not among these, since a survey
treats them apart from all other nodes. -/
def Mention.ofNode (name : String) : Node → List Mention
  | .identifier other => if other = name then [.reference] else []
  | .functionDeclaration id _ _ _ _ => if id.any (·.isIdentifier name) then [.functionName] else []
  | .classDeclaration id _ _ => if id.any (·.isIdentifier name) then [.className] else []
  | _ => []

/-- What there is of a name in the constructs that declare it again, patterns included. It does not
know of passes, so that it says what there is before as well as after one. -/
def mentions (name : String) : Survey Region Mention where
  found region node := if region = .inside then Mention.ofNode name node else []
  below region node child := some (region.below name node child)
  declared region id init :=
    if region = .inside && id.binds name then
      [.declarator (init.elim 0 Node.leadingAssignments)]
    else []
  pattern region _ := some region
  value region _ := some region

/-- How the pass for a name can change a mention of it: the two ways are what it does to a use or a
function and what it does to a declarator. -/
inductive Change where
  /-- A use or a function declaration is taken away. -/
  | removed
  /-- An assignment is put before the initial value of a declarator. -/
  | assigned
  deriving DecidableEq, Repr

/-- What the pass for a name changes in the constructs that declare it again. It goes only where the
pass goes, and so stops at scopes of functions and at patterns. -/
def changes (name : String) : Survey Region Change where
  found region node :=
    match node with
    | .identifier other => if region = .inside && other = name then [.removed] else []
    | .functionDeclaration id _ _ _ _ =>
      if region = .inside && id.any (·.isIdentifier name) then [.removed] else []
    | _ => []
  below region node child :=
    if node.hides name .visited then none else some (region.below name node child)
  declared region id init :=
    if region = .inside && id.isIdentifier name && init.isSome then [.assigned] else []
  pattern _ _ := none
  value region id := if id.binds name then none else some region

/-! ## What a pass does to the constructs -/

namespace Pass

variable (pass : Pass)

/-- A pass gives a block no new declarations, since it turns nothing into a declaration. -/
theorem lexicalNames_replace_subset (node : Node) :
    (pass.replace node).lexicalNames ⊆ node.lexicalNames := by
  induction node using pass.replace_induction with
  | reference =>
    have hnone : pass.access.node.lexicalNames = [] := by
      rcases kind_access pass.access with h | h <;>
        cases hnode : pass.access.node <;> first | rfl | (rw [hnode] at h; cases h)
    rw [hnone]
    exact fun _ hmem => by cases hmem
  | function id params body generator isAsync hid => exact fun _ hmem => by cases hmem
  | shadowed node hreplaced hshadowed => exact fun _ hmem => hmem
  | declaration declarations kind ih =>
    simp only [Node.lexicalNames, List.flatMap_map, declaratorNames_replaceDeclarator]
    exact fun _ hmem => hmem
  | entered node henters ih =>
    have hsame : (pass.rewrite node).lexicalNames = node.lexicalNames := by
      cases node <;> first | rfl | exact absurd rfl henters.undeclared
    rw [hsame]
    exact fun _ hmem => hmem

/-- It takes a name away only where a function declares the name of the pass, because that function
becomes an assignment. -/
theorem mem_lexicalNames_replace {name : String} {node : Node} (h : name ∈ node.lexicalNames)
    (hfunction : node.isFunctionDeclarationOf pass.name = false) :
    name ∈ (pass.replace node).lexicalNames := by
  induction node using pass.replace_induction with
  | reference => cases h
  | function id params body generator isAsync hid =>
    exact absurd (show id.any (·.isIdentifier pass.name) = true from hid)
      (Bool.eq_false_iff.1 hfunction)
  | shadowed node hreplaced hshadowed => exact h
  | declaration declarations kind ih =>
    simpa only [Node.lexicalNames, List.flatMap_map, declaratorNames_replaceDeclarator] using h
  | entered node henters ih =>
    have hsame : (pass.rewrite node).lexicalNames = node.lexicalNames := by
      cases node <;> first | rfl | exact absurd rfl henters.undeclared
    rwa [hsame]

/-- The statements of a case go through the pass one by one, as a case is entered like any other
node. -/
theorem caseStatements_replace (node : Node) :
    (pass.replace node).caseStatements = node.caseStatements.map pass.replace := by
  induction node using pass.replace_induction with
  | reference =>
    rcases kind_access pass.access with h | h <;>
      cases hnode : pass.access.node <;> first | rfl | (rw [hnode] at h; cases h)
  | function id params body generator isAsync hid => rfl
  | shadowed node hreplaced hshadowed =>
    have hnone : node.caseStatements = [] := by
      cases node <;> first | rfl | cases hshadowed
    rw [hnone, List.map_nil]
  | declaration declarations kind ih => rfl
  | entered node henters ih =>
    cases node
    case switchCase test consequent =>
      simp [rewrite_eq_mapped, spellOut, Node.places, Node.caseStatements]
    all_goals rfl

/-- The statements that declare for a construct go through the pass one by one, and none is added or
lost. -/
theorem scopeStatements_rewrite (node : Node) :
    (pass.rewrite node).scopeStatements = node.scopeStatements.map pass.replace := by
  cases node
  case blockStatement body =>
    simp [rewrite_eq_mapped, spellOut, Node.places, Node.scopeStatements]
  case switchStatement discriminant cases =>
    simp only [rewrite_eq_mapped, spellOut, Node.places, Places.mapped_seq, Places.mapped_map,
      Places.mapped_one, Places.mapped_many, Node.scopeStatements, List.flatMap_map,
      List.map_flatMap]
    exact List.flatMap_congr fun node _ => pass.caseStatements_replace node
  case forStatement init test update body =>
    cases init <;> simp [rewrite_eq_mapped, spellOut, Node.places, Node.scopeStatements]
  all_goals rfl

/-- A pass makes no construct declare a name again. It can make one cease to, and this is the case
that the next lemma is about. -/
theorem redeclares_of_rewrite {name : String} {node : Node}
    (h : (pass.rewrite node).redeclares name = true) : node.redeclares name = true := by
  rw [Node.redeclares, scopeStatements_rewrite, List.any_map] at h
  obtain ⟨statement, hmem, hname⟩ := List.any_eq_true.1 h
  refine List.any_eq_true.2 ⟨statement, hmem, decide_eq_true ?_⟩
  exact pass.lexicalNames_replace_subset statement (of_decide_eq_true hname)

/-- A construct goes on declaring a name again, unless it was by a function of the name of the
pass. -/
theorem redeclares_rewrite {name : String} {node : Node} (h : node.redeclares name = true)
    (hfunctions : ∀ statement ∈ node.scopeStatements, name ∈ statement.lexicalNames →
      statement.isFunctionDeclarationOf pass.name = false) :
    (pass.rewrite node).redeclares name = true := by
  obtain ⟨statement, hmem, hname⟩ := List.any_eq_true.1 h
  have hdeclared := of_decide_eq_true hname
  rw [Node.redeclares, scopeStatements_rewrite, List.any_map]
  refine List.any_eq_true.2 ⟨statement, hmem, decide_eq_true ?_⟩
  exact pass.mem_lexicalNames_replace hdeclared (hfunctions statement hmem hdeclared)

/-- A name is declared as before, if it is not that of the pass: the function that is lost declares
the name of the pass alone. -/
theorem mem_lexicalNames_replace_iff {name : String} (hname : name ≠ pass.name) (node : Node) :
    name ∈ (pass.replace node).lexicalNames ↔ name ∈ node.lexicalNames := by
  refine ⟨fun h => pass.lexicalNames_replace_subset node h, fun h => ?_⟩
  refine pass.mem_lexicalNames_replace h (Bool.eq_false_iff.2 fun hfunction => ?_)
  cases node
  case functionDeclaration id params body generator isAsync =>
    cases id with
    | none => cases hfunction
    | some id =>
      have hid : id = .identifier pass.name :=
        Node.isIdentifier_iff.1 (by simpa [Node.isFunctionDeclarationOf] using hfunction)
      rw [hid] at h
      exact hname (List.mem_singleton.1 h)
  all_goals cases hfunction

/-- For another name nothing changes, so the regions for that name are the same before and after. -/
theorem redeclares_rewrite_eq {name : String} (hname : name ≠ pass.name) (node : Node) :
    (pass.rewrite node).redeclares name = node.redeclares name := by
  rw [Node.redeclares, Node.redeclares, scopeStatements_rewrite, List.any_map]
  exact congrArg _ (funext fun statement =>
    decide_eq_decide.2 (pass.mem_lexicalNames_replace_iff hname statement))

/-- A case stays a case, and nothing becomes one. The scope of a switch is decided by it. -/
theorem kind_replace_switchCase (node : Node) :
    ((pass.replace node).kind = .switchCase : Bool) = (node.kind = .switchCase : Bool) := by
  by_cases h : node.kind = .switchCase
  · cases node
    case switchCase test consequent =>
      have henters : pass.Enters (.switchCase test consequent) := ⟨rfl, of_decide_eq_false rfl, rfl⟩
      rw [pass.replace_of_enters henters, pass.kind_rewrite]
    all_goals cases h
  · rw [decide_eq_false h, decide_eq_false (pass.kind_replace_ne h (by decide))]

/-- The region of a child depends on what its node declares only. So it is enough to compare the
declarations of the node before and after. -/
theorem below_rewrite {name : String} {node : Node}
    (h : (pass.rewrite node).redeclares name = node.redeclares name) (region : Region)
    (child : Node) :
    region.below name (pass.rewrite node) (pass.replace child) = region.below name node child := by
  rw [Region.below, Region.below, Node.encloses, Node.encloses, h, pass.kind_rewrite,
    kind_replace_switchCase]

/-- No child comes into the scope of a declaration by a pass, which is why a pass can only lose
mentions. -/
theorem encloses_of_rewrite {name : String} {node child : Node}
    (h : (pass.rewrite node).encloses name (pass.replace child) = true) :
    node.encloses name child = true := by
  rw [Node.encloses, kind_rewrite, kind_replace_switchCase, Bool.and_eq_true] at h
  rw [Node.encloses, Bool.and_eq_true]
  exact ⟨pass.redeclares_of_rewrite h.1, h.2⟩

/-- The initial value that a declarator begins with is as deep in assignments as before,
unless the pass puts one in front. -/
theorem leadingAssignments_replace (node : Node) :
    (pass.replace node).leadingAssignments = node.leadingAssignments := by
  induction node using pass.replace_induction with
  | reference =>
    rcases kind_access pass.access with h | h <;>
      cases hnode : pass.access.node <;> first | rfl | (rw [hnode] at h; cases h)
  | function id params body generator isAsync hid => rfl
  | shadowed node hreplaced hshadowed => rfl
  | declaration declarations kind ih => rfl
  | entered node henters ih =>
    cases node
    case assignmentExpression operator left right =>
      have hright := ih right (by simp [Node.children, Node.places])
      exact congrArg (· + 1) hright
    all_goals rfl

end Pass

/-! ## Passes for other names -/

theorem Node.redeclares_of_scopeStatements {name : String} {node : Node}
    (h : node.scopeStatements = []) : node.redeclares name = false := by
  rw [redeclares, h]
  rfl

/-- Such a node hands its region on to its children. Most forms are of this kind, among them all
that accesses and assignments consist of. -/
theorem Region.below_of_scopeStatements {name : String} {node : Node}
    (h : node.scopeStatements = []) (region : Region) (child : Node) :
    region.below name node child = region := by
  rw [below, Node.encloses, Node.redeclares_of_scopeStatements h]
  rfl

namespace mentions

variable {name : String}

/-- Where a node mentions the name in no way, nothing is found, inside and outside. -/
theorem found_of_ofNode {region : Region} {node : Node} (h : Mention.ofNode name node = []) :
    (mentions name).found region node = [] := by
  simp [mentions, h]

/-- A node that declares nothing for a construct hands its region on to its children, and what is
found are their mentions. -/
theorem gather_below (region : Region) (node : Node) (hkind : node.kind ≠ .variableDeclaration)
    (hnode : Mention.ofNode name node = []) (hscope : node.scopeStatements = []) :
    (mentions name).gather region node = node.children.flatMap ((mentions name).gather region) := by
  rw [Survey.gather_eq _ region node hkind, found_of_ofNode hnode, List.nil_append]
  refine List.flatMap_congr fun child _ => ?_
  change (mentions name).gather (region.below name node child) child = _
  rw [Region.below_of_scopeStatements hscope]

theorem gather_identifier_of_ne {region : Region} {other : String} (h : other ≠ name) :
    (mentions name).gather region (.identifier other) = [] := by
  rw [gather_below region (.identifier other) (of_decide_eq_false rfl)
    (by simp [Mention.ofNode, h]) rfl]
  rfl

/-- An assignment to an access of another object mentions what its value mentions. It is no
construct that could declare the name. -/
theorem seesThrough {access : Access} (h : access.object ≠ name) :
    (mentions name).SeesThrough access where
  access_eq := Survey.gather_access (fun _ _ _ _ => found_of_ofNode rfl)
    (fun _ => found_of_ofNode (by simp [Mention.ofNode, h])) (fun _ _ _ => found_of_ofNode rfl)
  assignment_eq _ _ := found_of_ofNode rfl
  value_eq region value := by
    change some (region.below name _ value) = some region
    rw [Region.below_of_scopeStatements rfl]
  statement_eq _ _ := found_of_ofNode rfl
  expression_eq region value := by
    change some (region.below name _ _) = some region
    rw [Region.below_of_scopeStatements rfl]

/-- A function that is not of the name holds the same as a declaration and as an expression. Outside
the constructs this holds of every function, as nothing is counted there. -/
theorem gather_functionExpression {id : Option Node} (region : Region) (params : List Node)
    (body : Node) (generator isAsync : Bool)
    (h : region = .outside ∨ id.any (·.isIdentifier name) = false) :
    (mentions name).gather region (.functionExpression id params body generator isAsync) =
      (mentions name).gather region (.functionDeclaration id params body generator isAsync) := by
  have hfound : (mentions name).found region
      (.functionDeclaration id params body generator isAsync) = [] := by
    rcases h with rfl | h
    · rfl
    · exact found_of_ofNode (by simp [Mention.ofNode, h])
  rw [gather_below region (.functionExpression ..) (of_decide_eq_false rfl) rfl rfl,
    Survey.gather_eq _ region (.functionDeclaration ..) (of_decide_eq_false rfl), hfound,
    List.nil_append]
  refine List.flatMap_congr fun child _ => ?_
  change _ = (mentions name).gather (region.below name _ child) child
  rw [Region.below_of_scopeStatements rfl]

/-- A declarator keeps its mention under a pass for another name. If the pass assigns the value, the
declarator is of the name of the pass and so not counted; if it does not, the value begins with as
many assignments as before. -/
theorem declared_replaceValue {pass : Pass} (hname : name ≠ pass.name) (region : Region)
    (id : Node) (init : Option Node) :
    (mentions name).declared region id (pass.replaceValue id init) =
      (mentions name).declared region id init := by
  by_cases hself : id.isIdentifier pass.name = true
  · have hbinds : id.binds name = false := by
      rw [Node.isIdentifier_iff.1 hself]
      simpa [Node.binds] using hname
    simp [mentions, hbinds]
  · unfold Pass.replaceValue
    rw [if_neg hself]
    split
    · rfl
    · cases init with
      | none => rfl
      | some value => simp [mentions, pass.leadingAssignments_replace]

/-- A pass for another name changes nothing that there is of the name in the constructs. -/
theorem stable {pass : Pass} (hname : name ≠ pass.name) (hobject : name ≠ pass.access.object) :
    (mentions name).Stable pass where
  seesThrough := seesThrough (Ne.symm hobject)
  reference _ := gather_identifier_of_ne (Ne.symm hname)
  function region _ params body generator isAsync hid :=
    gather_functionExpression region params body generator isAsync
      (.inr (pass.any_isIdentifier_of_isOwnName hname hid))
  found_eq region node _ := by
    have hsame : Mention.ofNode name (pass.rewrite node) = Mention.ofNode name node := by
      cases node <;> rfl
    simp only [mentions, hsame]
  below_eq region node child _ _ :=
    congrArg some (pass.below_rewrite (pass.redeclares_rewrite_eq hname node) region child)
  declared_eq := declared_replaceValue hname

end mentions

namespace changes

variable {name : String}

/-- Where the pass goes on, the survey of its changes goes on as well, in the region for the
name. -/
theorem below_of_hides_eq_false {region : Region} {node : Node} (child : Node)
    (h : node.hides name .visited = false) :
    (changes name).below region node child = some (region.below name node child) := by
  simp only [changes, h, Bool.false_eq_true, if_false]

/-- For the survey of changes, too, an assignment to an access of another object is its value. -/
theorem seesThrough {access : Access} (h : access.object ≠ name) :
    (changes name).SeesThrough access where
  access_eq := Survey.gather_access (fun _ _ _ _ => rfl) (fun _ => by simp [changes, h])
    (fun _ _ _ => rfl)
  assignment_eq _ _ := rfl
  value_eq region value := by
    rw [below_of_hides_eq_false value rfl, Region.below_of_scopeStatements rfl]
  statement_eq _ _ := rfl
  expression_eq region value := by
    rw [below_of_hides_eq_false _ rfl, Region.below_of_scopeStatements rfl]

/-- A pass for another name changes nothing about what the pass for this one changes. So the order
of the two passes does not matter for the count of the changes. -/
theorem stable {pass : Pass} (hname : name ≠ pass.name) (hobject : name ≠ pass.access.object) :
    (changes name).Stable pass where
  seesThrough := seesThrough (Ne.symm hobject)
  reference region := by
    rw [Survey.gather_eq _ region (.identifier pass.name) (of_decide_eq_false rfl)]
    simp [changes, Ne.symm hname, Node.children, Node.places]
  function region id params body generator isAsync hid := by
    have hother := pass.any_isIdentifier_of_isOwnName hname hid
    rw [Survey.gather_eq _ region (.functionExpression ..) (of_decide_eq_false rfl),
      Survey.gather_eq _ region (.functionDeclaration ..) (of_decide_eq_false rfl)]
    have hfound : (changes name).found region
        (.functionDeclaration id params body generator isAsync) = [] := by
      simp [changes, hother]
    rw [hfound]
    refine congrArg ([] ++ ·) (List.flatMap_congr fun child _ => ?_)
    simp only [changes, occurrences.hides_functionExpression params body generator isAsync hother,
      Region.below_of_scopeStatements (show (Node.functionExpression id params body generator
        isAsync).scopeStatements = [] from rfl),
      Region.below_of_scopeStatements (show (Node.functionDeclaration id params body generator
        isAsync).scopeStatements = [] from rfl)]
  found_eq region node _ := by cases node <;> rfl
  below_eq region node child _ _ := by
    simp only [changes, occurrences.hides_rewrite hname hobject,
      pass.below_rewrite (pass.redeclares_rewrite_eq hname node)]
  declared_eq region id init := by simp only [changes, pass.isSome_replaceValue]

end changes

end DefineWrap
