/-
What the pass for a name changes where the name is declared again.

`changes` finds what the pass comes to in the constructs that declare the name again, and
`mentions` what there is of the name there. Every use and every function that the pass
takes away is a mention less, and no mention is added (`mentions.length_replace_le`). If
none is taken away, the mentions stay the same one by one, except that a declarator has one
leading assignment more where the pass puts it (`mentions.raised_replace`). So the mentions
are the same as before exactly if there are no changes.
-/
import DefineWrap.Proofs.Wrap.Redeclaration

set_option autoImplicit false

namespace DefineWrap

/-! ## Lists of mentions -/

/-- The changes that take a mention away. Only these can make the mentions fewer, whereas the others
make a declarator longer. -/
abbrev removals (found : List Change) : Nat := found.count .removed

/-- Lists that are bounded part by part are bounded as a whole, with the changes of all parts
counted together. -/
theorem length_add_removals_flatMap_le {β : Type} {items : List β} {after before : β → List Mention}
    {found : β → List Change}
    (h : ∀ item ∈ items,
      (after item).length + removals (found item) ≤ (before item).length) :
    (items.flatMap after).length + removals (items.flatMap found) ≤
      (items.flatMap before).length := by
  induction items with
  | nil => exact Nat.le_refl 0
  | cons item rest ih =>
    have hfirst := h item List.mem_cons_self
    have hrest := ih fun other hmem => h other (List.mem_cons_of_mem _ hmem)
    simp only [List.flatMap_cons, List.length_append, removals, List.count_append] at *
    omega

theorem length_flatMap_le {α β γ : Type} {items : List α} {after : α → List β}
    {before : α → List γ} (h : ∀ item ∈ items, (after item).length ≤ (before item).length) :
    (items.flatMap after).length ≤ (items.flatMap before).length := by
  induction items with
  | nil => exact Nat.le_refl 0
  | cons item rest ih =>
    have hrest := ih fun other hmem => h other (List.mem_cons_of_mem _ hmem)
    simp only [List.flatMap_cons, List.length_append]
    exact Nat.add_le_add (h item List.mem_cons_self) hrest

/-- If nothing is taken away from the whole, nothing is from a part. The second half of the proof
assumes the former and uses the latter in each induction hypothesis. -/
theorem removals_eq_zero_of_mem {β : Type} {items : List β} {found : β → List Change}
    (h : removals (items.flatMap found) = 0) {item : β} (hmem : item ∈ items) :
    removals (found item) = 0 := by
  rw [removals, List.count_eq_zero] at h ⊢
  exact fun hremoved => h (List.mem_flatMap.2 ⟨item, hmem, hremoved⟩)

/-- The second list is the first one with an assignment more in the given number of declarators.
Nothing is added, lost or moved. -/
inductive Raised : List Mention → List Mention → Nat → Prop
  | nil : Raised [] [] 0
  | kept {before after : List Mention} {count : Nat} (mention : Mention)
    (rest : Raised before after count) : Raised (mention :: before) (mention :: after) count
  | raised {before after : List Mention} {count : Nat} (assignments : Nat)
    (rest : Raised before after count) :
    Raised (.declarator assignments :: before) (.declarator (assignments + 1) :: after) (count + 1)

namespace Raised

theorem refl (list : List Mention) : Raised list list 0 := by
  induction list with
  | nil => exact .nil
  | cons mention rest ih => exact .kept mention ih

/-- Raised parts make a raised whole, and the numbers add up. -/
theorem append {before after before' after' : List Mention} {count count' : Nat}
    (first : Raised before after count) (second : Raised before' after' count') :
    Raised (before ++ before') (after ++ after') (count + count') := by
  induction first with
  | nil => rwa [Nat.zero_add]
  | kept mention rest ih => exact .kept mention ih
  | raised assignments rest ih =>
    rw [Nat.add_right_comm]
    exact .raised assignments ih

/-- The same for the parts of a list, where the number of each part is that of the changes found in
it. -/
theorem flatMap {β : Type} {items : List β} {before after : β → List Mention}
    {found : β → List Change}
    (h : ∀ item ∈ items, Raised (before item) (after item) (found item).length) :
    Raised (items.flatMap before) (items.flatMap after) (items.flatMap found).length := by
  induction items with
  | nil => exact .nil
  | cons item rest ih =>
    rw [List.flatMap_cons, List.flatMap_cons, List.flatMap_cons, List.length_append]
    exact (h item List.mem_cons_self).append
      (ih fun other hmem => h other (List.mem_cons_of_mem _ hmem))

/-- The number of assignments in all declarators. It is what grows if a list is raised, so that a
raised list cannot be the same list. -/
def weight : List Mention → Nat
  | [] => 0
  | .declarator assignments :: rest => assignments + weight rest
  | _ :: rest => weight rest

theorem weight_eq {before after : List Mention} {count : Nat} (h : Raised before after count) :
    weight after = weight before + count := by
  induction h with
  | nil => rfl
  | kept mention rest ih =>
    cases mention <;> simp only [weight] <;> omega
  | raised assignments rest ih =>
    simp only [weight]
    omega

/-- Nothing has been added exactly if the lists are the same. With `weight_eq` this turns a relation
between two lists into a condition on the changes. -/
theorem eq_iff {before after : List Mention} {count : Nat} (h : Raised before after count) :
    after = before ↔ count = 0 := by
  constructor
  · rintro rfl
    have hweight := h.weight_eq
    omega
  · intro hzero
    induction h with
    | nil => rfl
    | kept mention rest ih => rw [ih hzero]
    | raised assignments rest ih => cases hzero

end Raised

/-! ## Regions -/

namespace Region

/-- There is at most as much in the first region as in the second. After a pass a construct may have
lost its declaration, and then what was inside is outside. -/
def Within (region other : Region) : Prop := region = .outside ∨ region = other

theorem Within.refl (region : Region) : region.Within region := .inr rfl

/-- A construct that encloses more is no less a region: if every child that the first node encloses
is enclosed by the second, the regions of the children compare as those of the nodes. -/
theorem Within.below {region other : Region} (h : region.Within other) {name : String}
    {node node' child child' : Node}
    (hencloses : node.encloses name child = true → node'.encloses name child' = true) :
    (region.below name node child).Within (other.below name node' child') := by
  unfold Region.below
  by_cases hnode : node.encloses name child = true
  · rw [if_pos hnode, if_pos (hencloses hnode)]
    exact .inr rfl
  · rw [if_neg hnode]
    split
    · cases region with
      | outside => exact .inl rfl
      | inside => exact .inr rfl
    · exact h

end Region

/-! ## What the pass changes, by the cases of the pass -/

namespace changes

variable {pass : Pass}

/-- What is found for a mention that is taken away: a change if it is inside, and nothing
outside. -/
def removal (region : Region) : List Change := if region = .inside then [.removed] else []

/-- A use of the name is taken away, wherever the pass comes to it. -/
theorem gather_reference (region : Region) :
    (changes pass.name).gather region (.identifier pass.name) = removal region := by
  rw [Survey.gather_eq _ region (.identifier pass.name) (of_decide_eq_false rfl)]
  simp [changes, removal, Node.children, Node.places]

/-- So is a function declaration of the name. It is one change, whatever is inside it, since the
pass does not go into it. -/
theorem gather_function {id : Option Node} (region : Region) (params : List Node) (body : Node)
    (generator isAsync : Bool) (h : pass.isOwnName id = true) :
    (changes pass.name).gather region (.functionDeclaration id params body generator isAsync) =
      removal region := by
  have hown : id.any (·.isIdentifier pass.name) = true := h
  have hhides : (Node.functionDeclaration id params body generator isAsync).hides pass.name
      .visited = true := by
    simp [Node.hides, Node.isFunctionDeclarationOf, hown]
  have hbelow : ∀ child, (changes pass.name).below region
      (.functionDeclaration id params body generator isAsync) child = none := fun child => by
    simp only [changes, hhides, if_true]
  rw [Survey.gather_eq _ region (.functionDeclaration ..) (of_decide_eq_false rfl)]
  simp only [hbelow]
  simp [changes, removal, hown, Survey.gatherIf]

/-- What shadows the name is not changed, and the survey does not look there. -/
theorem gather_shadowed {node : Node} (region : Region) (hreplaced : pass.replacement? node = none)
    (hshadowed : pass.isShadowedBy node = true) :
    (changes pass.name).gather region node = [] := by
  have hkind := pass.kind_ne_of_shadowed hshadowed
  have hfound : (changes pass.name).found region node = [] := by
    cases node
    case identifier => cases hshadowed
    case functionDeclaration id params body generator isAsync =>
      have hid : id.any (·.isIdentifier pass.name) = false := pass.isOwnName_eq_false hreplaced
      simp [changes, hid]
    all_goals rfl
  rw [Survey.gather_eq _ region node hkind, hfound, List.nil_append, List.flatMap_eq_nil_iff]
  intro child hchild
  rw [pass.isShadowedBy_eq, Bool.or_eq_true] at hshadowed
  rcases hshadowed with hrebinds | himport
  · have hbelow : (changes pass.name).below region node child = none := by
      simp only [changes, Node.hides, hrebinds, Bool.true_or, if_true]
    rw [hbelow]
    rfl
  · cases node
    case importDeclaration => cases hchild
    all_goals simp [Node.kind, Node.record] at himport

/-- The pass enters no node that hides the name on its way, so the survey goes on wherever the pass
does. -/
theorem hides_of_enters {node : Node} (h : pass.Enters node) :
    node.hides pass.name .visited = false := by
  rw [← occurrences.hides_rewrite_self h, Node.hides, pass.rebinds_rewrite_self h]
  rfl

/-- Where the pass enters, all changes are below, in the region that the node gives to its child. -/
theorem gather_entered {node : Node} (region : Region) (h : pass.Enters node) :
    (changes pass.name).gather region node = node.children.flatMap fun child =>
      (changes pass.name).gather (region.below pass.name node child) child := by
  have hfound : (changes pass.name).found region node = [] := by
    have hkept := h.unreplaced
    cases node
    case identifier other =>
      by_cases hother : other = pass.name
      · simp [Pass.replacement?, hother] at hkept
      · simp [changes, hother]
    case functionDeclaration id params body generator isAsync =>
      by_cases hid : pass.isOwnName id = true
      · simp [Pass.replacement?, hid] at hkept
      · have hid' : id.any (·.isIdentifier pass.name) = false := Bool.eq_false_iff.2 hid
        simp [changes, hid']
    all_goals rfl
  rw [Survey.gather_eq _ region node h.undeclared, hfound, List.nil_append]
  refine List.flatMap_congr fun child _ => ?_
  rw [below_of_hides_eq_false child (hides_of_enters h)]
  rfl

/-- At a declarator of the name alone an assignment is put before the initial value, and the value
is not looked into. A pattern with the name is left alone. -/
theorem gatherDeclarator_eq (region : Region) (id : Node) (init : Option Node) :
    (changes pass.name).gatherDeclarator region (.variableDeclarator id init) =
      (if region = .inside && id.isIdentifier pass.name && init.isSome then [.assigned] else []) ++
        if id.binds pass.name then []
        else init.toList.flatMap ((changes pass.name).gather region) := by
  have hpattern : id.patternExpressions.flatMap
      ((changes pass.name).gatherIf ((changes pass.name).pattern region id)) = [] :=
    List.flatMap_eq_nil_iff.2 fun _ _ => rfl
  rw [Survey.gatherDeclarator, hpattern, List.append_nil]
  by_cases hbinds : id.binds pass.name = true
  · have hvalue : (changes pass.name).value region id = none := by simp [changes, hbinds]
    have hnone : init.toList.flatMap ((changes pass.name).gatherIf none) = [] :=
      List.flatMap_eq_nil_iff.2 fun _ _ => rfl
    rw [hvalue, hnone, if_pos hbinds]
    rfl
  · have hvalue : (changes pass.name).value region id = some region := by
      simp [changes, hbinds]
    rw [hvalue, if_neg hbinds]
    rfl

/-- A function that declares the name for a construct is taken away, as it stands in the construct
and so inside. In a switch it stands one level further down. -/
theorem mem_of_function_mem_scopeStatements {node statement : Node} (henters : pass.Enters node)
    (hredeclares : node.redeclares pass.name = true) (hstatement : statement ∈ node.scopeStatements)
    (hfunction : statement.isFunctionDeclarationOf pass.name = true) (region : Region) :
    .removed ∈ (changes pass.name).gather region node := by
  have hinside : .removed ∈ (changes pass.name).gather .inside statement := by
    cases statement
    case functionDeclaration id params body generator isAsync =>
      rw [gather_function .inside params body generator isAsync hfunction]
      exact List.mem_singleton_self _
    all_goals cases hfunction
  rw [gather_entered region henters, List.mem_flatMap]
  -- The function is a child of the construct, or it stands in a branch of a switch.
  rcases Node.mem_scopeStatements hstatement with ⟨hchild, hkind⟩ | ⟨branch, hchild, hcase, hmem⟩
  · refine ⟨statement, hchild, ?_⟩
    have hencloses : node.encloses pass.name statement = true := by
      simp [Node.encloses, hredeclares, hkind]
    rwa [Region.below, if_pos hencloses]
  · refine ⟨branch, hchild, ?_⟩
    have hencloses : node.encloses pass.name branch = true := by
      simp [Node.encloses, hredeclares, hcase]
    rw [Region.below, if_pos hencloses]
    cases branch
    case switchCase test consequent =>
      have hbranch : pass.Enters (.switchCase test consequent) := ⟨rfl, of_decide_eq_false rfl, rfl⟩
      rw [gather_entered .inside hbranch, List.mem_flatMap]
      refine ⟨statement, ?_, ?_⟩
      · simpa [Node.children, Node.places] using .inr hmem
      · rwa [Region.below_of_scopeStatements rfl]
    all_goals cases hcase

/-- Assignments that are put in take no mention away, so of a declarator only the value counts. -/
theorem removals_gatherDeclarator (region : Region) (id : Node) (init : Option Node) :
    removals ((changes pass.name).gatherDeclarator region (.variableDeclarator id init)) =
      removals (if id.binds pass.name then []
        else init.toList.flatMap ((changes pass.name).gather region)) := by
  rw [gatherDeclarator_eq, removals, List.count_append]
  split
  · rw [List.count_singleton, if_neg (by decide), Nat.zero_add]
  · rw [List.count_nil, Nat.zero_add]

end changes

namespace mentions

variable {name : String}

/-- What is found at a node: its own mention, and what its children have in the regions they get. -/
theorem gather_eq (region : Region) (node : Node) (hkind : node.kind ≠ .variableDeclaration) :
    (mentions name).gather region node =
      (if region = .inside then Mention.ofNode name node else []) ++
        node.children.flatMap fun child =>
          (mentions name).gather (region.below name node child) child :=
  Survey.gather_eq _ region node hkind

/-- What is found at a declarator: its own mention, and what there is in the pattern and in the
value. -/
theorem gatherDeclarator_eq (region : Region) (id : Node) (init : Option Node) :
    (mentions name).gatherDeclarator region (.variableDeclarator id init) =
      (mentions name).declared region id init ++
        id.patternExpressions.flatMap ((mentions name).gather region) ++
        init.toList.flatMap ((mentions name).gather region) := rfl

/-- The declarations of the name keep their number, or become none where the region is left. The
values do not matter for this. -/
theorem length_declared_le {region other : Region} (h : region.Within other) (id : Node)
    (init init' : Option Node) :
    ((mentions name).declared region id init).length ≤
      ((mentions name).declared other id init').length := by
  rcases h with rfl | rfl
  · exact Nat.zero_le _
  · by_cases hdeclares : (region = .inside && id.binds name : Bool) = true
    · simp only [mentions, hdeclares, if_true, List.length_singleton, Nat.le_refl]
    · simp only [mentions, hdeclares, Bool.false_eq_true, if_false, Nat.le_refl]

/-- Inside a construct a survey finds no less than outside. By induction over the tree: a construct
that encloses a child does so in either region. -/
theorem length_gather_le (node : Node) : ∀ {region other : Region}, region.Within other →
    ((mentions name).gather region node).length ≤ ((mentions name).gather other node).length := by
  induction node using Survey.induction with
  | node node hkind ih =>
    intro region other h
    rw [gather_eq region node hkind, gather_eq other node hkind, List.length_append,
      List.length_append]
    refine Nat.add_le_add ?_ (length_flatMap_le fun child hmem => ?_)
    · rcases h with rfl | rfl
      · exact Nat.zero_le _
      · exact Nat.le_refl _
    · exact ih child hmem (h.below id)
  | declaration declarations kind ih =>
    intro region other h
    rw [Survey.gather_variableDeclaration, Survey.gather_variableDeclaration]
    refine length_flatMap_le fun declarator hmem => ?_
    cases declarator
    case variableDeclarator pattern init =>
      obtain ⟨hpattern, hvalue⟩ := ih pattern init hmem
      rw [gatherDeclarator_eq, gatherDeclarator_eq]
      simp only [List.length_append]
      refine Nat.add_le_add (Nat.add_le_add (length_declared_le h pattern init init)
        (length_flatMap_le fun part hpart => ?_)) (length_flatMap_le fun value hmem' => ?_)
      · exact hpattern part hpart h
      · exact hvalue value (Option.mem_toList.1 hmem') h
    all_goals exact Nat.le_refl _

/-! ## The pass for the name -/

variable {pass : Pass}

/-- A declarator after the pass: what there is inside its initial value. The assignment that is put
before it mentions nothing itself. -/
theorem flatMap_replaceValue (hobject : pass.access.object ≠ pass.name) (region : Region)
    (id : Node) (init : Option Node) :
    (pass.replaceValue id init).toList.flatMap ((mentions pass.name).gather region) =
      if id.binds pass.name then init.toList.flatMap ((mentions pass.name).gather region)
      else init.toList.flatMap fun value =>
        (mentions pass.name).gather region (pass.replace value) := by
  unfold Pass.replaceValue
  by_cases hself : id.isIdentifier pass.name = true
  · rw [if_pos hself, if_pos (Node.binds_of_isIdentifier hself)]
    cases init with
    | none => rfl
    | some value =>
      simp only [Option.map_some, Option.toList_some, List.flatMap_singleton]
      exact (seesThrough hobject).gather_assignment region value
  · rw [if_neg hself]
    split
    · rfl
    · cases init with
      | none => rfl
      | some value => simp

/-- For the initial value of a declarator: it loses a mention for each that is taken away in it, if
the pass goes into it, and otherwise none. -/
theorem length_replaceValue_le (hobject : pass.access.object ≠ pass.name)
    {region other : Region} (h : region.Within other) (id : Node) (init : Option Node)
    (ih : ∀ value ∈ init, ((mentions pass.name).gather region (pass.replace value)).length +
      removals ((changes pass.name).gather other value) ≤
        ((mentions pass.name).gather other value).length) :
    ((pass.replaceValue id init).toList.flatMap ((mentions pass.name).gather region)).length +
        removals (if id.binds pass.name then []
          else init.toList.flatMap ((changes pass.name).gather other)) ≤
      (init.toList.flatMap ((mentions pass.name).gather other)).length := by
  rw [flatMap_replaceValue hobject]
  by_cases hbinds : id.binds pass.name = true
  · rw [if_pos hbinds, if_pos hbinds]
    exact length_flatMap_le fun value _ => length_gather_le value h
  · rw [if_neg hbinds, if_neg hbinds]
    exact length_add_removals_flatMap_le fun value hmem => ih value (Option.mem_toList.1 hmem)

/-- A function of the name is one mention more as a declaration than as an expression. What is in
its body may come out of a region, but never into one. -/
theorem length_gather_functionExpression_le {region other : Region} (h : region.Within other)
    {id : Option Node} (params : List Node) (body : Node) (generator isAsync : Bool)
    (hid : id.any (·.isIdentifier name) = true) :
    ((mentions name).gather region (.functionExpression id params body generator isAsync)).length +
        removals (changes.removal other) ≤
      ((mentions name).gather other (.functionDeclaration id params body generator isAsync)).length
      := by
  have hbody : ((mentions name).gather region
        (.functionExpression id params body generator isAsync)).length ≤
      ((mentions name).gather other
        (.functionExpression id params body generator isAsync)).length :=
    length_gather_le _ h
  cases other with
  | outside =>
    rw [gather_functionExpression .outside params body generator isAsync (.inl rfl)] at hbody
    exact hbody
  | inside =>
    rw [gather_eq .inside (.functionExpression ..) (of_decide_eq_false rfl)] at hbody
    rw [gather_eq .inside (.functionDeclaration ..) (of_decide_eq_false rfl)]
    simp only [Mention.ofNode, hid, if_true, List.length_append, changes.removal, removals,
      List.count_singleton_self, List.length_singleton, List.nil_append] at hbody ⊢
    -- The two forms have the same children, in the same regions.
    have hchildren : (Node.functionExpression id params body generator isAsync).children =
      (Node.functionDeclaration id params body generator isAsync).children := rfl
    have hregion : ∀ child, Region.below .inside name
        (.functionExpression id params body generator isAsync) child =
        Region.below .inside name
          (.functionDeclaration id params body generator isAsync) child := fun _ => rfl
    simp only [hchildren, hregion] at hbody
    omega

/-- A declarator has no mention more, and one less for each that is taken away in it. Its own
mention and that of its pattern stay. -/
theorem length_replaceDeclarator_le (hobject : pass.access.object ≠ pass.name)
    {region other : Region} (h : region.Within other) (id : Node) (init : Option Node)
    (ih : ∀ value ∈ init, ((mentions pass.name).gather region (pass.replace value)).length +
      removals ((changes pass.name).gather other value) ≤
        ((mentions pass.name).gather other value).length) :
    ((mentions pass.name).gatherDeclarator region
          (pass.replaceDeclarator (.variableDeclarator id init))).length +
        removals ((changes pass.name).gatherDeclarator other (.variableDeclarator id init)) ≤
      ((mentions pass.name).gatherDeclarator other (.variableDeclarator id init)).length := by
  have hdeclared : ((mentions pass.name).declared region id (pass.replaceValue id init)).length ≤
      ((mentions pass.name).declared other id init).length :=
    length_declared_le h id _ _
  have hparts : (id.patternExpressions.flatMap ((mentions pass.name).gather region)).length ≤
      (id.patternExpressions.flatMap ((mentions pass.name).gather other)).length :=
    length_flatMap_le fun part _ => length_gather_le part h
  have hvalue := length_replaceValue_le hobject h id init ih
  simp only [Pass.replaceDeclarator, gatherDeclarator_eq, changes.removals_gatherDeclarator,
    List.length_append]
  omega

/-- **No mention is added, and each use or function that is taken away is one less.** The
construct may also cease to declare the name, by losing a function. -/
theorem length_replace_le (hobject : pass.access.object ≠ pass.name) (node : Node) :
    ∀ {region other : Region}, region.Within other →
      ((mentions pass.name).gather region (pass.replace node)).length +
          removals ((changes pass.name).gather other node) ≤
        ((mentions pass.name).gather other node).length := by
  -- The regions are general in the induction: a construct that ceases to declare the name puts
  -- what is inside it outside.
  induction node using pass.replace_induction with
  | reference =>
    intro region other h
    rw [(seesThrough hobject).access_eq, changes.gather_reference,
      gather_eq other (.identifier pass.name) (of_decide_eq_false rfl)]
    cases other <;> simp [changes.removal, removals, Mention.ofNode]
  | function id params body generator isAsync hid =>
    intro region other h
    rw [(seesThrough hobject).gather_assignmentStatement, changes.gather_function _ _ _ _ _ hid]
    exact length_gather_functionExpression_le h params body generator isAsync hid
  | shadowed node hreplaced hshadowed =>
    intro region other h
    rw [changes.gather_shadowed other hreplaced hshadowed]
    exact length_gather_le node h
  | declaration declarations kind ih =>
    intro region other h
    rw [Survey.gather_variableDeclaration, Survey.gather_variableDeclaration,
      Survey.gather_variableDeclaration, List.flatMap_map]
    refine length_add_removals_flatMap_le fun declarator hmem => ?_
    cases declarator
    case variableDeclarator pattern init =>
      refine length_replaceDeclarator_le hobject h pattern init fun value hvalue => ?_
      rw [Option.mem_def.1 hvalue] at hmem
      exact ih pattern value hmem h
    all_goals exact Nat.le_refl _
  | entered node henters ih =>
    intro region other h
    have hkind := henters.rewrite_undeclared
    have hnode : Mention.ofNode pass.name (pass.rewrite node) = Mention.ofNode pass.name node := by
      cases node <;> rfl
    have hbelow : ∀ child, (region.below pass.name (pass.rewrite node) (pass.replace child)).Within
        (other.below pass.name node child) := fun child => h.below pass.encloses_of_rewrite
    have hchildren := length_add_removals_flatMap_le fun child hmem =>
      ih child hmem (hbelow child)
    rw [gather_eq _ _ hkind, gather_eq _ _ henters.undeclared, changes.gather_entered _ henters,
      pass.children_rewrite, List.flatMap_map, hnode, List.length_append, List.length_append,
      Nat.add_assoc]
    refine Nat.add_le_add ?_ hchildren
    rcases h with rfl | rfl
    · exact Nat.zero_le _
    · exact Nat.le_refl _

/-- The declaration in a declarator of the name gets one leading assignment more if it is
the name alone that is declared and there is an initial value. -/
theorem declared_replaceValue_self (region : Region) (id : Node) (init : Option Node) :
    Raised ((mentions pass.name).declared region id init)
      ((mentions pass.name).declared region id (pass.replaceValue id init))
      (if region = .inside && id.isIdentifier pass.name && init.isSome then
        [Change.assigned] else []).length := by
  unfold Pass.replaceValue
  by_cases hself : id.isIdentifier pass.name = true
  · have hbinds := Node.binds_of_isIdentifier hself
    cases region with
    | outside => exact .nil
    | inside =>
      cases init with
      | none => simpa [mentions, hbinds, hself] using Raised.refl [.declarator 0]
      | some value =>
        simpa [mentions, hbinds, hself, Node.assignment, Node.leadingAssignments] using
          Raised.raised value.leadingAssignments .nil
  · rw [if_neg hself]
    simp only [Bool.eq_false_iff.2 hself, Bool.and_false, Bool.false_and, Bool.false_eq_true,
      if_false, List.length_nil]
    by_cases hbinds : id.binds pass.name = true
    · rw [if_pos hbinds]
      exact .refl _
    · simp [mentions, hbinds, Raised.nil]

/-- A declarator after the pass, if nothing is taken away in it: either the declarator itself is
raised, or the parts of its value are. -/
theorem raised_replaceDeclarator (hobject : pass.access.object ≠ pass.name) (region : Region)
    (id : Node) (init : Option Node)
    (ih : ∀ value ∈ init, removals ((changes pass.name).gather region value) = 0 →
      Raised ((mentions pass.name).gather region value)
        ((mentions pass.name).gather region (pass.replace value))
        ((changes pass.name).gather region value).length)
    (hkept : removals
      ((changes pass.name).gatherDeclarator region (.variableDeclarator id init)) = 0) :
    Raised ((mentions pass.name).gatherDeclarator region (.variableDeclarator id init))
      ((mentions pass.name).gatherDeclarator region
        (pass.replaceDeclarator (.variableDeclarator id init)))
      ((changes pass.name).gatherDeclarator region (.variableDeclarator id init)).length := by
  rw [changes.removals_gatherDeclarator] at hkept
  rw [Pass.replaceDeclarator, gatherDeclarator_eq, gatherDeclarator_eq,
    changes.gatherDeclarator_eq, flatMap_replaceValue hobject, List.length_append]
  -- A pattern that binds the name is the declaration that gets an assignment more, if it is the
  -- name alone. Otherwise only the initial value matters.
  by_cases hbinds : id.binds pass.name = true
  · rw [if_pos hbinds, if_pos hbinds, List.length_nil, Nat.add_zero]
    have hrest := Raised.refl (init.toList.flatMap ((mentions pass.name).gather region))
    have hparts := Raised.refl (id.patternExpressions.flatMap ((mentions pass.name).gather region))
    refine ((declared_replaceValue_self region id init).append hparts).append hrest
  · have hself : id.isIdentifier pass.name = false :=
      Bool.eq_false_iff.2 fun h => hbinds (Node.binds_of_isIdentifier h)
    have hdeclared : ∀ value, (mentions pass.name).declared region id value = [] := fun value => by
      simp [mentions, hbinds]
    rw [if_neg hbinds] at hkept
    rw [if_neg hbinds, if_neg hbinds, hdeclared, hdeclared]
    simp only [hself, Bool.and_false, Bool.false_and, Bool.false_eq_true, if_false,
      List.length_nil, Nat.zero_add, List.nil_append]
    have hparts := Raised.refl (id.patternExpressions.flatMap ((mentions pass.name).gather region))
    have hvalues := Raised.flatMap fun value hmem =>
      ih value (Option.mem_toList.1 hmem) (removals_eq_zero_of_mem hkept hmem)
    have hboth := hparts.append hvalues
    rwa [Nat.zero_add] at hboth

/-- Where a construct would lose its declaration of the name, a function is taken away. So if
nothing is taken away, the regions stay as they are. -/
theorem redeclares_rewrite_self {region : Region} {node : Node} (henters : pass.Enters node)
    (hkept : removals ((changes pass.name).gather region node) = 0) :
    (pass.rewrite node).redeclares pass.name = node.redeclares pass.name := by
  rw [Bool.eq_iff_iff]
  refine ⟨pass.redeclares_of_rewrite, fun hredeclares => pass.redeclares_rewrite hredeclares ?_⟩
  intro statement hstatement _
  rw [Bool.eq_false_iff]
  intro hfunction
  have hremoved := changes.mem_of_function_mem_scopeStatements henters hredeclares hstatement
    hfunction region
  exact List.count_eq_zero.1 hkept hremoved

/-- **If no mention is taken away, all are kept**, and as many declarators have one leading
assignment more as the pass finds to change. -/
theorem raised_replace (hobject : pass.access.object ≠ pass.name) (node : Node) :
    ∀ region, removals ((changes pass.name).gather region node) = 0 →
      Raised ((mentions pass.name).gather region node)
        ((mentions pass.name).gather region (pass.replace node))
        ((changes pass.name).gather region node).length := by
  -- Nothing is taken away, so no construct ceases to declare the name, and one region will do.
  induction node using pass.replace_induction with
  | reference =>
    intro region hkept
    rw [changes.gather_reference] at hkept ⊢
    cases region with
    | inside => cases hkept
    | outside =>
      rw [(seesThrough hobject).access_eq,
        gather_eq .outside (.identifier pass.name) (of_decide_eq_false rfl)]
      exact .nil
  | function id params body generator isAsync hid =>
    intro region hkept
    rw [changes.gather_function _ _ _ _ _ hid] at hkept ⊢
    cases region with
    | inside => cases hkept
    | outside =>
      rw [(seesThrough hobject).gather_assignmentStatement,
        gather_functionExpression .outside params body generator isAsync (.inl rfl)]
      exact .refl _
  | shadowed node hreplaced hshadowed =>
    intro region _
    rw [changes.gather_shadowed region hreplaced hshadowed]
    exact .refl _
  | declaration declarations kind ih =>
    intro region hkept
    rw [Survey.gather_variableDeclaration] at hkept
    rw [Survey.gather_variableDeclaration, Survey.gather_variableDeclaration,
      Survey.gather_variableDeclaration, List.flatMap_map]
    refine .flatMap fun declarator hmem => ?_
    have hdeclarator := removals_eq_zero_of_mem hkept hmem
    cases declarator
    case variableDeclarator id init =>
      refine raised_replaceDeclarator hobject region id init (fun value hvalue => ?_) hdeclarator
      rw [Option.mem_def.1 hvalue] at hmem
      exact ih id value hmem region
    all_goals exact .nil
  | entered node henters ih =>
    intro region hkept
    have hkind := henters.rewrite_undeclared
    have hnode : Mention.ofNode pass.name (pass.rewrite node) = Mention.ofNode pass.name node := by
      cases node <;> rfl
    have hredeclares := redeclares_rewrite_self henters hkept
    rw [changes.gather_entered _ henters] at hkept
    rw [gather_eq _ _ hkind, gather_eq _ _ henters.undeclared, changes.gather_entered _ henters,
      pass.children_rewrite, List.flatMap_map, hnode]
    have hchildren := Raised.flatMap fun child hmem =>
      ih child hmem _ (removals_eq_zero_of_mem hkept hmem)
    have hall :=
      (Raised.refl (if region = .inside then Mention.ofNode pass.name node else [])).append
      hchildren
    simp only [pass.below_rewrite hredeclares]
    rwa [Nat.zero_add] at hall

/-- **The mentions in several statements are the same after the pass exactly if it finds nothing to
change.** If a mention is taken away there are fewer, and if none is, the lists are raised by the
number of the changes. -/
theorem flatMap_replace_eq_iff (hobject : pass.access.object ≠ pass.name) (nodes : List Node) :
    (nodes.flatMap fun node => (mentions pass.name).gather .outside (pass.replace node)) =
        nodes.flatMap ((mentions pass.name).gather .outside) ↔
      ∀ node ∈ nodes, (changes pass.name).gather .outside node = [] := by
  have hlength : (nodes.flatMap fun node =>
          (mentions pass.name).gather .outside (pass.replace node)).length +
        removals (nodes.flatMap ((changes pass.name).gather .outside)) ≤
      (nodes.flatMap ((mentions pass.name).gather .outside)).length :=
    length_add_removals_flatMap_le fun node _ =>
      length_replace_le hobject node (Region.Within.refl .outside)
  have hraised : removals (nodes.flatMap ((changes pass.name).gather .outside)) = 0 →
      Raised (nodes.flatMap ((mentions pass.name).gather .outside))
        (nodes.flatMap fun node => (mentions pass.name).gather .outside (pass.replace node))
        (nodes.flatMap ((changes pass.name).gather .outside)).length := fun hkept =>
    .flatMap fun node hmem => raised_replace hobject node _ (removals_eq_zero_of_mem hkept hmem)
  rw [← List.flatMap_eq_nil_iff]
  constructor
  · intro hsame
    rw [hsame] at hlength
    have hkept : removals (nodes.flatMap ((changes pass.name).gather .outside)) = 0 := by omega
    exact List.length_eq_zero_iff.1 ((hraised hkept).eq_iff.1 hsame)
  · intro hnone
    rw [hnone] at hraised
    exact (hraised rfl).eq_iff.2 rfl

/-! ## Everything else that is done to a module -/

/-- A declaration of another name mentions the same as an expression. -/
theorem gather_asExpression {declaration : Node}
    (h : ∀ other, declarationName? declaration = some other → other ≠ name) (region : Region) :
    (mentions name).gather region declaration.asExpression =
      (mentions name).gather region declaration := by
  cases declaration
  case functionDeclaration id params body generator isAsync =>
    exact gather_functionExpression region params body generator isAsync
      (.inr (Node.any_isIdentifier_eq_false h))
  case classDeclaration id superClass body =>
    have hnone : Mention.ofNode name (.classDeclaration id superClass body) = [] := by
      simp [Mention.ofNode, Node.any_isIdentifier_eq_false h]
    rw [Node.asExpression,
      gather_below region (.classExpression ..) (of_decide_eq_false rfl) rfl rfl,
      gather_below region (.classDeclaration ..) (of_decide_eq_false rfl) hnone rfl]
    rfl
  all_goals rfl

/-- Nothing that is done for other names than the imported one touches its mentions. The survey
starts outside, as the statements of a module stand in no such construct. -/
theorem carries {table : Dependencies} (hparam : table.injects name = false) :
    (mentions name).Carries .outside table (· ≠ name) fun _ => True := by
  have hne : ∀ param, table.injects param = true → param ≠ name := fun _ =>
    Dependencies.ne_of_injects hparam
  have hexports : exportsParam ≠ name := hne exportsParam table.injects_exportsParam
  refine
    { stable := fun other exported hother _ => stable (Ne.symm hother) (Ne.symm hexports)
      seesThrough := fun exported _ => seesThrough hexports
      import_eq := fun param member hinjects => ?_
      name_eq := fun other hother => gather_identifier_of_ne hother
      export_eq := fun node hnode => ?_
      expression_eq := fun declaration hdeclaration => gather_asExpression hdeclaration _
      declarator_eq := fun other init hother => ?_ }
  · have haccess : (Access.member param member).object ≠ name := hne param hinjects
    exact (seesThrough haccess).access_eq .outside
  · have hscope : node.scopeStatements = [] := by
      cases node <;> first | rfl | (rcases hnode with hnode | hnode <;> cases hnode)
    exact ⟨rfl, fun child => congrArg some (Region.below_of_scopeStatements hscope .outside child)⟩
  · rw [gatherDeclarator_eq, Node.patternExpressions_identifier]
    rfl

end mentions

/-! ## The wrapped module -/

/-- **Declarations of an imported name in blocks, loops and switches.** What there is of the
name in the constructs that declare it again is in the wrapped module what it was in the
source, exactly if the pass for the name finds nothing to change in them. -/
theorem Program.wrap_mentions {program : Program} {options : WrapOptions} {wrapped : Wrapped}
    {name : String} (h : program.wrap options = .ok wrapped)
    (hname : name ∈ Wrapping.importedLocals program.body) (hexports : name ≠ exportsParam)
    (hslots : ∀ slot < wrapped.dependencies.length, name ≠ dependencyParam slot) :
    ∃ body, wrapped.program.body = [wrapper wrapped.dependencies body options] ∧
      ((body.flatMap ((mentions name).gather .outside) =
          (Wrapping.statements program.body).flatMap fun statement =>
            (mentions name).gather .outside statement.content) ↔
        ∀ statement ∈ Wrapping.statements program.body,
          (changes name).gather .outside statement.content = []) := by
  obtain ⟨body, before, pass, hbody, rfl, hobject, hbefore, hgather⟩ := Program.wrap_gather h hname
    hexports hslots (fun _ => mentions.carries) fun _ => mentions.stable
  refine ⟨body, hbody, ?_⟩
  have hmentions : ∀ other ∈ before, (mentions pass.name).Stable other := fun other hmem =>
    mentions.stable (hbefore other hmem).1 (hbefore other hmem).2
  have hchanges : ∀ other ∈ before, (changes pass.name).Stable other := fun other hmem =>
    changes.stable (hbefore other hmem).1 (hbefore other hmem).2
  have hiff := mentions.flatMap_replace_eq_iff hobject ((Wrapping.statements program.body).map
    fun statement => Pass.replaceAll before statement.content)
  simp only [List.flatMap_map, List.forall_mem_map, Survey.gather_replaceAll hmentions,
    Survey.gather_replaceAll hchanges] at hiff
  rw [hgather, hiff]

/-- The module `import { a } from "m"; a(function () \x7b let a = b; a(b); \x7d);`, which declares
the name once more in a function. -/
def declaredInFunction : Program :=
  ⟨[.importDeclaration [.importSpecifier (.identifier "a") (.identifier "a")] (.stringLiteral "m"),
    .statement (.call (.identifier "a") [.anonymousFunction []
      [.variableDeclaration [.variableDeclarator (.identifier "a") (some (.identifier "b"))] .let,
        .statement (.call (.identifier "a") [.identifier "b"])]])], none⟩

/-- Where a function declares the name, the pass does not come, and both mentions stay as they
are. -/
theorem Program.wrap_mentions_declaredInFunction :
    ∃ wrapped body, declaredInFunction.wrap .default = .ok wrapped ∧
      wrapped.program.body = [wrapper wrapped.dependencies body .default] ∧
      body.flatMap ((mentions "a").gather .outside) = [.declarator 0, .reference] := by
  have h : declaredInFunction.wrap .default = .ok ⟨⟨[wrapper ["m"]
      [.statement (.call (.access "__uDep0__" "a") [.anonymousFunction []
        [.variableDeclaration [.variableDeclarator (.identifier "a") (some (.identifier "b"))] .let,
          .statement (.call (.identifier "a") [.identifier "b"])]])]
      .default], some "script"⟩, ["m"]⟩ := by with_unfolding_all rfl
  have hname : "a" ∈ Wrapping.importedLocals declaredInFunction.body := by decide
  obtain ⟨body, hbody, hmentions⟩ := Program.wrap_mentions h hname (by decide) (by decide)
  have hchanges : ∀ statement ∈ Wrapping.statements declaredInFunction.body,
      (changes "a").gather .outside statement.content = [] := by
    intro statement hmem
    rw [show Wrapping.statements declaredInFunction.body = [_] from rfl,
      List.mem_singleton] at hmem
    subst hmem
    with_unfolding_all rfl
  refine ⟨_, body, h, hbody, (hmentions.2 hchanges).trans ?_⟩
  with_unfolding_all rfl

/-- The module `import { a } from "m"; \x7b let a = b; a(b); \x7d`, which declares the name once
more in a block. -/
def declaredInBlock : Program :=
  ⟨[.importDeclaration [.importSpecifier (.identifier "a") (.identifier "a")] (.stringLiteral "m"),
    .blockStatement
      [.variableDeclaration [.variableDeclarator (.identifier "a") (some (.identifier "b"))] .let,
        .statement (.call (.identifier "a") [.identifier "b"])]], none⟩

/-- In a block outside all functions the use of its own variable is taken away, and the
initial value of the variable is assigned to the import. -/
theorem Program.wrap_changes_mentions :
    ∃ wrapped body, declaredInBlock.wrap .default = .ok wrapped ∧
      "a" ∈ Wrapping.importedLocals declaredInBlock.body ∧
      "a" ≠ exportsParam ∧
      (∀ slot < wrapped.dependencies.length, "a" ≠ dependencyParam slot) ∧
      wrapped.program.body = [wrapper wrapped.dependencies body .default] ∧
      ((Wrapping.statements declaredInBlock.body).flatMap fun statement =>
        (mentions "a").gather .outside statement.content) = [.declarator 0, .reference] ∧
      body.flatMap ((mentions "a").gather .outside) = [.declarator 1] := by
  have h : declaredInBlock.wrap .default = .ok ⟨⟨[wrapper ["m"]
      [.blockStatement
        [.variableDeclaration [.variableDeclarator (.identifier "a")
            (some (.assignment (.access "__uDep0__" "a") (.identifier "b")))] .let,
          .statement (.call (.access "__uDep0__" "a") [.identifier "b"])]]
      .default], some "script"⟩, ["m"]⟩ := by with_unfolding_all rfl
  refine ⟨_, _, h, by decide, by decide, by decide, rfl, ?_, ?_⟩
  · with_unfolding_all rfl
  · with_unfolding_all rfl

end DefineWrap
