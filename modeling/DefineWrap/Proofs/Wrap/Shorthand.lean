/-
Properties that are written in short.

`\x7b a \x7d` is short for `\x7b a: a \x7d`, and in a pattern `\x7b a = b \x7d` is short for
`\x7b a: a = b \x7d`. The tree holds key and value all the same, and a flag that says that the
property is written in short: then only the value is, and the key is taken to be the same name. So
the two have to agree (`Node.ShorthandConsistent`).

A pass replaces values and leaves keys. It clears the flag where the value is a use of its name,
and so a property without a default value still agrees afterwards. But it does not look behind a
default value: `\x7b a = b \x7d` keeps the flag, and the place in it is no longer that of the key.
A pass keeps a consistent tree consistent exactly if it reaches no such property of its name
(`Pass.applyAll_shorthandConsistent`).
-/
import DefineWrap.Proofs.Wrap.Reached

set_option autoImplicit false

namespace DefineWrap

namespace Node

/-! ## Consistent trees -/

/-- Whether a value is a name, alone or with a default value. These are the two values that a
property in short can have. -/
def isPlaceOf (name : String) : Node → Bool
  | .assignmentPattern left _ => left.isIdentifier name
  | node => node.isIdentifier name

/-- Whether the key and the value of a node agree, if it is a property that is written in short. -/
def isFaithful : Node → Bool
  | .property key value _ _ _ true => key.identifierName?.any (value.isPlaceOf ·)
  | _ => true

/-- In a tree every property that is written in short has an identifier as its key, and a value
that is the same identifier, or a pattern that gives it a default value. -/
def ShorthandConsistent (node : Node) : Prop := ∀ part ∈ node.within, part.isFaithful = true

variable {node : Node}

/-- The same as a test on a list, so that it can be evaluated. -/
theorem shorthandConsistent_iff_all :
    node.ShorthandConsistent ↔ node.within.all isFaithful = true :=
  List.all_eq_true.symm

instance (node : Node) : Decidable node.ShorthandConsistent :=
  decidable_of_iff _ shorthandConsistent_iff_all.symm

/-- A tree is consistent if its root is and all parts of the root are. -/
theorem shorthandConsistent_iff :
    node.ShorthandConsistent ↔
      node.isFaithful = true ∧ ∀ part ∈ node.parts, part.ShorthandConsistent := by
  unfold ShorthandConsistent
  rw [within_eq, List.forall_mem_cons]
  apply and_congr_right
  intro _
  constructor
  · intro h part hpart other hother
    exact h other (List.mem_flatMap.2 ⟨part, hpart, hother⟩)
  · intro h other hother
    obtain ⟨part, hpart, hwithin⟩ := List.mem_flatMap.1 hother
    exact h part hpart other hwithin

theorem shorthandConsistent_of_isFaithful (hself : node.isFaithful = true) :
    node.ShorthandConsistent ↔ ∀ part ∈ node.parts, part.ShorthandConsistent := by
  rw [shorthandConsistent_iff]
  exact and_iff_right hself

/-- A property in short that agrees is one of a name: the key is the name, and the value is the
name as well, or gives it a default value. -/
theorem exists_name_of_isFaithful {key value : Node} {kind : String} {computed method : Bool}
    (h : (property key value kind computed method true).isFaithful = true) :
    ∃ name, key = .identifier name ∧
      (value = .identifier name ∨
        ∃ right, value = .assignmentPattern (.identifier name) right) := by
  obtain ⟨name, hkey, hvalue⟩ := (Option.any_eq_true ..).1 h
  refine ⟨name, isIdentifier_iff.1 (decide_eq_true hkey), ?_⟩
  cases value
  case assignmentPattern left right =>
    right
    exact ⟨right, by rw [isIdentifier_iff.1 hvalue]⟩
  all_goals
    left
    exact isIdentifier_iff.1 hvalue

theorem shorthandConsistent_of_parts_eq_nil (hself : node.isFaithful = true)
    (hparts : node.parts = []) : node.ShorthandConsistent := by
  rw [shorthandConsistent_of_isFaithful hself, hparts]
  exact fun _ h => by cases h

end Node

theorem Access.shorthandConsistent_node (access : Access) : access.node.ShorthandConsistent := by
  cases access with
  | whole object => exact Node.shorthandConsistent_of_parts_eq_nil rfl rfl
  | member object member =>
    have hself : (Access.member object member).node.isFaithful = true := by
      rw [Access.node, Node.access_eq]
      rfl
    rw [Node.shorthandConsistent_of_isFaithful hself]
    intro part hpart
    rcases Access.mem_parts_member hpart with rfl | rfl | rfl <;>
      exact Node.shorthandConsistent_of_parts_eq_nil rfl rfl

namespace Pass

variable {pass : Pass} {node : Node}

/-! ## One property -/

/-- Whether a pass drives the key and the value of a property in short apart: the value gives the
name a default value, and the access that takes the place of the name is not what the key is
afterwards. The key is the access as well if it is computed, and else the name. -/
def separates (pass : Pass) : Node → Bool
  | .property _ (.assignmentPattern left _) _ computed _ true =>
    left.isIdentifier pass.name &&
      match pass.access with
      | .member _ _ => true
      | .whole object => !computed && object ≠ pass.name
  | _ => false

theorem separates_of_kind_ne (h : node.kind ≠ .property) : pass.separates node = false := by
  cases node <;> first | rfl | exact absurd rfl h

theorem isFaithful_of_kind_ne (h : node.kind ≠ .property) : node.isFaithful = true := by
  cases node <;> first | rfl | exact absurd rfl h

/-- A value with a default goes through a pass in both parts, the place and the default. -/
theorem replace_assignmentPattern (left right : Node) :
    pass.replace (.assignmentPattern left right) =
      .assignmentPattern (pass.replace left) (pass.replace right) := by
  have henters : pass.Enters (.assignmentPattern left right) := ⟨rfl, of_decide_eq_false rfl, rfl⟩
  rw [pass.replace_of_enters henters]
  rfl

/-- A property after the pass: the value is replaced, the key only if it is computed, and the flag
is cleared where the value is a use of the name. -/
theorem rewrite_property (key value : Node) (kind : String) (computed method shorthand : Bool) :
    pass.rewrite (.property key value kind computed method shorthand) =
      .property (if computed then pass.replace key else key) (pass.replace value) kind computed
        method (shorthand && !value.isIdentifier pass.name) := by
  simp [rewrite_eq_mapped, spellOut, Node.places]

/-- **Key and value of a property agree after the pass unless it drives them apart.** A computed key
is replaced as well, so with an access to a whole module the two stay the same. -/
theorem isFaithful_rewrite (h : node.isFaithful = true) :
    (pass.rewrite node).isFaithful = !pass.separates node := by
  by_cases hkind : node.kind = .property
  swap
  · rw [separates_of_kind_ne hkind, isFaithful_of_kind_ne (by rwa [kind_rewrite])]
    rfl
  cases node
  case property key value kind computed method shorthand =>
    rw [rewrite_property]
    cases shorthand with
    | false =>
      -- A property that is written out stays so.
      have hnone : pass.separates (.property key value kind computed method false) = false := by
        cases value <;> rfl
      rw [hnone, Bool.false_and]
      rfl
    | true =>
      obtain ⟨name, rfl, rfl | ⟨right, rfl⟩⟩ := Node.exists_name_of_isFaithful h
      · -- Without a default value the flag is cleared where the value is replaced.
        have hnone : pass.separates (.property (.identifier name) (.identifier name) kind computed
            method true) = false := rfl
        rw [hnone, Bool.true_and, Node.isIdentifier_identifier, replace_identifier]
        by_cases hname : name = pass.name
        · rw [decide_eq_true hname]
          rfl
        · rw [decide_eq_false hname, if_neg hname, ite_self]
          exact decide_eq_true rfl
      · -- With a default value the flag stays, and the place in the value may be replaced.
        have hflag : ∀ left, (true && !(Node.assignmentPattern left right).isIdentifier pass.name) =
            true := fun _ => rfl
        rw [replace_assignmentPattern, replace_identifier, hflag]
        by_cases hname : name = pass.name
        · rw [if_pos hname]
          cases haccess : pass.access <;> cases computed <;>
            simp [Node.isFaithful, Node.isPlaceOf, separates, hname, haccess, Access.node]
        · have hnone : pass.separates (.property (.identifier name)
              (.assignmentPattern (.identifier name) right) kind computed method true) = false := by
            simp [separates, hname]
          rw [hnone, if_neg hname, ite_self]
          exact decide_eq_true rfl
  all_goals cases hkind

/-! ## Trees -/

theorem shorthandConsistent_assignment {value : Node} (h : value.ShorthandConsistent) :
    (Node.assignment pass.access.node value).ShorthandConsistent := by
  have hparts : (Node.assignment pass.access.node value).parts = [pass.access.node, value] := rfl
  rw [Node.shorthandConsistent_of_isFaithful rfl, hparts]
  intro part hpart
  rcases List.mem_pair.1 hpart with rfl | rfl
  · exact pass.access.shorthandConsistent_node
  · exact h

/-- A declarator that the pass has gone over. The pattern stays, and the initial value is assigned,
or stays, or the pass has gone over that. -/
theorem shorthandConsistent_replaceDeclarator {id : Node} {init : Option Node}
    (h : (Node.variableDeclarator id init).ShorthandConsistent) :
    (pass.replaceDeclarator (.variableDeclarator id init)).ShorthandConsistent ↔
      ∀ value, init = some value → id.binds pass.name = false →
        (pass.replace value).ShorthandConsistent := by
  rw [Node.shorthandConsistent_of_isFaithful rfl, Node.parts_variableDeclarator,
    List.forall_mem_cons] at h
  rw [replaceDeclarator, Node.shorthandConsistent_of_isFaithful rfl, Node.parts_variableDeclarator,
    List.forall_mem_cons, and_iff_right h.1]
  cases init with
  | none => simp [replaceValue]
  | some value =>
    have hvalue : value.ShorthandConsistent := h.2 value (List.mem_singleton_self value)
    by_cases hself : id.isIdentifier pass.name = true
    · simp [replaceValue, hself, Node.binds_of_isIdentifier hself,
        shorthandConsistent_assignment hvalue]
    · by_cases hbinds : id.binds pass.name = true
      · simp [replaceValue, hself, hbinds, hvalue]
      · simp [replaceValue, hself, hbinds]

/-- **What a pass makes of a consistent tree is consistent exactly if it reaches no property whose
key and value it drives apart.** -/
theorem shorthandConsistent_replace (h : node.ShorthandConsistent) :
    (pass.replace node).ShorthandConsistent ↔
      ∀ part, node.Reaches pass.name part → pass.separates part = false := by
  induction node using pass.replace_induction with
  | reference =>
    have hroot : ∀ part, (Node.identifier pass.name).Reaches pass.name part ↔
        part = .identifier pass.name := fun part =>
      Node.reaches_of_children_eq_nil (of_decide_eq_false rfl) rfl
    rw [Node.forall_reached_iff hroot]
    exact iff_of_true pass.access.shorthandConsistent_node rfl
  | function id params body generator isAsync hid =>
    rw [Node.forall_reached_iff fun _ => reaches_function params body generator isAsync hid]
    refine iff_of_true ?_ rfl
    have hparts : (Node.assignmentStatement pass.access.node
        (.functionExpression id params body generator isAsync)).parts =
        [.assignment pass.access.node (.functionExpression id params body generator isAsync)] := rfl
    rw [Node.shorthandConsistent_of_isFaithful rfl, hparts, List.forall_mem_singleton]
    apply shorthandConsistent_assignment
    -- The expression has the parts of the declaration.
    rw [Node.shorthandConsistent_of_isFaithful rfl] at h ⊢
    exact h
  | shadowed node hreplaced hshadowed =>
    rw [Node.forall_reached_iff fun _ => reaches_of_shadowed hshadowed]
    refine iff_of_true h (separates_of_kind_ne ?_)
    intro hkind
    cases node <;> first | cases hshadowed; done | cases hkind
  | declaration declarations kind ih =>
    rw [Node.shorthandConsistent_of_isFaithful rfl, Node.parts_variableDeclaration] at h ⊢
    rw [List.forall_mem_map]
    have hvalue : ∀ id value, .variableDeclarator id (some value) ∈ declarations →
        value.ShorthandConsistent := by
      intro id value hmem
      exact (Node.shorthandConsistent_iff.1 (h _ hmem)).2 value
        (by simp [Node.parts_variableDeclarator])
    constructor
    · intro hafter part hreaches
      rcases Node.reaches_variableDeclaration_iff.1 hreaches with
        rfl | ⟨id, value, hmem, hopen, hpart⟩
      · rfl
      · apply (ih id value hmem (hvalue id value hmem)).1 _ part hpart
        exact (shorthandConsistent_replaceDeclarator (h _ hmem)).1 (hafter _ hmem) value rfl hopen
    · intro hnone declarator hmem
      cases declarator
      case variableDeclarator id init =>
        apply (shorthandConsistent_replaceDeclarator (h _ hmem)).2
        rintro value rfl hopen
        apply (ih id value hmem (hvalue id value hmem)).2
        intro part hpart
        exact hnone part (.value hmem hopen hpart)
      all_goals exact h _ hmem
  | entered node henters ih =>
    rw [Node.shorthandConsistent_iff] at h
    obtain ⟨hself, hbelow⟩ := h
    have hchild : ∀ child ∈ node.children, ((pass.replace child).ShorthandConsistent ↔
        ∀ part, child.Reaches pass.name part → pass.separates part = false) :=
      fun child hmem => ih child hmem (hbelow child (node.children_subset_parts hmem))
    rw [Node.shorthandConsistent_iff, isFaithful_rewrite hself, Bool.not_eq_true']
    constructor
    · rintro ⟨hnode, hparts⟩ part hreaches
      rcases (reaches_of_enters henters).1 hreaches with rfl | ⟨child, hmem, hpart⟩
      · exact hnode
      · refine (hchild child hmem).1 (hparts _ ?_) part hpart
        apply Node.children_subset_parts
        rw [pass.children_rewrite]
        exact List.mem_map_of_mem hmem
    · intro hnone
      refine ⟨hnone node (.root node), fun part hpart => ?_⟩
      -- A part is one that the pass does not go to, such as a key, or what it makes of a child.
      rcases Node.mem_parts_mapChildren hpart with hold | ⟨child, hmem, rfl⟩
      · rw [parts_spellOut] at hold
        exact hbelow part hold
      · rw [children_spellOut] at hmem
        apply (hchild child hmem).2
        intro part hreached
        apply hnone
        exact (reaches_of_enters henters).2 (.inr ⟨child, hmem, hreached⟩)

/-- **Where properties in short go wrong.** Trees that are consistent are consistent after a pass,
strict or not, exactly if it reaches no property in short that gives its name a default value, and
whose key is then not what the access is. -/
theorem applyAll_shorthandConsistent {pass : Pass} {nodes others : List Node}
    (h : pass.applyAll nodes = .ok others)
    (hconsistent : ∀ node ∈ nodes, node.ShorthandConsistent) :
    (∀ other ∈ others, other.ShorthandConsistent) ↔
      ∀ node ∈ nodes, ∀ part, node.Reaches pass.name part → pass.separates part = false := by
  obtain ⟨rfl, -⟩ := applyAll_ok_iff.1 h
  rw [List.forall_mem_map]
  apply forall₂_congr
  intro node hmem
  exact shorthandConsistent_replace (hconsistent node hmem)

/-- The pass of an exported variable `p`, by which a use becomes a member of the exports. -/
def exportP : Pass := ⟨"p", .member exportsParam "p", false⟩

/-- The property `\x7b p \x7d` of a name, where the value is the name alone. -/
def shortProperty (name : String) : Node :=
  .property (.identifier name) (.identifier name) "init" false false true

/-- The property `\x7b p = value \x7d` of a name, where the value is a pattern with a default. -/
def shortDefault (name : String) (value : Node) : Node :=
  .property (.identifier name) (.assignmentPattern (.identifier name) value) "init" false false true

/-- `f(\x7b p \x7d); function g(\x7b p = q \x7d) \x7b return p; \x7d (\x7b r = p \x7d = o);` -/
def shortProperties : List Node :=
  [.statement (.call (.identifier "f") [.objectExpression [shortProperty "p"]]),
    .functionDeclaration (some (.identifier "g"))
      [.objectPattern [shortDefault "p" (.identifier "q")]]
      (.blockStatement [.returnStatement (some (.identifier "p"))]) false false,
    .assignmentStatement (.objectPattern [shortDefault "r" (.identifier "p")]) (.identifier "o")]

/-- The first property is spelled out, the second belongs to a parameter `p`, and in the third only
the default value is replaced. -/
theorem applyAll_shorthandConsistent_shortProperties :
    ∃ others, exportP.applyAll shortProperties = .ok others ∧
      (∀ node ∈ shortProperties, node.ShorthandConsistent) ∧
      (∀ other ∈ others, other.ShorthandConsistent) ∧
      ∀ node ∈ shortProperties, ∀ part, node.Reaches exportP.name part →
        exportP.separates part = false := by
  have hconsistent : ∀ node ∈ shortProperties, node.ShorthandConsistent := by
    simp only [Node.shorthandConsistent_iff_all, ← List.all_eq_true]
    with_unfolding_all rfl
  have h : ∃ others, exportP.applyAll shortProperties = .ok others ∧
      (others.all fun other => other.within.all Node.isFaithful) = true := by
    refine ⟨[.statement (.call (.identifier "f") [.objectExpression
          [.property (.identifier "p") (.access exportsParam "p") "init" false false false]]),
        .functionDeclaration (some (.identifier "g"))
          [.objectPattern [shortDefault "p" (.identifier "q")]]
          (.blockStatement [.returnStatement (some (.identifier "p"))]) false false,
        .assignmentStatement (.objectPattern [shortDefault "r" (.access exportsParam "p")])
          (.identifier "o")], ?_, ?_⟩ <;> with_unfolding_all rfl
  obtain ⟨others, h, hall⟩ := h
  have hafter : ∀ other ∈ others, other.ShorthandConsistent := by
    simpa only [Node.shorthandConsistent_iff_all, ← List.all_eq_true] using hall
  exact ⟨others, h, hconsistent, hafter, (applyAll_shorthandConsistent h hconsistent).1 hafter⟩

/-- The statement `(\x7b p = q \x7d = o);`, which assigns to the name by a property in short. -/
def assignedInShort : Node :=
  .assignmentStatement (.objectPattern [shortDefault "p" (.identifier "q")]) (.identifier "o")

/-- What is assigned to is replaced, and the property stays in short, so that its key is no longer
the place. -/
theorem applyAll_shorthandInconsistent :
    assignedInShort.ShorthandConsistent ∧
      ∃ other, exportP.applyAll [assignedInShort] = .ok [other] ∧ ¬ other.ShorthandConsistent := by
  refine ⟨?_, .assignmentStatement (.objectPattern [.property (.identifier "p")
    (.assignmentPattern (.access exportsParam "p") (.identifier "q")) "init" false false true])
    (.identifier "o"), by with_unfolding_all rfl, ?_⟩
  · rw [Node.shorthandConsistent_iff_all]
    with_unfolding_all rfl
  · rw [Node.shorthandConsistent_iff_all, Bool.not_eq_true]
    with_unfolding_all rfl

end Pass

end DefineWrap
