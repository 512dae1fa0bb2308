/-
What a pass makes of a node, by cases.

There are five: the node is a use of the name; it is a function declaration of the
name; the name means something else inside it; it is a variable declaration; or the
pass goes on to its children and nothing else changes (`Pass.Enters`).
`Pass.replace_induction` is induction over a tree along these cases, and every
statement about a pass in this library is proved by it.
-/
import DefineWrap.Proofs.Estree.Lens
import DefineWrap.Proofs.Estree.Survey
import DefineWrap.Proofs.Wrap.Applying

set_option autoImplicit false

namespace DefineWrap

/-! ## Accesses -/

/-- What an access is written as: a member access of its parameter, or the parameter itself for a
whole-module import. Facts about all accesses need these two cases and no more. -/
theorem Access.node_eq_access_or_identifier (access : Access) :
    (∃ name, access.node = .access access.object name) ∨
      access.node = .identifier access.object := by
  cases access with
  | member object name => exact .inl ⟨name, rfl⟩
  | whole object => exact .inr rfl

/-- Both ways to write a member access have one form, a member expression that is not optional. If
it is computed, its member is a string, so no name is looked up in it either way. -/
theorem Node.exists_access_eq (object name : String) :
    ∃ member computed, Node.access object name =
      .memberExpression (.identifier object) member computed false ∧
      (computed = true → ∃ raw, member = .literal (.string name) raw none) := by
  unfold Node.access
  split
  · exact ⟨_, _, rfl, fun _ => ⟨_, rfl⟩⟩
  · exact ⟨_, _, rfl, fun h => absurd h (by decide)⟩

/-! ## Heads of nodes

What is said about a node without looking at its children stays true when the children
are replaced. -/

namespace Node

@[simp] theorem kind_mapChildren (f : Node → Node) (node : Node) :
    (node.mapChildren f).kind = node.kind := by
  cases node <;> rfl

@[simp] theorem identifierName?_mapChildren (f : Node → Node) (node : Node) :
    (node.mapChildren f).identifierName? = node.identifierName? := by
  cases node <;> rfl

/-- An optional name that is another one, or none at all, is not the name. Functions and classes
carry such optional names, and what shadows is decided by them. -/
theorem any_isIdentifier_eq_false {name : String} {id : Option Node}
    (h : ∀ other, ownName? id = some other → other ≠ name) :
    id.any (·.isIdentifier name) = false := by
  cases id with
  | none => rfl
  | some id =>
    rw [Option.any_some, Bool.eq_false_iff]
    intro hself
    rw [isIdentifier_iff] at hself
    exact h name (by rw [hself]; rfl) rfl

/-- An identifier as a pattern binds its name. So the two tests on a declarator, whether it is the
name and whether it binds the name, are ordered, and the first one is the special case. -/
theorem binds_of_isIdentifier {id : Node} {name : String} (h : id.isIdentifier name = true) :
    id.binds name = true := by
  rw [isIdentifier_iff.1 h]
  simp [binds]

end Node

namespace Pass

variable (pass : Pass)

@[simp] theorem kind_spellOut (node : Node) : (pass.spellOut node).kind = node.kind := by
  cases node <;> rfl

@[simp] theorem children_spellOut (node : Node) :
    (pass.spellOut node).children = node.children :=
  pass.nodes_places_spellOut node

@[simp] theorem identifierName?_spellOut (node : Node) :
    (pass.spellOut node).identifierName? = node.identifierName? := by
  cases node <;> rfl

/-- A function of the name of the pass is of no other name, which is why replacing it hides no other
pass anything. -/
theorem any_isIdentifier_of_isOwnName {name : String} (hname : name ≠ pass.name)
    {id : Option Node} (h : pass.isOwnName id = true) : id.any (·.isIdentifier name) = false := by
  cases id with
  | none => rfl
  | some id =>
    have hown : id = .identifier pass.name := Node.isIdentifier_iff.1 (by simpa [isOwnName] using h)
    simpa [hown] using Ne.symm hname

/-! ## Declarators -/

/-- The initial value of a declarator after the pass. It becomes the value of an assignment to the
access if the declarator is of the name alone, and it is left as it is if a pattern binds the name
among others. -/
def replaceValue (id : Node) (init : Option Node) : Option Node :=
  if id.isIdentifier pass.name then init.map (.assignment pass.access.node ·)
  else if id.binds pass.name then init
  else init.map pass.replace

/-- A declarator without an initial value gets none, and so nothing is assigned where the name is
only declared. -/
theorem replaceValue_none (id : Node) : pass.replaceValue id none = none := by
  unfold replaceValue
  split
  · rfl
  · split <;> rfl

/-- A pass changes what the initial value is, but never whether there is one. Surveys that look for
initial values may ask before or after the pass. -/
theorem isSome_replaceValue (id : Node) (init : Option Node) :
    (pass.replaceValue id init).isSome = init.isSome := by
  unfold replaceValue
  split
  · rw [Option.isSome_map]
  · split
    · rfl
    · rw [Option.isSome_map]

/-- A declarator after the pass: the pattern stays as it is, also its default values, and only the
initial value is looked at. -/
def replaceDeclarator : Node → Node
  | .variableDeclarator id init => .variableDeclarator id (pass.replaceValue id init)
  | other => other

instance exact_declaratorPlaces (f : Node → Node) (node : Node) :
    (pass.declaratorPlaces node).Exact f := by
  unfold declaratorPlaces
  split
  · split
    · exact Places.exact_keep _
    · split
      · exact Places.exact_keep _
      · exact Places.exact_map _
  · exact Places.exact_keep _

/-- The places of a declarator, mapped by the pass, are the declarator after it. This takes the
three kinds of places apart once, and no later proof looks at the table of places again. -/
theorem mapped_declaratorPlaces (node : Node) :
    (pass.declaratorPlaces node).mapped pass.replace = pass.replaceDeclarator node := by
  cases node
  case variableDeclarator id init =>
    unfold declaratorPlaces replaceDeclarator replaceValue
    by_cases hself : id.isIdentifier pass.name = true
    · simp [hself]
    · by_cases hbinds : id.binds pass.name = true
      · simp [hself, hbinds]
      · simp [hself, hbinds]
  all_goals rfl

/-! ## The five cases -/

/-- The pass goes on to all children of a node and changes nothing else but that a
property may have to be spelled out. -/
structure Enters (node : Node) : Prop where
  unreplaced : pass.replacement? node = none
  undeclared : node.kind ≠ .variableDeclaration
  unshadowed : pass.isShadowedBy node = false

/-- A node that the pass enters, after the pass: its children are replaced, and a shorthand property
whose value is a use of the name is spelled out before. -/
def rewrite (node : Node) : Node := (pass.spellOut node).mapChildren pass.replace

/-- The same by the places of the node, which is the form where a constructor evaluates to the
constructor with its fields replaced. -/
theorem rewrite_eq_mapped (node : Node) :
    pass.rewrite node = (pass.spellOut node).places.mapped pass.replace := rfl

@[simp] theorem kind_rewrite (node : Node) : (pass.rewrite node).kind = node.kind := by
  rw [rewrite, Node.kind_mapChildren, kind_spellOut]

/-- What a pass enters is no variable declaration afterwards, either. Surveys treat variable
declarations apart, and so their equation for all other nodes applies on both sides of the pass. -/
theorem Enters.rewrite_undeclared {pass : Pass} {node : Node} (h : pass.Enters node) :
    (pass.rewrite node).kind ≠ .variableDeclaration := by
  rw [kind_rewrite]
  exact h.undeclared

@[simp] theorem children_rewrite (node : Node) :
    (pass.rewrite node).children = node.children.map pass.replace := by
  rw [rewrite, Node.children_mapChildren, children_spellOut]

@[simp] theorem identifierName?_rewrite (node : Node) :
    (pass.rewrite node).identifierName? = node.identifierName? := by
  rw [rewrite, Node.identifierName?_mapChildren, identifierName?_spellOut]

/-- The first of the five cases: an identifier is replaced by the access if it is of the name, and
stays otherwise. -/
theorem replace_identifier (name : String) :
    pass.replace (.identifier name) =
      if name = pass.name then pass.access.node else .identifier name := by
  rw [replace_eq]
  by_cases h : name = pass.name
  · simp [replacement?, h]
  · simp only [replacement?, h, if_false, Option.getD_none]
    rfl

/-- The second case: a function declaration of the name becomes an assignment of the function to the
access. The function itself is not entered, since it would bind its own name. -/
theorem replace_functionDeclaration_own {id : Option Node} (params : List Node) (body : Node)
    (generator isAsync : Bool) (h : pass.isOwnName id = true) :
    pass.replace (.functionDeclaration id params body generator isAsync) =
      .assignmentStatement pass.access.node
        (.functionExpression id params body generator isAsync) := by
  rw [replace_eq]
  simp [replacement?, h, Node.asExpression]

/-- The fourth case: in a variable declaration each declarator is replaced by itself. The kind
stays, and so does the number of the declarators. -/
theorem replace_variableDeclaration (declarations : List Node) (kind : VariableKind) :
    pass.replace (.variableDeclaration declarations kind) =
      .variableDeclaration (declarations.map pass.replaceDeclarator) kind := by
  rw [replace_eq]
  have hmapped : ((pass.places (.variableDeclaration declarations kind)).mapped pass.replace) =
      .variableDeclaration (declarations.map pass.replaceDeclarator) kind := by
    simp only [places, Places.mapped_map, Places.mapped_each, mapped_declaratorPlaces]
  exact hmapped

/-- A function declaration that is not replaced as a whole is not of the name of the pass, so that
its own name never stands in the way of entering it. -/
theorem isOwnName_eq_false {id : Option Node} {params : List Node} {body : Node}
    {generator isAsync : Bool} (h : pass.replacement?
      (.functionDeclaration id params body generator isAsync) = none) :
    pass.isOwnName id = false := by
  rw [Bool.eq_false_iff]
  intro hid
  simp [replacement?, hid] at h

/-- The names in a variable declaration are not shadowed by it. So the third and the fourth of the
five cases exclude each other and need no order. -/
theorem kind_ne_of_shadowed {node : Node} (h : pass.isShadowedBy node = true) :
    node.kind ≠ .variableDeclaration := by
  intro hkind
  obtain ⟨declarations, kind, rfl⟩ := Node.hasFormOf_of_kind_eq hkind
  cases h

/-- Apart from variable declarations a pass has either no places in a node or all of them. This is
what makes the five cases complete. -/
theorem places_eq {node : Node} (h : node.kind ≠ .variableDeclaration) :
    pass.places node =
      if pass.isShadowedBy node then .keep node else (pass.spellOut node).places := by
  cases node <;> first | rfl | exact absurd rfl h

/-- The third case: inside a node that shadows the name nothing is changed, since no place of it is
kept. -/
theorem replace_of_shadowed {node : Node} (h : pass.replacement? node = none)
    (hshadowed : pass.isShadowedBy node = true) : pass.replace node = node := by
  rw [replace_eq, h, Option.getD_none, onward, places_eq pass (pass.kind_ne_of_shadowed hshadowed),
    if_pos hshadowed]
  rfl

/-- The last case: where none of the other four applies, all children are replaced and the rest of
the node stays. -/
theorem replace_of_enters {node : Node} (h : pass.Enters node) :
    pass.replace node = pass.rewrite node := by
  have hplaces : pass.places node = (pass.spellOut node).places := by
    rw [places_eq pass h.undeclared, h.unshadowed]
    rfl
  rw [replace_eq, h.unreplaced, Option.getD_none, onward, hplaces]
  rfl

/-- What a pass replaces as a whole is a use of the name or a function declaration of it. Every
other node stays a node of its form. -/
theorem replacement?_isSome {node : Node} (h : pass.replacement? node ≠ none) :
    node = .identifier pass.name ∨ ∃ id params body generator isAsync,
      node = .functionDeclaration id params body generator isAsync ∧ pass.isOwnName id = true := by
  cases node
  case identifier name =>
    by_cases hname : name = pass.name
    · exact .inl (by rw [hname])
    · simp [replacement?, hname] at h
  case functionDeclaration id params body generator isAsync =>
    by_cases hid : pass.isOwnName id = true
    · exact .inr ⟨id, params, body, generator, isAsync, rfl, hid⟩
    · simp [replacement?, hid] at h
  all_goals exact absurd rfl h

/-- **Induction along a pass.** The relation `motive` between a node and what becomes of
it is shown for each of the five cases; in the last two it may be used for the initial
values of the declarators and for the children. -/
theorem replace_induction {motive : Node → Node → Prop}
    (reference : motive (.identifier pass.name) pass.access.node)
    (function : ∀ id params body generator isAsync, pass.isOwnName id = true →
      motive (.functionDeclaration id params body generator isAsync)
        (.assignmentStatement pass.access.node
          (.functionExpression id params body generator isAsync)))
    (shadowed : ∀ node, pass.replacement? node = none → pass.isShadowedBy node = true →
      motive node node)
    (declaration : ∀ declarations kind,
      (∀ id init, .variableDeclarator id (some init) ∈ declarations →
        motive init (pass.replace init)) →
      motive (.variableDeclaration declarations kind)
        (.variableDeclaration (declarations.map pass.replaceDeclarator) kind))
    (entered : ∀ node, pass.Enters node →
      (∀ child ∈ node.children, motive child (pass.replace child)) →
      motive node (pass.rewrite node))
    (node : Node) : motive node (pass.replace node) := by
  -- By size, since the initial values of a declaration are not its children but theirs.
  induction hsize : sizeOf node using Nat.strongRecOn generalizing node with
  | _ size ih =>
    subst hsize
    by_cases hreplaced : pass.replacement? node = none
    · by_cases hshadowed : pass.isShadowedBy node = true
      · rw [pass.replace_of_shadowed hreplaced hshadowed]
        exact shadowed node hreplaced hshadowed
      · by_cases hkind : node.kind = .variableDeclaration
        · obtain ⟨declarations, kind, rfl⟩ := Node.hasFormOf_of_kind_eq hkind
          rw [replace_variableDeclaration]
          refine declaration _ _ fun id init hmem => ih _ ?_ init rfl
          have hlt := List.sizeOf_lt_of_mem hmem
          simp only [Node.variableDeclarator.sizeOf_spec, Option.some.sizeOf_spec] at hlt
          simp only [Node.variableDeclaration.sizeOf_spec]
          omega
        · have henters : pass.Enters node := ⟨hreplaced, hkind, by simpa using hshadowed⟩
          rw [pass.replace_of_enters henters]
          exact entered node henters fun child hmem =>
            ih _ (Node.sizeOf_lt_of_mem_children hmem) child rfl
    · rcases pass.replacement?_isSome hreplaced with rfl |
        ⟨id, params, body, generator, isAsync, rfl, hid⟩
      · rw [replace_identifier, if_pos rfl]
        exact reference
      · rw [pass.replace_functionDeclaration_own params body generator isAsync hid]
        exact function id params body generator isAsync hid

/-! ## Passes over several nodes, and several passes over a node -/

/-- A node after several passes, the first one first. The passes of the imports come before those of
the exports, so the order is part of what is said about a module. -/
def replaceAll (passes : List Pass) (node : Node) : Node :=
  passes.foldl (fun node pass => pass.replace node) node

@[simp] theorem replaceAll_nil (node : Node) : replaceAll [] node = node := rfl

@[simp] theorem replaceAll_cons (passes : List Pass) (node : Node) :
    replaceAll (pass :: passes) node = replaceAll passes (pass.replace node) := rfl

omit pass in
/-- Passes in two groups are the second group after the first. A statement that is taken between two
others has its own passes between theirs. -/
theorem replaceAll_append (first second : List Pass) (node : Node) :
    replaceAll (first ++ second) node = replaceAll second (replaceAll first node) :=
  List.foldl_append

/-- What no pass of a list changes about any node, the whole list does not change. The head of a
statement is read off after all passes as if there had been none. -/
theorem replaceAll_invariant {α : Type} {f : Node → α} {passes : List Pass}
    (step : ∀ pass ∈ passes, ∀ node, f (pass.replace node) = f node) (node : Node) :
    f (replaceAll passes node) = f node := by
  induction passes generalizing node with
  | nil => rfl
  | cons pass rest ih =>
    rw [replaceAll_cons, ih fun other hmem => step other (List.mem_cons_of_mem _ hmem)]
    exact step pass List.mem_cons_self node

/-- A node that no pass of a list changes stays as it is, which is used for statements that mention
no variable at all. -/
theorem replaceAll_eq_self {passes : List Pass} {node : Node}
    (h : ∀ pass ∈ passes, pass.replace node = node) : replaceAll passes node = node := by
  induction passes with
  | nil => rfl
  | cons pass rest ih =>
    rw [replaceAll_cons, h pass List.mem_cons_self]
    exact ih fun other hmem => h other (List.mem_cons_of_mem _ hmem)

/-! ## Exports -/

/-- A pass goes into an exported declaration and into a list of exported locals. The entries of a
re-export are names of the other module and are left alone. -/
theorem replace_exportNamedDeclaration (declaration : Option Node) (specifiers : List Node)
    (source : Option Node) :
    pass.replace (.exportNamedDeclaration declaration specifiers source) =
      .exportNamedDeclaration (declaration.map pass.replace)
        (if source.isNone then specifiers.map pass.replace else specifiers) source := by
  have henters : pass.Enters (.exportNamedDeclaration declaration specifiers source) :=
    ⟨rfl, of_decide_eq_false rfl, rfl⟩
  rw [pass.replace_of_enters henters]
  simp [rewrite_eq_mapped, spellOut, Node.places]

omit pass in
/-- What is exported goes through all passes, but a re-export mentions no variable and stays as it
is. The source is kept, so which of the two it is can be asked before the passes. -/
theorem replaceAll_exportNamedDeclaration (passes : List Pass) (declaration : Option Node)
    (specifiers : List Node) (source : Option Node) :
    replaceAll passes (.exportNamedDeclaration declaration specifiers source) =
      .exportNamedDeclaration (declaration.map (replaceAll passes))
        (if source.isNone then specifiers.map (replaceAll passes) else specifiers) source := by
  induction passes generalizing declaration specifiers with
  | nil =>
    have hnil : replaceAll [] = id := rfl
    simp [hnil]
  | cons pass rest ih =>
    have hcons : replaceAll (pass :: rest) = fun node => replaceAll rest (pass.replace node) := rfl
    rw [replaceAll_cons, replace_exportNamedDeclaration, ih]
    cases source <;> simp [hcons, Function.comp_def]

end Pass

end DefineWrap
