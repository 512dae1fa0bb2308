/-
Accesses that refer to the parameters of the wrapper.

The parameters have fixed names, and nothing keeps a module from binding these names itself. So it
depends on the module whether an access that is put in refers to its parameter: on what the module
declares for its whole body, and on the constructs of the module around the place of the access.

It depends on nothing else. From a part of the source to what has become of it in the wrapped
module (`Kept`), what is captured in it grows by one access at most for each place that the part has
for an access to the parameter in a construct that binds the name, and no name is declared that was
not declared before. The parts of all statements together make this a property of the wrapped module
(`Program.wrap_captured`).
-/
import DefineWrap.Proofs.Wrap.Capture
import DefineWrap.Proofs.Wrap.Segments

set_option autoImplicit false

namespace DefineWrap

namespace Node

variable {α : Type}

/-! ## Parts that are handed over -/

/-- The parts of a statement that are put into the wrapped module. What is collected from the
statement is collected from these, whatever is collected. -/
def handedParts (statement : Node) : List Node := statement.handed fun part => [part]

/-- What is collected from the value of a declarator is what is collected from its part. -/
theorem initialOf_eq (collect : Node → List α) (declarator : Node) :
    declarator.initialOf collect = (declarator.initialOf fun part => [part]).flatMap collect := by
  cases declarator
  case variableDeclarator id init =>
    rw [initialOf, initialOf, List.flatMap_assoc]
    simp only [List.flatMap_singleton]
  all_goals rfl

theorem localOf_eq (collect : Node → List α) (specifier : Node) :
    specifier.localOf collect = (specifier.localOf fun part => [part]).flatMap collect := by
  cases specifier
  case exportSpecifier => exact (List.flatMap_singleton ..).symm
  all_goals rfl

/-- What is collected from a statement is what is collected from its parts. So parts are defined as
what is handed over if every node is collected as itself. -/
theorem handed_eq (collect : Node → List α) (statement : Node) :
    statement.handed collect = statement.handedParts.flatMap collect := by
  have hsingle : ∀ part, collect part = [part].flatMap collect := fun part =>
    (List.flatMap_singleton ..).symm
  unfold handedParts handed
  split
  · exact hsingle _
  · rw [List.flatMap_assoc]
    exact List.flatMap_congr fun declarator _ => declarator.initialOf_eq collect
  · exact hsingle _
  · rw [List.flatMap_assoc]
    exact List.flatMap_congr fun specifier _ => specifier.localOf_eq collect
  · rfl
  · rfl
  · exact hsingle _

theorem flatMap_handedParts (collect : Node → List α) (statements : List Node) :
    (statements.flatMap handedParts).flatMap collect = statements.flatMap (handed collect) :=
  List.flatMap_assoc.trans
    (List.flatMap_congr fun statement _ => (handed_eq collect statement).symm)

/-- The parts of a declaration of single names are its initial values, one for each declarator that
has one. -/
theorem handedParts_variableDeclaration {declarations : List Node}
    (hids : ∀ id init, .variableDeclarator id init ∈ declarations → ∃ name, id = .identifier name)
    (kind : VariableKind) (specifiers : List Node) (source : Option Node) :
    (exportNamedDeclaration (some (.variableDeclaration declarations kind)) specifiers
        source).handedParts =
      (declarations.flatMap initialised).flatMap fun initial => [initial.2] := by
  have hinitial : ∀ declarator ∈ declarations, (declarator.initialOf fun part => [part]) =
      declarator.initialised.flatMap fun initial => [initial.2] := by
    intro declarator hmem
    cases declarator
    case variableDeclarator id init =>
      obtain ⟨name, rfl⟩ := hids id init hmem
      cases init <;> rfl
    all_goals rfl
  exact (List.flatMap_congr hinitial).trans List.flatMap_assoc.symm

theorem handedParts_list {specifiers : List Node} {entries : List (Node × String)}
    (hentries : specifiers.mapM exportEntry = .ok entries) :
    (exportNamedDeclaration none specifiers none).handedParts =
      entries.flatMap fun entry => [entry.1] := by
  refine Except.flatMap_of_mapM_ok hentries fun specifier entry hread => ?_
  obtain ⟨node, rfl⟩ :=
    exportEntry_ok (show exportEntry specifier = .ok (entry.1, entry.2) from hread)
  rfl

/-! ## Names that an assignment declares -/

/-- An assignment to an access declares for its body what its value has in it by `var`, which is
nothing for a value that comes from a text. -/
theorem bodyNames_assignment (access : Access) (value : Node) :
    (assignment access.node value).bodyNames = value.hoistedNames := by
  have haccess := hoistedNames_eq_nil (Pass.scopeDeclarations_access access)
  have hchildren : (assignment access.node value).children = [access.node, value] := rfl
  change [] ++ (assignment access.node value).hoistedNames = _
  rw [hoistedNames_eq, show (assignment access.node value).directDeclarations? = none from rfl,
    hchildren]
  simp [haccess]

theorem bodyNames_assignmentStatement (access : Access) (value : Node) :
    (assignmentStatement access.node value).bodyNames = value.hoistedNames := by
  rw [← bodyNames_assignment access value]
  change [] ++ (assignmentStatement access.node value).hoistedNames =
    [] ++ (assignment access.node value).hoistedNames
  rw [hoistedNames_eq]
  exact List.append_nil _

/-- What comes up from inside a statement is among what it declares for its body. -/
theorem hoistedNames_subset_bodyNames (node : Node) : node.hoistedNames ⊆ node.bodyNames :=
  List.subset_append_right _ _

end Node

/-! ## What becomes of a part -/

/-- Passes that put accesses to parameters in the place of other names. All passes of a module are
of this kind, if no parameter is imported or declared by an export. -/
structure Proper (table : Dependencies) (passes : List Pass) : Prop where
  name : ∀ pass ∈ passes, table.injects pass.name = false
  object : ∀ pass ∈ passes, table.injects pass.access.object = true

/-- Some of these passes are of this kind as well, for instance those that come before a
statement. -/
theorem Proper.subset {table : Dependencies} {passes others : List Pass} (h : Proper table passes)
    (hsub : others ⊆ passes) : Proper table others :=
  ⟨fun pass hmem => h.name pass (hsub hmem), fun pass hmem => h.object pass (hsub hmem)⟩

theorem Proper.nil {table : Dependencies} : Proper table [] :=
  ⟨fun _ hmem => absurd hmem List.not_mem_nil, fun _ hmem => absurd hmem List.not_mem_nil⟩

/-- The names that accesses to a parameter take the place of, by some passes. -/
def accessedNames (param : String) (passes : List Pass) : List String :=
  (passes.filter (·.access.object = param)).map (·.name)

/-- Where accesses to a parameter are put in the place of names inside constructs that bind the name
of the parameter. A place is counted once for each name that it has. -/
def accessPlaces (param : String) (names : List String) (node : Node) : List String :=
  names.flatMap fun name => (placed param name).gather .outside node

theorem accessedNames_append (param : String) (passes more : List Pass) :
    accessedNames param (passes ++ more) =
      accessedNames param passes ++ accessedNames param more := by
  rw [accessedNames, List.filter_append, List.map_append]
  rfl

/-- If all passes put accesses to one parameter in, these are all their names or none. The passes of
exports are such a group. -/
theorem accessedNames_of_object {object : String} {passes : List Pass}
    (h : ∀ pass ∈ passes, pass.access.object = object) (param : String) :
    accessedNames param passes = if param = object then passes.map (·.name) else [] := by
  unfold accessedNames
  split
  · rename_i hsame
    rw [List.filter_eq_self.2 fun pass hmem => decide_eq_true ((h pass hmem).trans hsame.symm)]
  · rename_i hother
    rw [List.filter_eq_nil_iff.2 fun pass hmem => by simpa [h pass hmem] using Ne.symm hother]
    rfl

theorem accessPlaces_append (param : String) (names more : List String) (node : Node) :
    accessPlaces param (names ++ more) node =
      accessPlaces param names node ++ accessPlaces param more node :=
  List.flatMap_append

/-- From a part of a module to what has become of it, after the given passes at most. Besides the
two bounds it says what the next step needs: that there are no more places, and no more names
declared. -/
structure Kept (table : Dependencies) (param : String) (passes : List Pass) (node after : Node) :
    Prop where
  captured_le : ((captured param).gather .outside node).length ≤
    ((captured param).gather .outside after).length
  captured_le_add : ((captured param).gather .outside after).length ≤
    ((captured param).gather .outside node).length +
      (accessPlaces param (accessedNames param passes) node).length
  placed_le : ∀ name, table.injects name = false →
    ((placed param name).gather .outside after).length ≤
      ((placed param name).gather .outside node).length
  declared : param ∈ after.bodyNames → param ∈ node.bodyNames

namespace Kept

variable {table : Dependencies} {param : String} {passes more : List Pass}
  {node middle after : Node}

theorem refl (node : Node) : Kept table param [] node node :=
  ⟨Nat.le_refl _, Nat.le_refl _, fun _ _ => Nat.le_refl _, id⟩

/-- Two steps in a row. The second bound speaks of the places in the middle, and these are no more
than those in the part itself. -/
theorem trans (hproper : Proper table more) (first : Kept table param passes node middle)
    (second : Kept table param more middle after) :
    Kept table param (passes ++ more) node after := by
  -- The places for the later passes have been in the part from the beginning.
  have hplaces : (accessPlaces param (accessedNames param more) middle).length ≤
      (accessPlaces param (accessedNames param more) node).length := by
    refine length_flatMap_le fun name hname => ?_
    obtain ⟨pass, hpass, rfl⟩ := List.mem_map.1 hname
    exact first.placed_le _ (hproper.name pass (List.mem_of_mem_filter hpass))
  have hfirst := first.captured_le_add
  have hsecond := second.captured_le_add
  refine ⟨Nat.le_trans first.captured_le second.captured_le, ?_, fun name hname =>
    Nat.le_trans (second.placed_le name hname) (first.placed_le name hname),
    first.declared ∘ second.declared⟩
  rw [accessedNames_append, accessPlaces_append, List.length_append]
  omega

/-- With more passes the bounds are weaker, so each part can be stated with the passes of the whole
module. -/
theorem sublist (h : Kept table param passes node after) (hsub : passes.Sublist more) :
    Kept table param more node after := by
  have hplaces : (accessPlaces param (accessedNames param passes) node).length ≤
      (accessPlaces param (accessedNames param more) node).length :=
    (((hsub.filter _).map _).flatMap _).length_le
  exact ⟨h.captured_le, Nat.le_trans h.captured_le_add (Nat.add_le_add_left hplaces _), h.placed_le,
    h.declared⟩

/-- A step that captures nothing and makes no places. No pass is needed for such a one. -/
theorem of_eq (hcaptured : (captured param).gather .outside after =
      (captured param).gather .outside node)
    (hplaced : ∀ name, ((placed param name).gather .outside after).length ≤
      ((placed param name).gather .outside node).length)
    (hdeclared : param ∈ after.bodyNames → param ∈ node.bodyNames) :
    Kept table param [] node after := by
  refine ⟨?_, ?_, fun name _ => hplaced name, hdeclared⟩
  · exact Nat.le_of_eq (congrArg List.length hcaptured).symm
  · rw [hcaptured]
    exact Nat.le_add_right _ _

/-! ### The steps -/

/-- An assignment of the part to an access captures nothing at the top of a module: the access
itself stands in no construct. -/
theorem assignment (access : Access) (node : Node) :
    Kept table param [] node (.assignment access.node node) := by
  refine of_eq (captured.plain.gather_assignment _ access node) (fun name => ?_) ?_
  · rw [placed.plain.gather_assignment]
    exact Nat.le_refl _
  · rw [Node.bodyNames_assignment]
    exact fun hmem => node.hoistedNames_subset_bodyNames hmem

theorem assignmentStatement (access : Access) (node : Node) :
    Kept table param [] node (.assignmentStatement access.node node) := by
  refine of_eq (captured.plain.gather_assignmentStatement _ access node) (fun name => ?_) ?_
  · rw [placed.plain.gather_assignmentStatement]
    exact Nat.le_refl _
  · rw [Node.bodyNames_assignmentStatement]
    exact fun hmem => node.hoistedNames_subset_bodyNames hmem

/-- A declaration of another name may become an expression. One of the name of the parameter would
bind the name for its own body by it. -/
theorem asExpression {declaration : Node}
    (hname : ∀ name, declarationName? declaration = some name → name ≠ param) :
    Kept table param [] declaration declaration.asExpression := by
  refine of_eq (captured.gather_asExpression hname _)
    (fun name => placed.length_gather_asExpression_le hname _) ?_
  cases declaration
  case functionDeclaration | classDeclaration =>
    rw [Node.asExpression, Node.bodyNames, Node.hoistedNames_eq]
    exact fun hmem => absurd hmem List.not_mem_nil
  all_goals exact id

variable (hparam : table.injects param = true)
include hparam

/-- A pass captures what it puts in the places for its name: as many accesses as there are places if
it is to the parameter, and none otherwise. -/
theorem replace {pass : Pass} (hproper : Proper table [pass]) (node : Node) :
    Kept table param [pass] node (pass.replace node) := by
  have hname := hproper.name pass (List.mem_singleton_self _)
  have hinjects := hproper.object pass (List.mem_singleton_self _)
  have hne : param ≠ pass.name := Dependencies.ne_of_injects hname hparam
  have hplaced : ∀ name, table.injects name = false →
      ((placed param name).gather .outside (pass.replace node)).length ≤
        ((placed param name).gather .outside node).length := fun name hother =>
    placed.length_gather_replace_le (Dependencies.ne_of_injects hother hinjects) hne .outside node
  have hdeclared := (pass.mem_bodyNames_replace hne node).1
  by_cases hobject : pass.access.object = param
  · have hlength := captured.length_gather_replace_of_object hobject hne node .outside
    have hplaces : accessPlaces param (accessedNames param [pass]) node =
        (placed param pass.name).gather .outside node := by
      simp [accessPlaces, accessedNames, hobject]
    refine ⟨?_, ?_, hplaced, hdeclared⟩
    · rw [hlength]
      exact Nat.le_add_right _ _
    · rw [hplaces]
      exact Nat.le_of_eq hlength
  · have hsame := captured.gather_replace_of_ne hobject hne .outside node
    refine ⟨?_, ?_, hplaced, hdeclared⟩
    · exact Nat.le_of_eq (congrArg List.length hsame).symm
    · rw [hsame]
      exact Nat.le_add_right _ _

theorem replaceAll (hproper : Proper table passes) (node : Node) :
    Kept table param passes node (Pass.replaceAll passes node) := by
  induction passes generalizing node with
  | nil => exact refl node
  | cons pass rest ih =>
    have hfirst := replace hparam (hproper.subset (by simp : [pass] ⊆ pass :: rest)) node
    have hrest := hproper.subset (List.subset_cons_self pass rest)
    exact hfirst.trans hrest (ih hrest _)

/-- The initial value of an exported declarator, for which some of the passes are assignments and
not replacements. -/
theorem replaceInitials (hproper : Proper table passes) (name : String) (value : Node) :
    Kept table param passes value (Pass.replaceInitials passes name value) := by
  induction passes generalizing value with
  | nil => exact refl value
  | cons pass rest ih =>
    have hfirst : Kept table param [pass] value (pass.replaceInitial name value) := by
      unfold Pass.replaceInitial
      split
      · exact (assignment pass.access value).sublist (List.nil_sublist _)
      · exact replace hparam (hproper.subset (by simp : [pass] ⊆ pass :: rest)) value
    have hrest := hproper.subset (List.subset_cons_self pass rest)
    exact hfirst.trans hrest (ih hrest _)

/-- A declaration goes through the passes before its statement, and is an expression then. It has
kept its name or lost it, and neither is that of the parameter. -/
theorem expression (hproper : Proper table passes) {declaration : Node}
    (hname : ∀ name, declarationName? declaration = some name → name ≠ param) :
    Kept table param passes declaration (Pass.replaceAll passes declaration).asExpression := by
  have hreplaced := replaceAll hparam hproper declaration
  have hboth := hreplaced.trans .nil
    (asExpression fun name hafter => hname name (Pass.declarationName?_replaceAll hafter))
  rwa [List.append_nil] at hboth

/-- An assignment to the exports, whose value goes through the passes before its statement, and
which goes through those after it as a whole. -/
theorem assigned {between : List Pass} {exported : String} {value : List Pass → Node}
    {assignment : Node} (hproper : Proper table passes)
    (h : Assigned passes between exported value assignment)
    (hvalue : ∀ before, Proper table before → Kept table param before node (value before)) :
    Kept table param passes node assignment := by
  obtain ⟨before, after, rfl, rfl⟩ := h
  have hbefore : Proper table before := hproper.subset (by simp)
  have hafter : Proper table after := hproper.subset (by simp)
  have hassigned := (hvalue before hbefore).trans .nil
    (assignmentStatement (.member exportsParam exported) (value before))
  have hall := hassigned.trans hafter (replaceAll hparam hafter _)
  rw [Pass.replaceAll_assignmentStatement, List.append_nil] at hall
  exact hall.sublist ((List.sublist_append_left before between).append (List.Sublist.refl after))

end Kept

/-! ## What a statement contributes -/

/-- Parts of a module in which no construct binds a name and which declare none. Such parts are
generated for exports, or are lost by them, and so the counting must not mind them. -/
structure Silent (node : Node) : Prop where
  captured_eq : ∀ param, (captured param).gather .outside node = []
  placed_eq : ∀ param name, (placed param name).gather .outside node = []
  bodyNames_eq : node.bodyNames = []

theorem silent_identifier (name : String) : Silent (.identifier name) := by
  refine ⟨fun param => Survey.gather_identifier _ _ name,
    fun param other => Survey.gather_identifier _ _ name, ?_⟩
  rw [Node.bodyNames, Node.hoistedNames_eq]
  rfl

theorem silent_access (access : Access) : Silent access.node := by
  refine ⟨fun param => captured.plain.gather_access _ access,
    fun param name => placed.plain.gather_access _ access, ?_⟩
  have hlexical : access.node.lexicalNames = [] := by
    rcases Pass.kind_access access with h | h <;>
      cases hnode : access.node <;> first | rfl | (rw [hnode] at h; cases h)
  rw [Node.bodyNames, hlexical, Node.hoistedNames_eq_nil (Pass.scopeDeclarations_access access)]
  rfl

/-- From the parts of a module to what the wrapped module gets from them: the bounds of `Kept` for
several parts and several statements at once. -/
structure Yields (param : String) (names : List String) (parts nodes : List Node) : Prop where
  captured_le : (parts.flatMap ((captured param).gather .outside)).length ≤
    (nodes.flatMap ((captured param).gather .outside)).length
  captured_le_add : (nodes.flatMap ((captured param).gather .outside)).length ≤
    (parts.flatMap ((captured param).gather .outside)).length +
      (parts.flatMap (accessPlaces param names)).length
  declared : (∃ node ∈ nodes, param ∈ node.bodyNames) → ∃ part ∈ parts, param ∈ part.bodyNames

namespace Yields

variable {table : Dependencies} {param : String} {names : List String} {parts nodes : List Node}

theorem nil : Yields param names [] [] := by
  refine ⟨Nat.le_refl _, Nat.le_refl _, ?_⟩
  rintro ⟨node, hnode, -⟩
  cases hnode

/-- What two groups yield is put in a row, and the bounds add up. -/
theorem append {parts' nodes' : List Node} (first : Yields param names parts nodes)
    (second : Yields param names parts' nodes') :
    Yields param names (parts ++ parts') (nodes ++ nodes') := by
  obtain ⟨hle, hadd, hdeclared⟩ := first
  obtain ⟨hle', hadd', hdeclared'⟩ := second
  refine ⟨?_, ?_, ?_⟩
  · simp only [List.flatMap_append, List.length_append]
    omega
  · simp only [List.flatMap_append, List.length_append]
    omega
  · rintro ⟨node, hnode, hmem⟩
    rcases List.mem_append.1 hnode with hnode | hnode
    · obtain ⟨part, hpart, hfound⟩ := hdeclared ⟨node, hnode, hmem⟩
      exact ⟨part, List.mem_append_left _ hpart, hfound⟩
    · obtain ⟨part, hpart, hfound⟩ := hdeclared' ⟨node, hnode, hmem⟩
      exact ⟨part, List.mem_append_right _ hpart, hfound⟩

/-- One contribution after the other, where each item is related to what comes of it. -/
theorem flatMap {α β : Type} {related : α → β → Prop} {items : List α} {others : List β}
    (h : List.Forall₂ related items others) {parts : α → List Node} {nodes : β → List Node}
    (each : ∀ item ∈ items, ∀ other, related item other →
      Yields param names (parts item) (nodes other)) :
    Yields param names (items.flatMap parts) (others.flatMap nodes) := by
  induction h with
  | nil => exact nil
  | cons hfirst _ ih =>
    exact (each _ List.mem_cons_self _ hfirst).append
      (ih fun item hitem => each item (List.mem_cons_of_mem _ hitem))

theorem of_kept {passes : List Pass} {node after : Node}
    (h : Kept table param passes node after) :
    Yields param (accessedNames param passes) [node] [after] := by
  refine ⟨?_, ?_, ?_⟩
  · simpa only [List.flatMap_singleton] using h.captured_le
  · simpa only [List.flatMap_singleton] using h.captured_le_add
  · rintro ⟨other, hother, hmem⟩
    rw [List.mem_singleton.1 hother] at hmem
    exact ⟨node, List.mem_singleton_self _, h.declared hmem⟩

/-- Where there is nothing in a part, it does not count, and so statements may be generated from no
part at all. -/
theorem of_silent {part : Node} (hpart : Silent part) (h : Yields param names [part] nodes) :
    Yields param names [] nodes := by
  obtain ⟨-, hadd, hdeclared⟩ := h
  have hplaces : accessPlaces param names part = [] :=
    List.flatMap_eq_nil_iff.2 fun name _ => hpart.placed_eq param name
  simp only [List.flatMap_singleton, hpart.captured_eq, hplaces] at hadd
  refine ⟨Nat.zero_le _, hadd, fun hnode => ?_⟩
  obtain ⟨other, hother, hmem⟩ := hdeclared hnode
  rw [List.mem_singleton.1 hother, hpart.bodyNames_eq] at hmem
  exact absurd hmem List.not_mem_nil

/-- Nor does it count that nothing becomes of it, as of the entry of a list that starts a pass. -/
theorem nil_of_silent {part : Node} (hpart : Silent part) : Yields param names [part] [] := by
  refine ⟨?_, Nat.zero_le _, ?_⟩
  · rw [List.flatMap_singleton, hpart.captured_eq]
    exact Nat.le_refl _
  · rintro ⟨node, hnode, -⟩
    cases hnode

end Yields

/-- **What a statement contributes**, from its parts. There is one case for each form of statement,
and in each the parts are followed through the passes before and after it. -/
theorem Contributes.yields {table : Dependencies} {param : String} {passes : List Pass}
    {slots : List String} {statement : Node} {segment : Segment}
    (h : Contributes slots passes statement segment) (hparam : table.injects param = true)
    (hproper : Proper table passes) (hdeclared : ∀ name ∈ declaredLocals statement, name ≠ param) :
    Yields param (accessedNames param passes) statement.handedParts segment.nodes := by
  -- One case for each form of statement. A part that is generated and not handed over, a name or
  -- an access, is silent: it yields from nothing what it yields from itself.
  cases h with
  | kept hexport =>
    rw [Node.handedParts, Node.handed_other _ hexport]
    exact .of_kept (.replaceAll hparam hproper _)
  | @defaultValue declaration _ hname hassigned =>
    refine .of_kept (.assigned hparam hproper hassigned fun before hbefore =>
      .expression hparam hbefore fun name hsome => ?_)
    rw [hname] at hsome
    cases hsome
  | @defaultNamed declaration _ name hname hassigned =>
    have hkept : Yields param (accessedNames param passes) [declaration] _ :=
      .of_kept (.replaceAll hparam hproper declaration)
    have hvalue : Kept table param passes (.identifier name) _ :=
      .assigned hparam hproper hassigned
        fun before _ => (Kept.refl _).sublist (List.nil_sublist before)
    exact hkept.append ((Yields.of_kept hvalue).of_silent (silent_identifier name))
  | @declarators declarations specifiers assignments kind source hids hassigned =>
    rw [Node.handedParts_variableDeclaration hids, ← List.flatMap_singleton' assignments]
    refine .flatMap hassigned fun initial _ assignment hone => ?_
    exact .of_kept (.assigned hparam hproper hone fun before hbefore =>
      .replaceInitials hparam hbefore initial.1 initial.2)
  | @declaration declaration _ name specifiers source hname hassigned =>
    have hkind : declaration.kind ≠ .variableDeclaration := by
      intro hkind
      obtain ⟨_, _, rfl⟩ := Node.hasFormOf_of_kind_eq hkind
      cases hname
    rw [Node.handedParts, Node.handed_declaration _ hkind]
    refine .of_kept (.assigned hparam hproper hassigned fun before hbefore =>
      .expression hparam hbefore fun other hother => hdeclared other ?_)
    rw [declaredLocals, declarationName?_eq hother]
    exact List.mem_singleton_self _
  | @reexport specifiers assignments source specifier names hsource hnames hassigned =>
    have hparts : (Node.exportNamedDeclaration none specifiers (some source)).handedParts =
        names.flatMap fun _ => [] := (List.flatMap_eq_nil_iff.2 fun _ _ => rfl).symm
    rw [hparts, ← List.flatMap_singleton' assignments]
    refine .flatMap hassigned fun pair _ assignment hone => ?_
    have hvalue := Kept.assigned hparam hproper hone
      fun before _ => (Kept.refl _).sublist (List.nil_sublist _)
    exact (Yields.of_kept hvalue).of_silent
      (silent_access (.member (dependencyParam (slots.idxOf specifier)) pair.1))
  | @list specifiers entries parts hentries hcontributes =>
    rw [Node.handedParts_list hentries]
    refine .flatMap hcontributes fun entry _ part hone => ?_
    cases hone with
    | @renamed name hname =>
      rw [Node.isIdentifier_iff.1 (decide_eq_true hname)]
      exact .nil_of_silent (silent_identifier name)
    | assigned hassigned =>
      exact .of_kept (.assigned hparam hproper hassigned fun before hbefore =>
        .replaceAll hparam hbefore entry.1)

/-! ## The wrapped module -/

/-- The local names that accesses to a parameter take the place of: those that are imported from the
module of the parameter, or those that are exported and not imported. -/
def Wrapping.replacedBy (slots : List String) (body : List Node) (param : String) : List String :=
  accessedNames param (passesOfImports slots body) ++
    if param = exportsParam then
      ((statements body).flatMap (exportedLocals ⟨slots, []⟩)).filter (· ∉ importedLocals body)
    else []

/-- The parameters of the wrapper are the names that it is asked about when entries are exported. -/
theorem mem_wrapperParams {table : Dependencies} {name : String} :
    .identifier name ∈ wrapperParams table.specifiers ↔ table.injects name = true := by
  simp only [wrapperParams, Dependencies.injects, Dependencies.isParam_iff, List.mem_map,
    List.mem_append, List.mem_range, List.mem_singleton, Node.identifier.injEq, exists_eq_right,
    Bool.or_eq_true, decide_eq_true_iff, eq_comm (a := dependencyParam _)]
  exact or_comm

namespace Wrapping

/-- The passes that exports start are for names that are exported and not imported, each at most
once. So they are among those that can be read off the text. -/
theorem Importing.given_sublist {body : List Node} {slots : List String} {imported : Wrapping}
    (himporting : imported.Importing slots (statements body))
    (hpasses : imported.importPasses = passesOfImports slots body)
    (hnames : (passesOfImports slots body).map (·.name) = importedLocals body)
    (himported : ∀ name ∈ importedLocals body, imported.dependencies.injects name = false)
    {names : List String}
    (hgiven : names.Sublist ((statements body).flatMap fun statement =>
      exportedLocals imported.dependencies
        (Pass.replaceAll (passesOfImports slots body) statement))) :
    names.Sublist (((statements body).flatMap (exportedLocals ⟨slots, []⟩)).filter
      (· ∉ importedLocals body)) := by
  have hobjects : ∀ pass ∈ passesOfImports slots body,
      imported.dependencies.injects pass.access.object = true := hpasses ▸ himporting.injects_object
  have hbindings : importedLocals body = imported.dependencies.bindings.map (·.localName) := by
    rw [← hnames, ← hpasses, importPasses, List.map_map]
    rfl
  -- An imported name has been replaced wherever a statement could give it up.
  have hfresh : ∀ name ∈ names, name ∉ importedLocals body := by
    intro name hname hmem
    obtain ⟨statement, hstatement, hexported⟩ := List.mem_flatMap.1 (hgiven.subset hname)
    have hpending : Pass.replaceAll (passesOfImports slots body) statement ∈ imported.pending := by
      rw [himporting.pending_eq, hpasses]
      exact List.mem_map_of_mem hstatement
    exact (himporting.not_given_up (hbindings ▸ hmem) (himported name hmem) hpending).1 hexported
  have hsource := hgiven.trans (List.Sublist.flatMap_right _ fun statement _ =>
    exportedLocals_replaceAll_sublist hobjects statement)
  rw [← himporting.specifiers_eq]
  have hfiltered := hsource.filter fun name => decide (name ∉ importedLocals body)
  rwa [List.filter_eq_self.2 fun name hname => decide_eq_true (hfresh name hname)] at hfiltered

/-- If no local of the module has the name of a parameter, its passes are proper, and each parameter
is accessed in the place of the names that it replaces. -/
theorem exists_contributes {body : List Node} {final : Wrapping} (h : run body = .ok final)
    (himported : ∀ name ∈ importedLocals body, final.dependencies.injects name = false)
    (hdeclared : ∀ statement ∈ statements body, ∀ name ∈ declaredLocals statement,
      final.dependencies.injects name = false) :
    ∃ passes segments, Proper final.dependencies passes ∧
      (∀ param, (accessedNames param passes).Sublist
        (replacedBy final.dependencies.specifiers body param)) ∧
      List.Forall₂ (Contributes final.dependencies.specifiers passes) (statements body) segments ∧
      final.done = segments.flatMap Segment.nodes := by
  obtain ⟨imported, segments, himporting, hsame, hpasses, hnames, hfinal⟩ := exists_segmented h
  have hlocals : ((segments.flatMap Segment.passes).map (·.name)).Sublist
      (((statements body).flatMap (exportedLocals ⟨final.dependencies.specifiers, []⟩)).filter
        (· ∉ importedLocals body)) := by
    refine himporting.given_sublist hpasses hnames (hsame ▸ himported) ?_
    rw [hsame]
    exact hfinal.given
  refine ⟨_, segments, ⟨fun pass hmem => ?_, hfinal.objects⟩, fun param => ?_,
    hfinal.contributes, hfinal.done_eq⟩
  · rcases List.mem_append.1 hmem with hmem | hmem
    · exact himported _ (hnames ▸ List.mem_map_of_mem hmem)
    · obtain ⟨statement, hstatement, hexported⟩ := List.mem_flatMap.1
        (List.mem_of_mem_filter (hlocals.subset (List.mem_map_of_mem hmem)))
      have hlocal : pass.name ∈ exportedLocals final.dependencies statement := hexported
      exact injects_of_mem_exportedLocals (hdeclared statement hstatement) hlocal
  -- The passes of the exports put in the exports and no other parameter.
  · have hexports : ∀ pass ∈ segments.flatMap Segment.passes,
        pass.access.object = exportsParam := by
      intro pass hmem
      obtain ⟨segment, hsegment, hmem⟩ := List.mem_flatMap.1 hmem
      obtain ⟨statement, hstatement⟩ := exists_of_mem_right hfinal.contributes hsegment
      obtain ⟨localName, exported, rfl⟩ := hstatement.exists_exportPass hmem
      rfl
    rw [accessedNames_append, accessedNames_of_object hexports, replacedBy]
    refine (List.Sublist.refl _).append ?_
    split
    · exact hlocals
    · exact List.Sublist.refl []

end Wrapping

/-- **What an access to a parameter refers to.** In a module that imports and exports no local of
the name of a parameter, take any parameter. The body of the wrapper declares its name only if the
module does. In the constructs of the body that bind the name there stands for it what stood there
in the module, and one access at most for each place in such a construct of the module that an
access to the parameter is put in. All other accesses to it refer to the parameter. -/
theorem Program.wrap_captured {program : Program} {options : WrapOptions} {wrapped : Wrapped}
    (h : program.wrap options = .ok wrapped)
    (himported : ∀ name ∈ Wrapping.importedLocals program.body,
      .identifier name ∉ wrapperParams wrapped.dependencies)
    (hdeclared : ∀ statement ∈ Wrapping.statements program.body, ∀ name ∈ declaredLocals statement,
      .identifier name ∉ wrapperParams wrapped.dependencies)
    {param : String} (hparam : .identifier param ∈ wrapperParams wrapped.dependencies) :
    ∃ body, wrapped.program.body = [wrapper wrapped.dependencies body options] ∧
      ((∃ node ∈ body, param ∈ node.bodyNames) →
        ∃ statement ∈ Wrapping.statements program.body,
          param ∈ statement.handed Node.bodyNames) ∧
      ((Wrapping.statements program.body).flatMap fun statement =>
          statement.handed ((captured param).gather .outside)).length ≤
        (body.flatMap ((captured param).gather .outside)).length ∧
      (body.flatMap ((captured param).gather .outside)).length ≤
        ((Wrapping.statements program.body).flatMap fun statement =>
            statement.handed ((captured param).gather .outside)).length +
          ((Wrapping.statements program.body).flatMap fun statement => statement.handed
            (accessPlaces param
              (Wrapping.replacedBy wrapped.dependencies program.body param))).length := by
  obtain ⟨final, hrun, hwrapped⟩ := Except.bind_ok h
  cases hwrapped
  have hfree : ∀ name, .identifier name ∉ wrapperParams final.dependencies.specifiers →
      final.dependencies.injects name = false := fun name hname =>
    Bool.eq_false_iff.2 fun hinjects => hname (mem_wrapperParams.2 hinjects)
  have hinjects := mem_wrapperParams.1 hparam
  have hlocals : ∀ statement ∈ Wrapping.statements program.body,
      ∀ name ∈ declaredLocals statement, final.dependencies.injects name = false :=
    fun statement hstatement name hname => hfree name (hdeclared statement hstatement name hname)
  -- No local has the name of a parameter, so the passes are proper and the statements yield one
  -- after the other.
  obtain ⟨passes, segments, hproper, hreplaced, hcontributes, hdone⟩ :=
    Wrapping.exists_contributes hrun (fun name hname => hfree name (himported name hname)) hlocals
  obtain ⟨hle, hadd, htop⟩ := Yields.flatMap hcontributes fun statement hstatement segment hone =>
    hone.yields hinjects hproper fun name hname =>
      (Dependencies.ne_of_injects (hlocals statement hstatement name hname) hinjects).symm
  rw [Node.flatMap_handedParts] at hle
  rw [Node.flatMap_handedParts, Node.flatMap_handedParts] at hadd
  refine ⟨_, rfl, fun hnode => ?_, ?_, ?_⟩
  · obtain ⟨part, hpart, hmem⟩ := htop (hdone ▸ hnode)
    obtain ⟨statement, hstatement, hpart⟩ := List.mem_flatMap.1 hpart
    refine ⟨statement, hstatement, ?_⟩
    rw [Node.handed_eq]
    exact List.mem_flatMap.2 ⟨part, hpart, hmem⟩
  · rw [hdone]
    exact hle
  · have hplaces : ((Wrapping.statements program.body).flatMap fun statement =>
          statement.handed (accessPlaces param (accessedNames param passes))).length ≤
        ((Wrapping.statements program.body).flatMap fun statement => statement.handed
          (accessPlaces param (Wrapping.replacedBy final.dependencies.specifiers program.body
            param))).length := by
      rw [← Node.flatMap_handedParts, ← Node.flatMap_handedParts]
      exact length_flatMap_le fun part _ => ((hreplaced param).flatMap _).length_le
    rw [hdone]
    exact Nat.le_trans hadd (Nat.add_le_add_left hplaces _)

/-- The module `import { a } from "m"; a(function (__uDep0__) \x7b __uDep0__; \x7d);`, with a
function that binds the name of a parameter. -/
def ownParameter : Program :=
  ⟨[.importDeclaration [.importSpecifier (.identifier "a") (.identifier "a")] (.stringLiteral "m"),
    .statement (.call (.identifier "a") [.anonymousFunction [.identifier "__uDep0__"]
      [.statement (.identifier "__uDep0__")]])], none⟩

/-- Next to a function with a parameter of the same name the access refers to the dependency, and
what is captured are the parameter of the function and its use there. -/
theorem Program.wrap_captured_ownParameter :
    ∃ wrapped body, ownParameter.wrap .default = .ok wrapped ∧
      wrapped.program.body = [wrapper wrapped.dependencies body .default] ∧
      (∀ node ∈ body, "__uDep0__" ∉ node.bodyNames) ∧
      (body.flatMap ((captured "__uDep0__").gather .outside)).length = 2 := by
  have hsource : ((Wrapping.statements ownParameter.body).flatMap fun statement =>
      statement.handed ((captured "__uDep0__").gather .outside)) = ["__uDep0__", "__uDep0__"] := by
    with_unfolding_all rfl
  have hplaces : ((Wrapping.statements ownParameter.body).flatMap fun statement =>
      statement.handed (accessPlaces "__uDep0__"
        (Wrapping.replacedBy ["m"] ownParameter.body "__uDep0__"))) = [] := by
    with_unfolding_all rfl
  have htops : ((Wrapping.statements ownParameter.body).flatMap fun statement =>
      statement.handed Node.bodyNames) = [] := by with_unfolding_all rfl
  have h : ownParameter.wrap .default = .ok ⟨⟨[wrapper ["m"]
      [.statement (.call (.access "__uDep0__" "a") [.anonymousFunction [.identifier "__uDep0__"]
        [.statement (.identifier "__uDep0__")]])] .default], some "script"⟩, ["m"]⟩ := by
    with_unfolding_all rfl
  have hnames : Wrapping.importedLocals ownParameter.body = ["a"] := by decide
  have hstatements : Wrapping.statements ownParameter.body = [_] := rfl
  have hparams : wrapperParams ["m"] = [.identifier "__uDep0__", .identifier "__exports__"] := rfl
  have hfree : .identifier "a" ∉ wrapperParams ["m"] := by simp [hparams]
  have hdeclared : ∀ statement ∈ Wrapping.statements ownParameter.body,
      ∀ name ∈ declaredLocals statement, .identifier name ∉ wrapperParams ["m"] := by
    rw [hstatements]
    exact List.forall_mem_singleton.2 fun _ hname => absurd hname List.not_mem_nil
  have hparam : .identifier "__uDep0__" ∈ wrapperParams ["m"] := by simp [hparams]
  obtain ⟨body, hbody, htop, hle, hadd⟩ := Program.wrap_captured h
    (hnames ▸ List.forall_mem_singleton.2 hfree) hdeclared hparam
  rw [hsource] at hle
  rw [hsource, hplaces] at hadd
  refine ⟨_, body, h, hbody, fun node hnode hmem => ?_, Nat.le_antisymm hadd hle⟩
  obtain ⟨statement, hstatement, hname⟩ := htop ⟨node, hnode, hmem⟩
  rw [List.flatMap_eq_nil_iff.1 htops statement hstatement] at hname
  exact absurd hname List.not_mem_nil

/-- The module `import { a } from "m"; b(function (__uDep0__) \x7b a; \x7d);`, with a use of
the import inside such a function. -/
def accessInFunction : Program :=
  ⟨[.importDeclaration [.importSpecifier (.identifier "a") (.identifier "a")] (.stringLiteral "m"),
    .statement (.call (.identifier "b") [.anonymousFunction [.identifier "__uDep0__"]
      [.statement (.identifier "a")]])], none⟩

/-- The module `import { a } from "m"; import { __uDep0__ } from "n"; a; export var __uDep1__ = b;`,
whose own names are spelled like parameters. -/
def parametersTaken : Program :=
  ⟨[.importDeclaration [.importSpecifier (.identifier "a") (.identifier "a")] (.stringLiteral "m"),
    .importDeclaration [.importSpecifier (.identifier "__uDep0__") (.identifier "__uDep0__")]
      (.stringLiteral "n"),
    .statement (.identifier "a"),
    .exportNamedDeclaration (some (.variableDeclaration
      [.variableDeclarator (.identifier "__uDep1__") (some (.identifier "b"))] .var)) [] none],
    none⟩

set_option maxRecDepth 8000 in
/-- In a function with a parameter of the same name the access that is put in is captured. If the
name of a parameter is itself imported or exported, its accesses are taken for that local. -/
theorem Program.wrap_captures_access :
    (∃ wrapped body, accessInFunction.wrap .default = .ok wrapped ∧
      wrapped.program.body = [wrapper wrapped.dependencies body .default] ∧
      .identifier "__uDep0__" ∈ wrapperParams wrapped.dependencies ∧
      ((Wrapping.statements accessInFunction.body).flatMap fun statement =>
        statement.handed ((captured "__uDep0__").gather .outside)) = ["__uDep0__"] ∧
      body.flatMap ((captured "__uDep0__").gather .outside) = ["__uDep0__", "__uDep0__"]) ∧
    ∃ wrapped, parametersTaken.wrap .default = .ok wrapped ∧
      wrapped.program.body = [wrapper wrapped.dependencies
        [.statement (.memberExpression (.memberExpression (.access "__exports__" "__uDep1__")
            (.identifier "__uDep0__") false false) (.identifier "a") false false),
          .assignmentStatement (.access "__exports__" "__uDep1__") (.identifier "b")]
        .default] := by
  refine ⟨⟨⟨⟨[wrapper ["m"] [.statement (.call (.identifier "b")
      [.anonymousFunction [.identifier "__uDep0__"] [.statement (.access "__uDep0__" "a")]])]
        .default], some "script"⟩, ["m"]⟩, _, ?function, rfl, List.mem_cons_self, ?before, ?after⟩,
    ⟨⟨[wrapper ["m", "n"]
      [.statement (.memberExpression (.memberExpression (.access "__exports__" "__uDep1__")
          (.identifier "__uDep0__") false false) (.identifier "a") false false),
        .assignmentStatement (.access "__exports__" "__uDep1__") (.identifier "b")]
        .default], some "script"⟩, ["m", "n"]⟩, ?taken, rfl⟩
  case function => with_unfolding_all rfl
  case before => with_unfolding_all rfl
  case after => with_unfolding_all rfl
  case taken => with_unfolding_all rfl

end DefineWrap
