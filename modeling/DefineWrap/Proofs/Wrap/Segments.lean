/-
What each statement of a module contributes to the wrapped one.

There is one list of passes for the whole module: those of the imports, and then those that the
exports start. The statements that are done and those that wait are both kept in step with it.
A statement that waits has gone through the passes so far, and what a statement has contributed
goes through the passes that are still to come (`Contributes.later`). So a statement that is kept
has in the end gone through all of them, wherever it stands.

`Wrapping.Segmented` says this of a module of which some statements are taken,
`Wrapping.Segmented.take` is the step and `Wrapping.Segmented.run` the run.
-/
import DefineWrap.Proofs.Wrap.Locals
import DefineWrap.Proofs.Wrap.Survivors

set_option autoImplicit false

namespace DefineWrap

/-! ## Values, names and forms after passes -/

/-- The name that a declarator declares alone and with an initial value, and the value. Only such a
declarator assigns to the exports. -/
def Node.initialised : Node → List (String × Node)
  | .variableDeclarator (.identifier name) (some value) => [(name, value)]
  | _ => []

namespace Pass

/-- An assignment goes through passes in its two parts, so the passes can be followed into the
value. -/
theorem replaceAll_assignmentStatement (passes : List Pass) (left right : Node) :
    replaceAll passes (.assignmentStatement left right) =
      .assignmentStatement (replaceAll passes left) (replaceAll passes right) := by
  induction passes generalizing left right with
  | nil => rfl
  | cons pass rest ih =>
    have hassignment : pass.replace (.assignment left right) =
        .assignment (pass.replace left) (pass.replace right) := by
      have henters : pass.Enters (.assignment left right) := ⟨rfl, of_decide_eq_false rfl, rfl⟩
      rw [pass.replace_of_enters henters]
      simp [rewrite_eq_mapped, Node.assignment, spellOut, Node.places]
    have hstatement : pass.replace (.assignmentStatement left right) =
        .assignmentStatement (pass.replace left) (pass.replace right) := by
      have henters : pass.Enters (.assignmentStatement left right) :=
        ⟨rfl, of_decide_eq_false rfl, rfl⟩
      rw [pass.replace_of_enters henters]
      simp [rewrite_eq_mapped, Node.assignmentStatement, Node.statement, spellOut, Node.places,
        hassignment]
    rw [replaceAll_cons, hstatement, ih]
    rfl

/-- The initial value of the declarator of a name after a pass. It depends on the name, because a
pass for the name puts an assignment before the value and does not look into it. -/
def replaceInitial (pass : Pass) (name : String) (value : Node) : Node :=
  if name = pass.name then .assignment pass.access.node value else pass.replace value

/-- The initial value of the declarator of a name after several passes, the first one first. -/
def replaceInitials (passes : List Pass) (name : String) (value : Node) : Node :=
  passes.foldl (fun value pass => pass.replaceInitial name value) value

/-- A declarator keeps its name under a pass, and its value becomes that of the definition above. -/
theorem initialised_replaceDeclarator (pass : Pass) (declarator : Node) :
    (pass.replaceDeclarator declarator).initialised =
      declarator.initialised.map fun initial =>
        (initial.1, pass.replaceInitial initial.1 initial.2) := by
  cases declarator
  case variableDeclarator id init =>
    cases init with
    | none =>
      rw [replaceDeclarator, pass.replaceValue_none]
      cases id <;> rfl
    | some value =>
      cases id
      case identifier name =>
        by_cases hname : name = pass.name
        · simp [replaceDeclarator, replaceValue, replaceInitial, Node.initialised, hname]
        · simp [replaceDeclarator, replaceValue, replaceInitial, Node.initialised, hname,
            Node.binds, Ne.symm hname]
      all_goals
        rw [replaceDeclarator]
        cases pass.replaceValue _ (some value) <;> rfl
  all_goals rfl

/-- A variable declaration goes on declaring the same names alone and with a value, and the value
goes through the passes. Everything that taking it needs is stated at once, since the declarations
after the passes exist only as a witness. -/
theorem replaceAll_initialised (passes : List Pass) (declarations : List Node)
    (kind : VariableKind) :
    ∃ others, replaceAll passes (.variableDeclaration declarations kind) =
        .variableDeclaration others kind ∧
      others.flatMap Node.declaratorNames = declarations.flatMap Node.declaratorNames ∧
      (∀ id init, .variableDeclarator id init ∈ declarations →
        ∃ init', .variableDeclarator id init' ∈ others) ∧
      others.flatMap Node.initialised =
        (declarations.flatMap Node.initialised).map fun initial =>
          (initial.1, replaceInitials passes initial.1 initial.2) := by
  induction passes generalizing declarations with
  | nil => exact ⟨declarations, rfl, rfl, fun _ init hmem => ⟨init, hmem⟩, (List.map_id _).symm⟩
  | cons pass rest ih =>
    obtain ⟨others, heq, hnames, hids, hinitial⟩ := ih (declarations.map pass.replaceDeclarator)
    refine ⟨others, by rw [replaceAll_cons, replace_variableDeclaration, heq], ?_, ?_, ?_⟩
    · rw [hnames, List.flatMap_map]
      exact List.flatMap_congr fun declarator _ =>
        pass.declaratorNames_replaceDeclarator declarator
    · exact fun id init hmem => hids id _ (List.mem_map.2 ⟨_, hmem, rfl⟩)
    · rw [hinitial, List.flatMap_map]
      simp only [initialised_replaceDeclarator]
      rw [← List.map_flatMap, List.map_map]
      rfl

/-- A declaration keeps its name under a pass, unless the pass makes it an expression statement. -/
theorem declarationName?_replace_or (pass : Pass) (node : Node) :
    declarationName? (pass.replace node) = declarationName? node ∨
      (pass.replace node).kind = .expressionStatement := by
  induction node using pass.replace_induction with
  | reference =>
    refine .inl ?_
    rcases kind_access pass.access with h | h <;>
      cases hnode : pass.access.node <;> first | rfl | (rw [hnode] at h; cases h)
  | function id params body generator isAsync hid => exact .inr rfl
  | shadowed node hreplaced hshadowed => exact .inl rfl
  | declaration declarations kind ih => exact .inl rfl
  | entered node henters ih => exact .inl (by cases node <;> rfl)

/-- A declaration keeps its name, unless passes have made it an expression statement. In that case a
default export of it is refused. -/
theorem declarationName?_replaceAll_or (passes : List Pass) (node : Node) :
    declarationName? (replaceAll passes node) = declarationName? node ∨
      (replaceAll passes node).kind = .expressionStatement := by
  induction passes generalizing node with
  | nil => exact .inl rfl
  | cons pass rest ih =>
    rcases pass.declarationName?_replace_or node with hfirst | hfirst
    · exact (ih (pass.replace node)).imp_left fun hrest => hrest.trans hfirst
    · exact .inr (kind_replaceAll_expressionStatement rest hfirst)

/-- The name that stands at a place after passes stood there before, if no access is on it. -/
theorem identifierName?_of_replaceAll {passes : List Pass} {name : String}
    (h : ∀ pass ∈ passes, pass.access.object ≠ name) {node : Node}
    (hname : (replaceAll passes node).identifierName? = some name) :
    node.identifierName? = some name :=
  ((identifierName?_replaceAll_iff h node).1 hname).1

/-- An export of everything has nothing that a pass could change. It is refused when it is taken. -/
theorem replaceAll_exportAllDeclaration (passes : List Pass) (source : Node)
    (exported : Option Node) :
    replaceAll passes (.exportAllDeclaration source exported) =
      .exportAllDeclaration source exported := by
  refine replaceAll_eq_self fun pass _ => ?_
  have henters : pass.Enters (.exportAllDeclaration source exported) :=
    ⟨rfl, of_decide_eq_false rfl, rfl⟩
  rw [pass.replace_of_enters henters]
  rfl

theorem isExport_replaceAll (passes : List Pass) (statement : Node) :
    isExport (replaceAll passes statement) = isExport statement :=
  replaceAll_invariant (fun pass _ other => Node.isExport_replace pass other) statement

end Pass

/-! ## Contributions -/

/-- What a statement contributes: the passes that it starts, and statements in its place. Either
list can be empty, and for an import both would be, so that imports have no segment. -/
structure Segment where
  passes : List Pass
  nodes : List Node

/-- The segment after further passes. These go over the statements and leave the passes as they
are. -/
def Segment.later (segment : Segment) (passes : List Pass) : Segment :=
  ⟨segment.passes, segment.nodes.map (Pass.replaceAll passes)⟩

/-- An assignment to a member of the exports. The value has gone through the passes before its
statement is taken, and the assignment through those after it is made; between the two there are
the given passes. -/
def Assigned (passes between : List Pass) (exported : String) (value : List Pass → Node)
    (assignment : Node) : Prop :=
  ∃ before after, passes = before ++ between ++ after ∧
    assignment = .assignmentStatement
      (Pass.replaceAll after (.access exportsParam exported))
      (Pass.replaceAll after (value before))

/-- What an entry of an export list contributes: a pass for the local name, or an assignment. The
passes of the entries before it have not gone over its local. -/
inductive EntryContributes (passes : List Pass) (entry : Node × String) : Segment → Prop
  | renamed {name : String} (h : entry.1.identifierName? = some name) :
    EntryContributes passes entry ⟨[Effect.exportPass name entry.2], []⟩
  | assigned {between : List Pass} {node : Node}
    (h : Assigned passes between entry.2 (Pass.replaceAll · entry.1) node) :
    EntryContributes passes entry ⟨[], [node]⟩

/-- What a statement of a module contributes, for each form that it has in the text. All passes
of the module are given, and the slots of the modules that it names. -/
inductive Contributes (slots : List String) (passes : List Pass) : Node → Segment → Prop
  | kept {statement : Node} (h : isExport statement = false) :
    Contributes slots passes statement ⟨[], [Pass.replaceAll passes statement]⟩
  | defaultValue {declaration assignment : Node} (hname : declarationName? declaration = none)
    (h : Assigned passes [] defaultMember
      (fun before => (Pass.replaceAll before declaration).asExpression) assignment) :
    Contributes slots passes (.exportDefaultDeclaration declaration) ⟨[], [assignment]⟩
  | defaultNamed {declaration assignment : Node} {name : String}
    (hname : declarationName? declaration = some name)
    (h : Assigned passes [] defaultMember (fun _ => .identifier name) assignment) :
    Contributes slots passes (.exportDefaultDeclaration declaration)
      ⟨[], [Pass.replaceAll passes declaration, assignment]⟩
  | declarators {declarations specifiers assignments : List Node} {kind : VariableKind}
    {source : Option Node}
    (hids : ∀ id init, .variableDeclarator id init ∈ declarations → ∃ name, id = .identifier name)
    (h : List.Forall₂ (fun initial => Assigned passes [] initial.1
      (Pass.replaceInitials · initial.1 initial.2)) (declarations.flatMap Node.initialised)
      assignments) :
    Contributes slots passes
      (.exportNamedDeclaration (some (.variableDeclaration declarations kind)) specifiers source)
      ⟨(declarations.flatMap Node.declaratorNames).map fun name => Effect.exportPass name name,
        assignments⟩
  | declaration {declaration assignment : Node} {name : String} {specifiers : List Node}
    {source : Option Node} (hname : declarationName? declaration = some name)
    (h : Assigned passes [] name (fun before => (Pass.replaceAll before declaration).asExpression)
      assignment) :
    Contributes slots passes (.exportNamedDeclaration (some declaration) specifiers source)
      ⟨[Effect.exportPass name name], [assignment]⟩
  | reexport {specifiers assignments : List Node} {source : Node} {specifier : String}
    {names : List (String × String)} (hsource : source.stringValue? = some specifier)
    (hnames : specifiers.mapM reexportNames = .ok names)
    (h : List.Forall₂ (fun pair => Assigned passes [] pair.2 fun _ =>
      .access (dependencyParam (slots.idxOf specifier)) pair.1) names assignments) :
    Contributes slots passes (.exportNamedDeclaration none specifiers (some source))
      ⟨[], assignments⟩
  | list {specifiers : List Node} {entries : List (Node × String)} {parts : List Segment}
    (hentries : specifiers.mapM exportEntry = .ok entries)
    (h : List.Forall₂ (EntryContributes passes) entries parts) :
    Contributes slots passes (.exportNamedDeclaration none specifiers none)
      ⟨parts.flatMap Segment.passes, parts.flatMap Segment.nodes⟩

/-! ## Passes that are still to come -/

section Later

variable {passes : List Pass} (more : List Pass)

/-- Further passes go over an assignment that has been made and are added behind those that it has
gone through. -/
theorem Assigned.later {between : List Pass} {exported : String} {value : List Pass → Node}
    {assignment : Node} (h : Assigned passes between exported value assignment) :
    Assigned (passes ++ more) between exported value (Pass.replaceAll more assignment) := by
  obtain ⟨before, after, rfl, rfl⟩ := h
  refine ⟨before, after ++ more, by simp only [List.append_assoc], ?_⟩
  rw [Pass.replaceAll_assignmentStatement, Pass.replaceAll_append, Pass.replaceAll_append]

theorem Assigned.forall₂_later {α : Type} {exported : α → String}
    {value : α → List Pass → Node} {items : List α} {assignments : List Node}
    (h : List.Forall₂ (fun item => Assigned passes [] (exported item) (value item)) items
      assignments) :
    List.Forall₂ (fun item => Assigned (passes ++ more) [] (exported item) (value item)) items
      (assignments.map (Pass.replaceAll more)) :=
  List.forall₂_map_right_iff.2 (h.imp fun _ _ hassigned => hassigned.later more)

/-- The contribution of an entry after further passes. If it is a pass it stays. -/
theorem EntryContributes.later {entry : Node × String} {part : Segment}
    (h : EntryContributes passes entry part) :
    EntryContributes (passes ++ more) entry (part.later more) := by
  cases h with
  | renamed h => exact .renamed h
  | assigned h => exact .assigned (h.later more)

/-- The passes of some segments stay the same when the segments go through further ones. -/
theorem flatMap_passes_later (segments : List Segment) :
    (segments.map (Segment.later · more)).flatMap Segment.passes =
      segments.flatMap Segment.passes := by
  rw [List.flatMap_map]
  rfl

/-- The statements of some segments go through the further passes together, which is how a run
changes what is done. -/
theorem flatMap_nodes_later (segments : List Segment) :
    (segments.map (Segment.later · more)).flatMap Segment.nodes =
      (segments.flatMap Segment.nodes).map (Pass.replaceAll more) := by
  rw [List.flatMap_map, List.map_flatMap]
  rfl

/-- **What a statement has contributed goes through the passes that are still to come.** So the
contribution can be stated with the passes of the whole module, though it is made in the middle of
the run. -/
theorem Contributes.later {slots : List String} {statement : Node} {segment : Segment}
    (h : Contributes slots passes statement segment) :
    Contributes slots (passes ++ more) statement (segment.later more) := by
  have hkept : ∀ node, Pass.replaceAll more (Pass.replaceAll passes node) =
      Pass.replaceAll (passes ++ more) node := fun node => (Pass.replaceAll_append ..).symm
  cases h with
  | kept h =>
    rw [Segment.later, List.map_singleton, hkept]
    exact .kept h
  | defaultValue hname h => exact .defaultValue hname (h.later more)
  | defaultNamed hname h =>
    rw [Segment.later, List.map_cons, List.map_singleton, hkept]
    exact .defaultNamed hname (h.later more)
  | declarators hids h => exact .declarators hids (Assigned.forall₂_later more h)
  | declaration hname h => exact .declaration hname (h.later more)
  | reexport hsource hnames h =>
    exact .reexport hsource hnames (Assigned.forall₂_later more h)
  | list hentries h =>
    rw [Segment.later, ← flatMap_nodes_later, ← flatMap_passes_later more]
    exact .list hentries (List.forall₂_map_right_iff.2 (h.imp fun _ _ hpart => hpart.later more))

end Later

/-! ## The contribution of a statement that is taken -/

section Taken

variable {table : Dependencies} {before : List Pass}

/-- An assignment goes through the passes after it and stays in front. The effects of an entry list
are taken apart at the front by it. -/
theorem applyAll_assign_cons (exported : String) (value : Node) (effects : List Effect) :
    Effect.applyAll [] (.assign exported value :: effects) =
      Pass.replaceAll (Effect.passes effects)
        (.assignmentStatement (.access exportsParam exported) value) ::
          Effect.applyAll [] effects :=
  Effect.applyAll_eq [_] effects

/-- An assignment that is put when some passes have gone over its value, and then goes through the
others, is of the form `Assigned`. -/
theorem assigned_assign (before between after : List Pass) (exported : String)
    (value : List Pass → Node) :
    Assigned (before ++ between ++ after) between exported value
      (Pass.replaceAll after
        (.assignmentStatement (.access exportsParam exported) (value before))) :=
  ⟨before, after, rfl, Pass.replaceAll_assignmentStatement ..⟩

/-- The effects of a declarator are those of its name and value, if it has both. -/
theorem initialEffects_eq (declarator : Node) :
    initialEffects declarator =
      declarator.initialised.map fun initial => .assign initial.1 initial.2 := by
  cases declarator
  case variableDeclarator id init => cases id <;> cases init <;> rfl
  all_goals rfl

theorem passes_assigns {α : Type} (items : List α) (exported : α → String) (value : α → Node) :
    Effect.passes (items.map fun item => .assign (exported item) (value item)) = [] := by
  rw [Effect.passes, List.flatMap_map]
  exact List.flatMap_eq_nil_iff.2 fun _ _ => rfl

theorem applyAll_exportAs (names : List String) :
    Effect.applyAll [] (names.map fun name => .exportAs name name) = [] := by
  induction names with
  | nil => rfl
  | cons name rest ih => exact ih

theorem assigned_last (before after : List Pass) (exported : String)
    (value : List Pass → Node) :
    Assigned (before ++ after) [] exported value
      (Pass.replaceAll after
        (.assignmentStatement (.access exportsParam exported) (value before))) := by
  have h := assigned_assign before [] after exported value
  rwa [List.append_nil] at h

/-- Assignments one after the other, and nothing else. None starts a pass, so all of them have the
same passes before and after. -/
theorem assigned_assigns {α : Type} (before after : List Pass) (exported : α → String)
    (value : α → List Pass → Node) (items : List α) :
    List.Forall₂ (fun item => Assigned (before ++ after) [] (exported item) (value item)) items
      ((Effect.applyAll [] (items.map fun item => .assign (exported item) (value item before))).map
        (Pass.replaceAll after)) := by
  induction items with
  | nil => exact .nil
  | cons item rest ih =>
    have hassigned := assigned_last before after (exported item) (value item)
    rw [List.map_cons, applyAll_assign_cons, passes_assigns]
    exact .cons hassigned ih

/-- The entries of an export list contribute one after the other. An entry that starts a pass adds
to what the entries before it go through, and so the passes in between are carried along. -/
theorem contributes_entries (hobjects : ∀ pass ∈ before, table.injects pass.access.object = true)
    (entries : List (Node × String)) (between : List Pass) :
    ∃ parts effects,
      effects =
        entries.map (fun entry => entryEffect table (Pass.replaceAll before entry.1, entry.2)) ∧
      List.Forall₂ (EntryContributes (before ++ between ++ Effect.passes effects)) entries parts ∧
      parts.flatMap Segment.passes = Effect.passes effects ∧
      parts.flatMap Segment.nodes = Effect.applyAll [] effects := by
  -- The list is read before its first entry starts a pass. So the passes in between have not gone
  -- over the entries that are left, but they go over what these contribute.
  induction entries generalizing between with
  | nil => exact ⟨[], _, rfl, .nil, rfl, rfl⟩
  | cons entry rest ih =>
    rcases entryEffect_eq table (Pass.replaceAll before entry.1) (.identifier entry.2) entry.2 with
      ⟨name, hlocals, hnode, heffect⟩ | ⟨-, heffect⟩
    · obtain ⟨parts, effects, heffects, hparts, hpasses, hnodes⟩ :=
        ih (between ++ [Effect.exportPass name entry.2])
      have hname : entry.1.identifierName? = some name := by
        refine Pass.identifierName?_of_replaceAll (fun pass hmem heq => ?_)
          (by rw [hnode]; rfl : (Pass.replaceAll before entry.1).identifierName? = some name)
        have hinjects := hobjects pass hmem
        rw [heq] at hinjects
        simp [entryLocals, hnode, Node.identifierName?, hinjects] at hlocals
      refine ⟨⟨[Effect.exportPass name entry.2], []⟩ :: parts,
        .exportAs name entry.2 :: effects, by rw [List.map_cons, heffect, heffects],
        .cons (.renamed hname) ?_, ?_, ?_⟩
      · have hsplit : before ++ between ++ Effect.passes (.exportAs name entry.2 :: effects) =
            before ++ (between ++ [Effect.exportPass name entry.2]) ++ Effect.passes effects := by
          simp [Effect.passes, Effect.exportAs]
        rwa [hsplit]
      · rw [List.flatMap_cons, hpasses]
        rfl
      · rw [List.flatMap_cons, hnodes]
        rfl
    · obtain ⟨parts, effects, heffects, hparts, hpasses, hnodes⟩ := ih between
      have hnode := assigned_assign before between (Effect.passes effects) entry.2
        (Pass.replaceAll · entry.1)
      refine ⟨⟨[], [_]⟩ :: parts, .assign entry.2 (Pass.replaceAll before entry.1) :: effects,
        by rw [List.map_cons, heffect, heffects], .cons (.assigned hnode) hparts, ?_, ?_⟩
      · rw [List.flatMap_cons, hpasses]
        rfl
      · rw [List.flatMap_cons, hnodes, applyAll_assign_cons]
        rfl

/-- An entry of an export list is read the same way after passes, but for its local node. Its
exported name is the one in the text. -/
theorem exportEntry_replaceAll (before : List Pass) {specifier : Node} {entry : Node × String}
    (h : exportEntry (Pass.replaceAll before specifier) = .ok entry) :
    ∃ original, exportEntry specifier = .ok original ∧
      entry = (Pass.replaceAll before original.1, original.2) := by
  by_cases hkind : specifier.kind = .exportSpecifier
  · obtain ⟨localName, exported, rfl⟩ := Node.hasFormOf_of_kind_eq hkind
    rw [Pass.replaceAll_exportSpecifier, exportEntry] at h
    rw [exportEntry]
    cases hname : exported.exportName? with
    | none =>
      rw [hname] at h
      cases h
    | some name =>
      rw [hname] at h
      cases h
      exact ⟨_, rfl, rfl⟩
  · -- Nothing else becomes an entry by a pass.
    have hother := Pass.kind_replaceAll_ne hkind (by decide) before
    obtain ⟨node, hnode⟩ := exportEntry_ok
      (show exportEntry (Pass.replaceAll before specifier) = .ok (entry.1, entry.2) from h)
    rw [hnode] at hother
    exact absurd rfl hother

/-- So a list of entries that can be read after passes can be read in the text, with the same
names. -/
theorem mapM_exportEntry_replaceAll (before : List Pass) {specifiers : List Node}
    {entries : List (Node × String)}
    (h : (specifiers.map (Pass.replaceAll before)).mapM exportEntry = .ok entries) :
    ∃ originals, specifiers.mapM exportEntry = .ok originals ∧
      entries = originals.map fun entry => (Pass.replaceAll before entry.1, entry.2) := by
  induction specifiers generalizing entries with
  | nil =>
    cases h
    exact ⟨[], rfl, rfl⟩
  | cons specifier rest ih =>
    obtain ⟨entry, others, hentry, hothers, rfl⟩ := Except.mapM_cons_ok h
    obtain ⟨originals, horiginals, rfl⟩ := ih hothers
    obtain ⟨original, horiginal, rfl⟩ := exportEntry_replaceAll before hentry
    refine ⟨original :: originals, ?_, rfl⟩
    rw [List.mapM_cons, horiginal, horiginals]
    rfl

/-- What a named or unnamed default export contributes when it is taken. The condition is the one
under which the declaration has kept its name. -/
theorem Takes.contributes_default {declaration : Node} {names : List String}
    {effects : List Effect}
    (h : Takes table (.exportDefaultDeclaration (Pass.replaceAll before declaration)) names effects)
    (hkind : (Pass.replaceAll before declaration).kind ≠ .expressionStatement) :
    Contributes table.specifiers (before ++ Effect.passes effects)
      (.exportDefaultDeclaration declaration)
      ⟨Effect.passes effects, Effect.applyAll [] effects⟩ := by
  have hname := (Pass.declarationName?_replaceAll_or before declaration).resolve_right hkind
  cases h with
  | defaultValue hnone =>
    exact .defaultValue (hname ▸ hnone) (assigned_last before [] defaultMember _)
  | @defaultNamed _ name hsome =>
    change Contributes _ (before ++ []) _ ⟨[], [Pass.replaceAll before declaration, _]⟩
    have hassigned := assigned_last before [] defaultMember fun _ => .identifier name
    rw [List.append_nil] at hassigned ⊢
    exact .defaultNamed (hname ▸ hsome) hassigned
  | other h => cases h

/-- What an exported variable declaration contributes when it is taken: the assignments of its
values in order, and a pass for each of its names after them. -/
theorem Takes.contributes_declarators {declarations declarations' specifiers : List Node}
    {kind kind' : VariableKind} {source : Option Node}
    (htaken : Pass.replaceAll before (.variableDeclaration declarations kind) =
      .variableDeclaration declarations' kind')
    (hids : ∀ id init, .variableDeclarator id init ∈ declarations' → ∃ name, id = .identifier name)
    {effects : List Effect}
    (heffects : effects = declarations'.flatMap initialEffects ++
      (declarations'.flatMap Node.declaratorNames).map fun name => .exportAs name name) :
    Contributes table.specifiers (before ++ Effect.passes effects)
      (.exportNamedDeclaration (some (.variableDeclaration declarations kind)) specifiers source)
      ⟨Effect.passes effects, Effect.applyAll [] effects⟩ := by
  obtain ⟨others, heq, hnames, hkept, hinitial⟩ :=
    Pass.replaceAll_initialised before declarations kind
  obtain ⟨rfl, -⟩ := Node.variableDeclaration.inj (htaken.symm.trans heq)
  have hinitials : declarations'.flatMap initialEffects =
      (declarations.flatMap Node.initialised).map fun initial =>
        .assign initial.1 (Pass.replaceInitials before initial.1 initial.2) := by
    rw [List.flatMap_congr fun declarator _ => initialEffects_eq declarator,
      ← List.map_flatMap, hinitial, List.map_map]
    rfl
  have hpasses : Effect.passes effects =
      (declarations.flatMap Node.declaratorNames).map fun name => Effect.exportPass name name := by
    rw [heffects, Effect.passes_append, hinitials, passes_assigns, Effect.passes_exportAs, hnames]
    rfl
  have hnodes : Effect.applyAll [] effects =
      (Effect.applyAll [] ((declarations.flatMap Node.initialised).map fun initial =>
        .assign initial.1 (Pass.replaceInitials before initial.1 initial.2))).map
          (Pass.replaceAll (Effect.passes effects)) := by
    rw [hpasses, heffects, Effect.applyAll_append, Effect.applyAll_eq, applyAll_exportAs,
      List.append_nil, Effect.passes_exportAs, hinitials, hnames]
  rw [hnodes, hpasses]
  refine .declarators (fun id init hmem => ?_) (assigned_assigns before _
    (fun initial : String × Node => initial.1)
    (fun initial passes => Pass.replaceInitials passes initial.1 initial.2) _)
  obtain ⟨init', hmem'⟩ := hkept id init hmem
  exact hids id init' hmem'

/-- What an exported declaration contributes when it is taken: variables as above, and a function or
class as itself with a pass for its name. -/
theorem Takes.contributes_declaration {declaration : Node} {specifiers others : List Node}
    {source : Option Node} {names : List String} {effects : List Effect}
    (h : Takes table (.exportNamedDeclaration (some (Pass.replaceAll before declaration)) others
      source) names effects) :
    Contributes table.specifiers (before ++ Effect.passes effects)
      (.exportNamedDeclaration (some declaration) specifiers source)
      ⟨Effect.passes effects, Effect.applyAll [] effects⟩ := by
  generalize htaken : Pass.replaceAll before declaration = taken at h
  cases h with
  | @declarators declarations _ kind _ hids =>
    have hkind : declaration.kind = .variableDeclaration := by
      by_contra hother
      exact Pass.kind_replaceAll_ne hother (by decide) before (by rw [htaken]; rfl)
    obtain ⟨originals, kind', rfl⟩ := Node.hasFormOf_of_kind_eq hkind
    exact contributes_declarators htaken hids rfl
  | @declaration _ name _ _ hname =>
    have hkind : (Pass.replaceAll before declaration).kind ≠ .expressionStatement := by
      rw [htaken]
      intro hkind
      cases taken <;> first | (cases hkind; done) | cases hname
    have hsame := (Pass.declarationName?_replaceAll_or before declaration).resolve_right hkind
    subst htaken
    exact .declaration (hsame ▸ hname)
      (assigned_last before [Effect.exportPass name name] name
        fun before => (Pass.replaceAll before declaration).asExpression)
  | other h => cases h

/-- What an export list contributes when it is taken. The list is read after the passes so far and
stated with the entries in the text. -/
theorem Takes.contributes_list {specifiers : List Node} {entries : List (Node × String)}
    (hobjects : ∀ pass ∈ before, table.injects pass.access.object = true)
    (hentries : (specifiers.map (Pass.replaceAll before)).mapM exportEntry = .ok entries)
    {effects : List Effect} (heffects : effects = entries.map (entryEffect table)) :
    Contributes table.specifiers (before ++ Effect.passes effects)
      (.exportNamedDeclaration none specifiers none)
      ⟨Effect.passes effects, Effect.applyAll [] effects⟩ := by
  obtain ⟨originals, horiginals, rfl⟩ := mapM_exportEntry_replaceAll before hentries
  obtain ⟨parts, effects', heffects', hparts, hpasses, hnodes⟩ :=
    contributes_entries hobjects originals []
  have hsame : effects' = effects := by
    rw [heffects, heffects', List.map_map]
    rfl
  subst hsame
  rw [List.append_nil, ← hpasses] at hparts
  rw [← hpasses, ← hnodes]
  exact .list horiginals hparts

/-- What a re-export contributes when it is taken. No pass goes over its entries, and so they are
those in the text. -/
theorem Takes.contributes_reexport {specifiers : List Node} {source : Node} {names : List String}
    {effects : List Effect}
    (h : Takes table (.exportNamedDeclaration none specifiers (some source)) names effects) :
    Contributes table.specifiers (before ++ Effect.passes effects)
      (.exportNamedDeclaration none specifiers (some source))
      ⟨Effect.passes effects, Effect.applyAll [] effects⟩ := by
  cases h with
  | @reexport _ _ specifier names hsource hknown hnames =>
    have hpasses : Effect.passes (names.map (reexportEffect
        (dependencyParam (table.specifiers.idxOf specifier)))) = [] :=
      passes_assigns names _ _
    rw [hpasses]
    refine .reexport hsource hnames ?_
    have hassigned := assigned_assigns before [] (fun pair : String × String => pair.2)
      (fun pair _ => .access (dependencyParam (table.specifiers.idxOf specifier)) pair.1) names
    rwa [show Pass.replaceAll [] = id from rfl, List.map_id] at hassigned
  | other h => cases h

/-- Taking what is no export puts it after what is done, and nothing else. -/
theorem Takes.eq_of_not_export {statement : Node} {names : List String} {effects : List Effect}
    (h : Takes table statement names effects) (hexport : isExport statement = false) :
    effects = [.emit statement] := by
  cases h <;> first | rfl | cases hexport

/-- **What a statement contributes when it is taken.** After the passes so far it is still of
the form that it has in the text, and its effects are those of that form. -/
theorem Takes.contributes {statement : Node} {names : List String} {effects : List Effect}
    (h : Takes table (Pass.replaceAll before statement) names effects)
    (hobjects : ∀ pass ∈ before, table.injects pass.access.object = true)
    (hdefault : ∀ declaration, statement = .exportDefaultDeclaration declaration →
      (Pass.replaceAll before declaration).kind ≠ .expressionStatement) :
    Contributes table.specifiers (before ++ Effect.passes effects) statement
      ⟨Effect.passes effects, Effect.applyAll [] effects⟩ := by
  -- A pass leaves the form of an export alone, so the form in the text says how it is taken.
  cases hexport : isExport statement with
  | false =>
    rw [h.eq_of_not_export (by rwa [Pass.isExport_replaceAll])]
    change Contributes _ (before ++ []) _ ⟨[], [Pass.replaceAll before statement]⟩
    rw [List.append_nil]
    exact .kept hexport
  | true =>
    cases statement
    case exportDefaultDeclaration declaration =>
      rw [Pass.replaceAll_exportDefaultDeclaration] at h
      exact h.contributes_default (hdefault declaration rfl)
    case exportNamedDeclaration declaration specifiers source =>
      rw [Pass.replaceAll_exportNamedDeclaration] at h
      cases declaration with
      | some declaration => exact h.contributes_declaration
      | none =>
        cases source with
        | none =>
          cases h with
          | list hentries => exact contributes_list hobjects hentries rfl
          | other h => cases h
        | some source => exact h.contributes_reexport
    case exportAllDeclaration source exported =>
      rw [Pass.replaceAll_exportAllDeclaration] at h
      cases h with
      | other h => cases h
    all_goals cases hexport

end Taken

/-- In two lists that are related one by one each element on the right has one on the left. -/
theorem exists_of_mem_right {α β : Type} {related : α → β → Prop} {xs : List α} {ys : List β}
    (h : List.Forall₂ related xs ys) {y : β} (hmem : y ∈ ys) : ∃ x, related x y := by
  induction h with
  | nil => cases hmem
  | cons hfirst _ ih =>
    rcases List.mem_cons.1 hmem with rfl | hmem
    · exact ⟨_, hfirst⟩
    · exact ih hmem

/-- Every pass that a statement starts is one for an export, and so is not strict. -/
theorem Contributes.exists_exportPass {slots : List String} {passes : List Pass}
    {statement : Node} {segment : Segment} (h : Contributes slots passes statement segment)
    {pass : Pass} (hmem : pass ∈ segment.passes) :
    ∃ localName exported, pass = Effect.exportPass localName exported := by
  cases h with
  | kept | defaultValue | defaultNamed | reexport => cases hmem
  | declarators =>
    obtain ⟨name, -, rfl⟩ := List.mem_map.1 hmem
    exact ⟨name, name, rfl⟩
  | @declaration _ _ name =>
    rw [List.mem_singleton.1 hmem]
    exact ⟨name, name, rfl⟩
  | list hentries h =>
    obtain ⟨part, hpart, hmem⟩ := List.mem_flatMap.1 hmem
    obtain ⟨entry, hentry⟩ := exists_of_mem_right h hpart
    cases hentry with
    | @renamed name =>
      rw [List.mem_singleton.1 hmem]
      exact ⟨name, entry.2, rfl⟩
    | assigned => cases hmem

namespace Wrapping

/-! ## The statements that are done and those that wait -/

/-- The taken statements of a module have made the given contributions, one each. These, in a
row, are what is done, and every pass that has been started has gone over them and over the
statements that wait. A statement starts passes for local names that the passes of the imports
have left it. -/
structure Segmented (imports : List Pass) (taken remaining : List Node)
    (segments : List Segment) (state : Wrapping) : Prop where
  contributes : List.Forall₂ (Contributes state.dependencies.specifiers
    (imports ++ segments.flatMap Segment.passes)) taken segments
  done_eq : state.done = segments.flatMap Segment.nodes
  pending_eq : state.pending =
    remaining.map (Pass.replaceAll (imports ++ segments.flatMap Segment.passes))
  objects : ∀ pass ∈ imports ++ segments.flatMap Segment.passes,
    state.dependencies.injects pass.access.object = true
  given : ((segments.flatMap Segment.passes).map (·.name)).Sublist (taken.flatMap fun statement =>
    exportedLocals state.dependencies (Pass.replaceAll imports statement))

/-- A default export that is taken is no expression statement, since such a one cannot be
assigned. -/
theorem kind_ne_of_takeExportDefault {state next : Wrapping} {declaration : Node}
    (h : state.takeExportDefault declaration = .ok next) :
    declaration.kind ≠ .expressionStatement := by
  obtain ⟨_, -, h⟩ := Except.bind_ok h
  obtain ⟨_, -, h⟩ := Except.bind_ok h
  intro hkind
  cases declaration
  case expressionStatement => cases h
  all_goals cases hkind

/-- **Taking a statement** adds its contribution, and takes the others through its passes: those
before it as contributions and those behind it as statements. -/
theorem Segmented.take {imports : List Pass} {taken rest : List Node} {statement : Node}
    {segments : List Segment} {state next : Wrapping}
    (hstate : state.Segmented imports taken (statement :: rest) segments)
    (hknown : ∀ specifier, namedSource? statement = some specifier →
      specifier ∈ state.dependencies.specifiers) (h : state.takeNext = .ok next) :
    next.dependencies = state.dependencies ∧ ∃ segment,
      next.Segmented imports (taken ++ [statement]) rest
        (segments.map (Segment.later · segment.passes) ++ [segment]) := by
  have hpending := hstate.pending_eq
  have hobjects := hstate.objects
  have hcontributes := hstate.contributes
  generalize hbefore : imports ++ segments.flatMap Segment.passes = before
    at hpending hobjects hcontributes
  obtain ⟨names, effects, htakes, rfl, -⟩ := takeNext_replaceAll_ok hpending hknown h
  have hown := htakes.contributes hobjects fun declaration heq => by
    rw [takeNext, hpending, List.map_cons, heq, Pass.replaceAll_exportDefaultDeclaration] at h
    exact kind_ne_of_takeExportDefault h
  -- The passes of the statement follow all others, and go over what has been contributed.
  have hpasses : imports ++ (segments.map (Segment.later · (Effect.passes effects)) ++
      [(⟨Effect.passes effects, Effect.applyAll [] effects⟩ : Segment)]).flatMap Segment.passes =
        before ++ Effect.passes effects := by
    rw [List.flatMap_append, flatMap_passes_later, List.flatMap_singleton, ← List.append_assoc,
      hbefore]
  refine ⟨rfl, ⟨Effect.passes effects, Effect.applyAll [] effects⟩, ?_, ?_, ?_, ?_, ?_⟩
  · rw [hpasses]
    refine List.rel_append (List.forall₂_map_right_iff.2 ?_) (.cons hown .nil)
    exact hcontributes.imp fun _ _ hcontribution => hcontribution.later _
  · rw [List.flatMap_append, flatMap_nodes_later, List.flatMap_singleton, after,
      Effect.applyAll_eq, hstate.done_eq]
  · rw [hpasses, after, List.map_map]
    exact List.map_congr_left fun node _ => (Pass.replaceAll_append _ _ node).symm
  · rw [hpasses]
    intro pass hmem
    rcases List.mem_append.1 hmem with hmem | hmem
    · exact hobjects pass hmem
    · obtain ⟨localName, exported, rfl⟩ := hown.exists_exportPass hmem
      exact Dependencies.injects_exportsParam _
  · have hnames : (Effect.passes effects).map (·.name) =
        exportedLocals state.dependencies (Pass.replaceAll before statement) := htakes.passed_eq
    rw [List.flatMap_append, flatMap_passes_later, List.flatMap_singleton, List.map_append, hnames,
      List.flatMap_append, List.flatMap_singleton, ← hbefore, Pass.replaceAll_append]
    refine hstate.given.append (exportedLocals_replaceAll_sublist (fun other hother => ?_) _)
    exact hobjects other (hbefore ▸ List.mem_append_right _ hother)

/-- **Taking all statements** adds the contribution of each. By induction on the statements that
wait. -/
theorem Segmented.run {imports : List Pass} {taken remaining : List Node}
    {segments : List Segment} {state final : Wrapping}
    (hstate : state.Segmented imports taken remaining segments)
    (hknown : AllNamed state.dependencies.specifiers remaining)
    (h : (remaining.map .take).foldlM perform state = .ok final) :
    final.dependencies = state.dependencies ∧
      ∃ segments', final.Segmented imports (taken ++ remaining) [] segments' := by
  induction remaining generalizing taken segments state with
  | nil =>
    cases h
    exact ⟨rfl, segments, by rwa [List.append_nil]⟩
  | cons statement rest ih =>
    obtain ⟨next, hnext, hrest⟩ := Except.foldlM_cons_ok h
    obtain ⟨hdependencies, segment, hsegmented⟩ :=
      hstate.take (hknown statement List.mem_cons_self) hnext
    rw [← hdependencies] at hknown
    have hall := ih hsegmented (hknown.mono (List.subset_cons_self _ _)) hrest
    rwa [List.append_cons, ← hdependencies]

/-- The passes of the imports of a module whose dependencies have the given slots. They are read off
the text, in its order. -/
def passesOfImports (slots : List String) (body : List Node) : List Pass :=
  ((body.flatMap importActions).flatMap (boundBy slots)).map Binding.pass

/-- Once the imports are bound, nothing has been contributed yet, and all statements have gone
through the passes of the imports. -/
theorem segmented_of_imported {body : List Node} {dependencies : Dependencies}
    {imported : Wrapping} (hregistered : body.foldlM registerSource .empty = .ok dependencies)
    (himports : (body.flatMap importActions).foldlM perform (start dependencies body) =
      .ok imported) :
    imported.Segmented (passesOfImports dependencies.specifiers body) [] (statements body) [] := by
  have himporting := importing_of_performed hregistered (fun _ hmem => hmem) himports
  have hpasses : passesOfImports dependencies.specifiers body ++ [] = imported.importPasses := by
    rw [List.append_nil, passesOfImports, ← bindings_of_imported hregistered himports]
    rfl
  refine ⟨.nil, himporting.done_eq, ?_, ?_, .slnil⟩
  · rw [List.flatMap_nil, hpasses]
    exact himporting.pending_eq
  · rw [List.flatMap_nil, hpasses]
    exact himporting.injects_object

/-- The strict passes of a module are for the names that its imports bind. -/
theorem names_passesOfImports {body : List Node} {dependencies : Dependencies}
    (h : body.foldlM registerSource .empty = .ok dependencies) (slots : List String) :
    (passesOfImports slots body).map (·.name) = importedLocals body := by
  rw [passesOfImports, List.map_map]
  exact localNames_boundBy fun _ hmem _ hsource => stringValue?_of_registered h hmem hsource

/-- **In the end every statement has made its contribution.** The state after the imports is kept in
the statement, since the given-up names are measured there. -/
theorem exists_segmented {body : List Node} {final : Wrapping} (h : run body = .ok final) :
    ∃ imported segments, Importing final.dependencies.specifiers (statements body) imported ∧
      imported.dependencies = final.dependencies ∧
      imported.importPasses = passesOfImports final.dependencies.specifiers body ∧
      (passesOfImports final.dependencies.specifiers body).map (·.name) = importedLocals body ∧
      final.Segmented (passesOfImports final.dependencies.specifiers body) (statements body) []
        segments := by
  obtain ⟨dependencies, hregistered, hfold⟩ := run_ok h
  obtain ⟨imported, himports, htaken⟩ := Except.foldlM_append_ok hfold
  have himporting := importing_of_performed hregistered (fun _ hmem => hmem) himports
  have hslots : imported.dependencies.specifiers = dependencies.specifiers :=
    himporting.specifiers_eq
  have hnamed : AllNamed imported.dependencies.specifiers (statements body) :=
    hslots ▸ (allNamed_of_registered hregistered).mono (List.filter_subset_self _)
  obtain ⟨hdependencies, segments, hfinal⟩ :=
    (segmented_of_imported hregistered himports).run hnamed htaken
  have hsame : final.dependencies.specifiers = dependencies.specifiers := by
    rw [hdependencies, hslots]
  refine ⟨imported, segments, hsame ▸ himporting, hdependencies.symm, ?_,
    names_passesOfImports hregistered _, hsame ▸ hfinal⟩
  rw [hsame, passesOfImports, ← bindings_of_imported hregistered himports]
  rfl

end Wrapping

/-- **Every statement survives, once, in its place, and sees every pass.** The body of the
wrapper is what the statements of the module that are no imports contribute, in their order,
each according to its form. There is one list of passes, those of the imports and then those of
the exports, each in order; a statement that is kept has gone through all of them. -/
theorem Program.wrap_segments {program : Program} {options : WrapOptions} {wrapped : Wrapped}
    (h : program.wrap options = .ok wrapped) :
    ∃ (imports exports : List Pass) (segments : List Segment),
      imports = Wrapping.passesOfImports wrapped.dependencies program.body ∧
      imports.map (·.name) = Wrapping.importedLocals program.body ∧
      (∀ pass ∈ imports, pass.strict = true) ∧
      exports = segments.flatMap Segment.passes ∧
      (∀ pass ∈ exports, pass.strict = false) ∧
      wrapped.program.body =
        [wrapper wrapped.dependencies (segments.flatMap Segment.nodes) options] ∧
      List.Forall₂ (Contributes wrapped.dependencies (imports ++ exports))
        (Wrapping.statements program.body) segments := by
  obtain ⟨final, hrun, hwrapped⟩ := Except.bind_ok h
  cases hwrapped
  obtain ⟨-, segments, -, -, -, hnames, hfinal⟩ := Wrapping.exists_segmented hrun
  have hcontributes := hfinal.contributes
  refine ⟨_, _, segments, rfl, hnames, ?_, rfl, ?_, ?_, hcontributes⟩
  · intro pass hmem
    obtain ⟨binding, -, rfl⟩ := List.mem_map.1 hmem
    rfl
  · intro pass hmem
    obtain ⟨segment, hsegment, hmem⟩ := List.mem_flatMap.1 hmem
    obtain ⟨statement, hstatement⟩ := exists_of_mem_right hcontributes hsegment
    obtain ⟨localName, exported, rfl⟩ := hstatement.exists_exportPass hmem
    rfl
  · rw [hfinal.done_eq]

/-- A wrapper tells its body, so that what is said about a run can be said about the result. -/
theorem wrapper_inj {dependencies : List String} {body body' : List Node} {options : WrapOptions}
    (h : wrapper dependencies body options = wrapper dependencies body' options) :
    body = body' := by
  simpa [wrapper, Node.statement, Node.call, Node.anonymousFunction] using h

/-- The module `f(a); import { a } from "m"; export var x = a; export { f as g, a as b };`, which
uses an import before it and an export before its list. -/
def callAboveImport : Program :=
  ⟨[.statement (.call (.identifier "f") [.identifier "a"]),
    .importDeclaration [.importSpecifier (.identifier "a") (.identifier "a")] (.stringLiteral "m"),
    .exportNamedDeclaration
      (some (.variableDeclaration [.variableDeclarator (.identifier "x") (some (.identifier "a"))]
        .var)) [] none,
    .exportNamedDeclaration none [.exportSpecifier (.identifier "f") (.identifier "g"),
      .exportSpecifier (.identifier "a") (.identifier "b")] none], none⟩

/-- The call is kept, and both the pass of the import and that of the list have gone over it. -/
theorem Program.wrap_segments_callAboveImport :
    ∃ wrapped, callAboveImport.wrap .default = .ok wrapped ∧ wrapped.dependencies = ["m"] ∧
      ∃ (imports exports : List Pass) (segments : List Segment),
        imports.map (·.name) = ["a"] ∧ (∀ pass ∈ exports, pass.strict = false) ∧
        wrapped.program.body = [wrapper ["m"] (segments.flatMap Segment.nodes) .default] ∧
        segments.flatMap Segment.nodes =
          [.statement (.call (.access "__exports__" "g") [.access "__uDep0__" "a"]),
            .assignmentStatement (.access "__exports__" "x") (.access "__uDep0__" "a"),
            .assignmentStatement (.access "__exports__" "b") (.access "__uDep0__" "a")] ∧
        List.Forall₂ (Contributes ["m"] (imports ++ exports))
          (Wrapping.statements callAboveImport.body) segments := by
  have h : callAboveImport.wrap .default = .ok ⟨⟨[wrapper ["m"]
      [.statement (.call (.access "__exports__" "g") [.access "__uDep0__" "a"]),
        .assignmentStatement (.access "__exports__" "x") (.access "__uDep0__" "a"),
        .assignmentStatement (.access "__exports__" "b") (.access "__uDep0__" "a")] .default],
      some "script"⟩, ["m"]⟩ := by with_unfolding_all rfl
  obtain ⟨imports, exports, segments, -, himports, -, -, hexports, hbody, hsegments⟩ :=
    Program.wrap_segments h
  exact ⟨_, h, rfl, imports, exports, segments, himports.trans (by decide), hexports, hbody,
    (wrapper_inj (List.singleton_inj.1 hbody)).symm, hsegments⟩

end DefineWrap
