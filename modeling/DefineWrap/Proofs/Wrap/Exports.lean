/-
Which exports are lost.

A module exports a name in one of five ways (`Exports`). A value, a function, a class and a
re-export are assigned to the exports where they stand, and so is an entry of an export
list whose local name is taken by an import or by an earlier statement. Every other export
of a local name relies on the pass for that name, and the pass on what the module writes to
the name: function declarations, assignments and initial values. A class that is exported
by a list, or a variable that is set by a pattern, is written by none of these. And an entry
of a list finds the writes to its local name gone if an entry before it was for the same
name. Then nothing is assigned, and the export is lost (`Program.wrap_exports`).
-/
import DefineWrap.Proofs.Wrap.Locals

set_option autoImplicit false

namespace DefineWrap

/-! ## Ways to export a name -/

/-- How a statement exports a name. A value is there when the statement is; the other two need a
write to a local name somewhere in the module. -/
inductive Export where
  /-- A value is assigned where the statement stands. -/
  | value
  /-- A variable is declared. -/
  | declared (name : String)
  /-- An entry of a list, with the entries before it. -/
  | listed (localName : Node) (earlier : List Node)

/-- The names that a statement exports, and how. The two forms of an exported declaration differ
because a function or class is assigned at once and a variable is not. -/
inductive Exports : Node → String → Export → Prop
  | default {declaration : Node} :
    Exports (.exportDefaultDeclaration declaration) defaultMember .value
  | reexport {specifiers : List Node} {source specifier : Node} {names : String × String}
    (hmem : specifier ∈ specifiers) (hnames : reexportNames specifier = .ok names) :
    Exports (.exportNamedDeclaration none specifiers (some source)) names.2 .value
  | declaration {declaration : Node} {name : String} {specifiers : List Node}
    {source : Option Node} (h : declarationName? declaration = some name) :
    Exports (.exportNamedDeclaration (some declaration) specifiers source) name .value
  | declarator {declarations specifiers : List Node} {kind : VariableKind}
    {source : Option Node} {name : String}
    (h : name ∈ declarations.flatMap Node.declaratorNames) :
    Exports (.exportNamedDeclaration (some (.variableDeclaration declarations kind)) specifiers
      source) name (.declared name)
  | entry {earlier later : List Node} {localName node : Node} {exported : String}
    (h : exportEntry (.exportSpecifier localName node) = .ok (localName, exported)) :
    Exports (.exportNamedDeclaration none
      (earlier ++ .exportSpecifier localName node :: later) none) exported
      (.listed localName earlier)

/-- No statement writes to a name where a pass for it comes to, after passes for some names. It is
asked of the text, in the round that the pass finds. -/
def Unwritten (statements : List Node) (name : String) (passed : List String) : Prop :=
  ∀ statement ∈ statements,
    (writes name).gather (Round.first.after passed name) statement.content = []

/-- Whether an export relies on writes that are not there. The imported names, the
statements before the export and all statements are given. -/
def Export.Lost (table : Dependencies) (imported : List String) (before statements : List Node) :
    Export → Prop
  | .value => False
  | .declared name => Unwritten statements name (before.flatMap (exportedLocals table))
  | .listed localName earlier =>
    ∃ name, localName = .identifier name ∧ table.injects name = false ∧ name ∉ imported ∧
      name ∉ before.flatMap (exportedLocals table) ∧
      Unwritten statements name (earlier.flatMap (entryLocals table))

/-- Whether a node is an entry of an export list whose local is a name. A string as the local is
assigned as it is. -/
def isEntry : Node → Bool
  | .exportSpecifier localName _ => localName.kind = .identifier || localName.kind = .literal
  | _ => false

/-- A module that leaves the names of the parameters of the wrapper alone, where it imports
and exports, and whose export lists consist of names. -/
structure Regular (table : Dependencies) (imported : List String) (statements : List Node) :
    Prop where
  imported : exportsParam ∉ imported
  declared : ∀ statement ∈ statements, ∀ name ∈ declaredLocals statement,
    table.injects name = false
  listed : ∀ statement ∈ statements, ∀ specifiers,
    statement = .exportNamedDeclaration none specifiers none →
    ∀ specifier ∈ specifiers, isEntry specifier = true

/-- Whether an export is lost does not depend on the bindings in the table, but only on its
slots. -/
theorem Export.lost_bindings (kind : Export) {specifiers : List String}
    (bindings bindings' : List Binding) {imported : List String} {before statements : List Node} :
    kind.Lost ⟨specifiers, bindings⟩ imported before statements ↔
      kind.Lost ⟨specifiers, bindings'⟩ imported before statements := by
  cases kind <;> rfl

theorem Regular.of_bindings {specifiers : List String} {bindings : List Binding}
    {imported : List String} {statements : List Node}
    (h : Regular ⟨specifiers, bindings⟩ imported statements) (bindings' : List Binding) :
    Regular ⟨specifiers, bindings'⟩ imported statements :=
  ⟨h.imported, h.declared, h.listed⟩

/-- What holds of one element holds of all elements of a list if it holds of the others. -/
theorem forall_mem_middle {α : Type} {P : α → Prop} {before after : List α} {item : α}
    (h : P item) :
    (∀ other ∈ before ++ item :: after, P other) ↔ ∀ other ∈ before ++ after, P other := by
  rw [List.forall_mem_append, List.forall_mem_cons, List.forall_mem_append, and_iff_right h]

/-- What is exported as a value is assigned by the statement itself, also after passes: these change
the value and not the member. -/
theorem Takes.exists_assign {table : Dependencies} {passes : List Pass} {statement : Node}
    {exported : String} (hexports : Exports statement exported .value) {names : List String}
    {effects : List Effect}
    (htakes : Takes table (Pass.replaceAll passes statement) names effects) :
    ∃ value, .assign exported value ∈ effects := by
  cases hexports with
  | default =>
    rw [Pass.replaceAll_exportDefaultDeclaration] at htakes
    cases htakes with
    | defaultValue h => exact ⟨_, List.mem_singleton_self _⟩
    | defaultNamed h => exact ⟨_, List.mem_cons_of_mem _ (List.mem_singleton_self _)⟩
    | other h => cases h
  | reexport hmem hread =>
    rw [Pass.replaceAll_exportNamedDeclaration] at htakes
    cases htakes with
    | reexport hsource hknown hnames =>
      exact ⟨_, List.mem_map.2 ⟨_, Except.mem_mapM_ok hnames hmem hread, rfl⟩⟩
    | other h => cases h
  | @declaration declaration name specifiers source hname =>
    rw [Pass.replaceAll_exportNamedDeclaration, Option.map_some] at htakes
    -- A pass makes no variable declaration of a function or a class, so this is taken as a
    -- declaration of one name.
    have hkind : (Pass.replaceAll passes declaration).kind ≠ .variableDeclaration := by
      refine Pass.kind_replaceAll_ne (fun hkind => ?_) (by decide) passes
      cases declaration <;> first | (cases hkind; done) | cases hname
    generalize hreplaced : Pass.replaceAll passes declaration = replaced at htakes hkind
    cases htakes with
    | declarators h => exact absurd rfl hkind
    | declaration h =>
      rw [← hreplaced] at h
      have hsame := Pass.declarationName?_replaceAll h
      rw [hname] at hsame
      cases hsame
      exact ⟨_, List.mem_cons_self⟩
    | other h => cases h

theorem assigns.gather_isEntry {exported : String} {specifier : Node}
    (h : isEntry specifier = true) : (assigns exported).gather () specifier = [] := by
  cases specifier
  case exportSpecifier localName node =>
    rw [(assigns.carries .empty).entry_eq]
    cases localName
    case identifier name => exact assigns.gather_identifier name
    case literal value raw regex =>
      rw [Survey.gather_eq _ _ (.literal value raw regex) (of_decide_eq_false rfl)]
      rfl
    all_goals cases h
  all_goals cases h

theorem writes.gather_isEntry {name : String} {specifier : Node} (h : isEntry specifier = true)
    (round : Round) : (writes name).gather round specifier = [] := by
  cases specifier
  case exportSpecifier localName node =>
    rw [Survey.gather_eq _ _ (.exportSpecifier localName node) (of_decide_eq_false rfl)]
    cases localName
    case identifier other => exact List.append_nil _ |>.trans (writes.gather_identifier round other)
    case literal value raw regex =>
      refine List.append_nil _ |>.trans ?_
      change (writes name).gather round (.literal value raw regex) = []
      rw [Survey.gather_eq _ _ (.literal value raw regex) (of_decide_eq_false rfl)]
      rfl
    all_goals cases h
  all_goals cases h

/-- A statement that does not export a declaration of a name has no part in its writes but by its
content. -/
theorem Regular.quiet {table : Dependencies} {imported : List String} {statements : List Node}
    (h : Regular table imported statements) {statement : Node} (hmem : statement ∈ statements)
    {name : String} (hname : name ∉ declaredLocals statement) : writes.Quiet name statement :=
  ⟨hname, fun specifiers heq specifier hspecifier =>
    writes.gather_isEntry (h.listed statement hmem specifiers heq specifier hspecifier)⟩

/-- An export list neither assigns to the exports nor writes anything, so it can be left out of the
statements that are asked. -/
theorem Regular.gather_list {table : Dependencies} {imported : List String}
    {statements : List Node} (h : Regular table imported statements) {specifiers : List Node}
    (hmem : .exportNamedDeclaration none specifiers none ∈ statements) (exported name : String)
    (round : Round) :
    (assigns exported).gather () (Node.exportNamedDeclaration none specifiers none).content = [] ∧
      (writes name).gather round (Node.exportNamedDeclaration none specifiers none).content =
        [] := by
  have hcontent : (Node.exportNamedDeclaration none specifiers none).content =
    .exportNamedDeclaration none specifiers none := rfl
  have hentries := h.listed _ hmem specifiers rfl
  rw [hcontent]
  constructor
  · rw [(assigns.carries .empty).list_eq, List.flatMap_eq_nil_iff]
    exact fun specifier hspecifier => assigns.gather_isEntry (hentries specifier hspecifier)
  · have hchildren : (Node.exportNamedDeclaration none specifiers none).children = specifiers := by
      simp [Node.children, Node.places]
    rw [Survey.gather_eq_nil_iff _ _ (.exportNamedDeclaration none specifiers none)
      (of_decide_eq_false rfl), hchildren]
    exact ⟨rfl, fun specifier hspecifier =>
      writes.gather_isEntry (hentries specifier hspecifier) round⟩

/-- What a list does when it is taken, without the other cases of `Takes`, which its form
excludes. -/
theorem Takes.list_eq {table : Dependencies} {specifiers : List Node} {names : List String}
    {effects : List Effect}
    (htakes : Takes table (.exportNamedDeclaration none specifiers none) names effects) :
    ∃ entries, specifiers.mapM exportEntry = .ok entries ∧ names = entries.map (·.2) ∧
      effects = entries.map (entryEffect table) := by
  cases htakes with
  | list h => exact ⟨_, h, rfl, rfl⟩
  | other h => cases h

/-- What an exported variable declaration does when it is taken. It could be taken as a declaration
of another kind only if it had a name of its own. -/
theorem Takes.declarators_eq {table : Dependencies} {declarations specifiers : List Node}
    {kind : VariableKind} {source : Option Node} {names : List String} {effects : List Effect}
    (htakes : Takes table (.exportNamedDeclaration (some (.variableDeclaration declarations kind))
      specifiers source) names effects) :
    (∀ id init, .variableDeclarator id init ∈ declarations → ∃ name, id = .identifier name) ∧
      names = declarations.flatMap Node.declaratorNames ∧
      effects = declarations.flatMap initialEffects ++
        (declarations.flatMap Node.declaratorNames).map fun name => .exportAs name name := by
  cases htakes with
  | declarators h => exact ⟨h, rfl, rfl⟩
  | declaration h => cases h
  | other h => cases h

/-- Whether an entry can be read does not depend on its local node, and so it can be read after
passes. -/
theorem exportEntry_local {localName node : Node} {exported : String}
    (h : exportEntry (.exportSpecifier localName node) = .ok (localName, exported)) (other : Node) :
    exportEntry (.exportSpecifier other node) = .ok (other, exported) := by
  unfold exportEntry at h ⊢
  simp only at h ⊢
  split at h
  · cases h
    rfl
  · cases h

/-! ## One statement in the run over a module -/

/-- How one statement of a module is taken: through the passes of the imports and of the statements
before it. It holds what a run gives, in the parts that the lemmas on assignments ask for. -/
structure Taking (table : Dependencies) (imported : List String) (before : List Node)
    (statement : Node) (after : List Node) where
  imports : List Pass
  names₁ : List String
  effects₁ : List Effect
  names : List String
  effects : List Effect
  names₂ : List String
  effects₂ : List Effect
  imports_name : imports.map (·.name) = imported
  imports_object : ∀ pass ∈ imports,
    table.injects pass.access.object = true ∧ pass.access.object ≠ exportsParam
  imports_kept : ∀ name ∈ imported, table.injects name = false →
    ∀ other ∈ before ++ statement :: after,
      name ∉ exportedLocals table (Pass.replaceAll imports other)
  first : TakesAll table (before.map (Pass.replaceAll imports)) names₁ effects₁
  here : Takes table (Pass.replaceAll (imports ++ Effect.passes effects₁) statement) names effects
  rest : TakesAll table ((after.map (Pass.replaceAll imports)).map
    (Pass.replaceAll (Effect.passes (effects₁ ++ effects)))) names₂ effects₂
  nodup : (names₁ ++ names ++ names₂).Nodup

namespace Taking

variable {table : Dependencies} {imported : List String} {before after : List Node}
  {statement : Node} (taking : Taking table imported before statement after)

/-- What is done in the end, as the effects of the statements before, of this one and of those after
it. -/
def done : List Node :=
  Effect.applyAll [] (taking.effects₁ ++ taking.effects ++ taking.effects₂)

/-- The passes before the statement: first those of the imports, and then those of the statements
before it. -/
def passes : List Pass := taking.imports ++ Effect.passes taking.effects₁

/-- All of them are to parameters, the former to those of slots and the latter to that of the
exports. -/
theorem injects_passes :
    ∀ pass ∈ taking.passes, table.injects pass.access.object = true := by
  intro pass hmem
  rcases List.mem_append.1 hmem with hmem | hmem
  · exact (taking.imports_object pass hmem).1
  · obtain ⟨-, -, name, -, exported, -, rfl⟩ := taking.first.mem_passes hmem
    exact table.injects_exportsParam

/-- No pass of an import puts an access on a local name, unless the name is that of a parameter. -/
theorem imports_objects {name : String} (hparam : table.injects name = false) :
    ∀ pass ∈ taking.imports, pass.access.object ≠ name := fun pass hmem =>
  Dependencies.ne_of_injects hparam (taking.imports_object pass hmem).1

/-- The passes of imports leave the assignments to the exports alone, as their accesses are to other
parameters. -/
theorem stable_imports (himported : exportsParam ∉ imported) (exported : String) :
    ∀ pass ∈ taking.imports, (assigns exported).Stable pass := by
  intro pass hmem
  have hobject := (taking.imports_object pass hmem).2
  refine assigns.stable ?_ (Access.isIdentifier_node_eq_false hobject)
    (Access.isAccess_node_eq_false hobject exported)
  intro heq
  rw [heq, ← taking.imports_name] at himported
  exact himported (List.mem_map_of_mem hmem)

/-- They leave the writes to a name alone that no import binds. So the round of the name is the
first one when the statements begin to be taken. -/
theorem gather_writes_imports {name : String} (hparam : table.injects name = false)
    (hname : name ∉ imported) (round : Round) (node : Node) :
    (writes name).gather round (Pass.replaceAll taking.imports node) =
      (writes name).gather round node := by
  rw [writes.gather_replaceAll (taking.imports_objects hparam), taking.imports_name,
    round.after_of_not_mem hname]

/-- The statements before are quiet about a name that they do not declare, also after the passes of
the imports. -/
theorem quiet_before (hregular : Regular table imported (before ++ statement :: after))
    {name : String} (hparam : table.injects name = false)
    (hname : ∀ other ∈ before, name ∉ declaredLocals other) :
    ∀ other ∈ before.map (Pass.replaceAll taking.imports), writes.Quiet name other := by
  rw [List.forall_mem_map]
  intro other hother
  exact (hregular.quiet (List.mem_append_left _ hother) (hname other hother)).replaceAll
    (taking.imports_objects hparam)

/-- No statement gives up the name of a parameter: in a regular module none declares one, and lists
do not give them up. -/
theorem injects_local (hregular : Regular table imported (before ++ statement :: after))
    {other : Node} (hother : other ∈ before ++ statement :: after) {name : String}
    (hmem : name ∈ exportedLocals table (Pass.replaceAll taking.imports other)) :
    table.injects name = false := by
  exact injects_of_mem_exportedLocals (hregular.declared other hother)
    (exportedLocals_replaceAll_subset (fun pass hpass => (taking.imports_object pass hpass).1)
      other hmem)

/-- The passes of all statements are for names other than the exports, and so none of them takes the
parameter away by which assignments to the exports are found. -/
theorem passes_exports (hregular : Regular table imported (before ++ statement :: after)) :
    ∀ pass ∈ Effect.passes (taking.effects₁ ++ taking.effects ++ taking.effects₂),
      ∃ name other, pass = Effect.exportPass name other ∧ name ≠ exportsParam := by
  have hne : ∀ other ∈ before ++ statement :: after, ∀ name ∈ exportedLocals table
      (Pass.replaceAll taking.imports other), name ≠ exportsParam := fun other hother name hmem =>
    (Dependencies.ne_of_injects (taking.injects_local hregular hother hmem)
      table.injects_exportsParam).symm
  have hexports : ∀ pass ∈ Effect.passes (taking.effects₁ ++ taking.effects),
      table.injects pass.access.object = true := by
    rw [Effect.passes_append]
    intro pass hmem
    rcases List.mem_append.1 hmem with hmem | hmem
    · obtain ⟨-, -, name, -, exported, -, rfl⟩ := taking.first.mem_passes hmem
      exact table.injects_exportsParam
    · obtain ⟨name, -, exported, -, rfl⟩ := taking.here.mem_passes hmem
      exact table.injects_exportsParam
  intro pass hmem
  rw [Effect.passes_append, Effect.passes_append] at hmem
  -- One case for the statements before, one for the statement itself, and one for those after it.
  rcases List.mem_append.1 hmem with hmem | hmem
  · rcases List.mem_append.1 hmem with hmem | hmem
    · obtain ⟨other, hother, name, hname, exported, -, rfl⟩ := taking.first.mem_passes hmem
      obtain ⟨original, horiginal, rfl⟩ := List.mem_map.1 hother
      exact ⟨name, exported, rfl, hne original (List.mem_append_left _ horiginal) name hname⟩
    · obtain ⟨name, hname, exported, -, rfl⟩ := taking.here.mem_passes hmem
      rw [Pass.replaceAll_append] at hname
      refine ⟨name, exported, rfl, hne statement (by simp) name
        (exportedLocals_replaceAll_subset (fun other hother => hexports other ?_) _ hname)⟩
      rw [Effect.passes_append]
      exact List.mem_append_left _ hother
  · obtain ⟨other, hother, name, hname, exported, -, rfl⟩ := taking.rest.mem_passes hmem
    obtain ⟨replaced, hreplaced, rfl⟩ := List.mem_map.1 hother
    obtain ⟨original, horiginal, rfl⟩ := List.mem_map.1 hreplaced
    exact ⟨name, exported, rfl, hne original (by simp [horiginal]) name
      (exportedLocals_replaceAll_subset hexports _ hname)⟩

/-- What the statement assigns itself is in the result, and then the export is not lost whatever
else the module does. -/
theorem done_ne_nil (hregular : Regular table imported (before ++ statement :: after))
    {exported : String} {value : Node} (h : .assign exported value ∈ taking.effects) :
    taking.done.flatMap ((assigns exported).gather ()) ≠ [] :=
  assigns.exists_of_assign (List.mem_append_left _ (List.mem_append_right _ h))
    (taking.passes_exports hregular) []

/-- What the statements before and after come to, in terms of the source: the passes of the imports
make no difference to either survey. -/
theorem forall_imports_iff (hregular : Regular table imported (before ++ statement :: after))
    {name : String} (hparam : table.injects name = false) (hname : name ∉ imported)
    (exported : String) (round : Round) :
    (∀ other ∈ before.map (Pass.replaceAll taking.imports) ++
        after.map (Pass.replaceAll taking.imports),
        (assigns exported).gather () other.content = [] ∧
          (writes name).gather round other.content = []) ↔
      ∀ other ∈ before ++ after, (assigns exported).gather () other.content = [] ∧
        (writes name).gather round other.content = [] := by
  rw [← List.map_append, List.forall_mem_map]
  refine forall₂_congr fun other _ => ?_
  rw [Pass.content_replaceAll, taking.gather_writes_imports hparam hname,
    Survey.gather_replaceAll (taking.stable_imports hregular.imported exported)]

theorem locals_ne_exportsParam (hregular : Regular table imported (before ++ statement :: after)) :
    ∀ other ∈ before.map (Pass.replaceAll taking.imports) ++
      after.map (Pass.replaceAll taking.imports),
      ∀ name ∈ exportedLocals table other, name ≠ exportsParam := by
  rw [← List.map_append, List.forall_mem_map]
  intro other hother name hname
  refine (Dependencies.ne_of_injects (taking.injects_local hregular ?_ hname)
    table.injects_exportsParam).symm
  rcases List.mem_append.1 hother with hmem | hmem <;> simp [hmem]

/-- What the statement exports has not been exported before, as names are exported once. -/
theorem not_mem_names₁ {exported : String} (hexported : exported ∈ taking.names) :
    exported ∉ taking.names₁ := by
  intro hmem
  have hnodup := taking.nodup
  rw [List.append_assoc, List.nodup_append] at hnodup
  exact hnodup.2.2 exported hmem exported (List.mem_append_left _ hexported) rfl

/-- The passes before the statement leave assignments to what it exports alone, since they export
other names. -/
theorem stable_passes (hregular : Regular table imported (before ++ statement :: after))
    {exported : String} (hexported : exported ∈ taking.names) :
    ∀ pass ∈ taking.passes, (assigns exported).Stable pass := by
  have hlocals := List.forall_mem_append.1 (taking.locals_ne_exportsParam hregular)
  have hnames : ∀ other ∈ taking.names₁, other ≠ exported := by
    rintro other hother rfl
    exact taking.not_mem_names₁ hexported hother
  intro pass hmem
  rcases List.mem_append.1 hmem with hmem | hmem
  · exact taking.stable_imports hregular.imported exported pass hmem
  · exact (assigns.elsewhere_of_mem_passes taking.first hlocals.1 hnames pass hmem).stable

/-- The passes of the statements before are for the names that they give up in the text, apart from
imported ones. -/
theorem mem_passed_iff {name : String} (hname : name ∉ imported) :
    name ∈ Effect.passed taking.effects₁ ↔ name ∈ before.flatMap (exportedLocals table) :=
  taking.first.mem_passed_iff (fun pass hmem => (taking.imports_object pass hmem).1)
    (by rwa [taking.imports_name])

theorem mem_passes_iff {name : String} (hname : name ∉ imported) :
    name ∈ taking.passes.map (·.name) ↔ name ∈ before.flatMap (exportedLocals table) := by
  rw [passes, List.map_append, List.mem_append, taking.imports_name, or_iff_right hname]
  exact taking.mem_passed_iff hname

/-- There has been no pass for a name if it is neither imported nor given up before. Only then does
an entry for it start a pass. -/
theorem not_mem_passes_iff {name : String} :
    name ∉ taking.passes.map (·.name) ↔
      name ∉ imported ∧ name ∉ before.flatMap (exportedLocals table) := by
  rw [passes, List.map_append, List.mem_append, taking.imports_name, not_or]
  exact and_congr_right fun himported => not_congr (taking.mem_passed_iff himported)

/-- The entries of a list after the passes before it: those before the given one, the given one and
those after it, with the names that they have in the text. -/
theorem exists_entries {earlier later : List Node} {localName node : Node} {exported : String}
    (taking : Taking table imported before (.exportNamedDeclaration none
      (earlier ++ .exportSpecifier localName node :: later) none) after)
    (h : exportEntry (.exportSpecifier localName node) = .ok (localName, exported)) :
    ∃ first last, (earlier.map (Pass.replaceAll taking.passes)).mapM exportEntry = .ok first ∧
      ((earlier ++ .exportSpecifier localName node :: later).map
        (Pass.replaceAll taking.passes)).mapM exportEntry =
          .ok (first ++ (Pass.replaceAll taking.passes localName, exported) :: last) ∧
      taking.names =
        (first ++ (Pass.replaceAll taking.passes localName, exported) :: last).map (·.2) ∧
      taking.effects = (first ++ (Pass.replaceAll taking.passes localName, exported) :: last).map
        (entryEffect table) := by
  have hhere := taking.here
  rw [Pass.replaceAll_exportNamedDeclaration] at hhere
  obtain ⟨entries, hentries, hnames, heffects⟩ := hhere.list_eq
  have hentries' := hentries
  rw [List.map_append] at hentries'
  obtain ⟨first, others, hfirst, hothers, rfl⟩ := Except.mapM_append_ok hentries'
  obtain ⟨entry, last, hentry, -, rfl⟩ := Except.mapM_cons_ok hothers
  rw [Pass.replaceAll_exportSpecifier, exportEntry_local h] at hentry
  cases hentry
  exact ⟨first, last, hfirst, hentries, hnames, heffects⟩

/-- An entry that gives up its local name: the export is lost if no other statement assigns to it,
and none writes to the local name in the round after the entries before it. -/
theorem gather_entry_eq_nil {specifiers earlier : List Node} {exported : String}
    (taking : Taking table imported before (.exportNamedDeclaration none specifiers none) after)
    (hregular : Regular table imported
      (before ++ .exportNamedDeclaration none specifiers none :: after))
    {name : String} (hparam : table.injects name = false) (himported : name ∉ imported)
    (hbefore : name ∉ before.flatMap (exportedLocals table)) {first last : List (Node × String)}
    (hfirst : (earlier.map (Pass.replaceAll taking.passes)).mapM exportEntry = .ok first)
    (hentries : (specifiers.map (Pass.replaceAll taking.passes)).mapM exportEntry =
      .ok (first ++ (.identifier name, exported) :: last))
    (hnames : taking.names = (first ++ (.identifier name, exported) :: last).map (·.2))
    (heffects : taking.effects =
      (first ++ (.identifier name, exported) :: last).map (entryEffect table)) :
    taking.done.flatMap ((assigns exported).gather ()) = [] ↔
      ∀ other ∈ before ++ after, (assigns exported).gather () other.content = [] ∧
        (writes name).gather (Round.first.after (earlier.flatMap (entryLocals table)) name)
          other.content = [] := by
  have hpassed : name ∉ taking.passes.map (·.name) :=
    taking.not_mem_passes_iff.2 ⟨himported, hbefore⟩
  -- The passes before the statement count for the round only by the entries of the list itself.
  have hround : Round.first.after
      (Effect.passed (taking.effects₁ ++ first.map (entryEffect table))) name =
        Round.first.after (earlier.flatMap (entryLocals table)) name := by
    refine Round.first.after_congr ?_
    rw [Effect.passed_append, passed_entries hfirst, List.mem_append,
      taking.mem_passed_iff himported, List.flatMap_map]
    refine (or_iff_right hbefore).trans ?_
    simp only [List.mem_flatMap, mem_entryLocals_replaceAll taking.injects_passes, hpassed,
      not_false_eq_true, and_true]
  have hlocals := taking.locals_ne_exportsParam hregular
  have hnodup := taking.nodup
  have hrest := taking.rest
  rw [hnames] at hnodup
  rw [heffects] at hrest
  have hquiet := taking.quiet_before hregular hparam fun other hother hmem =>
    hbefore (List.mem_flatMap.2
      ⟨other, hother, declaredLocals_subset_exportedLocals table other hmem⟩)
  have hlist : writes.Quiet name
      (.exportNamedDeclaration none (specifiers.map (Pass.replaceAll taking.passes)) none) := by
    have hsource : writes.Quiet name (.exportNamedDeclaration none specifiers none) :=
      hregular.quiet (List.mem_append_right _ List.mem_cons_self) (by simp [declaredLocals])
    have hreplaced := hsource.replaceAll fun pass hmem =>
      Dependencies.ne_of_injects hparam (taking.injects_passes pass hmem)
    rwa [Pass.replaceAll_exportNamedDeclaration] at hreplaced
  have hexported : exported ∈ taking.names := by
    rw [hnames]
    simp
  have hstable := taking.stable_passes hregular hexported
  have hentry : ∀ specifier ∈ specifiers.map (Pass.replaceAll taking.passes),
      (assigns exported).gather () specifier = [] := by
    rw [List.forall_mem_map]
    intro specifier hspecifier
    rw [Survey.gather_replaceAll hstable]
    exact assigns.gather_isEntry (hregular.listed _ (List.mem_append_right _ List.mem_cons_self)
      specifiers rfl specifier hspecifier)
  -- This is about the statements as the passes have left them. The rest is about the source.
  have hmain := assigns.gather_entry_eq_nil hparam hentries taking.first hrest hlocals hquiet hlist
    hentry hnodup
  rw [done, heffects, hmain, hround]
  exact taking.forall_imports_iff hregular hparam himported exported _

/-- **Entries of export lists.** Either the entry is assigned at once, and then it is not lost, or
its local name is given up and the former lemma applies. -/
theorem gather_listed_eq_nil {earlier later : List Node} {localName node : Node}
    {exported : String} (taking : Taking table imported before (.exportNamedDeclaration none
      (earlier ++ .exportSpecifier localName node :: later) none) after)
    (hregular : Regular table imported (before ++ .exportNamedDeclaration none
      (earlier ++ .exportSpecifier localName node :: later) none :: after))
    (h : exportEntry (.exportSpecifier localName node) = .ok (localName, exported)) :
    taking.done.flatMap ((assigns exported).gather ()) = [] ↔
      (∀ other ∈ before ++ .exportNamedDeclaration none
          (earlier ++ .exportSpecifier localName node :: later) none :: after,
        (assigns exported).gather () other.content = []) ∧
      (Export.listed localName earlier).Lost table imported before (before ++
        .exportNamedDeclaration none
          (earlier ++ .exportSpecifier localName node :: later) none :: after) := by
  obtain ⟨first, last, hfirst, hentries, hnames, heffects⟩ := taking.exists_entries h
  have hmem : ∀ name, name ∈ entryLocals table (.exportSpecifier
      (Pass.replaceAll taking.passes localName) node) ↔
        name ∈ entryLocals table (.exportSpecifier localName node) ∧
          name ∉ taking.passes.map (·.name) := fun name => by
    rw [← Pass.replaceAll_exportSpecifier]
    exact mem_entryLocals_replaceAll taking.injects_passes
  rcases entryEffect_eq table (Pass.replaceAll taking.passes localName) node exported with
    ⟨name, hlocals, hlocal, -⟩ | ⟨hlocals, heffect⟩
  -- The entry gives up its local name.
  · obtain ⟨hentry, hpassed⟩ := (hmem name).1 (by rw [hlocals]; exact List.mem_singleton_self name)
    obtain ⟨himported, hbefore⟩ := taking.not_mem_passes_iff.1 hpassed
    rw [entryLocals, List.mem_filter, Option.mem_toList] at hentry
    have hparam : table.injects name = false := by simpa using hentry.2
    have hsource : localName = .identifier name := Node.isIdentifier_iff.1 (decide_eq_true hentry.1)
    rw [hlocal] at hentries hnames heffects
    rw [taking.gather_entry_eq_nil hregular hparam himported hbefore hfirst hentries hnames
      heffects]
    have hlist := hregular.gather_list (List.mem_append_right _ List.mem_cons_self) exported name
      (Round.first.after (earlier.flatMap (entryLocals table)) name)
    subst hsource
    rw [← forall_mem_middle
      (P := fun other : Node => (assigns exported).gather () other.content = [] ∧
        (writes name).gather (Round.first.after (earlier.flatMap (entryLocals table)) name)
          other.content = []) hlist, forall₂_and]
    refine and_congr_right fun _ =>
      ⟨fun hwrites => ⟨name, rfl, hparam, himported, hbefore, hwrites⟩, ?_⟩
    rintro ⟨other, heq, -, -, -, hwrites⟩
    cases heq
    exact hwrites
  -- The entry is assigned, because its local name has been taken.
  · have hassign : .assign exported (Pass.replaceAll taking.passes localName) ∈ taking.effects := by
      rw [heffects]
      exact List.mem_map.2 ⟨_, List.mem_append_right _ List.mem_cons_self, heffect⟩
    refine ⟨fun hnil => absurd hnil (taking.done_ne_nil hregular hassign), ?_⟩
    rintro ⟨-, name, rfl, hparam, himported, hbefore, -⟩
    have hname : name ∈ entryLocals table (.exportSpecifier
        (Pass.replaceAll taking.passes (.identifier name)) node) :=
      (hmem name).2 ⟨by simp [entryLocals, hparam],
        taking.not_mem_passes_iff.2 ⟨himported, hbefore⟩⟩
    rw [hlocals] at hname
    cases hname

/-- A name that an export declares is bound by no import, or the pass of the import would have
refused it. -/
theorem not_mem_imported {declarations specifiers : List Node} {kind : VariableKind}
    {source : Option Node} (taking : Taking table imported before (.exportNamedDeclaration
      (some (.variableDeclaration declarations kind)) specifiers source) after) {name : String}
    (hparam : table.injects name = false)
    (hname : name ∈ declarations.flatMap Node.declaratorNames) : name ∉ imported := by
  intro himported
  refine taking.imports_kept name himported hparam _
    (List.mem_append_right _ List.mem_cons_self) ?_
  obtain ⟨others, heq, hnames⟩ :=
    Pass.replaceAll_variableDeclaration taking.imports declarations kind
  rw [Pass.replaceAll_exportNamedDeclaration, Option.map_some, heq]
  change name ∈ others.flatMap Node.declaratorNames
  rwa [hnames]

/-- **Variables of exported declarations.** If the declaration has a value for the name, it is
assigned at once; otherwise the writes of all statements count, those of the declaration itself
among them. -/
theorem gather_declared_eq_nil {declarations specifiers : List Node} {kind : VariableKind}
    {source : Option Node} (taking : Taking table imported before (.exportNamedDeclaration
      (some (.variableDeclaration declarations kind)) specifiers source) after)
    (hregular : Regular table imported (before ++ .exportNamedDeclaration
      (some (.variableDeclaration declarations kind)) specifiers source :: after))
    {name : String} (hname : name ∈ declarations.flatMap Node.declaratorNames) :
    taking.done.flatMap ((assigns name).gather ()) = [] ↔
      (∀ other ∈ before ++ .exportNamedDeclaration
          (some (.variableDeclaration declarations kind)) specifiers source :: after,
        (assigns name).gather () other.content = []) ∧
      (Export.declared name).Lost table imported before (before ++ .exportNamedDeclaration
        (some (.variableDeclaration declarations kind)) specifiers source :: after) := by
  have hdeclares : ∀ other ∈ declarations.flatMap Node.declaratorNames,
      table.injects other = false := fun other hother =>
    hregular.declared _ (List.mem_append_right _ List.mem_cons_self) other hother
  have hparam := hdeclares name hname
  have himported := taking.not_mem_imported hparam hname
  obtain ⟨others, heq, hothers⟩ :=
    Pass.replaceAll_variableDeclaration taking.passes declarations kind
  have hhere := taking.here
  change Takes table (Pass.replaceAll taking.passes _) _ _ at hhere
  rw [Pass.replaceAll_exportNamedDeclaration, Option.map_some, heq] at hhere
  obtain ⟨hids, hnames, heffects⟩ := hhere.declarators_eq
  have hexported : name ∈ taking.names := by rwa [hnames, hothers]
  -- What the declaration comes to is what it comes to in the source.
  have hassigns : (assigns name).gather () (.variableDeclaration others kind) =
      (assigns name).gather () (.variableDeclaration declarations kind) := by
    rw [← heq, Survey.gather_replaceAll (taking.stable_passes hregular hexported)]
  have hwrites : (writes name).gather .first (.variableDeclaration others kind) =
      (writes name).gather (Round.first.after (before.flatMap (exportedLocals table)) name)
        (.variableDeclaration declarations kind) := by
    rw [← heq, writes.gather_replaceAll fun pass hmem =>
        Dependencies.ne_of_injects hparam (taking.injects_passes pass hmem),
      Round.first.after_congr (taking.mem_passes_iff himported)]
  by_cases hset : ∃ value, .variableDeclarator (.identifier name) (some value) ∈ others
  -- The initial value is assigned, and it is a write.
  · obtain ⟨value, hvalue⟩ := hset
    have hassign : .assign name value ∈ taking.effects := by
      rw [heffects]
      exact List.mem_append_left _ (assigns.exists_initial hvalue)
    refine ⟨fun hnil => absurd hnil (taking.done_ne_nil hregular hassign), ?_⟩
    rintro ⟨-, hunwritten⟩
    have hnone := hunwritten _ (List.mem_append_right _ List.mem_cons_self)
    change (writes name).gather _ (.variableDeclaration declarations kind) = [] at hnone
    rw [← hwrites, Survey.gather_variableDeclaration, List.flatMap_eq_nil_iff] at hnone
    have hwritten := hnone _ hvalue
    rw [writes.gatherDeclarator_eq] at hwritten
    simp at hwritten
  -- Only the pass for the name can assign it.
  · have hunset : ∀ value, .variableDeclarator (.identifier name) (some value) ∉ others :=
      fun value hvalue => hset ⟨value, hvalue⟩
    obtain ⟨earlier, later, hsplit⟩ :=
      List.append_of_mem (show name ∈ others.flatMap Node.declaratorNames by rwa [hothers])
    have hlocals := taking.locals_ne_exportsParam hregular
    have hnodup := taking.nodup
    have hrest := taking.rest
    rw [hnames, hsplit] at hnodup
    rw [heffects, hsplit] at hrest
    have hdeclared : ∀ other ∈ earlier ++ later, other ≠ exportsParam := by
      intro other hother
      refine (Dependencies.ne_of_injects (hdeclares other ?_) table.injects_exportsParam).symm
      rw [← hothers, hsplit]
      rcases List.mem_append.1 hother with hmem | hmem <;> simp [hmem]
    have hquiet := taking.quiet_before hregular hparam fun other hother hmem =>
      taking.not_mem_names₁ hexported (taking.first.declaredLocals_subset hother hmem)
    have hmain := assigns.gather_declared_eq_nil hparam kind hids hunset hsplit taking.first hrest
      hlocals hdeclared hquiet hnodup
    rw [Round.first.after_congr (taking.mem_passed_iff himported), hassigns, hwrites,
      taking.forall_imports_iff hregular hparam himported name] at hmain
    rw [done, heffects, hsplit, hmain, Export.Lost, Unwritten]
    simp only [List.forall_mem_append, List.forall_mem_cons, forall₂_and]
    change _ ↔ (_ ∧ (assigns name).gather () (.variableDeclaration declarations kind) = [] ∧ _) ∧
      (_ ∧ (writes name).gather _ (.variableDeclaration declarations kind) = [] ∧ _)
    tauto

/-- What is done assigns to an exported name, unless the export relies on missing writes. One case
for each way to export a name. -/
theorem gather_eq_nil (hregular : Regular table imported (before ++ statement :: after))
    {exported : String} {kind : Export} (hexports : Exports statement exported kind) :
    taking.done.flatMap ((assigns exported).gather ()) = [] ↔
      (∀ other ∈ before ++ statement :: after,
        (assigns exported).gather () other.content = []) ∧
      kind.Lost table imported before (before ++ statement :: after) := by
  have hvalue : Exports statement exported .value →
      (taking.done.flatMap ((assigns exported).gather ()) = [] ↔
        (∀ other ∈ before ++ statement :: after,
          (assigns exported).gather () other.content = []) ∧ False) := fun hexports => by
    obtain ⟨value, hassign⟩ := Takes.exists_assign hexports taking.here
    rw [and_false, iff_false]
    exact taking.done_ne_nil hregular hassign
  cases hexports with
  | default => exact hvalue .default
  | reexport hmem hnames => exact hvalue (.reexport hmem hnames)
  | declaration hname => exact hvalue (.declaration hname)
  | declarator hname => exact taking.gather_declared_eq_nil hregular hname
  | entry hentry => exact taking.gather_listed_eq_nil hregular hentry

end Taking

/-- Every statement that is no import is taken, and the parts of the run around it make a
`Taking`. -/
theorem Program.exists_taking {program : Program} {options : WrapOptions} {wrapped : Wrapped}
    (h : program.wrap options = .ok wrapped) {before after : List Node} {statement : Node}
    (hsplit : Wrapping.statements program.body = before ++ statement :: after) :
    ∃ (table : Dependencies) (taking : Taking table (Wrapping.importedLocals program.body) before
        statement after),
      table.specifiers = wrapped.dependencies ∧
      wrapped.program.body = [wrapper wrapped.dependencies taking.done options] := by
  obtain ⟨final, hrun, hwrapped⟩ := Except.bind_ok h
  cases hwrapped
  obtain ⟨imported, names, effects, himporting, hsame, hbindings, htakes, hdone, hnodup⟩ :=
    Wrapping.run_effects hrun
  rw [← hsame] at htakes
  have hpending : imported.pending = before.map (Pass.replaceAll imported.importPasses) ++
      Pass.replaceAll imported.importPasses statement ::
        after.map (Pass.replaceAll imported.importPasses) := by
    rw [himporting.pending_eq, hsplit, List.map_append, List.map_cons]
  obtain ⟨names₁, effects₁, names', effects', names₂, effects₂, rfl, rfl, hfirst, hhere, hrest⟩ :=
    htakes.split hpending
  rw [← Pass.replaceAll_append] at hhere
  refine ⟨imported.dependencies, ⟨imported.importPasses, names₁, effects₁, names', effects', names₂,
    effects₂, ?_, ?_, ?_, hfirst, hhere, hrest, hnodup⟩, congrArg _ hsame, ?_⟩
  · rw [← hbindings, Wrapping.importPasses, List.map_map]
    rfl
  · intro pass hmem
    obtain ⟨binding, hbinding, rfl⟩ := List.mem_map.1 hmem
    refine ⟨himporting.injects_access hbinding, ?_⟩
    rw [Binding.pass, binding.access_object]
    exact dependencyParam_ne_exportsParam _
  · intro name hname hparam other hother
    rw [← hbindings] at hname
    refine (himporting.not_given_up hname hparam ?_).1
    rw [himporting.pending_eq, hsplit]
    exact List.mem_map_of_mem hother
  · rw [Taking.done, ← hdone]

/-- **Exports that are lost.** An exported name is assigned nowhere outside all functions of
the wrapped module, exactly if the source does not assign to it and the export relies on
writes that are not there. -/
theorem Program.wrap_exports {program : Program} {options : WrapOptions} {wrapped : Wrapped}
    {before after : List Node} {statement : Node} {exported : String} {kind : Export}
    (h : program.wrap options = .ok wrapped)
    (hregular : Regular ⟨wrapped.dependencies, []⟩ (Wrapping.importedLocals program.body)
      (Wrapping.statements program.body))
    (hsplit : Wrapping.statements program.body = before ++ statement :: after)
    (hexports : Exports statement exported kind) :
    ∃ body, wrapped.program.body = [wrapper wrapped.dependencies body options] ∧
      (body.flatMap ((assigns exported).gather ()) = [] ↔
        (∀ other ∈ Wrapping.statements program.body,
          (assigns exported).gather () other.content = []) ∧
        kind.Lost ⟨wrapped.dependencies, []⟩ (Wrapping.importedLocals program.body) before
          (Wrapping.statements program.body)) := by
  obtain ⟨⟨specifiers, bindings⟩, taking, hspecifiers, hbody⟩ := Program.exists_taking h hsplit
  cases hspecifiers
  refine ⟨taking.done, hbody, ?_⟩
  rw [hsplit] at hregular ⊢
  rw [kind.lost_bindings [] bindings]
  exact taking.gather_eq_nil (hregular.of_bindings bindings) hexports

/-- The module `export \x7b f as g \x7d; function f() \x7b\x7d`, whose export is written behind
it. -/
def listedFunction : Program :=
  ⟨[.exportNamedDeclaration none [.exportSpecifier (.identifier "f") (.identifier "g")] none,
    .functionDeclaration (some (.identifier "f")) [] (.blockStatement []) false false], none⟩

/-- The function declaration is a write to the name that is listed, so the export is not lost. -/
theorem Program.wrap_exports_listedFunction :
    ∃ wrapped body, listedFunction.wrap .default = .ok wrapped ∧
      wrapped.program.body = [wrapper wrapped.dependencies body .default] ∧
      body.flatMap ((assigns "g").gather ()) ≠ [] := by
  have hwritten : (writes "f").gather (Round.first.after ([].flatMap (entryLocals ⟨[], []⟩)) "f")
      (.functionDeclaration (some (.identifier "f")) [] (.blockStatement []) false false) ≠ [] := by
    apply List.ne_nil_of_length_eq_add_one (n := 0)
    with_unfolding_all rfl
  have h : listedFunction.wrap .default = .ok ⟨⟨[wrapper []
      [.assignmentStatement (.access "__exports__" "g")
        (.functionExpression (some (.identifier "f")) [] (.blockStatement []) false false)]
      .default], some "script"⟩, []⟩ := by with_unfolding_all rfl
  have hregular : Regular ⟨[], []⟩ (Wrapping.importedLocals listedFunction.body)
      (Wrapping.statements listedFunction.body) := by
    refine ⟨by decide, ?_, ?_⟩
    · exact List.forall_mem_cons.2 ⟨fun _ hname => (List.not_mem_nil hname).elim,
        List.forall_mem_cons.2 ⟨fun _ hname => (List.not_mem_nil hname).elim,
          fun _ hmem => (List.not_mem_nil hmem).elim⟩⟩
    · refine List.forall_mem_cons.2 ⟨fun specifiers heq => ?_,
        List.forall_mem_cons.2
          ⟨fun _ heq => (by cases heq), fun _ hmem => (List.not_mem_nil hmem).elim⟩⟩
      cases heq
      exact List.forall_mem_singleton.2 rfl
  have hexports : Exports (.exportNamedDeclaration none
      ([] ++ [.exportSpecifier (.identifier "f") (.identifier "g")]) none) "g"
      (.listed (.identifier "f") []) := .entry rfl
  obtain ⟨body, hbody, hlost⟩ := Program.wrap_exports h hregular (List.nil_append _).symm hexports
  refine ⟨_, body, h, hbody, fun hnil => ?_⟩
  obtain ⟨-, name, hname, -, -, -, hunwritten⟩ := hlost.1 hnil
  cases hname
  have hfunction := hunwritten (.functionDeclaration (some (.identifier "f")) []
    (.blockStatement []) false false) (List.mem_cons_of_mem _ List.mem_cons_self)
  exact hwritten hfunction

/-- The module `class C \x7b\x7d export \x7b C \x7d;`, in which a class gives the name its value. -/
def listedClass : Program :=
  ⟨[.classDeclaration (some (.identifier "C")) none (.classBody []),
    .exportNamedDeclaration none [.exportSpecifier (.identifier "C") (.identifier "C")] none], none⟩

/-- A class that an export list names is never assigned to the exports, as no pass changes a class
declaration. -/
theorem Program.wrap_loses_export :
    ∃ wrapped body, listedClass.wrap .default = .ok wrapped ∧
      wrapped.program.body = [wrapper wrapped.dependencies body .default] ∧
      body = [.classDeclaration (some (.identifier "C")) none (.classBody [])] ∧
      body.flatMap ((assigns "C").gather ()) = [] := by
  have h : listedClass.wrap .default = .ok ⟨⟨[wrapper []
      [.classDeclaration (some (.identifier "C")) none (.classBody [])]
      .default], some "script"⟩, []⟩ := by with_unfolding_all rfl
  refine ⟨_, _, h, rfl, rfl, ?_⟩
  with_unfolding_all rfl

end DefineWrap
