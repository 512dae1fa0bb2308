/-
A re-export is an import and an export list.

`export { m as e } from s` and `import { m as l } from s; export { l as e };` are wrapped alike,
if `l` is a name that does not occur otherwise.

The import starts passes for names that occur in the export list only, so everything else is
bound as without it (`Importing.exists_with`, `Importing.exists_without`), and the locals of the
list become accesses (`replaceAll_listing`). Taking a list of accesses does the same as taking
the re-export (`interchangeable`), and no pass of another export changes either of them, so the
one can stand for the other (`takeStatements_exchange`).
-/
import DefineWrap.Proofs.Wrap.Distinct
import DefineWrap.Proofs.Wrap.Exchange
import DefineWrap.Proofs.Wrap.Identifiers

set_option autoImplicit false

namespace DefineWrap

/-! ## The two forms -/

/-- What is re-exported of a module, under which name, and a local name for it. One list of these
gives both forms, so they cannot differ in anything else. -/
structure Reexported where
  member : Node
  exported : Node
  localName : String

namespace Reexported

/-- The first form, `export { m1 as e1, ..., mk as ek } from s`. -/
def reexport (items : List Reexported) (source : Node) : Node :=
  .exportNamedDeclaration none
    (items.map fun item => .exportSpecifier item.member item.exported) (some source)

/-- The import of the second form, `import { m1 as l1, ..., mk as lk } from s`. -/
def importing (items : List Reexported) (source : Node) : Node :=
  .importDeclaration
    (items.map fun item => .importSpecifier item.member (.identifier item.localName)) source

/-- The list of the second form, `export { l1 as e1, ..., lk as ek }`. -/
def listing (items : List Reexported) : Node :=
  .exportNamedDeclaration none
    (items.map fun item => .exportSpecifier (.identifier item.localName) item.exported) none

/-- The name of the member, if it can be read, and the empty name otherwise. Only readable members
are looked at. -/
def memberName (item : Reexported) : String := item.member.exportName?.getD ""

/-- What the import binds, in the slot of the module. -/
def binding (slot : Nat) (item : Reexported) : Binding :=
  ⟨item.localName, slot, .named item.memberName⟩

/-- The export list with an access in the place of each local name. It stands in no text, but it is
what the second form has become when it is taken. -/
def accesses (items : List Reexported) (param : String) : Node :=
  .exportNamedDeclaration none
    (items.map fun item => .exportSpecifier (.access param item.memberName) item.exported) none

/-- Every member has a name. If one has none, both modules are refused. -/
def Readable (items : List Reexported) : Prop :=
  ∀ item ∈ items, item.member.exportName? = some item.memberName

theorem memberName_of_exportName? {item : Reexported} {name : String}
    (h : item.member.exportName? = some name) :
    item.member.exportName? = some item.memberName := by
  rw [memberName, h, Option.getD_some]

end Reexported

namespace Node

theorem boundLocal_subset_identifiers (node : Node) : node.boundLocal ⊆ node.identifiers := by
  have hlocal : ∀ part ∈ node.parts, part.identifierName?.toList ⊆ node.identifiers := by
    intro part hpart name hname
    refine identifiers_subset_of_mem_parts hpart ?_
    rw [part.identifiers_eq]
    exact List.mem_append_left _ hname
  cases node
  case importSpecifier imported localName =>
    exact hlocal localName (by simp [parts, record, Record.inner, FieldValue.inner])
  case importDefaultSpecifier localName =>
    exact hlocal localName (by simp [parts, record, Record.inner, FieldValue.inner])
  case importNamespaceSpecifier localName =>
    exact hlocal localName (by simp [parts, record, Record.inner, FieldValue.inner])
  all_goals exact List.nil_subset _

end Node

theorem Except.foldlM_congr {ε α σ : Type} {round other : σ → α → Except ε σ} {items : List α}
    (h : ∀ state, ∀ item ∈ items, round state item = other state item) (state : σ) :
    items.foldlM round state = items.foldlM other state := by
  induction items generalizing state with
  | nil => rfl
  | cons item rest ih =>
    rw [List.foldlM_cons, List.foldlM_cons, h state item List.mem_cons_self]
    exact congrArg _ (funext (ih fun next item hmem => h next item (List.mem_cons_of_mem _ hmem)))

theorem Except.toOption_map {ε α β : Type} (f : α → β) (x : Except ε α) :
    (x.map f).toOption = x.toOption.map f := by
  cases x <;> rfl

/-- Two results agree but for their errors if one is a success exactly when the other is the same
one. -/
theorem Except.toOption_congr {ε α : Type} {x y : Except ε α}
    (h : ∀ value, x = .ok value ↔ y = .ok value) : x.toOption = y.toOption := by
  cases x with
  | ok value => rw [(h value).1 rfl]
  | error _ =>
    cases y with
    | ok value => cases (h value).2 rfl
    | error _ => rfl

theorem injects_eq_false_of_mem_entryLocals {table : Dependencies} {specifier : Node}
    {name : String} (h : name ∈ entryLocals table specifier) : table.injects name = false := by
  cases specifier
  case exportSpecifier localName exported =>
    exact Bool.eq_false_iff.2 fun hinjects => by simp [entryLocals, hinjects] at h
  all_goals cases h

namespace Pass

/-! ## Passes over the two forms -/

theorem replace_reexport (pass : Pass) (items : List Reexported) (source : Node) :
    pass.replace (Reexported.reexport items source) = Reexported.reexport items source := by
  have hpass := pass.replace_exportNamedDeclaration none
    (items.map fun item => .exportSpecifier item.member item.exported) (some source)
  exact hpass

theorem replaceAll_reexport (passes : List Pass) (items : List Reexported) (source : Node) :
    replaceAll passes (Reexported.reexport items source) = Reexported.reexport items source := by
  induction passes with
  | nil => rfl
  | cons pass rest ih => rw [replaceAll_cons, pass.replace_reexport, ih]

/-- A list of accesses is changed by a pass for the parameter only. No pass of an export is for it
if no local that is given up is spelled so. -/
theorem replace_accesses {pass : Pass} {param : String} (h : pass.name ≠ param)
    (items : List Reexported) :
    pass.replace (Reexported.accesses items param) = Reexported.accesses items param := by
  have haccess : ∀ member, pass.replace (.access param member) = .access param member :=
    fun member => pass.replace_access (show (Access.member param member).object ≠ _ from h.symm)
  rw [Reexported.accesses, replace_exportNamedDeclaration]
  simp [replace_exportSpecifier, haccess]

theorem firstViolation?_reexport (pass : Pass) (items : List Reexported) (source : Node) :
    pass.firstViolation? (Reexported.reexport items source) = none := by
  have henters : pass.Enters (Reexported.reexport items source) :=
    ⟨rfl, of_decide_eq_false rfl, rfl⟩
  rw [pass.firstViolation?_of_enters henters]
  rfl

/-- Nothing is refused in a list of names, since exporting an import is allowed. -/
theorem firstViolation?_listing (pass : Pass) (items : List Reexported) :
    pass.firstViolation? (Reexported.listing items) = none := by
  have henters : pass.Enters (Reexported.listing items) := ⟨rfl, of_decide_eq_false rfl, rfl⟩
  rw [pass.firstViolation?_of_enters henters, Reexported.listing]
  simp [violation?, Node.children, Node.places, firstViolation?_exportSpecifier]

/-- Among passes that are apart, the one for a name puts its access in the place of the name, at
whatever time it comes. They commute, so it may as well be the first. -/
theorem AllApart.replaceAll_identifier {passes : List Pass} (h : AllApart passes) {pass : Pass}
    (hmem : pass ∈ passes) (hobject : ∀ other ∈ passes, pass.access.object ≠ other.name) :
    replaceAll passes (.identifier pass.name) = pass.access.node := by
  obtain ⟨before, after, rfl⟩ := List.append_of_mem hmem
  have haccess : ∀ others : List Pass, (∀ other ∈ others, pass.access.object ≠ other.name) →
      replaceAll others pass.access.node = pass.access.node := by
    intro others
    induction others with
    | nil => exact fun _ => rfl
    | cons other rest ih =>
      intro hothers
      rw [replaceAll_cons, other.replace_access (hothers other List.mem_cons_self)]
      exact ih fun other hmem => hothers other (List.mem_cons_of_mem _ hmem)
  rw [replaceAll_perm List.perm_middle h, replaceAll_cons, replace_identifier, if_pos rfl]
  refine haccess _ fun other hother => hobject other ?_
  exact List.perm_middle.mem_iff.2 (List.mem_cons_of_mem _ hother)

end Pass

namespace Wrapping

/-! ## Taking the two forms -/

/-- A member is re-exported as the access to it is exported: both record the name and assign the
access. -/
theorem takeReexport_eq_takeExportEntry {item : Reexported}
    (h : item.member.exportName? = some item.memberName) (param : String) (state : Wrapping) :
    takeReexport param state (.exportSpecifier item.member item.exported) =
      takeExportEntry state (.exportSpecifier (.access param item.memberName) item.exported) := by
  have hnone : (Node.access param item.memberName).identifierName? = none := by
    obtain ⟨member, computed, haccess, -⟩ := Node.exists_access_eq param item.memberName
    rw [haccess]
    rfl
  rw [takeReexport_eq, takeExportEntry_eq, reexportNames, exportEntry, h]
  cases item.exported.exportName? with
  | none => rfl
  | some exported =>
    change assignReexport param state (item.memberName, exported) =
      exportRead state (Node.access param item.memberName, exported)
    rw [assignReexport, exportRead, hnone]

/-- **A re-export is taken as the list of the accesses.** So the two can stand for each other in any
module, whatever is behind them. -/
theorem interchangeable {slots : List String} {specifier : String} {source : Node}
    (hsource : source.stringValue? = some specifier) (hknown : specifier ∈ slots)
    {items : List Reexported} (hreadable : Reexported.Readable items) :
    Interchangeable slots (dependencyParam (slots.idxOf specifier))
      (Reexported.reexport items source)
      (Reexported.accesses items (dependencyParam (slots.idxOf specifier))) := by
  refine ⟨fun pass hname => ⟨pass.replace_reexport items source, pass.replace_accesses hname items⟩,
    fun state hslots => ?_⟩
  subst hslots
  have hread : moduleSpecifier source = .ok specifier := by rw [moduleSpecifier, hsource]
  rw [Reexported.reexport, Reexported.accesses, takeStatement, takeStatement, hread]
  change (items.map _).foldlM (takeReexport
    (dependencyParam (state.dependencies.register specifier).1))
    { state with dependencies := (state.dependencies.register specifier).2 } = _
  rw [Dependencies.register_of_mem hknown, List.foldlM_map, List.foldlM_map]
  refine Except.foldlM_congr (fun other item hmem => ?_) _
  exact takeReexport_eq_takeExportEntry (hreadable item hmem) _ other

/-! ## The text of the two modules -/

section Bodies

variable {before after : List Node} {source : Node} {items : List Reexported}

/-- The module with the re-export, between any other statements. -/
def withReexport (before after : List Node) (source : Node) (items : List Reexported) :
    List Node :=
  before ++ Reexported.reexport items source :: after

/-- The module with the import and the export list, between the same statements. -/
def withListing (before after : List Node) (source : Node) (items : List Reexported) :
    List Node :=
  before ++ Reexported.importing items source :: Reexported.listing items :: after

/-- Both modules have the same slots: the list names no module, and the import names the one of the
re-export at the same place. -/
theorem registered_withListing (table : Dependencies) :
    (withListing before after source items).foldlM registerSource table =
      (withReexport before after source items).foldlM registerSource table := by
  rw [withListing, withReexport, List.foldlM_append, List.foldlM_append]
  refine congrArg _ (funext fun middle => ?_)
  -- Both forms mention the module once, and the list mentions none.
  rw [List.foldlM_cons, List.foldlM_cons]
  refine congrArg _ (funext fun next => ?_)
  rw [List.foldlM_cons]
  rfl

theorem statements_withReexport :
    statements (withReexport before after source items) =
      statements before ++ Reexported.reexport items source :: statements after := by
  rw [withReexport, statements, List.filter_append]
  rfl

theorem statements_withListing :
    statements (withListing before after source items) =
      statements before ++ Reexported.listing items :: statements after := by
  rw [withListing, statements, List.filter_append]
  rfl

/-- A statement of one of the two modules is the one at the place in question, or one of the
others. -/
theorem mem_statements_insert {statement node : Node} :
    statement ∈ statements before ++ node :: statements after ↔
      statement = node ∨ statement ∈ statements (before ++ after) := by
  rw [statements, statements, statements, List.filter_append, List.mem_append, List.mem_cons,
    List.mem_append, or_left_comm]

theorem importActions_withReexport :
    (withReexport before after source items).flatMap importActions =
      before.flatMap importActions ++ after.flatMap importActions := by
  rw [withReexport, List.flatMap_append]
  rfl

/-- The second module has in addition the actions of its import, at the place where it stands. -/
theorem importActions_withListing {specifier : String}
    (hsource : source.stringValue? = some specifier) :
    (withListing before after source items).flatMap importActions =
      before.flatMap importActions ++ (items.map (fun item => .bind specifier
        (.importSpecifier item.member (.identifier item.localName))) ++
          after.flatMap importActions) := by
  have himport : importActions (Reexported.importing items source) =
      items.map fun item => .bind specifier
        (.importSpecifier item.member (.identifier item.localName)) := by
    rw [Reexported.importing, importActions, hsource, Option.toList_some, List.flatMap_singleton,
      List.map_map]
    rfl
  rw [withListing, List.flatMap_append, List.flatMap_cons, himport]
  rfl

/-- A specifier of the import can be read if its member has a name. -/
theorem importBinding_item {item : Reexported}
    (h : item.member.exportName? = some item.memberName) :
    importBinding (.importSpecifier item.member (.identifier item.localName)) =
      .ok (item.localName, .named item.memberName) := by
  simp only [importBinding, h]
  rfl

theorem importBindings_append (slots : List String) :
    importBindings slots (before ++ after) =
      importBindings slots before ++ importBindings slots after := by
  rw [importBindings, List.flatMap_append, List.flatMap_append]
  rfl

theorem importBindings_withReexport (slots : List String) :
    importBindings slots (withReexport before after source items) =
      importBindings slots (before ++ after) := by
  rw [importBindings, importActions_withReexport, importBindings]
  exact congrArg (List.flatMap _) List.flatMap_append.symm

/-- The bindings of the second module have those of its import in the middle. -/
theorem importBindings_withListing {slots : List String} {specifier : String}
    (hsource : source.stringValue? = some specifier)
    (hreadable : Reexported.Readable items) :
    importBindings slots (withListing before after source items) =
      importBindings slots before ++
        (items.map (Reexported.binding (slots.idxOf specifier)) ++ importBindings slots after) := by
  rw [importBindings, importActions_withListing hsource, List.flatMap_append, List.flatMap_append,
    List.flatMap_map, List.map_eq_flatMap]
  refine congrArg (_ ++ ·) (congrArg (· ++ _) (List.flatMap_congr fun item hmem => ?_))
  rw [boundBy, importBinding_item (hreadable item hmem)]
  rfl

end Bodies

/-! ## Binding the imports of the two modules -/

/-- The local names are different from each other, and occur nowhere in the other statements. Nor
are they spelled like parameters, so that their passes are apart from all others. -/
structure Fresh (items : List Reexported) (statements : List Node) : Prop where
  distinct : (items.map (·.localName)).Nodup
  unused : ∀ item ∈ items, ∀ statement ∈ statements, item.localName ∉ statement.identifiers
  unspelled : ∀ item ∈ items, ∀ slot, item.localName ≠ dependencyParam slot

/-- What an import binds is an identifier in it, so a name that does not occur is bound by no other
import. -/
theorem localName_mem_identifiers {slots : List String} {body : List Node} {binding : Binding}
    (h : binding ∈ importBindings slots body) :
    ∃ statement ∈ body, binding.localName ∈ statement.identifiers := by
  obtain ⟨action, haction, hbound⟩ := List.mem_flatMap.1 h
  obtain ⟨statement, hstatement, hmem⟩ := List.mem_flatMap.1 haction
  obtain ⟨specifiers, source, specifier, node, rfl, -, hnode, rfl⟩ := mem_importActions hmem
  refine ⟨_, hstatement, ?_⟩
  rw [boundBy] at hbound
  split at hbound
  next localName imported hread =>
    obtain rfl := List.mem_singleton.1 hbound
    have hpart : node ∈ (Node.importDeclaration specifiers source).parts := by
      simp [Node.parts, Node.record, Record.inner, FieldValue.inner, hnode]
    refine Node.identifiers_subset_of_mem_parts hpart (node.boundLocal_subset_identifiers ?_)
    rw [boundLocal_of_read hread]
    exact List.mem_singleton_self _
  · cases hbound

section Binding

variable {before after : List Node} {source : Node} {items : List Reexported}
  {slots : List String} {specifier : String} (hsource : source.stringValue? = some specifier)
  (hreadable : Reexported.Readable items)

include hsource hreadable in
/-- The bindings of the second module are those of the first and those of its import, in some order.
The order is of no consequence, as the passes are apart. -/
theorem importBindings_perm :
    (importBindings slots (withListing before after source items)).Perm
      (items.map (Reexported.binding (slots.idxOf specifier)) ++
        importBindings slots (before ++ after)) := by
  rw [importBindings_withListing hsource hreadable, importBindings_append]
  exact List.perm_append_comm_assoc ..

include hsource hreadable in
/-- With fresh local names the import can be bound, too: its names are distinct from the others, and
its passes refuse nothing, as the names occur in the list only. -/
theorem importable_withListing (hfresh : Fresh items (before ++ after))
    (h : Importable slots (withReexport before after source items)) :
    Importable slots (withListing before after source items) := by
  have hperm : (importBindings slots (withListing before after source items)).Perm _ :=
    importBindings_perm hsource hreadable
  refine ⟨fun specifier node hmem => ?_, ?_, fun binding hmem statement hstatement => ?_⟩
  · rw [importActions_withListing hsource] at hmem
    have hothers := h.readable specifier node
    rw [importActions_withReexport] at hothers
    rcases List.mem_append.1 hmem with hmem | hmem
    · exact hothers (List.mem_append_left _ hmem)
    · rcases List.mem_append.1 hmem with hmem | hmem
      · obtain ⟨item, hitem, heq⟩ := List.mem_map.1 hmem
        cases heq
        exact ⟨_, importBinding_item (hreadable item hitem)⟩
      · exact hothers (List.mem_append_right _ hmem)
  · rw [((hperm.map _).nodup_iff), List.map_append, List.map_map, List.nodup_append]
    have hdistinct := h.distinct
    rw [importBindings_withReexport] at hdistinct
    refine ⟨hfresh.distinct, hdistinct, ?_⟩
    rintro name hname other hother rfl
    obtain ⟨item, hitem, rfl⟩ := List.mem_map.1 hname
    obtain ⟨binding, hbinding, heq⟩ := List.mem_map.1 hother
    obtain ⟨statement, hstatement, hmem⟩ := localName_mem_identifiers hbinding
    rw [heq] at hmem
    exact hfresh.unused item hitem statement hstatement hmem
  · rw [statements_withListing] at hstatement
    rcases List.mem_append.1 (hperm.mem_iff.1 hmem) with hbinding | hbinding
    · -- The name of the pass is fresh.
      obtain ⟨item, hitem, rfl⟩ := List.mem_map.1 hbinding
      rcases mem_statements_insert.1 hstatement with rfl | hother
      · exact Pass.firstViolation?_listing _ items
      · exact Pass.firstViolation?_of_fresh
          (hfresh.unused item hitem statement (List.mem_filter.1 hother).1)
    · rcases mem_statements_insert.1 hstatement with rfl | hother
      · exact Pass.firstViolation?_listing _ items
      · refine h.accepted binding ?_ statement ?_
        · rwa [importBindings_withReexport]
        · rw [statements_withReexport]
          exact mem_statements_insert.2 (.inr hother)

include hsource hreadable in
/-- Without the import the others can be bound, since they are a part of those of the second
module. -/
theorem importable_withReexport (h : Importable slots (withListing before after source items)) :
    Importable slots (withReexport before after source items) := by
  have hperm : (importBindings slots (withListing before after source items)).Perm _ :=
    importBindings_perm hsource hreadable
  refine ⟨fun specifier node hmem => ?_, ?_, fun binding hmem statement hstatement => ?_⟩
  · refine h.readable specifier node ?_
    rw [importActions_withReexport] at hmem
    rw [importActions_withListing hsource]
    rcases List.mem_append.1 hmem with hmem | hmem
    · exact List.mem_append_left _ hmem
    · exact List.mem_append_right _ (List.mem_append_right _ hmem)
  · have hdistinct := ((hperm.map _).nodup_iff).1 h.distinct
    rw [List.map_append, List.nodup_append] at hdistinct
    rw [importBindings_withReexport]
    exact hdistinct.2.1
  · rw [statements_withReexport] at hstatement
    rcases mem_statements_insert.1 hstatement with rfl | hother
    · exact Pass.firstViolation?_reexport _ items source
    · refine h.accepted binding (hperm.mem_iff.2 ?_) statement ?_
      · rw [importBindings_withReexport] at hmem
        exact List.mem_append_right _ hmem
      · rw [statements_withListing]
        exact mem_statements_insert.2 (.inr hother)

end Binding

/-! ## What the imports make of the two modules -/

section Running

variable {before after : List Node} {source : Node} {items : List Reexported}
  {dependencies : Dependencies}
  (hregistered : (withReexport before after source items).foldlM registerSource .empty =
    .ok dependencies)
  {specifier : String} (hsource : source.stringValue? = some specifier)
  (hreadable : Reexported.Readable items) (hfresh : Fresh items (before ++ after))
  (hlocals : ∀ name ∈ importedLocals (before ++ after), ∀ slot, name ≠ dependencyParam slot)

theorem importedLocals_withReexport :
    importedLocals (withReexport before after source items) = importedLocals (before ++ after) := by
  rw [withReexport, importedLocals, importedLocals, List.flatMap_append, List.flatMap_append]
  rfl

include hregistered in
/-- The scan for the slots succeeds for the second module if it does for the first, with the same
table. -/
theorem registered_withListing_ok :
    (withListing before after source items).foldlM registerSource .empty = .ok dependencies := by
  rw [registered_withListing, hregistered]

include hregistered hsource hreadable hfresh hlocals in
/-- No import of the module with the list binds a name that is spelled like a parameter. -/
theorem locals_withListing :
    ∀ name ∈ importedLocals (withListing before after source items), ∀ slot,
      name ≠ dependencyParam slot := by
  intro name hname slot
  rw [← map_localName_importBindings (registered_withListing_ok hregistered)] at hname
  obtain ⟨binding, hbinding, rfl⟩ := List.mem_map.1 hname
  rcases List.mem_append.1 ((importBindings_perm hsource hreadable).mem_iff.1 hbinding) with
    hmem | hother
  · obtain ⟨item, hitem, rfl⟩ := List.mem_map.1 hmem
    exact hfresh.unspelled item hitem slot
  · have hbound : binding ∈ importBindings dependencies.specifiers
        (withReexport before after source items) := by
      rwa [importBindings_withReexport]
    exact localName_ne_of_mem_importBindings hregistered
      (by rwa [importedLocals_withReexport]) hbound slot

end Running

/-- A module with a re-export, and the module with an import and a list in its place, when the
imports of both have been bound. -/
structure Twins (before after : List Node) (source : Node) (items : List Reexported)
    (dependencies : Dependencies) (specifier : String) (imported imported' : Wrapping) : Prop where
  registered : (withReexport before after source items).foldlM registerSource .empty =
    .ok dependencies
  named : source.stringValue? = some specifier
  readable : Reexported.Readable items
  fresh : Fresh items (before ++ after)
  locals : ∀ name ∈ importedLocals (before ++ after), ∀ slot, name ≠ dependencyParam slot
  imports : ((withReexport before after source items).flatMap importActions).foldlM perform
    (start dependencies (withReexport before after source items)) = .ok imported
  imports' : ((withListing before after source items).flatMap importActions).foldlM perform
    (start dependencies (withListing before after source items)) = .ok imported'

/-- Statements that are no imports, once the imports are bound: they have gone through the passes of
all of them. -/
def leftOf (state : Wrapping) (body : List Node) : List Node :=
  (statements body).map (Pass.replaceAll state.importPasses)

namespace Twins

variable {before after : List Node} {source : Node} {items : List Reexported}
  {dependencies : Dependencies} {specifier : String} {imported imported' : Wrapping}
  (h : Twins before after source items dependencies specifier imported imported')

include h

theorem registered' :
    (withListing before after source items).foldlM registerSource .empty = .ok dependencies :=
  registered_withListing_ok h.registered

theorem locals' : ∀ name ∈ importedLocals (withListing before after source items), ∀ slot,
    name ≠ dependencyParam slot :=
  locals_withListing h.registered h.named h.readable h.fresh h.locals

theorem importing :
    imported.Importing dependencies.specifiers
      (statements (withReexport before after source items)) :=
  importing_of_performed h.registered (fun _ hmem => hmem) h.imports

theorem importing' :
    imported'.Importing dependencies.specifiers
      (statements (withListing before after source items)) :=
  importing_of_performed h.registered' (fun _ hmem => hmem) h.imports'

theorem bindings_eq : imported.dependencies.bindings =
    importBindings dependencies.specifiers (withReexport before after source items) :=
  bindings_of_imported h.registered h.imports

theorem bindings_eq' : imported'.dependencies.bindings =
    importBindings dependencies.specifiers (withListing before after source items) :=
  bindings_of_imported h.registered' h.imports'

/-- The passes of the one module are those of the other, and one for each local name. -/
theorem importPasses_perm :
    imported'.importPasses.Perm
      (items.map (fun item => (item.binding (dependencies.specifiers.idxOf specifier)).pass) ++
        imported.importPasses) := by
  have hbindings : (importBindings dependencies.specifiers
      (withListing before after source items)).Perm _ := importBindings_perm h.named h.readable
  have hperm := hbindings.map Binding.pass
  rw [List.map_append, List.map_map] at hperm
  rwa [importPasses, importPasses, h.bindings_eq, h.bindings_eq', importBindings_withReexport]

/-- The passes of the second module are apart from each other, and so are those of the first, which
are among them. -/
theorem allApart' : Pass.AllApart imported'.importPasses := by
  have himportable := (exists_imported_iff h.registered' h.locals').1 ⟨imported', h.imports'⟩
  rw [importPasses, h.bindings_eq']
  exact himportable.allApart h.registered' h.locals'

/-- The other statements become the same in both modules: the passes for the fresh names find
nothing in them. -/
theorem replaceAll_eq {statement : Node} (hmem : statement ∈ before ++ after) :
    Pass.replaceAll imported'.importPasses statement =
      Pass.replaceAll imported.importPasses statement := by
  have hfresh : Pass.replaceAll (items.map fun item =>
      (item.binding (dependencies.specifiers.idxOf specifier)).pass) statement = statement := by
    refine Pass.replaceAll_of_fresh fun pass hpass => ?_
    obtain ⟨item, hitem, rfl⟩ := List.mem_map.1 hpass
    exact h.fresh.unused item hitem statement hmem
  rw [Pass.replaceAll_perm h.importPasses_perm h.allApart', Pass.replaceAll_append, hfresh]

theorem leftOf_eq {others : List Node} (hsub : others ⊆ before ++ after) :
    imported'.leftOf others = imported.leftOf others :=
  List.map_congr_left fun _ hmem => h.replaceAll_eq (hsub (List.mem_filter.1 hmem).1)

/-- The locals of the list become accesses, each by the pass that is for it. -/
theorem replaceAll_listing :
    Pass.replaceAll imported'.importPasses (Reexported.listing items) =
      Reexported.accesses items (dependencyParam (dependencies.specifiers.idxOf specifier)) := by
  rw [Reexported.listing, Pass.replaceAll_exportNamedDeclaration, Reexported.accesses]
  rw [Option.isNone_none, if_pos rfl, List.map_map]
  refine congrArg (Node.exportNamedDeclaration none · none)
    (List.map_congr_left fun item hitem => ?_)
  have hpass : (item.binding (dependencies.specifiers.idxOf specifier)).pass ∈
      imported'.importPasses :=
    h.importPasses_perm.mem_iff.2 (List.mem_append_left _ (List.mem_map_of_mem hitem))
  have haccess := h.allApart'.replaceAll_identifier hpass (by
    intro other hother
    obtain ⟨binding, hbinding, rfl⟩ := List.mem_map.1 hother
    rw [h.bindings_eq'] at hbinding
    exact (localName_ne_of_mem_importBindings h.registered' h.locals' hbinding _).symm)
  rw [Function.comp_apply, Pass.replaceAll_exportSpecifier]
  exact congrArg (Node.exportSpecifier · item.exported) haccess

/-- What is pending in the first module: the others after the passes, with the re-export as it
stands. -/
theorem pending_eq :
    imported.pending = imported.leftOf before ++
      Reexported.reexport items source :: imported.leftOf after := by
  rw [h.importing.pending_eq, statements_withReexport, List.map_append, List.map_cons,
    Pass.replaceAll_reexport]
  rfl

/-- **The imports bring the two modules to the same**, but for the list of accesses in the place of
the re-export, and for the bindings, which nothing looks at from then on. -/
theorem imported_eq :
    imported' = Wrapping.rebind imported'.dependencies.bindings
      ⟨imported.dependencies, imported.exported, imported.done,
        imported.leftOf before ++ Reexported.accesses items
          (dependencyParam (dependencies.specifiers.idxOf specifier)) ::
            imported.leftOf after⟩ := by
  refine eq_rebind (h.importing'.specifiers_eq.trans h.importing.specifiers_eq.symm)
    (h.importing'.exported_eq.trans h.importing.exported_eq.symm)
    (h.importing'.done_eq.trans h.importing.done_eq.symm) ?_
  rw [h.importing'.pending_eq, statements_withListing, List.map_append, List.map_cons,
    h.replaceAll_listing]
  change imported'.leftOf before ++ _ :: imported'.leftOf after = _
  rw [h.leftOf_eq (List.subset_append_left _ _), h.leftOf_eq (List.subset_append_right _ _)]

/-- The two statements that differ can stand for each other, since the module has a slot. -/
theorem interchangeable : Interchangeable imported.dependencies.specifiers
    (dependencyParam (dependencies.specifiers.idxOf specifier))
    (Reexported.reexport items source)
    (Reexported.accesses items (dependencyParam (dependencies.specifiers.idxOf specifier))) := by
  rw [h.importing.specifiers_eq]
  refine Wrapping.interchangeable h.named ?_ h.readable
  exact mem_specifiers_of_named h.registered (List.mem_append_right _ List.mem_cons_self) h.named

/-- Before the two forms no local name is given up that is spelled like the parameter. Entries of
lists give up no parameters anyway, and of declarations it is assumed. -/
theorem exportedLocals_ne
    (hexported : ∀ statement ∈ before, ∀ name ∈ declaredLocals statement, ∀ slot,
      name ≠ dependencyParam slot) {statement : Node} (hmem : statement ∈ imported.leftOf before)
    {name : String} (hname : name ∈ exportedLocals imported.dependencies statement) :
    name ≠ dependencyParam (dependencies.specifiers.idxOf specifier) := by
  obtain ⟨original, horiginal, rfl⟩ := List.mem_map.1 hmem
  replace hname := exportedLocals_replaceAll_subset h.importing.injects_object original hname
  cases hlist : isExportList original with
  | true =>
    -- A list gives up names only that are spelled like no parameter.
    obtain ⟨specifiers, rfl⟩ := isExportList_iff.1 hlist
    obtain ⟨entry, -, hentry⟩ := List.mem_flatMap.1 hname
    have hinjects : imported.dependencies.injects
        (dependencyParam (dependencies.specifiers.idxOf specifier)) = true := by
      refine Dependencies.injects_dependencyParam ?_
      rw [h.importing.specifiers_eq]
      exact List.idxOf_lt_length_of_mem (mem_specifiers_of_named h.registered
        (List.mem_append_right _ List.mem_cons_self) h.named)
    exact (Dependencies.ne_of_injects (injects_eq_false_of_mem_entryLocals hentry) hinjects).symm
  | false =>
    rw [exportedLocals_eq hlist] at hname
    exact hexported original (List.mem_filter.1 horiginal).1 name hname _

/-- **The statements of the two modules come to the same**, up to the bindings. If one of them fails
so does the other, though the errors need not be the same. -/
theorem toOption_takeStatements
    (hexported : ∀ statement ∈ before, ∀ name ∈ declaredLocals statement, ∀ slot,
      name ≠ dependencyParam slot) (count : Nat) :
    (takeStatements ((statements before).length + (count + 1)) imported').toOption =
      (takeStatements ((statements before).length + (count + 1)) imported).toOption.map
        (rebind imported'.dependencies.bindings) := by
  have hknown : AllNamed imported.dependencies.specifiers (imported.leftOf before) := by
    intro statement hmem other hother
    obtain ⟨original, horiginal, rfl⟩ := List.mem_map.1 hmem
    rw [namedSource?_replaceAll] at hother
    rw [h.importing.specifiers_eq]
    exact mem_specifiers_of_named h.registered
      (List.mem_append_left _ (List.mem_filter.1 horiginal).1) hother
  have hlocals : ∀ statement ∈ imported.leftOf before,
      ∀ name ∈ exportedLocals imported.dependencies statement,
        name ≠ dependencyParam (dependencies.specifiers.idxOf specifier) :=
    fun _ hmem _ hname => h.exportedLocals_ne hexported hmem hname
  have hlength : (statements before).length = (imported.leftOf before).length :=
    (List.length_map _).symm
  have himported : imported = ⟨imported.dependencies, imported.exported, imported.done,
      imported.leftOf before ++ Reexported.reexport items source :: imported.leftOf after⟩ := by
    rw [← h.pending_eq]
  rw [h.imported_eq, takeStatements_rebind, Except.toOption_map]
  refine congrArg (Option.map _) (Except.toOption_congr fun final => ?_)
  rw [hlength]
  constructor
  · intro htaken
    rw [himported]
    exact takeStatements_exchange h.interchangeable.symm hknown hlocals htaken
  · intro htaken
    rw [himported] at htaken
    exact takeStatements_exchange h.interchangeable hknown hlocals htaken

/-- The two runs differ in their bindings only. -/
theorem toOption_run
    (hexported : ∀ statement ∈ before, ∀ name ∈ declaredLocals statement, ∀ slot,
      name ≠ dependencyParam slot) :
    (Wrapping.run (withListing before after source items)).toOption =
      (Wrapping.run (withReexport before after source items)).toOption.map
        (rebind imported'.dependencies.bindings) := by
  have hrun : ∀ {body : List Node} {state : Wrapping},
      body.foldlM registerSource .empty = .ok dependencies →
      (body.flatMap importActions).foldlM perform (start dependencies body) = .ok state →
      Wrapping.run body = takeStatements (statements body).length state := by
    intro body state hregistered himports
    rw [run_eq_foldlM, hregistered]
    change (actions body).foldlM perform (start dependencies body) = _
    rw [actions, List.foldlM_append, himports, takeStatements_eq]
    rfl
  -- The imports are bound apart, so that both runs go on from the same statements.
  rw [hrun h.registered h.imports, hrun h.registered' h.imports', statements_withListing,
    statements_withReexport, List.length_append, List.length_append]
  exact h.toOption_takeStatements hexported (statements after).length

end Twins

/-! ## Both are wrapped, or none -/

section Running

variable {before after : List Node} {source : Node} {items : List Reexported}
  (hfresh : Fresh items (before ++ after))
  (hlocals : ∀ name ∈ importedLocals (before ++ after), ∀ slot, name ≠ dependencyParam slot)

/-- A re-export that has been taken could be read. -/
theorem readable_of_run {final : Wrapping}
    (h : Wrapping.run (withReexport before after source items) = .ok final) :
    Reexported.Readable items := by
  obtain ⟨imported, names, effects, himporting, -, -, htakes, -, -⟩ := run_effects h
  have hpending := himporting.pending_eq
  rw [statements_withReexport, List.map_append, List.map_cons] at hpending
  obtain ⟨_, effects₁, names', effects', _, _, -, -, -, hreexport, -⟩ := htakes.split hpending
  rw [Pass.replaceAll_reexport, Pass.replaceAll_reexport] at hreexport
  cases hreexport with
  | reexport hsource hknown hnames =>
    intro item hitem
    obtain ⟨result, hread⟩ := Except.exists_of_mapM_ok hnames (List.mem_map_of_mem hitem)
    simp only [reexportNames] at hread
    split at hread
    next first second hfirst hsecond => exact Reexported.memberName_of_exportName? hfirst
    · cases hread
  | other hexport => cases hexport

/-- An import that has been bound could be read. -/
theorem readable_of_imports {specifier : String} (hsource : source.stringValue? = some specifier)
    {state final : Wrapping}
    (h : ((withListing before after source items).flatMap importActions).foldlM perform state =
      .ok final) : Reexported.Readable items := by
  intro item hitem
  have hmem : .bind specifier (.importSpecifier item.member (.identifier item.localName)) ∈
      (withListing before after source items).flatMap importActions := by
    rw [importActions_withListing hsource]
    refine List.mem_append_right _ (List.mem_append_left _ ?_)
    exact List.mem_map.2 ⟨item, hitem, rfl⟩
  obtain ⟨result, hread⟩ := readable_of_performed h hmem
  simp only [importBinding] at hread
  split at hread
  next member hmember => exact Reexported.memberName_of_exportName? hmember
  · cases hread

include hfresh hlocals in
/-- If one of the modules is wrapped, the imports of both can be bound. For this each direction has
its own reason: the import is added with fresh names, or it is left out. -/
theorem exists_twins {final : Wrapping}
    (h : Wrapping.run (withReexport before after source items) = .ok final ∨
      Wrapping.run (withListing before after source items) = .ok final) :
    ∃ dependencies specifier imported imported',
      Twins before after source items dependencies specifier imported imported' := by
  have hmem : Reexported.reexport items source ∈ withReexport before after source items :=
    List.mem_append_right _ List.mem_cons_self
  have hlocals' : ∀ name ∈ importedLocals (withReexport before after source items), ∀ slot,
      name ≠ dependencyParam slot := by rwa [importedLocals_withReexport]
  -- From either run its imports are known to be bindable, and that is so for both modules or none.
  rcases h with h | h
  · have hreadable := readable_of_run h
    obtain ⟨dependencies, hregistered, hfold⟩ := run_ok h
    obtain ⟨imported, himports, -⟩ := Except.foldlM_append_ok hfold
    obtain ⟨specifier, hsource⟩ := stringValue?_of_registered hregistered hmem rfl
    have himportable := (exists_imported_iff hregistered hlocals').1 ⟨imported, himports⟩
    obtain ⟨imported', himports'⟩ := (exists_imported_iff (registered_withListing_ok hregistered)
      (locals_withListing hregistered hsource hreadable hfresh hlocals)).2
        (importable_withListing hsource hreadable hfresh himportable)
    exact ⟨dependencies, specifier, imported, imported', hregistered, hsource, hreadable, hfresh,
      hlocals, himports, himports'⟩
  · obtain ⟨dependencies, hregistered', hfold⟩ := run_ok h
    obtain ⟨imported', himports', -⟩ := Except.foldlM_append_ok hfold
    have hregistered := hregistered'
    rw [registered_withListing] at hregistered
    obtain ⟨specifier, hsource⟩ := stringValue?_of_registered hregistered hmem rfl
    have hreadable := readable_of_imports hsource himports'
    have himportable := (exists_imported_iff hregistered'
      (locals_withListing hregistered hsource hreadable hfresh hlocals)).1 ⟨imported', himports'⟩
    obtain ⟨imported, himports⟩ := (exists_imported_iff hregistered hlocals').2
      (importable_withReexport hsource hreadable himportable)
    exact ⟨dependencies, specifier, imported, imported', hregistered, hsource, hreadable, hfresh,
      hlocals, himports, himports'⟩

end Running

end Wrapping

/-- **A re-export is an import and an export list.** Replacing `export { m as e } from s` by
`import { m as l } from s; export { l as e };`, where the local names occur nowhere else, makes
no difference: both modules are refused, or both are wrapped alike. No other local name that is
imported or exported with its declaration is to be spelled like the parameter of a slot. -/
theorem Program.wrap_withListing {before after : List Node} {source : Node}
    {items : List Reexported} (hfresh : Wrapping.Fresh items (before ++ after))
    (hlocals : ∀ name ∈ Wrapping.importedLocals (before ++ after), ∀ slot,
      name ≠ dependencyParam slot)
    (hexported : ∀ statement ∈ before ++ after, ∀ name ∈ declaredLocals statement, ∀ slot,
      name ≠ dependencyParam slot)
    (sourceType : Option String) (options : WrapOptions) :
    (Program.wrap ⟨Wrapping.withListing before after source items, sourceType⟩ options).toOption =
      (Program.wrap ⟨Wrapping.withReexport before after source items, sourceType⟩
        options).toOption := by
  have hwrap : ∀ body : List Node, (Program.wrap ⟨body, sourceType⟩ options).toOption =
      (Wrapping.run body).toOption.map fun state =>
        ⟨⟨[wrapper state.dependencies.specifiers state.done options], some "script"⟩,
          state.dependencies.specifiers⟩ := by
    intro body
    rw [wrap]
    cases Wrapping.run body <;> rfl
  rw [hwrap, hwrap]
  -- If one of them is wrapped, both bind their imports, and then they come to the same. If none is,
  -- there is nothing to compare.
  by_cases h : ∃ final, Wrapping.run (Wrapping.withReexport before after source items) = .ok final ∨
      Wrapping.run (Wrapping.withListing before after source items) = .ok final
  · obtain ⟨final, h⟩ := h
    obtain ⟨dependencies, specifier, imported, imported', htwins⟩ :=
      Wrapping.exists_twins hfresh hlocals h
    rw [htwins.toOption_run fun statement hmem => hexported statement (List.mem_append_left _ hmem),
      Option.map_map]
    rfl
  · push Not at h
    rw [Except.toOption_congr (y := Wrapping.run (Wrapping.withReexport before after source items))]
    intro final
    exact ⟨fun hrun => absurd hrun (h final).2, fun hrun => absurd hrun (h final).1⟩

/-- The items `default as d` and `b as q`, with the local names `l` and `k`. -/
def twoMembers : List Reexported :=
  [⟨.identifier "default", .identifier "d", "l"⟩, ⟨.identifier "b", .identifier "q", "k"⟩]

/-- The statement `a();`, which uses an import of the statements below. -/
def callAbove : List Node := [.statement (.call (.identifier "a") [])]

/-- The statement `import { a } from "m";`, from the same module. -/
def importBelow : List Node :=
  [.importDeclaration [.importSpecifier (.identifier "a") (.identifier "a")] (.stringLiteral "m")]

/-- Between the call and the import both forms become the same two assignments. -/
theorem Program.wrap_withListing_twoMembers :
    Wrapping.Fresh twoMembers (callAbove ++ importBelow) ∧
      (∀ name ∈ Wrapping.importedLocals (callAbove ++ importBelow), ∀ slot,
        name ≠ dependencyParam slot) ∧
      (∀ statement ∈ callAbove ++ importBelow, ∀ name ∈ declaredLocals statement, ∀ slot,
        name ≠ dependencyParam slot) ∧
      (Program.wrap ⟨Wrapping.withListing callAbove importBelow (.stringLiteral "m") twoMembers,
        none⟩ .default).toOption = some ⟨⟨[wrapper ["m"]
          [.statement (.call (.access "__uDep0__" "a") []),
            .assignmentStatement (.access "__exports__" "d") (.access "__uDep0__" "default"),
            .assignmentStatement (.access "__exports__" "q") (.access "__uDep0__" "b")]
          .default], some "script"⟩, ["m"]⟩ := by
  have hidentifiers : (callAbove ++ importBelow).map Node.identifiers = [["a"], ["a", "a"]] := by
    with_unfolding_all rfl
  have hfresh : Wrapping.Fresh twoMembers (callAbove ++ importBelow) := by
    refine ⟨by decide, fun item hitem statement hstatement hmem => ?_, fun item hitem =>
      ne_dependencyParam_of_length ((by decide : ∀ item ∈ twoMembers, item.localName.length < 8)
        item hitem)⟩
    have hname : item.localName ∈ ((callAbove ++ importBelow).map Node.identifiers).flatten :=
      List.mem_flatten.2 ⟨_, List.mem_map_of_mem hstatement, hmem⟩
    rw [hidentifiers] at hname
    exact (by decide : ∀ item ∈ twoMembers, item.localName ∉ [["a"], ["a", "a"]].flatten) item hitem
      hname
  have hlocals : ∀ name ∈ Wrapping.importedLocals (callAbove ++ importBelow), ∀ slot,
      name ≠ dependencyParam slot := fun name hmem =>
    ne_dependencyParam_of_length ((by decide :
      ∀ name ∈ Wrapping.importedLocals (callAbove ++ importBelow), name.length < 8) name hmem)
  have hexported : ∀ statement ∈ callAbove ++ importBelow, ∀ name ∈ declaredLocals statement,
      ∀ slot, name ≠ dependencyParam slot := by
    intro statement hstatement name hname
    have hnone : (callAbove ++ importBelow).flatMap declaredLocals = [] := rfl
    have hmem := List.mem_flatMap.2 ⟨statement, hstatement, hname⟩
    rw [hnone] at hmem
    cases hmem
  have h : Program.wrap ⟨Wrapping.withReexport callAbove importBelow (.stringLiteral "m")
      twoMembers, none⟩ .default = .ok ⟨⟨[wrapper ["m"]
        [.statement (.call (.access "__uDep0__" "a") []),
          .assignmentStatement (.access "__exports__" "d") (.access "__uDep0__" "default"),
          .assignmentStatement (.access "__exports__" "q") (.access "__uDep0__" "b")]
        .default], some "script"⟩, ["m"]⟩ := by with_unfolding_all rfl
  refine ⟨hfresh, hlocals, hexported, ?_⟩
  rw [Program.wrap_withListing hfresh hlocals hexported, h]
  rfl

end DefineWrap
