/-
Imports are hoisted, and their order is of no consequence.

The passes of the imports are apart from each other, as the language binds a name once and a
parameter of the wrapper is none of the imported names. So they come to the same in any order
(`Pass.replaceAll_perm`), and each refuses what it refuses in the text as it stands
(`Pass.Apart.firstViolation?_replaceAll`). Whether the imports can be bound, and what they make
of the other statements, can therefore be read off the text without regard to their order
(`Wrapping.exists_imported_iff`), and what follows does not look at them
(`takeStatements_rebind`).
-/
import DefineWrap.Proofs.Wrap.Imported
import DefineWrap.Proofs.Wrap.Rebinding
import DefineWrap.Proofs.Wrap.Slots
import DefineWrap.Proofs.Wrap.Violations

set_option autoImplicit false

namespace DefineWrap

namespace Wrapping

/-! ## What is read off the imports -/

/-- The module that an import is from, and the local name and what it stands for, for each
specifier of a statement that is an import; nothing stands for what cannot be read. -/
def importedBindings : Node → List (Option String × Option (String × Imported))
  | .importDeclaration specifiers source =>
    specifiers.map fun specifier => (source.stringValue?, (importBinding specifier).toOption)
  | _ => []

/-- The modules that are mentioned by imports and re-exports; nothing stands for one that is not
named by a string. A run fails on such a one, so it has to be kept in view here. -/
def mentions (body : List Node) : List (Option String) :=
  (body.filterMap sourceNode?).map Node.stringValue?

/-- Two modules have the same statements but for the imports, bind the same by imports in some
order, and mention the same modules in the same order. -/
structure SameImports (body other : List Node) : Prop where
  statements_eq : statements body = statements other
  bindings_perm : (body.flatMap importedBindings).Perm (other.flatMap importedBindings)
  mentions_eq : (mentions body).eraseDups = (mentions other).eraseDups

/-- The relation is symmetric, and so one direction of each statement about results is enough. -/
theorem SameImports.symm {body other : List Node} (h : SameImports body other) :
    SameImports other body :=
  ⟨h.statements_eq.symm, h.bindings_perm.symm, h.mentions_eq.symm⟩

/-- The binding of what has been read, in the slot of its module. What could not be read, or is from
no module, binds nothing. -/
def slotBinding (slots : List String) :
    Option String × Option (String × Imported) → Option Binding
  | (some specifier, some (localName, imported)) =>
    some ⟨localName, slots.idxOf specifier, imported⟩
  | _ => none

/-- The bindings of a module are those of what is read off its imports. With this a permutation of
the latter is one of the former. -/
theorem flatMap_boundBy (slots : List String) (body : List Node) :
    (body.flatMap importActions).flatMap (boundBy slots) =
      (body.flatMap importedBindings).filterMap (slotBinding slots) := by
  rw [List.flatMap_assoc, List.filterMap_flatMap]
  refine List.flatMap_congr fun statement _ => ?_
  cases statement
  case importDeclaration specifiers source _ =>
    rw [importActions, importedBindings, List.filterMap_map]
    cases hsource : source.stringValue? with
    | none =>
      refine (List.filterMap_eq_nil_iff.2 fun node _ => ?_).symm
      rfl
    | some specifier =>
      rw [Option.toList_some, List.flatMap_singleton, List.flatMap_map,
        List.filterMap_eq_flatMap_toList]
      refine List.flatMap_congr fun node _ => ?_
      cases hread : importBinding node <;> simp [boundBy, slotBinding, hread, Except.toOption]
  all_goals rfl

theorem importedLocals_eq (body : List Node) :
    importedLocals body =
      (body.flatMap importedBindings).filterMap fun binding => binding.2.map (·.1) := by
  rw [importedLocals, List.filterMap_flatMap]
  refine List.flatMap_congr fun statement _ => ?_
  cases statement
  case importDeclaration specifiers source _ =>
    rw [importedNames, importedBindings, List.filterMap_map, List.filterMap_eq_flatMap_toList]
    refine List.flatMap_congr fun node _ => ?_
    cases hread : importBinding node <;> simp [hread, Except.toOption]
  all_goals rfl

/-! ## Slots -/

/-- Repetitions are erased alike under an injection, here that of strings among the readings. The
induction is on the length, as for the function itself. -/
theorem eraseDups_map_some (names : List String) :
    (names.map some).eraseDups = names.eraseDups.map some := by
  induction hlength : names.length using Nat.strongRecOn generalizing names with
  | _ length ih =>
    cases names with
    | nil => rfl
    | cons name rest =>
      have hfilter : (rest.map some).filter (fun other => !other == some name) =
          (rest.filter fun other => !other == name).map some := by
        rw [List.filter_map]
        rfl
      have hshorter : (rest.filter fun other => !other == name).length < length := by
        rw [← hlength]
        exact Nat.lt_succ_of_le (List.length_filter_le _ _)
      rw [List.map_cons, List.eraseDups_cons, List.eraseDups_cons, hfilter, ih _ hshorter _ rfl]
      rfl

/-- If every module that is mentioned is named by a string, all get slots. There is no other way for
the scan to fail. -/
theorem exists_registered {body : List Node} (h : none ∉ mentions body) :
    ∃ dependencies, body.foldlM registerSource .empty = .ok dependencies := by
  refine Except.exists_foldlM_ok (fun table statement hmem => ?_) _
  unfold registerSource
  cases hsource : sourceNode? statement with
  | none => exact ⟨table, rfl⟩
  | some source =>
    cases hspecifier : source.stringValue? with
    | none =>
      exact absurd (List.mem_map.2 ⟨source, List.mem_filterMap.2 ⟨statement, hmem, hsource⟩,
        hspecifier⟩) h
    | some specifier =>
      exact ⟨_, by simp only [moduleSpecifier, hspecifier]; rfl⟩

theorem mentions_of_registered {body : List Node} {dependencies : Dependencies}
    (h : body.foldlM registerSource .empty = .ok dependencies) :
    (mentions body).eraseDups = dependencies.specifiers.map some := by
  rw [mentions, map_sourceNode? h, eraseDups_map_some, (specifiers_of_registered h).1]

/-- The slots depend on the order of first mention only, and not on how often or in which kind of
statement a module is mentioned. -/
theorem SameImports.registered {body other : List Node} (h : SameImports body other)
    {dependencies : Dependencies} (hbody : body.foldlM registerSource .empty = .ok dependencies) :
    other.foldlM registerSource .empty = .ok dependencies := by
  have hmentions := mentions_of_registered hbody
  rw [h.mentions_eq] at hmentions
  have hnone : none ∉ mentions other := by
    rw [← List.mem_eraseDups, hmentions]
    simp
  obtain ⟨others, hother⟩ := exists_registered hnone
  rw [hother]
  rw [mentions_of_registered hother] at hmentions
  have hspecifiers : others.specifiers = dependencies.specifiers :=
    List.map_injective_iff.2 (fun _ _ => Option.some.inj) hmentions
  have hbindings := (specifiers_of_registered hother).2
  have hbindings' := (specifiers_of_registered hbody).2
  cases others
  cases dependencies
  simp_all

/-! ## Binding the imports -/

/-- The passes of bindings of different names are apart, if no parameter is among the names: their
accesses are to parameters of slots. -/
theorem allApart_of_locals {bindings : List Binding}
    (hdistinct : (bindings.map (·.localName)).Nodup)
    (hparams : ∀ binding ∈ bindings, ∀ slot, binding.localName ≠ dependencyParam slot) :
    Pass.AllApart (bindings.map Binding.pass) := by
  refine List.pairwise_map.2 ((List.pairwise_map.1 hdistinct).imp_of_mem ?_)
  intro first second hfirst hsecond hne
  refine ⟨hne, ?_, ?_⟩
  · rw [Binding.pass, first.access_object]
    exact (hparams second hsecond _).symm
  · rw [Binding.pass, second.access_object]
    exact (hparams first hfirst _).symm

/-- What the passes so far have left of a statement, a pass that is apart from them refuses
only if it refuses the statement as it stands. -/
theorem Importing.accepted_original {slots : List String} {statements : List Node}
    {state : Wrapping} (hstate : state.Importing slots statements)
    (hapart : Pass.AllApart state.importPasses) {binding : Binding}
    (hmem : binding ∈ state.dependencies.bindings) {statement : Node}
    (hstatement : statement ∈ statements) : binding.pass.firstViolation? statement = none := by
  obtain ⟨before, after, hsplit⟩ := List.append_of_mem hmem
  have haccepted := hstate.accepted before binding after hsplit statement hstatement
  rw [importPasses, hsplit, List.map_append, Pass.AllApart, List.pairwise_append] at hapart
  rwa [Pass.Apart.firstViolation?_replaceAll] at haccepted
  intro pass hpass
  exact (hapart.2.2 pass hpass _ List.mem_cons_self).symm

/-- A specifier can be bound if its pass is apart from those before and refuses no statement of the
text. That it refuses none by then follows, because the passes before do not matter to it. -/
theorem Importing.exists_bind {slots : List String} {statements : List Node} {state : Wrapping}
    (hstate : state.Importing slots statements) {specifier localName : String} {node : Node}
    {imported : Imported} (hknown : specifier ∈ slots)
    (hread : importBinding node = .ok (localName, imported)) {binding : Binding}
    (hbinding : binding = ⟨localName, slots.idxOf specifier, imported⟩)
    (hapart : ∀ pass ∈ state.importPasses, binding.pass.Apart pass)
    (haccepted : ∀ statement ∈ statements, binding.pass.firstViolation? statement = none) :
    bindImport specifier state node = .ok (state.bound binding) := by
  obtain rfl := hstate.specifiers_eq
  have hname : binding.localName = localName := by rw [hbinding]
  have hfresh : ¬ state.dependencies.bindings.any (·.localName = localName) = true := by
    intro hany
    obtain ⟨other, hother, heq⟩ := List.any_eq_true.1 hany
    exact (hapart other.pass (List.mem_map_of_mem hother)).name_ne
      (hname.trans (of_decide_eq_true heq).symm)
  have hbind : state.dependencies.bind localName specifier imported =
      .ok (binding, ⟨state.dependencies.specifiers, state.dependencies.bindings ++ [binding]⟩) := by
    rw [Dependencies.bind, if_neg hfresh, Dependencies.register_of_mem hknown, hbinding]
  have hdone : binding.pass.applyAll state.done = .ok (state.done.map binding.pass.replace) := by
    rw [hstate.done_eq]
    rfl
  have hpending : binding.pass.applyAll state.pending =
      .ok (state.pending.map binding.pass.replace) := by
    refine Pass.applyAll_of_accepted fun statement hmem => ?_
    rw [hstate.pending_eq] at hmem
    obtain ⟨original, horiginal, rfl⟩ := List.mem_map.1 hmem
    rw [Pass.Apart.firstViolation?_replaceAll hapart]
    exact haccepted original horiginal
  -- Each of the three steps of a binding succeeds: the name is new, nothing is done yet, and the
  -- pass refuses nothing that waits.
  have hpass : (⟨localName, binding.access, true⟩ : Pass) = binding.pass := by
    rw [Binding.pass, hname]
  rw [bindImport, hread]
  change (state.dependencies.bind localName specifier imported >>= _) = _
  rw [hbind]
  change Wrapping.substitute _ ⟨localName, binding.access, true⟩ = _
  rw [hpass, substitute, hdone]
  change (binding.pass.applyAll state.pending >>= _) = _
  rw [hpending]
  rfl

/-- **The imports can be bound** if all can be read, their passes are apart from each other and
none of these refuses a statement as it stands. -/
theorem Importing.exists_imported {slots : List String} {statements : List Node}
    {actions : List Action} {state : Wrapping} (hstate : state.Importing slots statements)
    (hactions : ∀ action ∈ actions, ∃ specifier node result, action = .bind specifier node ∧
      specifier ∈ slots ∧ importBinding node = .ok result)
    (hapart : Pass.AllApart
      ((state.dependencies.bindings ++ actions.flatMap (boundBy slots)).map Binding.pass))
    (haccepted : ∀ binding ∈ actions.flatMap (boundBy slots), ∀ statement ∈ statements,
      binding.pass.firstViolation? statement = none) :
    ∃ final, actions.foldlM perform state = .ok final := by
  induction actions generalizing state with
  | nil => exact ⟨state, rfl⟩
  | cons action rest ih =>
    obtain ⟨specifier, node, ⟨localName, imported⟩, rfl, hknown, hread⟩ :=
      hactions action List.mem_cons_self
    obtain ⟨binding, hbinding⟩ :
        ∃ binding : Binding, binding = ⟨localName, slots.idxOf specifier, imported⟩ := ⟨_, rfl⟩
    have hbound : boundBy slots (.bind specifier node) = [binding] := by
      rw [boundBy, hread, hbinding]
    rw [List.flatMap_cons, hbound] at hapart haccepted
    have hnext := hstate.exists_bind hknown hread hbinding (by
        rw [List.map_append, Pass.AllApart, List.pairwise_append] at hapart
        exact fun pass hpass =>
          (hapart.2.2 pass hpass _ (List.mem_map_of_mem List.mem_cons_self)).symm)
      (haccepted binding (List.mem_append_left _ List.mem_cons_self))
    obtain ⟨final, hfinal⟩ := ih (hstate.bind hknown hnext)
      (fun other hmem => hactions other (List.mem_cons_of_mem _ hmem))
      (by rwa [bound, List.append_assoc])
      (fun other hmem => haccepted other (List.mem_append_right _ hmem))
    exact ⟨final, by rw [List.foldlM_cons, perform, hnext]; exact hfinal⟩

/-! ## When the imports can be bound -/

theorem readable_of_performed {performed : List Action} {state final : Wrapping}
    (h : performed.foldlM perform state = .ok final) {specifier : String} {node : Node}
    (hmem : .bind specifier node ∈ performed) : ∃ result, importBinding node = .ok result := by
  obtain ⟨before, after, rfl⟩ := List.append_of_mem hmem
  obtain ⟨middle, -, hrest⟩ := Except.foldlM_append_ok h
  obtain ⟨next, hnext, -⟩ := Except.foldlM_cons_ok hrest
  obtain ⟨result, hread, -⟩ := Except.bind_ok hnext
  exact ⟨result, hread⟩

/-- The bindings of the imports of a module, where the modules have the given slots. They are read
off the text and come in its order. -/
def importBindings (slots : List String) (body : List Node) : List Binding :=
  (body.flatMap importActions).flatMap (boundBy slots)

/-- What the text of a module is like whose imports can be bound: every specifier can be read, no
two are for the same name, and no pass for one refuses a statement as it stands. -/
structure Importable (slots : List String) (body : List Node) : Prop where
  readable : ∀ specifier node, .bind specifier node ∈ body.flatMap importActions →
    ∃ result, importBinding node = .ok result
  distinct : ((importBindings slots body).map (·.localName)).Nodup
  accepted : ∀ binding ∈ importBindings slots body, ∀ statement ∈ statements body,
    binding.pass.firstViolation? statement = none

section Importing

variable {body : List Node} {dependencies : Dependencies}
  (hregistered : body.foldlM registerSource .empty = .ok dependencies)

include hregistered in
/-- The local names of the bindings are those of the imports, for any slots that the scan gives
out. -/
theorem map_localName_importBindings :
    (importBindings dependencies.specifiers body).map (·.localName) = importedLocals body :=
  localNames_boundBy fun _ hmem _ hsource => stringValue?_of_registered hregistered hmem hsource

variable (hlocals : ∀ name ∈ importedLocals body, ∀ slot, name ≠ dependencyParam slot)

include hregistered hlocals in
/-- No binding is for a name that is spelled like a parameter, if no import is. This condition is
what makes all passes apart. -/
theorem localName_ne_of_mem_importBindings {binding : Binding}
    (hmem : binding ∈ importBindings dependencies.specifiers body) (slot : Nat) :
    binding.localName ≠ dependencyParam slot := by
  refine hlocals _ ?_ slot
  rw [← map_localName_importBindings hregistered]
  exact List.mem_map_of_mem hmem

include hregistered hlocals in
/-- The passes of a module whose imports can be bound are apart from each other: its local names are
distinct and no parameters. -/
theorem Importable.allApart (h : Importable dependencies.specifiers body) :
    Pass.AllApart ((importBindings dependencies.specifiers body).map Binding.pass) :=
  allApart_of_locals h.distinct fun _ hmem =>
    localName_ne_of_mem_importBindings hregistered hlocals hmem

include hregistered hlocals in
/-- **Whether the imports can be bound** is read off the text, without regard to their order. The
right side speaks of sets of bindings and of the statements as they stand. -/
theorem exists_imported_iff :
    (∃ imported, (body.flatMap importActions).foldlM perform (start dependencies body) =
      .ok imported) ↔ Importable dependencies.specifiers body := by
  constructor
  · rintro ⟨imported, himports⟩
    have himporting := importing_of_performed hregistered (fun _ hmem => hmem) himports
    have hbindings : imported.dependencies.bindings = importBindings dependencies.specifiers body :=
      bindings_of_imported hregistered himports
    have hdistinct := himporting.distinct
    have hapart : Pass.AllApart imported.importPasses :=
      allApart_of_locals hdistinct fun binding hmem =>
        localName_ne_of_mem_importBindings hregistered hlocals (hbindings ▸ hmem)
    refine ⟨fun specifier node => readable_of_performed himports, hbindings ▸ hdistinct, ?_⟩
    intro binding hmem statement hstatement
    exact himporting.accepted_original hapart (hbindings ▸ hmem) hstatement
  · intro h
    refine (importing_start hregistered).exists_imported (fun action hmem => ?_) ?_ h.accepted
    · obtain ⟨statement, -, haction⟩ := List.mem_flatMap.1 hmem
      obtain ⟨_, _, specifier, node, -, -, -, rfl⟩ := mem_importActions haction
      obtain ⟨result, hread⟩ := h.readable specifier node hmem
      exact ⟨specifier, node, result, rfl, mem_specifiers_of_mem_importActions hregistered hmem,
        hread⟩
    · rw [start, (specifiers_of_registered hregistered).2, List.nil_append]
      exact h.allApart hregistered hlocals

end Importing

/-! ## Two modules with the same imports -/

/-- What is read off the imports are their specifiers, with a module and with what stands for them
if they can be read. -/
theorem mem_importedBindings {body : List Node} {specifier : String}
    {read : Option (String × Imported)} :
    (some specifier, read) ∈ body.flatMap importedBindings ↔
      ∃ node, .bind specifier node ∈ body.flatMap importActions ∧
        read = (importBinding node).toOption := by
  rw [List.mem_flatMap]
  constructor
  · rintro ⟨statement, hstatement, hmem⟩
    cases statement
    case importDeclaration specifiers source =>
      obtain ⟨node, hnode, heq⟩ := List.mem_map.1 hmem
      obtain ⟨hsource, rfl⟩ := Prod.mk.inj heq
      refine ⟨node, List.mem_flatMap.2 ⟨_, hstatement, ?_⟩, rfl⟩
      rw [importActions, hsource, Option.toList_some, List.flatMap_singleton]
      exact List.mem_map_of_mem hnode
    all_goals cases hmem
  · rintro ⟨node, hmem, rfl⟩
    obtain ⟨statement, hstatement, haction⟩ := List.mem_flatMap.1 hmem
    obtain ⟨specifiers, source, _, _, rfl, hsource, hnode, heq⟩ := mem_importActions haction
    cases heq
    refine ⟨_, hstatement, List.mem_map.2 ⟨node, hnode, ?_⟩⟩
    rw [hsource]

/-- Two modules with the same imports have the same bindings in some order. -/
theorem SameImports.importBindings_perm {body other : List Node} (h : SameImports body other)
    (slots : List String) : (importBindings slots body).Perm (importBindings slots other) := by
  rw [importBindings, importBindings, flatMap_boundBy, flatMap_boundBy]
  exact h.bindings_perm.filterMap _

/-- So if the imports of one can be bound, those of the other can be, as the condition does not
depend on the order. -/
theorem SameImports.importable {body other : List Node} (h : SameImports body other)
    {slots : List String} (hbody : Importable slots body) : Importable slots other := by
  have hperm := h.importBindings_perm slots
  refine ⟨fun specifier node hmem => ?_, ?_, fun binding hmem statement hstatement => ?_⟩
  · have hread := mem_importedBindings.2 ⟨node, hmem, rfl⟩
    rw [← h.bindings_perm.mem_iff] at hread
    obtain ⟨node', hmem', heq⟩ := mem_importedBindings.1 hread
    obtain ⟨result, hresult⟩ := hbody.readable specifier node' hmem'
    refine ⟨result, ?_⟩
    rw [hresult] at heq
    cases hnode : importBinding node <;> rw [hnode] at heq <;> cases heq
    rfl
  · exact ((hperm.map _).nodup_iff).1 hbody.distinct
  · exact hbody.accepted binding (hperm.mem_iff.2 hmem) statement (h.statements_eq ▸ hstatement)

theorem SameImports.locals {body other : List Node} (h : SameImports body other)
    (hlocals : ∀ name ∈ importedLocals body, ∀ slot, name ≠ dependencyParam slot) :
    ∀ name ∈ importedLocals other, ∀ slot, name ≠ dependencyParam slot := by
  intro name hmem
  refine hlocals name ?_
  rw [importedLocals_eq] at hmem ⊢
  exact (h.bindings_perm.filterMap _).mem_iff.2 hmem

/-- The imports of the other module can be bound as well, and bring the statements to the same. Only
the bindings themselves are in another order. -/
theorem SameImports.exists_imported {body other : List Node} (h : SameImports body other)
    (hlocals : ∀ name ∈ importedLocals body, ∀ slot, name ≠ dependencyParam slot)
    {dependencies : Dependencies} {imported : Wrapping}
    (hregistered : body.foldlM registerSource .empty = .ok dependencies)
    (himports : (body.flatMap importActions).foldlM perform (start dependencies body) =
      .ok imported) :
    ∃ imported', (other.flatMap importActions).foldlM perform (start dependencies other) =
        .ok imported' ∧ imported' = imported.rebind imported'.dependencies.bindings := by
  have hother := h.registered hregistered
  have himportable := (exists_imported_iff hregistered hlocals).1 ⟨imported, himports⟩
  obtain ⟨imported', himports'⟩ :=
    (exists_imported_iff hother (h.locals hlocals)).2 (h.importable himportable)
  refine ⟨imported', himports', ?_⟩
  have himporting := importing_of_performed hregistered (fun _ hmem => hmem) himports
  have himporting' := importing_of_performed hother (fun _ hmem => hmem) himports'
  have hpasses : imported.importPasses.Perm imported'.importPasses := by
    rw [importPasses, importPasses, bindings_of_imported hregistered himports,
      bindings_of_imported hother himports']
    exact (h.importBindings_perm _).map _
  -- The passes are the same in another order, and that does not matter since they are apart.
  have hapart : Pass.AllApart imported.importPasses := by
    rw [importPasses, bindings_of_imported hregistered himports]
    exact himportable.allApart hregistered hlocals
  have hpending : imported'.pending = imported.pending := by
    rw [himporting'.pending_eq, himporting.pending_eq, h.statements_eq]
    exact List.map_congr_left fun statement _ =>
      (Pass.replaceAll_perm hpasses hapart statement).symm
  exact eq_rebind (himporting'.specifiers_eq.trans himporting.specifiers_eq.symm)
    (himporting'.exported_eq.trans himporting.exported_eq.symm)
    (himporting'.done_eq.trans himporting.done_eq.symm) hpending

/-- **A module with the same imports is wrapped alike.** After the first phase the two differ in the
bindings alone, and taking the statements does not look at these. -/
theorem SameImports.run {body other : List Node} (h : SameImports body other)
    (hlocals : ∀ name ∈ importedLocals body, ∀ slot, name ≠ dependencyParam slot)
    {final : Wrapping} (hrun : Wrapping.run body = .ok final) :
    ∃ bindings, Wrapping.run other = .ok (final.rebind bindings) := by
  obtain ⟨dependencies, hregistered, hfold⟩ := run_ok hrun
  obtain ⟨imported, himports, htaken⟩ := Except.foldlM_append_ok hfold
  obtain ⟨imported', himports', hsame⟩ := h.exists_imported hlocals hregistered himports
  refine ⟨imported'.dependencies.bindings, ?_⟩
  rw [run_eq_foldlM, h.registered hregistered]
  change (actions other).foldlM perform (start dependencies other) = _
  rw [actions, List.foldlM_append, himports']
  change ((statements other).map .take).foldlM perform imported' = _
  rw [← takeStatements_eq] at htaken ⊢
  rw [hsame, takeStatements_rebind, ← h.statements_eq, htaken]
  rfl

end Wrapping

/-- **Imports are hoisted, and their order is of no consequence.** Two modules that have the same
statements but for the imports, and whose imports bind the same names to the same, in any order,
grouped and placed in any way, are both refused or wrapped alike, if they first mention their
modules in the same order and no imported name is spelled like the parameter of a slot. -/
theorem Program.wrap_of_sameImports {program other : Program}
    (h : Wrapping.SameImports program.body other.body)
    (hlocals : ∀ name ∈ Wrapping.importedLocals program.body, ∀ slot, name ≠ dependencyParam slot)
    (options : WrapOptions) :
    (program.wrap options).toOption = (other.wrap options).toOption := by
  cases hrun : Wrapping.run program.body with
  | ok final =>
    obtain ⟨bindings, hother⟩ := h.run hlocals hrun
    rw [wrap, wrap, hrun, hother]
    rfl
  | error error =>
    cases hother : Wrapping.run other.body with
    | ok final =>
      obtain ⟨bindings, hprogram⟩ := h.symm.run (h.locals hlocals) hother
      rw [hrun] at hprogram
      cases hprogram
    | error _ =>
      rw [wrap, wrap, hrun, hother]
      rfl

/-- The module `import { a, b } from "m"; a(b); import c from "n"; c();`, with two names in one
import. -/
def groupedImports : Program :=
  ⟨[.importDeclaration [.importSpecifier (.identifier "a") (.identifier "a"),
      .importSpecifier (.identifier "b") (.identifier "b")] (.stringLiteral "m"),
    .statement (.call (.identifier "a") [.identifier "b"]),
    .importDeclaration [.importDefaultSpecifier (.identifier "c")] (.stringLiteral "n"),
    .statement (.call (.identifier "c") [])], none⟩

/-- The module `import { b } from "m"; a(b); c(); import c from "n"; import { a } from "m";`, which
imports the same names in three statements and after their uses. -/
def scatteredImports : Program :=
  ⟨[.importDeclaration [.importSpecifier (.identifier "b") (.identifier "b")] (.stringLiteral "m"),
    .statement (.call (.identifier "a") [.identifier "b"]),
    .statement (.call (.identifier "c") []),
    .importDeclaration [.importDefaultSpecifier (.identifier "c")] (.stringLiteral "n"),
    .importDeclaration [.importSpecifier (.identifier "a") (.identifier "a")] (.stringLiteral "m")],
    none⟩

/-- A short name is spelled like no parameter of a slot: the beginning and the ending alone have
eight characters. -/
theorem ne_dependencyParam_of_length {name : String} (h : name.length < 8) (slot : Nat) :
    name ≠ dependencyParam slot := by
  rintro rfl
  have hlength : (dependencyParam slot).length = 6 + (toString slot).length + 2 := by
    rw [dependencyParam, String.length_append, String.length_append]
    rfl
  omega

/-- Both modules become the same, though their imports are grouped and placed in other ways. -/
theorem Program.wrap_of_sameImports_scattered :
    Wrapping.SameImports groupedImports.body scatteredImports.body ∧
      (∀ name ∈ Wrapping.importedLocals groupedImports.body, ∀ slot,
        name ≠ dependencyParam slot) ∧
      (scatteredImports.wrap .default).toOption = some ⟨⟨[wrapper ["m", "n"]
        [.statement (.call (.access "__uDep0__" "a") [.access "__uDep0__" "b"]),
          .statement (.call (.access "__uDep1__" "default") [])] .default], some "script"⟩,
        ["m", "n"]⟩ := by
  have hsame : Wrapping.SameImports groupedImports.body scatteredImports.body :=
    ⟨rfl, by decide, by decide⟩
  have hlocals : ∀ name ∈ Wrapping.importedLocals groupedImports.body, ∀ slot,
      name ≠ dependencyParam slot := fun name hmem =>
    ne_dependencyParam_of_length ((by decide :
      ∀ name ∈ Wrapping.importedLocals groupedImports.body, name.length < 8) name hmem)
  have h : groupedImports.wrap .default = .ok ⟨⟨[wrapper ["m", "n"]
      [.statement (.call (.access "__uDep0__" "a") [.access "__uDep0__" "b"]),
        .statement (.call (.access "__uDep1__" "default") [])] .default], some "script"⟩,
      ["m", "n"]⟩ := by with_unfolding_all rfl
  refine ⟨hsame, hlocals, ?_⟩
  rw [← Program.wrap_of_sameImports hsame hlocals, h]
  rfl

end DefineWrap
