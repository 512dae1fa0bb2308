/-
The slots of a module, and what binding its imports does.

The first scan gives every module that is named a slot, and the slots are the distinct
names in the order of first mention (`Wrapping.specifiers_of_registered`). From then
on every name that is looked up is in the table, so a look-up only reads it.

While imports are bound nothing is done yet, and every statement is the original one
after the passes of the bindings so far. None of these passes found anything to
refuse. `Wrapping.Importing` is this invariant, `Wrapping.Importing.bind` the step that
preserves it and `Wrapping.importing_of_performed` the run.
-/
import DefineWrap.Proofs.Wrap.Steps
import Mathlib.Data.List.Flatten
import Mathlib.Data.List.Nodup

set_option autoImplicit false

namespace DefineWrap

/-- The pass that puts the access of a binding in the place of its local name. It is strict, since
an import cannot be assigned to. -/
def Binding.pass (binding : Binding) : Pass := ⟨binding.localName, binding.access, true⟩

/-- Whatever is imported, the access is to the parameter of the slot. This is all that scoping needs
to know about an access. -/
theorem Binding.access_object (binding : Binding) :
    binding.access.object = dependencyParam binding.slot := by
  unfold access
  split <;> rfl

namespace Dependencies

/-- Where a name is in a list, looking for it and asking for its position agree. The table does the
former and the statements about slots the latter. -/
theorem idxOf?_of_mem {names : List String} {name : String} (h : name ∈ names) :
    names.idxOf? name = some (names.idxOf name) := by
  induction names with
  | nil => cases h
  | cons first rest ih =>
    rw [List.idxOf?_cons, List.idxOf_cons]
    by_cases heq : first = name
    · simp [heq]
    · have hrest : name ∈ rest := by
        rcases List.mem_cons.1 h with rfl | hrest
        · exact absurd rfl heq
        · exact hrest
      simp [heq, ih hrest, cond_eq_ite]

/-- A module that has a slot keeps it, and looking it up changes nothing. After the first scan every
look-up is of this kind. -/
theorem register_of_mem {table : Dependencies} {specifier : String}
    (h : specifier ∈ table.specifiers) :
    table.register specifier = (table.specifiers.idxOf specifier, table) := by
  rw [register, idxOf?_of_mem h]

/-- The names in the table after one more is looked up: a new one comes last, so that the slots
given out before stay. -/
theorem specifiers_register (table : Dependencies) (specifier : String) :
    (table.register specifier).2.specifiers =
      if specifier ∈ table.specifiers then table.specifiers
      else table.specifiers ++ [specifier] := by
  by_cases h : specifier ∈ table.specifiers
  · rw [register_of_mem h, if_pos h]
  · rw [register, List.idxOf?_eq_none_iff.2 h, if_neg h]

/-- Looking up a module binds no name. The scan for the slots therefore leaves a table without
bindings. -/
theorem bindings_register (table : Dependencies) (specifier : String) :
    (table.register specifier).2.bindings = table.bindings := by
  unfold register
  split <;> rfl

end Dependencies

namespace Wrapping

/-! ## Slots -/

/-- The module that a statement names, as an import or as a re-export. There is none also if the
source is no string. -/
def namedSource? (statement : Node) : Option String :=
  (sourceNode? statement).bind Node.stringValue?

/-- The modules that the statements of a module name, in their order and with repetitions. -/
def sources (body : List Node) : List String := body.filterMap namedSource?

/-- One step of the scan for the slots, if it succeeds: the statement names no module and the table
stays, or its module is looked up. -/
theorem registerSource_ok {table next : Dependencies} {statement : Node}
    (h : registerSource table statement = .ok next) :
    (namedSource? statement = none ∧ next = table) ∨
      ∃ specifier, namedSource? statement = some specifier ∧
        next = (table.register specifier).2 := by
  unfold registerSource at h
  split at h
  next hnone =>
    cases h
    exact .inl ⟨by rw [namedSource?, hnone]; rfl, rfl⟩
  next source hsource =>
    obtain ⟨specifier, hspecifier, h⟩ := Except.bind_ok h
    cases h
    unfold moduleSpecifier at hspecifier
    split at hspecifier
    next hvalue =>
      cases hspecifier
      exact .inr ⟨specifier, by rw [namedSource?, hsource]; exact hvalue, rfl⟩
    · cases hspecifier

/-- A list without repetitions grows by one element at most, at its end. This is the step of the
table of slots in terms of the list of all names so far. -/
theorem eraseDups_concat (names : List String) (name : String) :
    (names ++ [name]).eraseDups =
      if name ∈ names.eraseDups then names.eraseDups else names.eraseDups ++ [name] := by
  rw [List.eraseDups_append]
  by_cases h : name ∈ names
  · rw [if_pos (List.mem_eraseDups.2 h)]
    have hnone : [name].removeAll names = [] := by simp [List.removeAll, h]
    rw [hnone, List.eraseDups_nil, List.append_nil]
  · rw [if_neg fun hmem => h (List.mem_eraseDups.1 hmem)]
    have hone : [name].removeAll names = [name] := by simp [List.removeAll, h]
    rw [hone, List.eraseDups_cons]
    rfl

/-- Erasing the repetitions leaves none. The library defines the function from the front, so the
induction is on the length and not on the list. -/
theorem nodup_eraseDups (names : List String) : names.eraseDups.Nodup := by
  induction hlength : names.length using Nat.strongRecOn generalizing names with
  | _ length ih =>
    cases names with
    | nil => exact List.nodup_nil
    | cons name rest =>
      rw [List.eraseDups_cons, List.nodup_cons]
      refine ⟨fun hmem => ?_, ih _ ?_ _ rfl⟩
      · simpa using List.mem_eraseDups.1 hmem
      · rw [← hlength]
        exact Nat.lt_succ_of_le (List.length_filter_le _ _)

/-- **The slots are the distinct modules in the order of first mention.** Nothing is bound by the
scan, so that the bindings of a module are those of its actions alone. -/
theorem specifiers_of_registered {body : List Node} {dependencies : Dependencies}
    (h : body.foldlM registerSource .empty = .ok dependencies) :
    dependencies.specifiers = (sources body).eraseDups ∧ dependencies.bindings = [] := by
  -- The table after a prefix of the body is the answer for that prefix.
  suffices key : ∀ (before rest : List Node) (table : Dependencies),
      table.specifiers = (sources before).eraseDups → table.bindings = [] →
      rest.foldlM registerSource table = .ok dependencies →
      dependencies.specifiers = (sources (before ++ rest)).eraseDups ∧
        dependencies.bindings = [] from key [] body .empty rfl rfl h
  intro before rest
  induction rest generalizing before with
  | nil =>
    intro table hspecifiers hbindings h
    cases h
    rw [List.append_nil]
    exact ⟨hspecifiers, hbindings⟩
  | cons statement rest ih =>
    intro table hspecifiers hbindings h
    obtain ⟨next, hnext, hrest⟩ := Except.foldlM_cons_ok h
    rw [List.append_cons]
    refine ih _ next ?_ ?_ hrest
    · rcases registerSource_ok hnext with ⟨hnone, rfl⟩ | ⟨specifier, hsome, rfl⟩
      · rw [hspecifiers, sources, sources, List.filterMap_append]
        simp [hnone]
      · have hconcat : sources (before ++ [statement]) = sources before ++ [specifier] := by
          rw [sources, List.filterMap_append]
          simp [hsome, sources]
        rw [Dependencies.specifiers_register, hspecifiers, hconcat, eraseDups_concat]
    · rcases registerSource_ok hnext with ⟨-, rfl⟩ | ⟨specifier, -, rfl⟩
      · exact hbindings
      · rw [Dependencies.bindings_register, hbindings]

/-- The string of every module that is named is in the table, and so no action finds a module that
it has to add. -/
theorem mem_specifiers_of_named {body : List Node} {dependencies : Dependencies}
    (h : body.foldlM registerSource .empty = .ok dependencies) {statement : Node}
    {specifier : String} (hmem : statement ∈ body)
    (hnamed : namedSource? statement = some specifier) :
    specifier ∈ dependencies.specifiers := by
  rw [(specifiers_of_registered h).1, List.mem_eraseDups]
  exact List.mem_filterMap.2 ⟨statement, hmem, hnamed⟩

/-! ## Binding a specifier -/

/-- What a binding changes: the table has it in addition, and its pass goes through all statements,
those that are done and those that are pending. -/
def bound (state : Wrapping) (binding : Binding) : Wrapping :=
  ⟨⟨state.dependencies.specifiers, state.dependencies.bindings ++ [binding]⟩, state.exported,
    state.done.map binding.pass.replace, state.pending.map binding.pass.replace⟩

/-- A pass over all statements, as a whole: it fails with the first violation in the order of the
text if it is strict, and otherwise replaces in every statement. In the source it goes through them
one by one. -/
theorem substitute_eq (state : Wrapping) (pass : Pass) :
    state.substitute pass =
      match if pass.strict then (state.done ++ state.pending).findSome? pass.firstViolation?
        else none with
      | some error => .error error
      | none => .ok { state with done := state.done.map pass.replace,
                                 pending := state.pending.map pass.replace } := by
  rw [substitute, Pass.applyAll_eq, Pass.applyAll_eq, Pass.findSome?_refusal?,
    Pass.findSome?_refusal?]
  by_cases hstrict : pass.strict = true
  · rw [if_pos hstrict, if_pos hstrict, if_pos hstrict, List.findSome?_append]
    cases state.done.findSome? pass.firstViolation? with
    | some error => rfl
    | none => cases state.pending.findSome? pass.firstViolation? <;> rfl
  · rw [if_neg hstrict, if_neg hstrict, if_neg hstrict]
    rfl

/-- A pass that succeeds has replaced in every statement, and if it is strict it has found no
violation in any. The latter is what makes it commute with the passes after it. -/
theorem substitute_ok {state next : Wrapping} {pass : Pass}
    (h : state.substitute pass = .ok next) :
    next = { state with done := state.done.map pass.replace,
                        pending := state.pending.map pass.replace } ∧
      (pass.strict = true →
        ∀ statement ∈ state.done ++ state.pending, pass.firstViolation? statement = none) := by
  rw [substitute_eq] at h
  split at h
  · cases h
  next hnone =>
    cases h
    refine ⟨rfl, fun hstrict => ?_⟩
    rwa [if_pos hstrict, List.findSome?_eq_none_iff] at hnone

/-- What is known after a binding that succeeds: the specifier could be read, the local name was
free, the state is that of `bound`, and the pass found nothing to refuse. -/
theorem bindImport_ok {state next : Wrapping} {specifier : String} {node : Node}
    (hknown : specifier ∈ state.dependencies.specifiers)
    (h : bindImport specifier state node = .ok next) :
    ∃ localName imported, importBinding node = .ok (localName, imported) ∧
      localName ∉ state.dependencies.bindings.map (·.localName) ∧
      ∃ binding : Binding,
        binding = ⟨localName, state.dependencies.specifiers.idxOf specifier, imported⟩ ∧
        next = state.bound binding ∧
        ∀ statement ∈ state.done ++ state.pending,
          binding.pass.firstViolation? statement = none := by
  obtain ⟨⟨localName, imported⟩, hread, h⟩ := Except.bind_ok h
  obtain ⟨⟨binding, dependencies⟩, hbind, h⟩ := Except.bind_ok h
  rw [Dependencies.bind] at hbind
  split at hbind
  · cases hbind
  next hfresh =>
    rw [Dependencies.register_of_mem hknown] at hbind
    cases hbind
    obtain ⟨hnext, hstrict⟩ := substitute_ok h
    refine ⟨localName, imported, hread, ?_, _, rfl, hnext, hstrict rfl⟩
    simpa using hfresh

/-! ## Binding all imports -/

/-- The local names that a statement binds as an import. Specifiers that cannot be read bind none; a
run fails on them. -/
def importedNames : Node → List String
  | .importDeclaration specifiers _ =>
    specifiers.flatMap fun specifier =>
      match importBinding specifier with
      | .ok (localName, _) => [localName]
      | .error _ => []
  | _ => []

/-- The passes of the bindings so far, in the order in which they have been done. -/
def importPasses (state : Wrapping) : List Pass := state.dependencies.bindings.map Binding.pass

/-- A new binding adds its pass after the others, so what is pending has gone through the same
list. -/
theorem importPasses_bound (state : Wrapping) (binding : Binding) :
    (state.bound binding).importPasses = state.importPasses ++ [binding.pass] :=
  List.map_append

/-- A module while its imports are bound: its statements are the given ones after the
passes of the bindings, and no pass found anything to refuse in them. -/
structure Importing (specifiers : List String) (statements : List Node) (state : Wrapping) :
    Prop where
  specifiers_eq : state.dependencies.specifiers = specifiers
  exported_eq : state.exported = []
  done_eq : state.done = []
  pending_eq : state.pending = statements.map (Pass.replaceAll state.importPasses)
  distinct : (state.dependencies.bindings.map (·.localName)).Nodup
  slotted : ∀ binding ∈ state.dependencies.bindings, binding.slot < specifiers.length
  accepted : ∀ before binding after, state.dependencies.bindings = before ++ binding :: after →
    ∀ statement ∈ statements,
      binding.pass.firstViolation? (Pass.replaceAll (before.map Binding.pass) statement) = none

/-- One binding preserves the invariant. The new pass is the last one of the list, so all statements
go through one pass more and what was accepted before stays accepted. -/
theorem Importing.bind {specifiers : List String} {statements : List Node}
    {state next : Wrapping} (hstate : state.Importing specifiers statements)
    {specifier : String} {node : Node} (hknown : specifier ∈ specifiers)
    (h : bindImport specifier state node = .ok next) : next.Importing specifiers statements := by
  have hmem : specifier ∈ state.dependencies.specifiers := by rwa [hstate.specifiers_eq]
  obtain ⟨localName, imported, -, hfresh, binding, hbinding, rfl, haccepted⟩ :=
    bindImport_ok hmem h
  refine ⟨hstate.specifiers_eq, hstate.exported_eq, ?_, ?_, ?_, ?_, ?_⟩
  · rw [bound, hstate.done_eq]
    rfl
  · rw [importPasses_bound, bound, hstate.pending_eq, List.map_map]
    refine List.map_congr_left fun statement _ => ?_
    rw [Pass.replaceAll_append]
    rfl
  · rw [bound, List.map_append, List.map_singleton, List.nodup_append]
    refine ⟨hstate.distinct, List.pairwise_singleton _ _, fun name hname other hother => ?_⟩
    rw [List.mem_singleton.1 hother, hbinding]
    rintro rfl
    exact hfresh hname
  · intro other hother
    rcases List.mem_append.1 hother with hother | hother
    · exact hstate.slotted other hother
    · rw [List.mem_singleton.1 hother, hbinding, hstate.specifiers_eq]
      exact List.idxOf_lt_length_of_mem hknown
  · intro before other after hsplit statement hstatement
    -- The split is either before the new binding, or it is the new one itself.
    rcases List.eq_nil_or_concat after with rfl | ⟨after, last, rfl⟩
    · obtain ⟨hbefore, hother⟩ := List.append_inj_right' hsplit rfl |> fun hlast =>
        And.intro (List.append_inj_left' hsplit rfl) (List.cons.inj hlast).1
      subst hbefore hother
      have hpending : Pass.replaceAll (state.dependencies.bindings.map Binding.pass) statement ∈
          state.pending := by
        rw [hstate.pending_eq]
        exact List.mem_map_of_mem hstatement
      exact haccepted _ (List.mem_append_right _ hpending)
    · have hconcat : state.dependencies.bindings ++ [binding] =
          (before ++ other :: after) ++ [last] := by
        rw [List.append_assoc]
        simpa [bound] using hsplit
      have hsplit' := List.append_inj_left' hconcat rfl
      exact hstate.accepted before other after hsplit' statement hstatement

/-- A local name that is bound is bound once: the other bindings are for other names. So of the
passes of the imports one alone is for the name. -/
theorem Importing.exists_split {specifiers : List String} {statements : List Node}
    {state : Wrapping} (hstate : state.Importing specifiers statements) {name : String}
    (hname : name ∈ state.dependencies.bindings.map (·.localName)) :
    ∃ before binding after, state.dependencies.bindings = before ++ binding :: after ∧
      binding.localName = name ∧ ∀ other ∈ before ++ after, other.localName ≠ name := by
  obtain ⟨binding, hbinding, rfl⟩ := List.mem_map.1 hname
  obtain ⟨before, after, hsplit⟩ := List.append_of_mem hbinding
  refine ⟨before, binding, after, hsplit, rfl, fun other hother heq => ?_⟩
  have hdistinct := hstate.distinct
  rw [hsplit, List.map_append, List.map_cons, List.nodup_append, List.nodup_cons] at hdistinct
  obtain ⟨-, ⟨hafter, -⟩, hbefore⟩ := hdistinct
  rcases List.mem_append.1 hother with hmem | hmem
  · exact hbefore _ (List.mem_map_of_mem hmem) _ List.mem_cons_self heq
  · exact hafter (heq ▸ List.mem_map_of_mem hmem)

/-- The module is in this form before anything is bound, with an empty list of passes. -/
theorem importing_start {body : List Node} {dependencies : Dependencies}
    (h : body.foldlM registerSource .empty = .ok dependencies) :
    (start dependencies body).Importing dependencies.specifiers (statements body) := by
  have hnone := (specifiers_of_registered h).2
  refine ⟨rfl, rfl, rfl, ?_, ?_, ?_, ?_⟩
  · rw [importPasses, start, hnone]
    exact (List.map_id _).symm
  · rw [start, hnone]
    exact List.nodup_nil
  · rw [start, hnone]
    exact fun _ hmem => by cases hmem
  · intro before binding after hsplit
    rw [start, hnone] at hsplit
    exact absurd hsplit (by simp)

/-- The actions for an import are bindings of its specifiers, with the string of its source. An
invariant of the bindings is therefore one of the whole first phase. -/
theorem mem_importActions {statement : Node} {action : Action}
    (h : action ∈ importActions statement) :
    ∃ specifiers source specifier binding, statement = .importDeclaration specifiers source ∧
      source.stringValue? = some specifier ∧ binding ∈ specifiers ∧
      action = .bind specifier binding := by
  cases statement
  case importDeclaration specifiers source =>
    obtain ⟨specifier, hspecifier, hmap⟩ := List.mem_flatMap.1 h
    obtain ⟨binding, hbinding, rfl⟩ := List.mem_map.1 hmap
    exact ⟨specifiers, source, specifier, binding, rfl, Option.mem_toList.1 hspecifier, hbinding,
      rfl⟩
  all_goals cases h

/-- The module of every binding is in the table when it is done, so `bindImport_ok` applies to each
action of the first phase. -/
theorem mem_specifiers_of_mem_importActions {body : List Node} {dependencies : Dependencies}
    (h : body.foldlM registerSource .empty = .ok dependencies) {specifier : String}
    {binding : Node} (hmem : .bind specifier binding ∈ body.flatMap importActions) :
    specifier ∈ dependencies.specifiers := by
  obtain ⟨statement, hstatement, haction⟩ := List.mem_flatMap.1 hmem
  obtain ⟨specifiers, source, name, node, rfl, hname, -, heq⟩ := mem_importActions haction
  cases heq
  exact mem_specifiers_of_named h hstatement hname

/-- **While imports are bound** the invariant holds, at any point: the actions that have been
performed need not be all of them, but only be actions of the imports. -/
theorem importing_of_performed {body : List Node} {dependencies : Dependencies}
    (h : body.foldlM registerSource .empty = .ok dependencies) {performed : List Action}
    (hperformed : ∀ action ∈ performed, action ∈ body.flatMap importActions) {state : Wrapping}
    (hrun : performed.foldlM perform (start dependencies body) = .ok state) :
    state.Importing dependencies.specifiers (statements body) := by
  refine Except.foldlM_invariant (Importing dependencies.specifiers (statements body)) ?_
    (importing_start h) hrun
  intro state action next hmem hstate hnext
  have haction := hperformed action hmem
  obtain ⟨statement, -, hstatement⟩ := List.mem_flatMap.1 haction
  obtain ⟨specifiers, source, specifier, binding, -, -, -, rfl⟩ := mem_importActions hstatement
  exact hstate.bind (mem_specifiers_of_mem_importActions h haction) hnext

/-! ## The bindings of a module -/

/-- What an action binds, where the modules have the given slots. It is read off the action alone,
without the state it is performed in. -/
def boundBy (specifiers : List String) : Action → List Binding
  | .bind specifier node =>
    match importBinding node with
    | .ok (localName, imported) => [⟨localName, specifiers.idxOf specifier, imported⟩]
    | .error _ => []
  | .take _ => []

/-- **The bindings are those of the import specifiers**, in the order of the text, each in the
slot of its module. They are added one by one in a run, and here they are read off the list of
actions. -/
theorem bindings_of_performed {specifiers : List String} {performed : List Action}
    (hknown : ∀ action ∈ performed, ∃ specifier node, action = .bind specifier node ∧
      specifier ∈ specifiers)
    {state final : Wrapping} (hstate : state.dependencies.specifiers = specifiers)
    (h : performed.foldlM perform state = .ok final) :
    final.dependencies.bindings =
      state.dependencies.bindings ++ performed.flatMap (boundBy specifiers) := by
  induction performed generalizing state with
  | nil =>
    cases h
    exact (List.append_nil _).symm
  | cons action rest ih =>
    obtain ⟨next, hnext, hrest⟩ := Except.foldlM_cons_ok h
    obtain ⟨specifier, node, rfl, hspecifier⟩ := hknown action List.mem_cons_self
    obtain ⟨localName, imported, hread, -, binding, hbinding, rfl, -⟩ :=
      bindImport_ok (by rwa [hstate]) hnext
    have hbound : (state.bound binding).dependencies.specifiers = specifiers := hstate
    have htail := ih (fun other hmem => hknown other (List.mem_cons_of_mem _ hmem)) hbound hrest
    rw [htail, bound, List.flatMap_cons, List.append_assoc, boundBy, hread, hbinding, hstate]

/-- The same for all imports of a module, from the table of its slots: nothing is bound at the
start, so these are all bindings there are. -/
theorem bindings_of_imported {body : List Node} {dependencies : Dependencies}
    {imported : Wrapping} (hregistered : body.foldlM registerSource .empty = .ok dependencies)
    (h : (body.flatMap importActions).foldlM perform (start dependencies body) = .ok imported) :
    imported.dependencies.bindings =
      (body.flatMap importActions).flatMap (boundBy dependencies.specifiers) := by
  have hbindings := bindings_of_performed (fun action hmem => by
      obtain ⟨statement, -, haction⟩ := List.mem_flatMap.1 hmem
      obtain ⟨_, _, specifier, node, -, -, -, rfl⟩ := mem_importActions haction
      exact ⟨specifier, node, rfl, mem_specifiers_of_mem_importActions hregistered hmem⟩) rfl h
  rwa [start, (specifiers_of_registered hregistered).2, List.nil_append] at hbindings

/-- The local names that are bound are those of the imports of the module, so they can be read off
the text, without a table of slots. -/
theorem localNames_boundBy {specifiers : List String} {body : List Node}
    (hnamed : ∀ statement ∈ body, ∀ source, sourceNode? statement = some source →
      ∃ specifier, source.stringValue? = some specifier) :
    ((body.flatMap importActions).flatMap (boundBy specifiers)).map (·.localName) =
      body.flatMap importedNames := by
  rw [List.flatMap_assoc, List.map_flatMap]
  refine List.flatMap_congr fun statement hmem => ?_
  cases statement
  case importDeclaration nodes source =>
    obtain ⟨specifier, hspecifier⟩ := hnamed _ hmem source rfl
    rw [importActions, importedNames, hspecifier, Option.toList_some, List.flatMap_singleton,
      List.flatMap_map, List.map_flatMap]
    refine List.flatMap_congr fun node _ => ?_
    cases hread : importBinding node <;> simp [boundBy, hread]
  all_goals rfl

end Wrapping

end DefineWrap
