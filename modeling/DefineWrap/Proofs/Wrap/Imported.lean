/-
The names that imports bind, after the imports are bound.

The pass for such a name refuses a module that exports a declaration of it, and takes the
name away from the export lists. No later pass brings the name back. So no statement that
is still to be taken gives the name up to a pass of its own: the passes that exports start
are for other names (`Wrapping.Importing.not_given_up`).

So what a survey about the name finds in the wrapped module is what it finds in the source
after the one pass for the name (`Program.wrap_gather`).
-/
import DefineWrap.Proofs.Wrap.Conservation

set_option autoImplicit false

namespace DefineWrap

namespace Pass

/-- A strict pass that accepts a tree finds nothing wrong with its root. What is replaced as a whole
is not looked at, hence the second condition. -/
theorem violation?_eq_none {pass : Pass} {node : Node} (h : pass.firstViolation? node = none)
    (hreplaced : pass.replacement? node = none) : pass.violation? node = none := by
  rw [firstViolation?, hreplaced] at h
  exact (Option.or_eq_none_iff.1 h).1

/-- An export of a declaration is refused if the declaration is of the name, so in an accepted one
the name is not declared. -/
theorem not_mem_of_exportViolation? {pass : Pass} {declaration : Node}
    (h : pass.exportViolation? declaration = none) :
    pass.name ∉ declaration.directDeclarations?.getD [] := by
  intro hmem
  rw [exportViolation?, if_pos hmem] at h
  cases h

/-- A statement that a strict pass accepts does not give up the name of the pass: a declaration of
it would have been refused, and in a list the name has been replaced. -/
theorem not_mem_exportedLocals {pass : Pass} {table : Dependencies} {statement : Node}
    (h : pass.firstViolation? statement = none) (hobject : pass.access.object ≠ pass.name) :
    pass.name ∉ exportedLocals table (pass.replace statement) := by
  by_cases hkind : statement.kind = .exportNamedDeclaration
  · obtain ⟨declaration, specifiers, source, rfl⟩ := Node.hasFormOf_of_kind_eq hkind
    rw [pass.replace_exportNamedDeclaration]
    cases declaration with
    | some declaration =>
      have haccepted : pass.exportViolation? declaration = none := violation?_eq_none h rfl
      exact fun hmem => not_mem_of_exportViolation? haccepted
        ((pass.directDeclarations?_replace_sublist declaration).subset hmem)
    | none =>
      cases source with
      | some source => exact List.not_mem_nil
      | none =>
        intro hmem
        change pass.name ∈ (specifiers.map pass.replace).flatMap (entryLocals table) at hmem
        rw [List.flatMap_map] at hmem
        obtain ⟨specifier, -, hname⟩ := List.mem_flatMap.1 hmem
        -- A specifier is one before the pass, too, and its local has been through it.
        by_cases hentry : specifier.kind = .exportSpecifier
        · obtain ⟨original, exported, rfl⟩ := Node.hasFormOf_of_kind_eq hentry
          rw [pass.replace_exportSpecifier, entryLocals, List.mem_filter,
            Option.mem_toList] at hname
          exact identifierName?_replace_ne hobject original hname.1
        · rw [entryLocals_of_kind_ne (pass.kind_replace_ne hentry (by decide))] at hname
          cases hname
  · rw [exportedLocals_of_kind_ne (pass.kind_replace_ne hkind (by decide))]
    exact List.not_mem_nil

/-- Nor is it the name of a declaration that is exported as the default. The pass asks for this at
the export, before it comes to a function of the name and replaces it. -/
theorem not_mem_defaultLocals {pass : Pass} {statement : Node}
    (h : pass.firstViolation? statement = none) :
    pass.name ∉ defaultLocals (pass.replace statement) := by
  intro hmem
  have hbefore := defaultLocals_replace_subset pass statement hmem
  cases statement
  case exportDefaultDeclaration declaration =>
    have haccepted : pass.exportViolation? declaration = none := violation?_eq_none h rfl
    refine not_mem_of_exportViolation? haccepted ?_
    rw [declarationName?_eq (Option.mem_toList.1 hbefore)]
    exact List.mem_singleton_self _
  all_goals cases hbefore

end Pass

namespace Wrapping

/-- The pass of a binding puts an access to a parameter in the place of the name, since the slot of
the binding has been given out. -/
theorem Importing.injects_access {specifiers : List String} {statements : List Node}
    {state : Wrapping} (hstate : state.Importing specifiers statements) {binding : Binding}
    (hmem : binding ∈ state.dependencies.bindings) :
    state.dependencies.injects binding.pass.access.object = true := by
  rw [Binding.pass, binding.access_object]
  refine Dependencies.injects_dependencyParam ?_
  rw [hstate.specifiers_eq]
  exact hstate.slotted binding hmem

/-- So the passes of all imports are to parameters of the wrapper, which is what the lemmas on
given-up names ask for. -/
theorem Importing.injects_object {specifiers : List String} {statements : List Node}
    {state : Wrapping} (hstate : state.Importing specifiers statements) :
    ∀ pass ∈ state.importPasses, state.dependencies.injects pass.access.object = true :=
  List.forall_mem_map.2 fun _ hmem => hstate.injects_access hmem

/-- A pending statement, through the passes before and after the one for a name. The pass for the
name has accepted what the passes before it have made of the original. -/
theorem Importing.exists_original {specifiers : List String} {statements : List Node}
    {state : Wrapping} (hstate : state.Importing specifiers statements)
    {before after : List Binding} {binding : Binding}
    (hsplit : state.dependencies.bindings = before ++ binding :: after) {statement : Node}
    (hmem : statement ∈ state.pending) :
    ∃ original ∈ statements,
      statement = Pass.replaceAll (after.map Binding.pass) (binding.pass.replace
        (Pass.replaceAll (before.map Binding.pass) original)) ∧
      binding.pass.firstViolation?
        (Pass.replaceAll (before.map Binding.pass) original) = none := by
  rw [hstate.pending_eq] at hmem
  obtain ⟨original, horiginal, rfl⟩ := List.mem_map.1 hmem
  refine ⟨original, horiginal, ?_, hstate.accepted before binding after hsplit original horiginal⟩
  rw [importPasses, hsplit, List.map_append, Pass.replaceAll_append]
  rfl

/-- **No statement gives up a name that an import has bound.** The pass for the name sees to it when
it accepts the statement, and the passes after it bring the name back nowhere. -/
theorem Importing.not_given_up {specifiers : List String} {statements : List Node}
    {state : Wrapping} (hstate : state.Importing specifiers statements) {name : String}
    (hname : name ∈ state.dependencies.bindings.map (·.localName))
    (hparam : state.dependencies.injects name = false) {statement : Node}
    (hmem : statement ∈ state.pending) :
    name ∉ exportedLocals state.dependencies statement ∧ name ∉ defaultLocals statement := by
  obtain ⟨before, binding, after, hsplit, rfl, -⟩ := hstate.exists_split hname
  obtain ⟨original, -, rfl, haccepted⟩ := hstate.exists_original hsplit hmem
  have hinjects : ∀ other ∈ state.dependencies.bindings,
      state.dependencies.injects other.pass.access.object = true :=
    fun other hother => hstate.injects_access hother
  have hbinding : binding ∈ state.dependencies.bindings := by
    rw [hsplit]
    exact List.mem_append_right _ List.mem_cons_self
  have hobject : binding.pass.access.object ≠ binding.pass.name := by
    intro heq
    have hinjected := hinjects binding hbinding
    rw [heq] at hinjected
    exact Bool.false_ne_true (hparam ▸ hinjected)
  have hafter : ∀ pass ∈ after.map Binding.pass,
      state.dependencies.injects pass.access.object = true := by
    intro pass hpass
    obtain ⟨other, hother, rfl⟩ := List.mem_map.1 hpass
    refine hinjects other ?_
    rw [hsplit]
    exact List.mem_append_right _ (List.mem_cons_of_mem _ hother)
  -- The pass for the name has accepted the statement, and the passes after it bring in no names but
  -- those of parameters.
  refine ⟨fun hgiven => ?_, fun hgiven => ?_⟩
  · exact Pass.not_mem_exportedLocals haccepted hobject
      (exportedLocals_replaceAll_subset hafter _ hgiven)
  · exact Pass.not_mem_defaultLocals haccepted (defaultLocals_replaceAll_subset _ _ hgiven)

/-- Of the passes that bind imports one is for the name, and the others do not touch it: they are
for other names and to parameters. -/
theorem Importing.exists_pass {specifiers : List String} {statements : List Node}
    {state : Wrapping} (hstate : state.Importing specifiers statements) {name : String}
    (hname : name ∈ state.dependencies.bindings.map (·.localName))
    (hparam : state.dependencies.injects name = false) :
    ∃ before pass after, state.importPasses = before ++ pass :: after ∧ pass.name = name ∧
      pass.access.object ≠ name ∧
      ∀ other ∈ before ++ after, name ≠ other.name ∧ name ≠ other.access.object := by
  obtain ⟨before, binding, after, hsplit, rfl, hothers⟩ := hstate.exists_split hname
  have hobject : ∀ other ∈ state.dependencies.bindings,
      binding.localName ≠ other.pass.access.object := by
    intro other hother heq
    have hinjected := hstate.injects_access hother
    rw [← heq, hparam] at hinjected
    cases hinjected
  have hsubset : ∀ other ∈ before ++ binding :: after, other ∈ state.dependencies.bindings :=
    fun other hmem => hsplit ▸ hmem
  refine ⟨before.map Binding.pass, binding.pass, after.map Binding.pass, ?_, rfl, ?_, ?_⟩
  · rw [importPasses, hsplit, List.map_append, List.map_cons]
  · exact (hobject binding (hsubset binding (by simp))).symm
  · intro other hother
    rw [← List.map_append] at hother
    obtain ⟨other, hmem, rfl⟩ := List.mem_map.1 hother
    refine ⟨(hothers other hmem).symm, hobject other (hsubset other ?_)⟩
    rcases List.mem_append.1 hmem with hmem | hmem <;> simp [hmem]

end Wrapping

/-! ## The wrapped module -/

/-- A name that is neither the parameter of the exports nor that of a slot is none of the wrapper.
Statements about whole modules give the condition in this form. -/
theorem injects_eq_false {table : Dependencies} {name : String} (hexports : name ≠ exportsParam)
    (hslots : ∀ slot < table.specifiers.length, name ≠ dependencyParam slot) :
    table.injects name = false := by
  rw [Dependencies.injects, decide_eq_false hexports, Bool.false_or, Bool.eq_false_iff]
  intro hparam
  obtain ⟨slot, hslot, heq⟩ := (table.isParam_iff name).1 hparam
  exact hslots slot hslot heq

/-- **A survey about an imported name.** If no other name matters to it, it finds in the
wrapped module what it finds in the statements of the source after the pass for the name,
and the passes before that one do not matter to it. -/
theorem Program.wrap_gather {program : Program} {options : WrapOptions} {wrapped : Wrapped}
    {name : String} (h : program.wrap options = .ok wrapped)
    (hname : name ∈ Wrapping.importedLocals program.body) (hexports : name ≠ exportsParam)
    (hslots : ∀ slot < wrapped.dependencies.length, name ≠ dependencyParam slot)
    {σ α : Type} {survey : Survey σ α} {state : σ}
    (hcarries : ∀ table : Dependencies, table.injects name = false →
      survey.Carries state table (· ≠ name) fun _ => True)
    (hstable : ∀ pass : Pass, name ≠ pass.name → name ≠ pass.access.object → survey.Stable pass) :
    ∃ (body : List Node) (before : List Pass) (pass : Pass),
      wrapped.program.body = [wrapper wrapped.dependencies body options] ∧
      pass.name = name ∧ pass.access.object ≠ name ∧
      (∀ other ∈ before, name ≠ other.name ∧ name ≠ other.access.object) ∧
      body.flatMap (survey.gather state) =
        (Wrapping.statements program.body).flatMap fun statement =>
          survey.gather state (pass.replace (Pass.replaceAll before statement.content)) := by
  obtain ⟨final, hrun, hwrapped⟩ := Except.bind_ok h
  cases hwrapped
  obtain ⟨imported, names, effects, himporting, hsame, hbindings, htakes, hdone, -⟩ :=
    Wrapping.run_effects hrun
  have hinjects : final.dependencies.injects name = false := injects_eq_false hexports hslots
  rw [← hsame] at hinjects htakes
  rw [← hbindings] at hname
  have hsettled : ∀ statement ∈ imported.pending,
      Survey.Carries.Settled survey state (· ≠ name) imported.dependencies statement := by
    intro statement hmem
    have hnot := himporting.not_given_up hname hinjects hmem
    exact ⟨fun other hother heq => hnot.1 (heq ▸ hother),
      fun other hother => (hcarries _ hinjects).name_eq other fun heq => hnot.2 (heq ▸ hother)⟩
  -- Taking the statements does not matter to the survey, so only the passes of the imports are
  -- left, and among these the one for the name.
  obtain ⟨before, pass, after, hpasses, hself, hobject, hothers⟩ :=
    himporting.exists_pass hname hinjects
  refine ⟨final.done, before, pass, rfl, hself, hobject,
    fun other hmem => hothers other (List.mem_append_left _ hmem), ?_⟩
  rw [hdone, (hcarries _ hinjects).gather_applyAll htakes hsettled fun _ _ => trivial,
    himporting.pending_eq, List.flatMap_map]
  refine List.flatMap_congr fun statement _ => ?_
  have hafter : ∀ other ∈ after, survey.Stable other := fun other hmem =>
    have hother := hothers other (List.mem_append_right _ hmem)
    hstable other hother.1 hother.2
  rw [hpasses, Pass.content_replaceAll, Pass.replaceAll_append, Pass.replaceAll_cons,
    Survey.gather_replaceAll hafter]

end DefineWrap
