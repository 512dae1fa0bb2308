/-
The slots of the dependencies, from the first scan to the wrapper.

The slots are given out once, and from then on every step finds its modules in the table
and leaves the table of modules as it is. The wrapper reads the same table. So the slot
of a module is its place among the distinct modules of the text, at every point of a run
and in the result: a step that binds an import, or takes a re-export, generates accesses
to the parameter with the number of that place (`Wrapping.Action.OnSlots`).
-/
import DefineWrap.Proofs.Wrap.Effects

set_option autoImplicit false

namespace DefineWrap

namespace Wrapping

/-! ## The statements that are still to be taken -/

/-- The module has the given slots, and what is still to be taken are the given statements after
some passes. Which passes these are does not matter for the slots, and so they are left open. -/
def Awaits (slots : List String) (remaining : List Node) (state : Wrapping) : Prop :=
  state.dependencies.specifiers = slots ∧
    ∃ passes, state.pending = remaining.map (Pass.replaceAll passes)

/-- Taking a statement leaves the others to be taken, and the slots as they are. What is taken are
the effects of the statement after some passes, which `Takes` describes. -/
theorem Awaits.take {slots : List String} {statement : Node} {rest : List Node}
    {state next : Wrapping} (hstate : state.Awaits slots (statement :: rest))
    (hknown : ∀ specifier, namedSource? statement = some specifier → specifier ∈ slots)
    (h : state.takeNext = .ok next) :
    next.Awaits slots rest ∧ next.dependencies = state.dependencies ∧
      ∃ passes names effects,
        Takes state.dependencies (Pass.replaceAll passes statement) names effects ∧
        next.done = Effect.applyAll state.done effects := by
  obtain ⟨hslots, passes, hpending⟩ := hstate
  obtain ⟨names, effects, htakes, hnext, -⟩ :=
    takeNext_replaceAll_ok hpending (by rwa [hslots]) h
  subst hnext
  refine ⟨⟨hslots, passes ++ Effect.passes effects, ?_⟩, rfl, passes, names, effects, htakes, rfl⟩
  rw [after, List.map_map]
  exact List.map_congr_left fun node _ => (Pass.replaceAll_append _ _ node).symm

/-- Every module that is named at the top level has a slot, so that no step has to give out a new
one. -/
def AllNamed (slots : List String) (statements : List Node) : Prop :=
  ∀ statement ∈ statements, ∀ specifier, namedSource? statement = some specifier →
    specifier ∈ slots

/-- The same holds of any of the statements, in particular of those that are still to be taken. -/
theorem AllNamed.mono {slots : List String} {statements others : List Node}
    (h : AllNamed slots statements) (hsubset : others ⊆ statements) : AllNamed slots others :=
  fun statement hmem => h statement (hsubset hmem)

/-- The scan gives a slot to every module that is named, as it goes over all statements before the
first step. -/
theorem allNamed_of_registered {body : List Node} {dependencies : Dependencies}
    (h : body.foldlM registerSource .empty = .ok dependencies) :
    AllNamed dependencies.specifiers body :=
  fun _ hmem _ hnamed => mem_specifiers_of_named h hmem hnamed

/-- After some of the statements have been taken the rest of them is awaited. By induction on the
statements, each of which only adds passes. -/
theorem awaits_of_performed {slots : List String} {taken rest : List Node}
    {state next : Wrapping} (hknown : AllNamed slots taken)
    (hstate : state.Awaits slots (taken ++ rest))
    (h : (taken.map .take).foldlM perform state = .ok next) : next.Awaits slots rest := by
  induction taken generalizing state with
  | nil =>
    cases h
    exact hstate
  | cons statement taken ih =>
    obtain ⟨middle, hmiddle, hrest⟩ := Except.foldlM_cons_ok h
    have htake := hstate.take (hknown statement List.mem_cons_self) hmiddle
    exact ih (hknown.mono (List.subset_cons_self _ _)) htake.1 hrest

/-! ## What a step generates -/

/-- The access to something of the module of a slot: a member of the parameter, or the parameter
itself for the whole module. -/
def slotAccess (slot : Nat) : Imported → Access
  | .named member => .member (dependencyParam slot) member
  | .everything => .whole (dependencyParam slot)

/-- What a step generates for a module is on the parameter of its slot: the access of a
binding, and the accesses that are assigned for a re-export. -/
def Action.OnSlots (slots : List String) (state next : Wrapping) : Action → Prop
  | .bind specifier node =>
    ∃ localName imported pass, importBinding node = .ok (localName, imported) ∧
      specifier ∈ slots ∧
      pass = Pass.mk localName (slotAccess (slots.idxOf specifier) imported) true ∧
      next.done = state.done.map pass.replace ∧ next.pending = state.pending.map pass.replace
  | .take (.exportNamedDeclaration none specifiers (some source)) =>
    ∃ specifier names, source.stringValue? = some specifier ∧ specifier ∈ slots ∧
      specifiers.mapM reexportNames = .ok names ∧
      next.done = state.done ++ names.map fun name =>
        .assignmentStatement (.access exportsParam name.2)
          (.access (dependencyParam (slots.idxOf specifier)) name.1)
  | .take _ => True

/-- Binding an import generates an access to the parameter of its module, puts it in the place of
the local name everywhere, and leaves the slots. -/
theorem onSlots_bind {slots : List String} {specifier : String} {node : Node}
    {state next : Wrapping} (hslots : state.dependencies.specifiers = slots)
    (hknown : specifier ∈ slots) (h : bindImport specifier state node = .ok next) :
    next.dependencies.specifiers = slots ∧
      (Action.bind specifier node).OnSlots slots state next := by
  obtain ⟨localName, imported, hread, -, binding, hbinding, rfl, -⟩ :=
    bindImport_ok (by rwa [hslots]) h
  refine ⟨hslots, localName, imported, binding.pass, hread, hknown, ?_, rfl, rfl⟩
  rw [hbinding, hslots, Binding.pass, Binding.access]
  cases imported <;> rfl

/-- The assignments of a re-export, put after what is done. There is no pass among them, so what is
done before stays untouched. -/
theorem applyAll_reexportEffects (done : List Node) (param : String)
    (names : List (String × String)) :
    Effect.applyAll done (names.map (reexportEffect param)) =
      done ++ names.map fun name =>
        .assignmentStatement (.access exportsParam name.2) (.access param name.1) := by
  induction names generalizing done with
  | nil => exact (List.append_nil done).symm
  | cons name rest ih =>
    have hstep := ih (done ++ [.assignmentStatement (.access exportsParam name.2)
      (.access param name.1)])
    rw [List.append_assoc] at hstep
    exact hstep

/-- Taking a statement leaves the slots. If it is a re-export in the text it is one when it is
taken, with the same names and the same module, and so its accesses are to the slot of that
module. -/
theorem onSlots_take {slots : List String} {statement : Node} {rest : List Node}
    {state next : Wrapping} (hstate : state.Awaits slots (statement :: rest))
    (hknown : ∀ specifier, namedSource? statement = some specifier → specifier ∈ slots)
    (h : state.takeNext = .ok next) :
    next.dependencies.specifiers = slots ∧ (Action.take statement).OnSlots slots state next := by
  obtain ⟨hnext, -, passes, names, effects, htakes, hdone⟩ := hstate.take hknown h
  refine ⟨hnext.1, ?_⟩
  unfold Action.OnSlots
  split
  next heq => cases heq
  next specifiers source heq =>
    cases heq
    rw [Pass.replaceAll_exportNamedDeclaration] at htakes
    -- Only a re-export generates accesses to a dependency when it is taken.
    cases htakes with
    | reexport hsource _ hnames =>
      refine ⟨_, _, hsource, hknown _ hsource, hnames, ?_⟩
      rw [hdone, applyAll_reexportEffects, hstate.1]
    | other hother => cases hother
  · trivial

/-! ## Every point of a run -/

/-- **Every step keeps the slots.** At whatever point a run is cut, the modules in the
table are the distinct modules of the text before the step and after it, and what the
step generates is on the parameters of their slots. -/
theorem slots_of_run {body : List Node} {final : Wrapping} (h : run body = .ok final)
    {before after : List Action} {action : Action}
    (hsplit : actions body = before ++ action :: after) :
    ∃ dependencies state next,
      body.foldlM registerSource .empty = .ok dependencies ∧
      before.foldlM perform (start dependencies body) = .ok state ∧
      state.perform action = .ok next ∧ after.foldlM perform next = .ok final ∧
      state.dependencies.specifiers = (sources body).eraseDups ∧
      next.dependencies.specifiers = (sources body).eraseDups ∧
      action.OnSlots (sources body).eraseDups state next := by
  obtain ⟨dependencies, hregistered, hfold⟩ := run_ok h
  rw [hsplit] at hfold
  obtain ⟨state, hbefore, hrest⟩ := Except.foldlM_append_ok hfold
  obtain ⟨next, hnext, hafter⟩ := Except.foldlM_cons_ok hrest
  have hslots := (specifiers_of_registered hregistered).1
  refine ⟨dependencies, state, next, hregistered, hbefore, hnext, hafter, ?_⟩
  have hknown : AllNamed (sources body).eraseDups body :=
    hslots ▸ allNamed_of_registered hregistered
  -- The step is either one of the bindings or takes one of the other statements.
  rcases List.append_eq_append_iff.1 hsplit.symm with ⟨binds, himports, htaken⟩ |
      ⟨taken, rfl, htaken⟩
  · cases binds with
    | nil =>
      rw [List.append_nil] at himports
      cases hstatements : statements body with
      | nil =>
        rw [hstatements] at htaken
        cases htaken
      | cons statement rest =>
        rw [hstatements] at htaken
        cases htaken
        have himporting := importing_of_performed hregistered
          (fun _ hmem => by rwa [himports]) hbefore
        have hawaits : state.Awaits (sources body).eraseDups (statement :: rest) :=
          ⟨by rw [himporting.specifiers_eq, hslots], _, by rw [himporting.pending_eq, hstatements]⟩
        have hmem : statement ∈ body :=
          (List.mem_filter.1 (hstatements ▸ List.mem_cons_self : statement ∈ statements body)).1
        exact ⟨hawaits.1, onSlots_take hawaits (hknown statement hmem) hnext⟩
    | cons bind binds =>
      obtain ⟨rfl, -⟩ := List.cons.inj htaken
      have haction : action ∈ body.flatMap importActions := by
        rw [himports]
        exact List.mem_append_right _ List.mem_cons_self
      have himporting := importing_of_performed hregistered
        (fun _ hmem => by rw [himports]; exact List.mem_append_left _ hmem) hbefore
      obtain ⟨statement, hstatement, hmem⟩ := List.mem_flatMap.1 haction
      obtain ⟨_, source, specifier, node, rfl, hspecifier, -, rfl⟩ := mem_importActions hmem
      have hstate : state.dependencies.specifiers = (sources body).eraseDups := by
        rw [himporting.specifiers_eq, hslots]
      exact ⟨hstate, onSlots_bind hstate (hknown _ hstatement _ hspecifier) hnext⟩
  · obtain ⟨imported, himported, hbefore⟩ := Except.foldlM_append_ok hbefore
    have himporting := importing_of_performed hregistered (fun _ hmem => hmem) himported
    obtain ⟨before, rest, hstatements, rfl, hrest⟩ := List.map_eq_append_iff.1 htaken
    obtain ⟨statement, rest, rfl, rfl, rfl⟩ := List.map_eq_cons_iff.1 hrest
    have hstart : imported.Awaits (sources body).eraseDups (before ++ statement :: rest) :=
      ⟨by rw [himporting.specifiers_eq, hslots], _, by rw [himporting.pending_eq, hstatements]⟩
    have hmem : ∀ other ∈ before ++ statement :: rest, other ∈ body := fun other hother =>
      (List.mem_filter.1 (hstatements ▸ hother : other ∈ statements body)).1
    have hawaits := awaits_of_performed
      (fun other hother => hknown other (hmem other (List.mem_append_left _ hother))) hstart hbefore
    refine ⟨hawaits.1, onSlots_take hawaits (hknown statement (hmem statement ?_)) hnext⟩
    exact List.mem_append_right _ List.mem_cons_self

end Wrapping

/-! ## The wrapped module -/

/-- If all modules have got a slot, none of their names is passed over: each source is a string, and
`sources` has them all. -/
theorem Wrapping.map_sourceNode? {body : List Node} {table dependencies : Dependencies}
    (h : body.foldlM registerSource table = .ok dependencies) :
    (body.filterMap sourceNode?).map Node.stringValue? = (sources body).map some := by
  have hnamed : ∀ statement ∈ body, ∀ source, sourceNode? statement = some source →
      ∃ specifier, source.stringValue? = some specifier :=
    fun statement hmem source hsource => stringValue?_of_registered h hmem hsource
  clear h
  induction body with
  | nil => rfl
  | cons statement rest ih =>
    have hrest := ih fun other hmem => hnamed other (List.mem_cons_of_mem _ hmem)
    rw [sources] at hrest ⊢
    cases hsource : sourceNode? statement with
    | none =>
      have hnone : namedSource? statement = none := by rw [namedSource?, hsource]; rfl
      rw [List.filterMap_cons_none hsource, List.filterMap_cons_none hnone, hrest]
    | some source =>
      obtain ⟨specifier, hspecifier⟩ := hnamed statement List.mem_cons_self source hsource
      have hsome : namedSource? statement = some specifier := by
        rw [namedSource?, hsource]
        exact hspecifier
      rw [List.filterMap_cons_some hsource, List.filterMap_cons_some hsome, List.map_cons,
        List.map_cons, hspecifier, hrest]

/-- What the wrapper asks for, and the parameters that receive it: one more than the dependencies on
both sides, at each slot the module and its parameter, and the exports last. -/
theorem wrapper_slots (dependencies : List String) (body : List Node) (options : WrapOptions) :
    ∃ elements params,
      wrapper dependencies body options =
        .expressionStatement (.callExpression (.identifier options.callee)
          (options.moduleId.toList.map Node.stringLiteral ++
            [.arrayExpression elements,
              .functionExpression none params (.blockStatement body) false false]) false) none ∧
      elements.length = dependencies.length + 1 ∧ params.length = dependencies.length + 1 ∧
      (∀ slot (hslot : slot < dependencies.length),
        elements[slot]? = some (some (.stringLiteral dependencies[slot])) ∧
        params[slot]? = some (.identifier ("__uDep" ++ toString slot ++ "__"))) ∧
      elements.getLast? = some (some (.stringLiteral "exports")) ∧
      params.getLast? = some (.identifier "__exports__") := by
  refine ⟨(wrapperSpecifiers dependencies).map some, wrapperParams dependencies, rfl, ?_, ?_, ?_,
    ?_, ?_⟩
  · simp [wrapperSpecifiers]
  · simp [wrapperParams]
  · intro slot hslot
    simp [wrapperSpecifiers, wrapperParams, dependencyParam, List.getElem?_append_left, hslot]
  · simp [wrapperSpecifiers, exportsSpecifier]
  · simp [wrapperParams, exportsParam]

/-- **The slots of a wrapped module.** Its dependencies are the distinct modules that are
named at the top level, in the order of first mention. Its only statement is the call of
the wrapper, which asks for the dependency of each slot in its place and for the exports
after them, and receives each in the parameter with the number of the slot. At every point
of the run the table holds exactly these modules, and what is generated for a module is on
the parameter of its slot. -/
theorem Program.wrap_slots {program : Program} {options : WrapOptions} {wrapped : Wrapped}
    (h : program.wrap options = .ok wrapped) :
    (∃ names : List String,
      (program.body.filterMap sourceNode?).map Node.stringValue? = names.map some ∧
      wrapped.dependencies = names.eraseDups ∧ wrapped.dependencies.Nodup) ∧
    (∃ elements params body,
      wrapped.program.body = [.expressionStatement (.callExpression (.identifier options.callee)
        (options.moduleId.toList.map Node.stringLiteral ++
          [.arrayExpression elements,
            .functionExpression none params (.blockStatement body) false false]) false) none] ∧
      elements.length = wrapped.dependencies.length + 1 ∧
      params.length = wrapped.dependencies.length + 1 ∧
      (∀ slot (hslot : slot < wrapped.dependencies.length),
        elements[slot]? = some (some (.stringLiteral wrapped.dependencies[slot])) ∧
        params[slot]? = some (.identifier ("__uDep" ++ toString slot ++ "__"))) ∧
      elements.getLast? = some (some (.stringLiteral "exports")) ∧
      params.getLast? = some (.identifier "__exports__")) ∧
    ∀ before action after, Wrapping.actions program.body = before ++ action :: after →
      ∃ dependencies state next final,
        program.body.foldlM Wrapping.registerSource .empty = .ok dependencies ∧
        before.foldlM Wrapping.perform (Wrapping.start dependencies program.body) = .ok state ∧
        state.perform action = .ok next ∧
        after.foldlM Wrapping.perform next = .ok final ∧
        wrapped.program.body = [wrapper wrapped.dependencies final.done options] ∧
        state.dependencies.specifiers = wrapped.dependencies ∧
        next.dependencies.specifiers = wrapped.dependencies ∧
        action.OnSlots wrapped.dependencies state next := by
  obtain ⟨final, hrun, hwrapped⟩ := Except.bind_ok h
  obtain ⟨dependencies, hregistered, hfold⟩ := Wrapping.run_ok hrun
  have hdependencies : final.dependencies.specifiers =
      (Wrapping.sources program.body).eraseDups := by
    obtain ⟨imported, _, _, himporting, hsame, -⟩ := Wrapping.run_effects hrun
    rw [← hsame]
    exact himporting.specifiers_eq
  cases hwrapped
  refine ⟨⟨Wrapping.sources program.body, ?_, hdependencies, ?_⟩, ?_, ?_⟩
  · exact Wrapping.map_sourceNode? hregistered
  · exact hdependencies ▸ Wrapping.nodup_eraseDups _
  · obtain ⟨elements, params, hwrapper, hrest⟩ :=
      wrapper_slots final.dependencies.specifiers final.done options
    exact ⟨elements, params, final.done, by rw [hwrapper], hrest⟩
  · intro before action after hsplit
    obtain ⟨dependencies, state, next, hregistered, hbefore, hnext, hafter, hstate, hspecifiers,
      honSlots⟩ := Wrapping.slots_of_run hrun hsplit
    rw [← hdependencies] at hstate hspecifiers honSlots
    exact ⟨dependencies, state, next, final, hregistered, hbefore, hnext, hafter, rfl, hstate,
      hspecifiers, honSlots⟩

/-- The module `import { a } from "m"; export { b } from "n"; export { c } from "m"; a();`, with two
modules in three statements. -/
def threeMentions : Program :=
  ⟨[.importDeclaration [.importSpecifier (.identifier "a") (.identifier "a")] (.stringLiteral "m"),
    .exportNamedDeclaration none [.exportSpecifier (.identifier "b") (.identifier "b")]
      (some (.stringLiteral "n")),
    .exportNamedDeclaration none [.exportSpecifier (.identifier "c") (.identifier "c")]
      (some (.stringLiteral "m")),
    .statement (.call (.identifier "a") [])], none⟩

/-- The third mention is of the first module, so there are two slots and three parameters. -/
theorem Program.wrap_slots_threeMentions :
    ∃ wrapped, threeMentions.wrap .default = .ok wrapped ∧ wrapped.dependencies = ["m", "n"] ∧
      wrapped.dependencies.Nodup ∧ ∃ elements params body,
        wrapped.program.body = [.expressionStatement (.callExpression (.identifier "define")
          [.arrayExpression elements,
            .functionExpression none params (.blockStatement body) false false] false) none] ∧
        elements.length = 3 ∧ params.length = 3 := by
  have h : threeMentions.wrap .default = .ok ⟨⟨[wrapper ["m", "n"]
      [.assignmentStatement (.access "__exports__" "b") (.access "__uDep1__" "b"),
        .assignmentStatement (.access "__exports__" "c") (.access "__uDep0__" "c"),
        .statement (.call (.access "__uDep0__" "a") [])] .default], some "script"⟩,
      ["m", "n"]⟩ := by with_unfolding_all rfl
  obtain ⟨⟨names, -, -, hnodup⟩, ⟨elements, params, body, hbody, helements, hparams, -⟩, -⟩ :=
    Program.wrap_slots h
  exact ⟨_, h, rfl, hnodup, elements, params, body, hbody, helements, hparams⟩

end DefineWrap
